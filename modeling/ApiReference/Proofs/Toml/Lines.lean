import ApiReference.Proofs.Toml.Values

/-!
# Lines of TOML read back

Keys, pairs and headers as they are written are read as what they say, line after line.
Main statement: `reads_write`.
-/

namespace ApiReference.Toml

theorem ne_of_isKeyChar {c d : Char} (key : isKeyChar c = true) (other : isKeyChar d = false) :
    c ≠ d := by
  rintro rfl
  rw [key] at other
  exact Bool.noConfusion other

/-- The first character of what is written for a key. -/
def StartsKey (c : Char) : Prop := isKeyChar c = true ∨ c = '"'

theorem StartsKey.ne {c d : Char} (h : StartsKey c) (other : isKeyChar d = false ∧ '"' ≠ d) :
    c ≠ d := by
  obtain key | rfl := h
  · exact ne_of_isKeyChar key other.1
  · exact other.2

theorem exists_writeKey_eq (key : Text) : ∃ c w, writeKey key = c :: w ∧ StartsKey c := by
  rw [writeKey]
  split
  · next bare =>
      rw [Bool.and_eq_true, List.all_eq_true, Bool.not_eq_true', List.isEmpty_eq_false_iff] at bare
      obtain ⟨c, w, rfl⟩ := List.exists_cons_of_ne_nil bare.1
      exact ⟨c, w, rfl, .inl (bare.2 c List.mem_cons_self)⟩
  · exact ⟨'"', _, rfl, .inr rfl⟩

theorem StartsKey.isSolid {c : Char} (h : StartsKey c) (w : Text) : IsSolid (c :: w) := by
  have blank : isBlank c = false := by
    rw [isBlank, beq_false_of_ne (h.ne (by decide)), beq_false_of_ne (h.ne (by decide)),
      Bool.or_self]
  exact ⟨c, w, rfl, blank, h.ne (by decide), h.ne (by decide), h.ne (by decide)⟩

theorem isSolid_writeKey (key : Text) : IsSolid (writeKey key) := by
  obtain ⟨c, w, start, key⟩ := exists_writeKey_eq key
  rw [start]
  exact key.isSolid w

theorem readKey_writeKey (key : Text) {rest : Text} (ends : ∀ c ∈ rest.head?, isKeyChar c = false) :
    readKey (writeKey key ++ rest) = some (key, rest) := by
  rw [writeKey]
  split
  · next bare =>
      rw [Bool.and_eq_true, List.all_eq_true, Bool.not_eq_true'] at bare
      obtain ⟨c, w, start⟩ := List.exists_cons_of_ne_nil (List.isEmpty_eq_false_iff.1 bare.1)
      have first := bare.2 c (start ▸ List.mem_cons_self)
      have quote : c ≠ '"' := ne_of_isKeyChar first (by decide)
      have other : c ≠ apostrophe := ne_of_isKeyChar first (by decide)
      have taken := Text.takeWhile_run bare.2 ends
      have left := Text.dropWhile_run bare.2 ends
      have filled := bare.1
      rw [start, List.cons_append] at taken left ⊢
      rw [start] at filled
      rw [readKey, beq_false_of_ne quote, beq_false_of_ne other]
      simp only [taken, left, filled, Bool.false_eq_true, if_false]
  · have read : readBasic ((escapes false 0 0 key ++ '"' :: rest).length + 1)
        (escapes false 0 0 key ++ '"' :: rest) = some (key, rest) :=
      readBasic_escapes 0 (by rw [List.length_append]; omega) rest
    have body : '"' :: escapes false 0 0 key ++ ['"'] ++ rest =
        '"' :: (escapes false 0 0 key ++ '"' :: rest) := by simp
    rw [body, readKey, if_pos (by decide), read]

theorem skipBlanks_solid {w : Text} (solid : IsSolid w) (rest : Text) :
    skipBlanks (w ++ rest) = w ++ rest := by
  obtain ⟨c, t, rfl, blank, -⟩ := solid
  rw [List.cons_append, skipBlanks, List.dropWhile_cons_of_neg (by simp [blank])]

/-- A single key is read with the blanks after it. -/
theorem readPlace_writeKey (key : Text) {rest : Text} (ends : ∀ c ∈ rest.head?, isKeyChar c = false)
    (single : (skipBlanks rest).head? ≠ some '.') :
    readPlace (writeKey key ++ rest) = some (⟨[], key⟩, skipBlanks rest) := by
  have path : readPath ((writeKey key ++ rest).length + 1) (writeKey key ++ rest) =
      some ([key], skipBlanks rest) := by
    rw [readPath, skipBlanks_solid (isSolid_writeKey key), readKey_writeKey key ends]
    simp only [Option.bind_eq_bind, Option.bind_some]
    split
    · next start => exact absurd (by rw [start]; rfl) single
    · rfl
  rw [readPlace, path]
  rfl

def Statement.ofPair (pair : Text × Value) : Statement := .pair ⟨[], pair.1⟩ pair.2

theorem readPair_writePair {item : Text → Option (Value × Text)} {pair : Text × Value}
    (solid : IsSolid pair.2.write)
    (reads : ∀ rest, Ends rest → item (pair.2.write ++ rest) = some (pair.2, rest)) (rest : Text) :
    readPair item (writePair pair ++ rest) = some ((⟨[], pair.1⟩, pair.2), '\n' :: rest) := by
  have split : writePair pair ++ rest =
      writeKey pair.1 ++ (' ' :: '=' :: ' ' :: (pair.2.write ++ '\n' :: rest)) := by
    simp [writePair]
  have place : readPlace (writePair pair ++ rest) =
      some (⟨[], pair.1⟩, '=' :: ' ' :: (pair.2.write ++ '\n' :: rest)) := by
    rw [split]
    exact readPlace_writeKey pair.1 (by rintro c ⟨⟩; decide)
      fun dot => absurd (Option.some.inj dot) (by decide)
  have blanks : skipBlanks (' ' :: (pair.2.write ++ '\n' :: rest)) =
      pair.2.write ++ '\n' :: rest := skipBlanks_solid solid ('\n' :: rest)
  rw [readPair, place]
  simp only [Option.bind_eq_bind, Option.bind_some, blanks]
  rw [reads ('\n' :: rest) (ends_cons (by decide))]
  rfl

theorem readStatement_pair {pair : Text × Value} (h : IsWritable depthLimit pair.2) (rest : Text) :
    readStatement (writePair pair ++ rest) = some (.ofPair pair, '\n' :: rest) := by
  have read := readPair_writePair h.isSolid (fun rest ends => readValue_write h ends) rest
  obtain ⟨c, w, start, key⟩ := exists_writeKey_eq pair.1
  have noHeader : c ≠ '[' := key.ne (by decide)
  rw [writePair, start] at read ⊢
  simp only [List.cons_append] at read ⊢
  rw [readStatement.eq_def]
  split
  · next same => exact absurd (List.cons.inj same).1 noHeader
  · next same => exact absurd (List.cons.inj same).1 noHeader
  · rw [read]
    rfl

theorem readPlace_header (key rest : Text) :
    readPlace (writeKey key ++ ']' :: rest) = some (⟨[], key⟩, ']' :: rest) :=
  readPlace_writeKey key (by rintro c ⟨⟩; decide) fun dot =>
    absurd (Option.some.inj dot) (by decide)

theorem readStatement_table (key rest : Text) :
    readStatement ('[' :: writeKey key ++ "]\n".toList ++ rest) =
      some (.table ⟨[], key⟩, '\n' :: rest) := by
  have split : '[' :: writeKey key ++ "]\n".toList ++ rest =
      '[' :: (writeKey key ++ ']' :: '\n' :: rest) := by simp
  have place := readPlace_header key ('\n' :: rest)
  obtain ⟨c, w, start, key⟩ := exists_writeKey_eq key
  have single : c ≠ '[' := key.ne (by decide)
  rw [split]
  rw [start, List.cons_append] at place ⊢
  rw [readStatement.eq_def]
  split
  · next same => exact absurd (List.cons.inj (List.cons.inj same).2).1 single
  · next same =>
      obtain rfl := (List.cons.inj same).2
      rw [place]
      rfl
  · next other => exact absurd rfl (other _)

theorem readStatement_item (key rest : Text) :
    readStatement ("[[".toList ++ writeKey key ++ "]]\n".toList ++ rest) =
      some (.item ⟨[], key⟩, '\n' :: rest) := by
  have split : "[[".toList ++ writeKey key ++ "]]\n".toList ++ rest =
      '[' :: '[' :: (writeKey key ++ ']' :: ']' :: '\n' :: rest) := by simp
  rw [split, readStatement, readPlace_header key (']' :: '\n' :: rest)]
  rfl

theorem isSolid_writePair (pair : Text × Value) : IsSolid (writePair pair) := by
  obtain ⟨c, w, start, key⟩ := exists_writeKey_eq pair.1
  rw [writePair, start]
  exact key.isSolid _

theorem isSolid_bracket (t : Text) : IsSolid ('[' :: t) := ⟨'[', t, rfl, by decide⟩

/-- Whether a text is read as statements, whatever fuel beyond its length there is. -/
def Reads (statements : List Statement) (t : Text) : Prop :=
  ∀ n, t.length < n → readStatements n t = some statements

namespace Reads
variable {statements : List Statement} {t : Text}

theorem nil : Reads [] [] := by
  rintro (_ | n) fuel
  · exact absurd fuel (Nat.not_lt_zero _)
  · rfl

theorem gap (h : Reads statements t) : Reads statements ('\n' :: t) := by
  rintro (_ | n) fuel
  · exact absurd fuel (Nat.not_lt_zero _)
  · have read := h (n + 1) (by rw [List.length_cons] at fuel; omega)
    rw [readStatements.eq_def] at read ⊢
    exact read

/-- One line more in front. -/
theorem line {w : Text} {statement : Statement} (solid : IsSolid w)
    (read : readStatement (w ++ t) = some (statement, '\n' :: t)) (h : Reads statements t) :
    Reads (statement :: statements) (w ++ t) := by
  rintro (_ | n) fuel
  · exact absurd fuel (Nat.not_lt_zero _)
  · have start := skipSpace_solid solid t
    have ended : endLine? ('\n' :: t) = some t := rfl
    obtain ⟨c, u, rfl, -⟩ := solid
    have rest : readStatements n t = some statements :=
      h n (by rw [List.length_append, List.length_cons] at fuel; omega)
    rw [readStatements.eq_def]
    simp only [start]
    rw [List.cons_append] at read ⊢
    simp only [read, Option.bind_eq_bind, Option.bind_some, ended, rest]
    rfl

theorem pairs {pairs : Table} (each : ∀ pair ∈ pairs, IsWritable depthLimit pair.2)
    (h : Reads statements t) :
    Reads (pairs.map .ofPair ++ statements) (pairs.flatMap writePair ++ t) := by
  induction pairs with
  | nil => exact h
  | cons pair pairs ih =>
      obtain ⟨first, rest⟩ := List.forall_mem_cons.1 each
      rw [List.flatMap_cons, List.append_assoc]
      exact line (isSolid_writePair pair) (readStatement_pair first _) (ih rest)

end Reads

def Part.pairs : Part → Table
  | .top pairs | .table _ pairs | .item _ pairs => pairs

/-- What the lines of a part say. -/
def Part.statements : Part → List Statement
  | .top pairs => pairs.map .ofPair
  | .table key pairs => .table ⟨[], key⟩ :: pairs.map .ofPair
  | .item key pairs => .item ⟨[], key⟩ :: pairs.map .ofPair

theorem Reads.part {statements : List Statement} {t : Text} {p : Part}
    (each : ∀ pair ∈ p.pairs, IsWritable depthLimit pair.2) (h : Reads statements t) :
    Reads (p.statements ++ statements) (p.write ++ t) := by
  cases p with
  | top pairs => exact h.pairs each
  | table key pairs =>
      rw [Part.write, List.append_assoc]
      exact line (isSolid_bracket _) (readStatement_table key _) (h.pairs each)
  | item key pairs =>
      rw [Part.write, List.append_assoc]
      exact line (isSolid_bracket _) (readStatement_item key _) (h.pairs each)

theorem reads_write {parts : List Part}
    (each : ∀ p ∈ parts, ∀ pair ∈ p.pairs, IsWritable depthLimit pair.2) :
    Reads (parts.flatMap Part.statements) (write parts) := by
  induction parts with
  | nil => exact .nil
  | cons p parts ih =>
      obtain ⟨first, rest⟩ := List.forall_mem_cons.1 each
      cases parts with
      | nil => simpa [write, Text.join] using Reads.nil.part first
      | cons q parts =>
          have split : write (p :: q :: parts) = p.write ++ '\n' :: write (q :: parts) := by
            simp [write, Text.join]
          rw [split, List.flatMap_cons]
          exact (ih rest).gap.part first

theorem joinLineEnds_of_not_mem {t : Text} (noReturn : '\r' ∉ t) : joinLineEnds t = t := by
  induction t with
  | nil => rfl
  | cons c t ih =>
      obtain ⟨first, rest⟩ := List.ne_and_not_mem_of_not_mem_cons noReturn
      rw [joinLineEnds, ih rest]
      rintro u rfl
      exact fun _ => first rfl

theorem noReturn_writeKey (key : Text) : '\r' ∉ writeKey key := by
  rw [writeKey]
  split
  · next bare =>
      rw [Bool.and_eq_true, List.all_eq_true] at bare
      exact fun member => absurd (bare.2 _ member) (by decide)
  · simpa using noReturn_escapes false 0 0 key

theorem noReturn_part {p : Part} (each : ∀ pair ∈ p.pairs, IsWritable depthLimit pair.2) :
    '\r' ∉ p.write := by
  have pairs : '\r' ∉ p.pairs.flatMap writePair := by
    intro member
    obtain ⟨pair, inside, found⟩ := List.mem_flatMap.1 member
    simp [writePair, noReturn_writeKey, noReturn_write (each pair inside)] at found
  cases p with
  | top => exact pairs
  | table key =>
      rw [Part.pairs] at pairs
      simp [Part.write, noReturn_writeKey, pairs]
  | item key =>
      rw [Part.pairs] at pairs
      simp [Part.write, noReturn_writeKey, pairs]

def byteOrderMark : Char := Char.ofNat 0xFEFF

theorem unmarked_part (p : Part) : p.write.head? ≠ some byteOrderMark := by
  cases p with
  | top pairs =>
      cases pairs with
      | nil => exact nofun
      | cons pair pairs =>
          obtain ⟨c, w, start, key⟩ := exists_writeKey_eq pair.1
          rw [Part.write, List.flatMap_cons, writePair, start]
          exact fun same => key.ne (by decide) (Option.some.inj same)
  | table => exact fun same => absurd (Option.some.inj same) (by decide)
  | item => exact fun same => absurd (Option.some.inj same) (by decide)

theorem unmarked_write (parts : List Part) : (write parts).head? ≠ some byteOrderMark := by
  match parts with
  | [] => exact nofun
  | [p] => exact unmarked_part p
  | p :: q :: parts =>
      have split : write (p :: q :: parts) = p.write ++ '\n' :: write (q :: parts) := by
        simp [write, Text.join]
      have first := unmarked_part p
      rw [split]
      cases start : p.write with
      | nil => exact fun same => absurd (Option.some.inj same) (by decide)
      | cons c w =>
          rw [start] at first
          exact first

/-- The table of a written document is built from what its parts say. -/
theorem read?_write {parts : List Part}
    (each : ∀ p ∈ parts, ∀ pair ∈ p.pairs, IsWritable depthLimit pair.2) :
    read? (write parts) = ((parts.flatMap Part.statements).foldlM Progress.step ⟨[], []⟩).map
      fun p => tableOf p.root := by
  have noReturn : '\r' ∉ write parts := by
    have others : ∀ c ∈ write parts, c ≠ '\r' := by
      rw [write, Text.forall_mem_join (by decide)]
      refine List.forall_mem_map.2 fun p member c inside => ?_
      rintro rfl
      exact noReturn_part (each p member) inside
    exact fun member => others _ member rfl
  have unmarked : skipByteOrderMark (write parts) = write parts := by
    have other : ¬ [byteOrderMark] <+: write parts := by
      rintro ⟨t, split⟩
      exact unmarked_write parts (by rw [← split]; rfl)
    have := Text.stripStart_eq_none other
    rw [skipByteOrderMark, ← byteOrderMark, this, Option.getD_none]
  rw [read?, unmarked, joinLineEnds_of_not_mem noReturn]
  simp only [reads_write each _ (Nat.lt_succ_self _), Option.bind_eq_bind, Option.bind_some]
  cases (parts.flatMap Part.statements).foldlM Progress.step ⟨[], []⟩ <;> rfl

end ApiReference.Toml
