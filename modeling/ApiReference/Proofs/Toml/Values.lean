import ApiReference.Proofs.Number.Literal
import ApiReference.Proofs.Text.Words
import ApiReference.Proofs.Toml.Strings
import ApiReference.Toml.Reader

/-!
# Values of TOML read back

Integers of 64 bits, strings, and arrays of what can be read back. Main statement:
`readValue_write`.
-/

namespace ApiReference.Toml

/-- Whether an integer has 64 bits, one of them for the sign. -/
def Fits (n : Int) : Prop := -(Nat.pow 2 63 : Int) ≤ n ∧ n < Nat.pow 2 63

instance (n : Int) : Decidable (Fits n) := inferInstanceAs (Decidable (_ ∧ _))

theorem bounded?_of_fits {n : Int} (fits : Fits n) : Number.bounded? 64 n = some n := by
  rw [Number.bounded?, if_pos]
  simpa [Fits] using fits

theorem whole?_ofNat (n : Nat) : whole? (Text.ofNat n) = some (Text.ofNat n) := by
  have digits : ∀ c ∈ Text.ofNat n, Text.isAsciiDigit c = true :=
    fun c => Text.isAsciiDigit_of_mem_ofNat
  have joined : ∀ c ∈ Text.ofNat n, (c == '_') = false := by
    intro c member
    refine beq_false_of_ne ?_
    rintro rfl
    exact absurd (digits _ member) (by decide)
  have filled : (Text.ofNat n).isEmpty = false :=
    List.isEmpty_eq_false_iff.2 Nat.toDigits_ne_nil
  have group : digits? Text.isAsciiDigit (Text.ofNat n) = some (Text.ofNat n) := by
    rw [digits?, Text.splitOn_of_forall joined]
    simp [filled, List.all_eq_true.2 digits]
  have bare : ((Text.ofNat n).head? == some '0' && (Text.ofNat n).length != 1) = false := by
    obtain rfl | pos := Nat.eq_zero_or_pos n
    · rfl
    · rw [beq_false_of_ne (Text.head?_ofNat pos), Bool.false_and]
  rw [whole?, group, Option.bind_eq_bind, Option.bind_some, bare]
  rfl

theorem mem_writeInteger {n : Int} {c : Char} (member : c ∈ writeInteger n) :
    c = '-' ∨ Text.isAsciiDigit c = true := by
  rw [writeInteger] at member
  split at member
  · obtain rfl | digit := List.mem_cons.1 member
    · exact .inl rfl
    · exact .inr (Text.isAsciiDigit_of_mem_ofNat digit)
  · exact .inr (Text.isAsciiDigit_of_mem_ofNat member)

theorem exists_writeInteger_eq (n : Int) : ∃ c t, writeInteger n = c :: t := by
  apply List.exists_cons_of_ne_nil
  rw [writeInteger]
  split
  · exact List.cons_ne_nil _ _
  · exact Nat.toDigits_ne_nil

theorem splitSign_writeInteger (n : Int) :
    Number.splitSign (writeInteger n) = (decide (n < 0), Text.ofNat n.natAbs) := by
  rw [writeInteger]
  split
  · next negative => rw [decide_eq_true negative, Number.splitSign]
  · next natural =>
      rw [decide_eq_false natural, Number.splitSign.eq_def]
      have digit (c : Char) (t : Text) (start : Text.ofNat n.natAbs = c :: t) :
          Text.isAsciiDigit c = true :=
        Text.isAsciiDigit_of_mem_ofNat (start ▸ List.mem_cons_self)
      split
      · next start => exact absurd (digit _ _ start) (by decide)
      · next start => exact absurd (digit _ _ start) (by decide)
      · rfl

theorem integer?_writeInteger {n : Int} (fits : Fits n) : integer? (writeInteger n) = some n := by
  have second (c d : Char) (t : Text) (start : writeInteger n = c :: d :: t) :
      d = '-' ∨ Text.isAsciiDigit d = true :=
    mem_writeInteger (start ▸ List.mem_cons_of_mem _ List.mem_cons_self)
  rw [integer?.eq_def]
  split
  · next start => exact absurd (second _ _ _ start) (by decide)
  · next start => exact absurd (second _ _ _ start) (by decide)
  · next start => exact absurd (second _ _ _ start) (by decide)
  · rw [splitSign_writeInteger]
    have number : (if decide (n < 0) then -(n.natAbs : Int) else n.natAbs) = n := by
      cases negative : decide (n < 0) with
      | true =>
          have := of_decide_eq_true negative
          rw [if_pos rfl]
          omega
      | false =>
          have := of_decide_eq_false negative
          rw [if_neg Bool.false_ne_true]
          omega
    simp only [whole?_ofNat, Text.toNat_ofNat, Option.bind_eq_bind, Option.bind_some, number,
      bounded?_of_fits fits]

theorem word?_writeInteger {n : Int} (fits : Fits n) :
    word? (writeInteger n) = some (.integer n) := by
  have other {c : Char} (letter : ¬ (c = '-' ∨ Text.isAsciiDigit c = true)) (w : Text) :
      (writeInteger n == c :: w) = false := by
    refine beq_false_of_ne fun same => letter (mem_writeInteger (n := n) ?_)
    rw [same]
    exact List.mem_cons_self
  have noTrue : (writeInteger n == "true".toList) = false := other (by decide) "rue".toList
  have noFalse : (writeInteger n == "false".toList) = false := other (by decide) "alse".toList
  rw [word?, noTrue, noFalse, integer?_writeInteger fits]
  rfl

/-- What must not follow a value, lest it go on. -/
def Ends (rest : Text) : Prop :=
  ∀ c ∈ rest.head?, c ≠ '"' ∧ c ≠ apostrophe ∧ isWordChar c = false

theorem Ends.apart {rest : Text} (h : Ends rest) : Apart rest :=
  fun c first => ⟨(h c first).1, (h c first).2.1⟩

theorem isWordChar_of_mem {n : Int} {c : Char} (member : c ∈ writeInteger n) :
    isWordChar c = true := by
  obtain rfl | digit := mem_writeInteger member
  · rfl
  · have digit : c.isDigit = true := digit
    simp only [isWordChar, Char.isAlphanum, digit, Bool.or_true, Bool.true_or]

theorem ne_of_isWordChar {c d : Char} (word : isWordChar c = true) (other : isWordChar d = false) :
    c ≠ d := by
  rintro rfl
  rw [word] at other
  exact Bool.noConfusion other

theorem readWord_writeInteger {n : Int} (fits : Fits n) {rest : Text} (ends : Ends rest) :
    readWord (writeInteger n ++ rest) = some (.integer n, rest) := by
  have word : ∀ c ∈ writeInteger n, isWordChar c = true := fun c => isWordChar_of_mem
  have stops : ∀ c ∈ rest.head?, isWordChar c = false := fun c first => (ends c first).2.2
  rw [readWord, Text.takeWhile_run word stops, Text.dropWhile_run word stops,
    word?_writeInteger fits]

/-- Strings and integers, and arrays of them up to a depth. -/
inductive IsWritable : Nat → Value → Prop where
  | string {depth : Nat} (t : Text) : IsWritable depth (.string t)
  | integer {depth : Nat} (n : Int) (fits : Fits n) : IsWritable depth (.integer n)
  | array {depth : Nat} (items : List Value) (each : ∀ v ∈ items, IsWritable depth v) :
      IsWritable (depth + 1) (.array items)

/-- Whether a text starts with a character that no space is skipped for and no array ends with. -/
def IsSolid (w : Text) : Prop :=
  ∃ c t, w = c :: t ∧ isBlank c = false ∧ c ≠ '\n' ∧ c ≠ '#' ∧ c ≠ ']'

theorem exists_writeString_eq (t : Text) :
    ∃ c w, writeString t = c :: w ∧ (c = '"' ∨ c = apostrophe) := by
  rw [writeString]
  split
  · exact ⟨_, _, rfl, .inl rfl⟩
  · exact ⟨_, _, rfl, .inr rfl⟩
  · exact ⟨_, _, rfl, .inl rfl⟩
  · exact ⟨_, _, rfl, .inr rfl⟩

theorem exists_writeArray_eq (ws : List Text) : ∃ w, writeArray ws = '[' :: w := by
  match ws with
  | [] => exact ⟨_, rfl⟩
  | [_] => exact ⟨_, rfl⟩
  | _ :: _ :: _ => exact ⟨_, rfl⟩

theorem IsWritable.isSolid {depth : Nat} {v : Value} (h : IsWritable depth v) :
    IsSolid v.write := by
  cases h with
  | string t =>
      obtain ⟨c, w, start, quote⟩ := exists_writeString_eq t
      refine ⟨c, w, by rw [Value.write, start], ?_⟩
      obtain rfl | rfl := quote <;> decide
  | integer n =>
      obtain ⟨c, w, start⟩ := exists_writeInteger_eq n
      refine ⟨c, w, by rw [Value.write, start], ?_⟩
      have word : isWordChar c = true := isWordChar_of_mem (start ▸ List.mem_cons_self)
      have blank : isBlank c = false := by
        rw [isBlank, beq_false_of_ne (ne_of_isWordChar word (by decide)),
          beq_false_of_ne (ne_of_isWordChar word (by decide)), Bool.or_self]
      exact ⟨blank, ne_of_isWordChar word (by decide), ne_of_isWordChar word (by decide),
        ne_of_isWordChar word (by decide)⟩
  | array items =>
      obtain ⟨w, start⟩ := exists_writeArray_eq (writeItems items)
      exact ⟨'[', w, by rw [Value.write, start], by decide⟩

theorem skipSpace_solid {w : Text} (solid : IsSolid w) (rest : Text) :
    skipSpace false (w ++ rest) = w ++ rest := by
  obtain ⟨c, t, rfl, blank, feed, comment, -⟩ := solid
  rw [List.cons_append, skipSpace, blank, beq_false_of_ne feed, beq_false_of_ne comment]
  rfl

theorem ends_cons {c : Char} {t : Text} (other : c ≠ '"' ∧ c ≠ apostrophe ∧ isWordChar c = false) :
    Ends (c :: t) := by
  rintro d ⟨⟩
  exact other

section
variable {item : Text → Option (Value × Text)} {v : Value}

theorem readItems_last (solid : IsSolid v.write)
    (reads : ∀ rest, Ends rest → item (v.write ++ rest) = some (v, rest)) (n : Nat) (rest : Text) :
    readItems item (n + 1) (v.write ++ ']' :: rest) = some ([v], rest) := by
  have read := reads (']' :: rest) (ends_cons (by decide))
  have start := skipSpace_solid solid (']' :: rest)
  obtain ⟨c, w, write, -, -, -, other⟩ := solid
  rw [write, List.cons_append] at start read ⊢
  rw [readItems.eq_def]
  simp only [start]
  split
  · next same => exact absurd (List.cons.inj same).1 other
  · rw [read]
    rfl

theorem readItems_more (solid : IsSolid v.write)
    (reads : ∀ rest, Ends rest → item (v.write ++ rest) = some (v, rest)) (n : Nat) (rest : Text) :
    readItems item (n + 1) ("\n    ".toList ++ v.write ++ [','] ++ rest) =
      (readItems item n rest).map fun (vs, rest) => (v :: vs, rest) := by
  have read := reads (',' :: rest) (ends_cons (by decide))
  have start : skipSpace false ("\n    ".toList ++ v.write ++ [','] ++ rest) =
      v.write ++ ',' :: rest := by
    rw [List.append_assoc, List.append_assoc, List.singleton_append]
    exact skipSpace_solid solid (',' :: rest)
  obtain ⟨c, w, write, -, -, -, other⟩ := solid
  rw [readItems.eq_def]
  simp only [start]
  rw [write, List.cons_append] at read ⊢
  split
  · next same => exact absurd (List.cons.inj same).1 other
  · have comma : skipSpace false (',' :: rest) = ',' :: rest := rfl
    rw [read]
    simp only [Option.bind_eq_bind, Option.bind_some, comma]
    cases readItems item n rest <;> rfl

theorem readItems_lines {vs : List Value} (solid : ∀ v ∈ vs, IsSolid v.write)
    (reads : ∀ v ∈ vs, ∀ rest, Ends rest → item (v.write ++ rest) = some (v, rest)) {n : Nat}
    (fuel : vs.length < n) (rest : Text) :
    readItems item n ((writeItems vs).flatMap (fun w => "\n    ".toList ++ w ++ [',']) ++
      ("\n]".toList ++ rest)) = some (vs, rest) := by
  induction vs generalizing n with
  | nil =>
      obtain ⟨m, rfl⟩ := Nat.exists_eq_add_one_of_ne_zero (Nat.ne_zero_of_lt fuel)
      rfl
  | cons v vs ih =>
      obtain ⟨m, rfl⟩ := Nat.exists_eq_add_one_of_ne_zero (Nat.ne_zero_of_lt fuel)
      obtain ⟨first, others⟩ := List.forall_mem_cons.1 solid
      obtain ⟨readsFirst, readsOthers⟩ := List.forall_mem_cons.1 reads
      rw [writeItems, List.flatMap_cons, List.append_assoc, readItems_more first readsFirst,
        ih others readsOthers (by simpa using fuel)]
      rfl

theorem length_le_flatMap_writeItems (vs : List Value) : vs.length ≤
    ((writeItems vs).flatMap fun w => "\n    ".toList ++ w ++ [',']).length := by
  induction vs with
  | nil => exact Nat.le_refl 0
  | cons v vs ih =>
      rw [writeItems, List.flatMap_cons, List.length_append, List.length_append, List.length_cons,
        List.length_singleton]
      omega

/-- The items of an array are read back if each of them is. -/
theorem readItems_writeArray {vs : List Value} (solid : ∀ v ∈ vs, IsSolid v.write)
    (reads : ∀ v ∈ vs, ∀ rest, Ends rest → item (v.write ++ rest) = some (v, rest)) {w : Text}
    (write : writeArray (writeItems vs) = '[' :: w) (rest : Text) :
    readItems item ((w ++ rest).length + 1) (w ++ rest) = some (vs, rest) := by
  match vs with
  | [] =>
      obtain rfl := (List.cons.inj write).2
      rfl
  | [v] =>
      have body : w = v.write ++ [']'] := (List.cons.inj write).2.symm
      rw [body, List.append_assoc, List.singleton_append]
      exact readItems_last (solid v List.mem_cons_self) (reads v List.mem_cons_self) _ rest
  | u :: v :: vs =>
      have body : w = (writeItems (u :: v :: vs)).flatMap
          (fun w => "\n    ".toList ++ w ++ [',']) ++ "\n]".toList := (List.cons.inj write).2.symm
      rw [body, List.append_assoc]
      refine readItems_lines solid reads ?_ rest
      have fewer := length_le_flatMap_writeItems (u :: v :: vs)
      rw [List.length_append]
      omega

end

theorem readValue_quote {c : Char} (quote : c = '"' ∨ c = apostrophe) (depth : Nat) (t : Text) :
    readValue depth (c :: t) =
      (readString (c :: t)).map fun (t, rest) => (.string t, rest) := by
  have opens : (c == '"' || c == apostrophe) = true := by
    rwa [Bool.or_eq_true, beq_iff_eq, beq_iff_eq]
  rw [readValue.eq_def]
  simp only [opens, if_true]

theorem readValue_word {c : Char} (word : isWordChar c = true) (depth : Nat) (t : Text) :
    readValue depth (c :: t) = readWord (c :: t) := by
  have noQuote : (c == '"' || c == apostrophe) = false := by
    rw [beq_false_of_ne (ne_of_isWordChar word (by decide)),
      beq_false_of_ne (ne_of_isWordChar word (by decide)), Bool.or_self]
  rw [readValue.eq_def]
  simp only [noQuote, Bool.false_eq_true, if_false]
  split
  · exact absurd word (by decide)
  · exact absurd word (by decide)
  · rfl

theorem readValue_bracket (depth : Nat) (t : Text) : readValue (depth + 1) ('[' :: t) =
    (readItems (readValue depth) (t.length + 1) t).map fun (vs, rest) => (.array vs, rest) := by
  rw [readValue.eq_def]
  rfl

/-- What is written for a value is read as that value, whatever follows it. -/
theorem readValue_write {depth : Nat} {v : Value} (h : IsWritable depth v) {rest : Text}
    (ends : Ends rest) : readValue depth (v.write ++ rest) = some (v, rest) := by
  induction h generalizing rest with
  | string t =>
      obtain ⟨c, w, start, quote⟩ := exists_writeString_eq t
      have read := readString_writeString t ends.apart
      rw [start, List.cons_append] at read
      rw [Value.write, start, List.cons_append, readValue_quote quote, read]
      rfl
  | integer n fits =>
      obtain ⟨c, w, start⟩ := exists_writeInteger_eq n
      have read := readWord_writeInteger fits ends
      have word := isWordChar_of_mem (n := n) (start ▸ List.mem_cons_self)
      rw [start, List.cons_append] at read
      rw [Value.write, start, List.cons_append, readValue_word word, read]
  | array items each ih =>
      obtain ⟨w, start⟩ := exists_writeArray_eq (writeItems items)
      have read := readItems_writeArray (fun v member => (each v member).isSolid)
        (fun v member rest ends => ih v member ends) start rest
      rw [Value.write, start, List.cons_append, readValue_bracket, read]
      rfl

theorem noReturn_writeArray {ws : List Text} (each : ∀ w ∈ ws, '\r' ∉ w) :
    '\r' ∉ writeArray ws := by
  have item (w : Text) (other : '\r' ∉ w) : '\r' ∉ "\n    ".toList ++ w ++ [','] := by
    simp [other]
  have lines : '\r' ∉ ws.flatMap fun w => "\n    ".toList ++ w ++ [','] := by
    intro member
    obtain ⟨w, inside, found⟩ := List.mem_flatMap.1 member
    exact item w (each w inside) found
  match ws with
  | [] => decide
  | [w] => simp [writeArray, each w List.mem_cons_self]
  | u :: v :: ws =>
      intro member
      obtain first | inside := List.mem_cons.1 member
      · exact absurd first (by decide)
      · obtain found | last := List.mem_append.1 inside
        · exact lines found
        · exact absurd last (by decide)

theorem noReturn_write {depth : Nat} {v : Value} (h : IsWritable depth v) : '\r' ∉ v.write := by
  induction h with
  | string t =>
      rw [Value.write]
      exact noReturn_writeString t
  | integer n =>
      intro member
      rw [Value.write] at member
      exact absurd (isWordChar_of_mem member) (by decide)
  | array items each ih =>
      rw [Value.write]
      refine noReturn_writeArray ?_
      clear each
      induction items with
      | nil => exact fun w member => absurd member List.not_mem_nil
      | cons v vs next =>
          obtain ⟨first, rest⟩ := List.forall_mem_cons.1 ih
          rw [writeItems]
          exact List.forall_mem_cons.2 ⟨first, next rest⟩

end ApiReference.Toml
