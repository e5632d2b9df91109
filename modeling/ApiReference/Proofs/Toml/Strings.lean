import ApiReference.Proofs.Text.Parts
import ApiReference.Toml.Printer

/-!
# Strings of TOML read back

Whatever characters a text has, the string that is written for it is read as that text, in each of
the four forms. Main statement: `readString_writeString`.
-/

namespace ApiReference.Toml

/-- How a character of a basic string may be written so that it is read again. -/
inductive Written (lines : Bool) (c : Char) : Text → Prop where
  | plain (plain : isPlain c = true) (other : c ≠ '\\') : Written lines c [c]
  | lineFeed (several : lines = true) (feed : c = '\n') : Written lines c ['\n']
  | escaped (d : Char) (e : Text) (solid : isBlank d = false ∧ d ≠ '\n') (noReturn : '\r' ∉ d :: e)
    (read : ∀ rest, readEscape (d :: e ++ rest) = some (c, rest)) : Written lines c ('\\' :: d :: e)

theorem hexNumber?_code : ∀ n < 128,
    hexNumber? ['0', '0', hexDigit (n / 16), hexDigit (n % 16)] = some n ∧ n.isValidChar ∧
      '\r' ∉ [hexDigit (n / 16), hexDigit (n % 16)] := by
  decide

theorem readEscape_code {n : Nat} (small : n < 128) (rest : Text) :
    readEscape (['u', '0', '0', hexDigit (n / 16), hexDigit (n % 16)] ++ rest) =
      some (Char.ofNat n, rest) := by
  obtain ⟨number, valid, -⟩ := hexNumber?_code n small
  simp only [List.cons_append, List.nil_append, readEscape, readCode, List.take_succ_cons,
    List.take_zero, number]
  simp [valid]

theorem written_escape (lines : Bool) (c : Char) : Written lines c (escape lines c) := by
  have char {n : Nat} (code : c.toNat = n) : c = Char.ofNat n := by
    rw [← code, Char.ofNat_toNat]
  unfold escape
  split
  · next code => exact .escaped 'b' [] (by decide) (by decide) fun _ => by rw [char code]; rfl
  · next code => exact .escaped 't' [] (by decide) (by decide) fun _ => by rw [char code]; rfl
  · next code =>
      cases lines with
      | true => exact .lineFeed rfl (char code)
      | false => exact .escaped 'n' [] (by decide) (by decide) fun _ => by rw [char code]; rfl
  · next code => exact .escaped 'f' [] (by decide) (by decide) fun _ => by rw [char code]; rfl
  · next code => exact .escaped 'r' [] (by decide) (by decide) fun _ => by rw [char code]; rfl
  · next code => exact .escaped '\\' [] (by decide) (by decide) fun _ => by rw [char code]; rfl
  · next _ _ _ _ _ backslash =>
      split
      · next control =>
          rw [Bool.or_eq_true, decide_eq_true_eq, decide_eq_true_eq] at control
          have small : c.toNat < 128 := by omega
          have noReturn := (hexNumber?_code c.toNat small).2.2
          refine .escaped 'u' ['0', '0', hexDigit (c.toNat / 16), hexDigit (c.toNat % 16)]
            (by decide) (by simpa using noReturn) fun rest => ?_
          rw [readEscape_code small, Char.ofNat_toNat]
      · next visible =>
          rw [Bool.or_eq_true, decide_eq_true_eq, decide_eq_true_eq, not_or] at visible
          refine .plain ?_ fun same => backslash (by rw [same]; rfl)
          simp only [isPlain, Bool.or_eq_true, Bool.and_eq_true, decide_eq_true_eq, bne_iff_ne]
          omega

theorem written_quote (lines : Bool) : Written lines '"' ['\\', '"'] :=
  .escaped '"' [] (by decide) (by decide) fun _ => rfl

theorem Written.noReturn {lines : Bool} {c : Char} {w : Text} (h : Written lines c w) :
    '\r' ∉ w := by
  cases h with
  | plain plain =>
      intro member
      rw [← List.mem_singleton.1 member] at plain
      exact absurd plain (by decide)
  | lineFeed => decide
  | escaped d e _ noReturn => exact fun member => noReturn (by simpa using member)

theorem Written.ne_nil {lines : Bool} {c : Char} {w : Text} (h : Written lines c w) : w ≠ [] := by
  cases h <;> exact List.cons_ne_nil _ _

/-- Whatever is written for a character takes some of the fuel. -/
theorem Written.length_lt {lines : Bool} {c : Char} {w : Text} (h : Written lines c w) {n : Nat}
    {t : Text} (fuel : (w ++ t).length < n + 1) : t.length < n := by
  have pos := List.length_pos_of_ne_nil h.ne_nil
  rw [List.length_append] at fuel
  omega

/-- A written character starts with a quote only if it is the quote itself. -/
theorem Written.head?_ne_quote {lines : Bool} {c : Char} {w : Text} (h : Written lines c w)
    (other : w ≠ ['"']) : ∃ d e, w = d :: e ∧ d ≠ '"' := by
  cases h with
  | plain => exact ⟨c, [], rfl, fun same => other (by rw [same])⟩
  | lineFeed => exact ⟨'\n', [], rfl, by decide⟩
  | escaped d e => exact ⟨'\\', d :: e, rfl, by decide⟩

theorem Written.eq_lineFeed {lines : Bool} {c : Char} {w : Text} (h : Written lines c w)
    (first : w.head? = some '\n') : c = '\n' := by
  cases h with
  | plain => exact Option.some.inj first
  | lineFeed _ feed => exact feed
  | escaped => exact absurd first (by simp)

/-- The characters of a basic string are written one by one. A quote stays as it is only where the
row allows one more. -/
theorem escapes_cons (lines : Bool) (allowed row : Nat) (c : Char) (t : Text) :
    ∃ w next, Written lines c w ∧
      escapes lines allowed row (c :: t) = w ++ escapes lines allowed next t ∧
      (w = ['"'] → c = '"' ∧ row < allowed ∧ next = row + 1) := by
  rw [escapes]
  split
  · next quote =>
      subst quote
      split
      · next fits =>
          refine ⟨['"'], row + 1, .plain (by decide) (by decide), rfl, fun _ => ?_⟩
          exact ⟨rfl, fits, rfl⟩
      · exact ⟨['\\', '"'], 0, written_quote lines, rfl, fun same => absurd same (by decide)⟩
  · next other =>
      refine ⟨escape lines c, 0, written_escape lines c, rfl, fun same => ?_⟩
      have written := written_escape lines c
      rw [same] at written
      cases written with
      | plain => exact absurd rfl other

theorem noReturn_escapes (lines : Bool) (allowed row : Nat) (t : Text) :
    '\r' ∉ escapes lines allowed row t := by
  induction t generalizing row with
  | nil => exact List.not_mem_nil
  | cons c t ih =>
      obtain ⟨w, next, written, split, -⟩ := escapes_cons lines allowed row c t
      rw [split, List.mem_append, not_or]
      exact ⟨written.noReturn, ih next⟩

theorem readBasic_written {c : Char} {w : Text} (h : Written false c w) (other : w ≠ ['"'])
    (n : Nat) (rest : Text) :
    readBasic (n + 1) (w ++ rest) = (readBasic n rest).map fun (cs, rest) => (c :: cs, rest) := by
  cases h with
  | plain plain noEscape =>
      have noQuote : (c == '"') = false := beq_false_of_ne fun same => other (by rw [same])
      rw [List.singleton_append, readBasic, noQuote, beq_false_of_ne noEscape, plain]
      rfl
  | lineFeed several => exact Bool.noConfusion several
  | escaped d e _ _ read =>
      rw [List.cons_append, readBasic, if_neg (by decide), if_pos (by decide), read]
      simp only [Option.bind_eq_bind, Option.bind_some]
      cases readBasic n rest <;> rfl

theorem readBasic_escapes {n : Nat} {t : Text} (row : Nat)
    (fuel : (escapes false 0 row t).length < n) (rest : Text) :
    readBasic n (escapes false 0 row t ++ '"' :: rest) = some (t, rest) := by
  induction t generalizing n row with
  | nil =>
      obtain ⟨m, rfl⟩ := Nat.exists_eq_add_of_lt fuel
      rfl
  | cons c t ih =>
      obtain ⟨w, next, written, split, quote⟩ := escapes_cons false 0 row c t
      have other : w ≠ ['"'] := fun same => Nat.not_lt_zero row (quote same).2.1
      obtain ⟨m, rfl⟩ := Nat.exists_eq_add_one_of_ne_zero (Nat.ne_zero_of_lt fuel)
      rw [split] at fuel
      rw [split, List.append_assoc, readBasic_written written other,
        ih next (written.length_lt fuel)]
      rfl

theorem readLiteral_append {quote : Char} {t : Text} (plain : ∀ c ∈ t, isPlain c = true)
    (other : quote ∉ t) (rest : Text) :
    readLiteral quote (t ++ quote :: rest) = some (t, rest) := by
  induction t with
  | nil => simp [readLiteral]
  | cons c t ih =>
      obtain ⟨first, more⟩ := List.forall_mem_cons.1 plain
      obtain ⟨ne, none⟩ := List.ne_and_not_mem_of_not_mem_cons other
      rw [List.cons_append, readLiteral, beq_false_of_ne ne.symm, first, ih more none]
      rfl

theorem closing?_eq_none {quote : Char} {t : Text}
    (short : (t.takeWhile (· == quote)).length ≤ 2) : closing? quote t = none := by
  match t with
  | [] | [_] | [_, _] => rfl
  | a :: b :: c :: rest =>
      simp only [closing?]
      rw [if_neg]
      intro all
      simp only [Bool.and_eq_true] at all
      simp [all] at short

/-- One or two quotes before three that end a string belong to it. -/
theorem closing?_row {quote : Char} {w : Text} (all : ∀ c ∈ w, c = quote) (few : w.length ≤ 2)
    {rest : Text} (apart : ∀ c ∈ rest.head?, c ≠ quote) :
    closing? quote (w ++ (triple quote ++ rest)) = some (w, rest) := by
  match w, rest with
  | [], [] => simp [closing?, triple]
  | [], [d] => simpa [closing?, triple] using apart
  | [], d :: e :: rest => simp_all [closing?, triple]
  | [a], [] => simp_all [closing?, triple]
  | [a], d :: rest => simp_all [closing?, triple]
  | [a, b], rest => simp_all [closing?, triple]

theorem closing?_of_other {quote : Char} {w : Text}
    (short : (w.takeWhile (· == quote)).length ≤ 2) (other : ¬ ∀ c ∈ w, c = quote) (rest : Text) :
    closing? quote (w ++ rest) = none := by
  apply closing?_eq_none
  rw [List.takeWhile_append, if_neg]
  · exact short
  · intro whole
    have all := (List.takeWhile_prefix (· == quote) (l := w)).eq_of_length whole
    exact other fun c member => by simpa using List.takeWhile_eq_self_iff.1 all c member

theorem readBasicLines_closed {t : Text} {found : Text × Text}
    (closed : closing? '"' t = some found) (n : Nat) : readBasicLines (n + 1) t = some found := by
  rw [readBasicLines.eq_def]
  simp only [closed]

theorem readBasicLines_written {c : Char} {w : Text} (h : Written true c w) (n : Nat) (rest : Text)
    (opened : closing? '"' (w ++ rest) = none) :
    readBasicLines (n + 1) (w ++ rest) =
      (readBasicLines n rest).map fun (cs, rest) => (c :: cs, rest) := by
  rw [readBasicLines.eq_def]
  simp only [opened]
  cases h with
  | plain plain noEscape =>
      simp only [List.singleton_append, beq_false_of_ne noEscape, plain, Bool.true_or, if_true,
        Bool.false_eq_true, if_false]
  | lineFeed _ feed =>
      subst feed
      rfl
  | escaped d e solid _ read =>
      have unfolded : foldedLine? (d :: (e ++ rest)) = none := by
        rw [foldedLine?, skipBlanks, List.dropWhile_cons_of_neg (by simp [solid])]
        split
        · next same => exact absurd (List.cons.inj same).1 solid.2
        · rfl
      have read : readEscape (d :: (e ++ rest)) = some (c, rest) := read rest
      simp only [List.cons_append, beq_self_eq_true, if_true, unfolded, read, Option.bind_eq_bind,
        Option.bind_some]
      cases readBasicLines n rest <;> rfl

/-- A row of quotes is never longer than it may be. -/
theorem length_row_escapes (lines : Bool) (allowed row : Nat) (t : Text) :
    ((escapes lines allowed row t).takeWhile (· == '"')).length ≤ allowed - row := by
  induction t generalizing row with
  | nil => exact Nat.zero_le _
  | cons c t ih =>
      obtain ⟨w, next, written, split, quote⟩ := escapes_cons lines allowed row c t
      by_cases single : w = ['"']
      · obtain ⟨-, fits, rfl⟩ := quote single
        have := ih (row + 1)
        rw [split, single, List.singleton_append, List.takeWhile_cons_of_pos (by decide),
          List.length_cons]
        omega
      · obtain ⟨d, e, start, other⟩ := written.head?_ne_quote single
        rw [split, start, List.cons_append, List.takeWhile_cons_of_neg (by simpa using other)]
        exact Nat.zero_le _

theorem escapes_of_quotes {lines : Bool} {allowed row : Nat} {t : Text}
    (all : ∀ c ∈ escapes lines allowed row t, c = '"') : escapes lines allowed row t = t := by
  induction t generalizing row with
  | nil => rfl
  | cons c t ih =>
      obtain ⟨w, next, written, split, quote⟩ := escapes_cons lines allowed row c t
      rw [split, List.forall_mem_append] at all
      have single : w = ['"'] := by
        by_contra other
        obtain ⟨d, e, start, ne⟩ := written.head?_ne_quote other
        exact ne (all.1 d (start ▸ List.mem_cons_self))
      rw [split, ih all.2, single, (quote single).1]
      rfl

theorem readBasicLines_escapes {n row : Nat} {t : Text}
    (fuel : (escapes true 2 row t).length < n) {rest : Text} (apart : ∀ c ∈ rest.head?, c ≠ '"') :
    readBasicLines n (escapes true 2 row t ++ (triple '"' ++ rest)) = some (t, rest) := by
  induction t generalizing n row with
  | nil =>
      obtain ⟨m, rfl⟩ := Nat.exists_eq_add_one_of_ne_zero (Nat.ne_zero_of_lt fuel)
      have closed : closing? '"' ([] ++ (triple '"' ++ rest)) = some ([], rest) :=
        closing?_row (by simp) (by simp) apart
      exact readBasicLines_closed closed m
  | cons c t ih =>
      obtain ⟨m, rfl⟩ := Nat.exists_eq_add_one_of_ne_zero (Nat.ne_zero_of_lt fuel)
      have short := (length_row_escapes true 2 row (c :: t)).trans (Nat.sub_le 2 row)
      -- Quotes up to the end run into the three that close the string.
      by_cases all : ∀ d ∈ escapes true 2 row (c :: t), d = '"'
      · have whole := List.takeWhile_eq_self_iff.2 fun d member => beq_iff_eq.2 (all d member)
        rw [whole] at short
        rw [readBasicLines_closed (closing?_row all short apart), escapes_of_quotes all]
      · have opened := closing?_of_other short all (triple '"' ++ rest)
        obtain ⟨w, next, written, split, quote⟩ := escapes_cons true 2 row c t
        rw [split] at fuel
        rw [split, List.append_assoc] at opened ⊢
        rw [readBasicLines_written written _ _ opened, ih (written.length_lt fuel)]
        rfl

section
variable {quote : Char} {t : Text}

theorem runs_snd : (runs quote t).2 = (t.takeWhile (· == quote)).length := by
  induction t with
  | nil => rfl
  | cons c t ih =>
      by_cases same : c = quote <;> simp [runs, same, ih]

theorem runs_snd_le_longestRun : (runs quote t).2 ≤ longestRun quote t := by
  cases t with
  | nil => exact Nat.le_refl 0
  | cons c t =>
      simp only [longestRun, runs]
      split
      · exact Nat.le_max_right _ _
      · exact Nat.zero_le _

theorem longestRun_le_cons (c : Char) : longestRun quote t ≤ longestRun quote (c :: t) := by
  simp only [longestRun, runs]
  split
  · exact Nat.le_max_left _ _
  · exact Nat.le_refl _

theorem not_mem_of_longestRun (none : longestRun quote t = 0) : quote ∉ t := by
  induction t with
  | nil => exact List.not_mem_nil
  | cons c t ih =>
      have fewer : longestRun quote t ≤ longestRun quote (c :: t) := longestRun_le_cons c
      have first : (runs quote (c :: t)).2 ≤ longestRun quote (c :: t) := runs_snd_le_longestRun
      rw [none, Nat.le_zero] at fewer first
      rw [List.mem_cons, not_or]
      refine ⟨?_, ih fewer⟩
      rintro rfl
      simp [runs] at first

theorem readLiteralLines_append (plain : ∀ c ∈ t, isPlain c = true ∨ c = '\n')
    (short : longestRun quote t ≤ 2) {rest : Text} (apart : ∀ c ∈ rest.head?, c ≠ quote) :
    readLiteralLines quote (t ++ (triple quote ++ rest)) = some (t, rest) := by
  induction t with
  | nil =>
      have closed : closing? quote ([] ++ (triple quote ++ rest)) = some ([], rest) :=
        closing?_row (by simp) (by simp) apart
      simp only [List.nil_append, triple, List.replicate_succ, List.cons_append] at closed ⊢
      rw [readLiteralLines, closed]
  | cons c t ih =>
      have row : ((c :: t).takeWhile (· == quote)).length ≤ 2 := by
        rw [← runs_snd]
        exact runs_snd_le_longestRun.trans short
      rw [List.cons_append, readLiteralLines, ← List.cons_append]
      by_cases all : ∀ d ∈ c :: t, d = quote
      · have whole := List.takeWhile_eq_self_iff.2 fun d member => beq_iff_eq.2 (all d member)
        rw [whole] at row
        rw [closing?_row all row apart]
      · obtain ⟨first, more⟩ := List.forall_mem_cons.1 plain
        have fits : (isPlain c || c == '\n') = true := by simpa using first
        rw [closing?_of_other row all, ih more ((longestRun_le_cons c).trans short), fits]
        rfl

end

/-- What must not follow a string, lest it go on. -/
def Apart (rest : Text) : Prop := ∀ c ∈ rest.head?, c ≠ '"' ∧ c ≠ apostrophe

theorem skipLineFeed_opening {t u : Text} (same : '\n' ∉ t → u.head? ≠ some '\n') :
    skipLineFeed (opening t ++ u) = u := by
  rw [opening]
  split
  · rfl
  · next none =>
      have other := same (by simpa using none)
      rw [List.nil_append]
      match u with
      | [] => rfl
      | c :: u =>
          rw [skipLineFeed]
          rintro _ ⟨⟩
          exact other rfl

theorem plain_or_lineFeed {t : Text} (control : t.any isControl = false) :
    ∀ c ∈ t, isPlain c = true ∨ c = '\n' := by
  intro c member
  have := List.any_eq_false.1 control c member
  rw [isControl, Bool.not_eq_true, Bool.not_eq_false', Bool.or_eq_true, beq_iff_eq] at this
  exact this

theorem readString_basic {t rest : Text} (apart : Apart rest) :
    readString ('"' :: escapes false 0 0 t ++ ['"'] ++ rest) = some (t, rest) := by
  have body : '"' :: escapes false 0 0 t ++ ['"'] ++ rest =
      '"' :: (escapes false 0 0 t ++ '"' :: rest) := by simp
  have single : ¬ triple '"' <+: '"' :: (escapes false 0 0 t ++ '"' :: rest) := by
    intro begins
    have next := (List.cons_prefix_cons.1 begins).2
    cases t with
    | nil =>
        obtain ⟨more, split⟩ := (List.cons_prefix_cons.1 next).2
        exact (apart '"' (by rw [← split]; rfl)).1 rfl
    | cons c t =>
        obtain ⟨w, row, written, split, quote⟩ := escapes_cons false 0 0 c t
        obtain ⟨d, e, start, other⟩ := written.head?_ne_quote fun same =>
          Nat.not_lt_zero 0 (quote same).2.1
        rw [split, start, List.cons_append, List.cons_append] at next
        exact other (List.cons_prefix_cons.1 next).1.symm
  have basic : readString ('"' :: (escapes false 0 0 t ++ '"' :: rest)) =
      readBasic ((escapes false 0 0 t ++ '"' :: rest).length + 1)
        (escapes false 0 0 t ++ '"' :: rest) := by
    rw [readString.eq_def]
    have first : Text.stripStart "\"\"\"".toList
        ('"' :: (escapes false 0 0 t ++ '"' :: rest)) = none := Text.stripStart_eq_none single
    have second : Text.stripStart (List.replicate 3 apostrophe)
        ('"' :: (escapes false 0 0 t ++ '"' :: rest)) = none := rfl
    simp only [first, second, beq_self_eq_true, if_true]
  rw [body, basic]
  refine readBasic_escapes 0 ?_ rest
  rw [List.length_append]
  omega

theorem readString_literal {t rest : Text} (plain : ∀ c ∈ t, isPlain c = true)
    (other : apostrophe ∉ t) (filled : t ≠ []) :
    readString (apostrophe :: t ++ [apostrophe] ++ rest) = some (t, rest) := by
  have body : apostrophe :: t ++ [apostrophe] ++ rest =
      apostrophe :: (t ++ apostrophe :: rest) := by simp
  have single : ¬ triple apostrophe <+: apostrophe :: (t ++ apostrophe :: rest) := by
    intro begins
    have next := (List.cons_prefix_cons.1 begins).2
    obtain ⟨c, u, rfl⟩ := List.exists_cons_of_ne_nil filled
    have same := (List.cons_prefix_cons.1 next).1
    exact other (same ▸ List.mem_cons_self)
  have literal : readString (apostrophe :: (t ++ apostrophe :: rest)) =
      readLiteral apostrophe (t ++ apostrophe :: rest) := by
    rw [readString.eq_def]
    have first : Text.stripStart "\"\"\"".toList
        (apostrophe :: (t ++ apostrophe :: rest)) = none := rfl
    have second : Text.stripStart (List.replicate 3 apostrophe)
        (apostrophe :: (t ++ apostrophe :: rest)) = none := Text.stripStart_eq_none single
    simp only [first, second, beq_self_eq_true, if_true]
    rfl
  rw [body, literal, readLiteral_append plain other]

theorem readString_basicLines {t rest : Text} (apart : Apart rest) :
    readString (triple '"' ++ opening t ++ escapes true 2 0 t ++ triple '"' ++ rest) =
      some (t, rest) := by
  have body : skipLineFeed (opening t ++ (escapes true 2 0 t ++ (triple '"' ++ rest))) =
      escapes true 2 0 t ++ (triple '"' ++ rest) := by
    refine skipLineFeed_opening fun none first => ?_
    cases t with
    | nil => exact absurd (Option.some.inj first) (by decide)
    | cons c t =>
        obtain ⟨w, row, written, split, -⟩ := escapes_cons true 2 0 c t
        rw [split, List.append_assoc, List.head?_append_of_ne_nil _ written.ne_nil] at first
        exact none (written.eq_lineFeed first ▸ List.mem_cons_self)
  have lines : readString (triple '"' ++ opening t ++ escapes true 2 0 t ++ triple '"' ++ rest) =
      readBasicLines ((opening t ++ (escapes true 2 0 t ++ (triple '"' ++ rest))).length + 1)
        (skipLineFeed (opening t ++ (escapes true 2 0 t ++ (triple '"' ++ rest)))) := by
    have start := Text.stripStart_append (triple '"')
      (opening t ++ (escapes true 2 0 t ++ (triple '"' ++ rest)))
    change Text.stripStart "\"\"\"".toList _ = _ at start
    simp only [List.append_assoc] at start ⊢
    rw [readString.eq_def, start]
  rw [lines, body]
  refine readBasicLines_escapes ?_ fun c first => (apart c first).1
  simp only [List.length_append]
  omega

theorem readString_literalLines {t rest : Text} (plain : ∀ c ∈ t, isPlain c = true ∨ c = '\n')
    (short : longestRun apostrophe t ≤ 2) (apart : Apart rest) :
    readString (triple apostrophe ++ opening t ++ t ++ triple apostrophe ++ rest) =
      some (t, rest) := by
  have body : skipLineFeed (opening t ++ (t ++ (triple apostrophe ++ rest))) =
      t ++ (triple apostrophe ++ rest) := by
    refine skipLineFeed_opening fun none first => ?_
    cases t with
    | nil => exact absurd (Option.some.inj first) (by decide)
    | cons c t => exact none (Option.some.inj first ▸ List.mem_cons_self)
  have lines : readString (triple apostrophe ++ opening t ++ t ++ triple apostrophe ++ rest) =
      readLiteralLines apostrophe
        (skipLineFeed (opening t ++ (t ++ (triple apostrophe ++ rest)))) := by
    have start := Text.stripStart_append (triple apostrophe)
      (opening t ++ (t ++ (triple apostrophe ++ rest)))
    have other : Text.stripStart "\"\"\"".toList
        (triple apostrophe ++ (opening t ++ (t ++ (triple apostrophe ++ rest)))) = none := rfl
    change Text.stripStart (List.replicate 3 apostrophe) _ = _ at start
    simp only [List.append_assoc]
    rw [readString.eq_def]
    simp only [other, start]
  rw [lines, body, readLiteralLines_append plain short fun c first => (apart c first).2]

/-- A text is written in a form that it may have. -/
theorem formOf_cases (t : Text) :
    formOf t = .basic ∨ formOf t = .basicLines ∨
    (formOf t = .literal ∧ (∀ c ∈ t, isPlain c = true) ∧ apostrophe ∉ t ∧ t ≠ []) ∨
    (formOf t = .literalLines ∧ (∀ c ∈ t, isPlain c = true ∨ c = '\n') ∧
      longestRun apostrophe t ≤ 2) := by
  rw [formOf]
  split
  · exact .inl rfl
  · next noBasic =>
      split
      · next literal =>
          simp only [Bool.and_eq_true, Bool.not_eq_true', decide_eq_true_eq] at literal
          obtain ⟨⟨control, lines⟩, none⟩ := literal
          refine .inr (.inr (.inl ⟨rfl, fun c member => ?_, not_mem_of_longestRun none, ?_⟩))
          · refine (plain_or_lineFeed control c member).resolve_right ?_
            rintro rfl
            simp [member] at lines
          · rintro rfl
            exact noBasic rfl
      · split
        · exact .inr (.inl rfl)
        · split
          · next literal =>
              rw [Bool.and_eq_true, Bool.not_eq_true', decide_eq_true_eq] at literal
              exact .inr (.inr (.inr ⟨rfl, plain_or_lineFeed literal.1, literal.2⟩))
          · split
            · exact .inr (.inl rfl)
            · exact .inl rfl

theorem readString_writeString (t : Text) {rest : Text} (apart : Apart rest) :
    readString (writeString t ++ rest) = some (t, rest) := by
  rw [writeString]
  obtain form | form | ⟨form, plain, other, filled⟩ | ⟨form, plain, short⟩ := formOf_cases t <;>
    rw [form]
  · exact readString_basic apart
  · exact readString_basicLines apart
  · exact readString_literal plain other filled
  · exact readString_literalLines plain short apart

theorem noReturn_writeString (t : Text) : '\r' ∉ writeString t := by
  have opens : '\r' ∉ opening t := by
    rw [opening]
    split <;> decide
  rw [writeString]
  obtain form | form | ⟨form, plain, -⟩ | ⟨form, plain, -⟩ := formOf_cases t <;> rw [form]
  · simpa using noReturn_escapes false 0 0 t
  · simpa [triple, opens] using noReturn_escapes true 2 0 t
  · have other : '\r' ∉ t := fun member => absurd (plain _ member) (by decide)
    simpa [other] using by decide
  · have other : '\r' ∉ t := fun member => absurd (plain _ member) (by decide)
    simpa [triple, opens, other] using by decide

end ApiReference.Toml
