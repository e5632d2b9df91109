import ApiReference.Proofs.Syntax.Lexeme.Tight

/-!
# Names

Names end where white space begins, and what they end in is no semicolon and no opening brace. Main
statements: `tight_name`, `closes_name`.
-/

namespace ApiReference.Syntax.Lexeme

open Reflow (Pauses)

variable {w s t : Text} {c : Char}

theorem isHex_of_isWhite (white : isWhite c = true) : isHex c = false :=
  eq_false_of_isWhite (f := isHex) (by decide) (by decide) (by decide) (by decide) c white

theorem unicodeEscape_of_ne (other : c ≠ '\\') : unicodeEscape (c :: t) = 0 := by
  unfold unicodeEscape
  split <;> simp_all

theorem unicodeEscape_backslash_of_ne (other : c ≠ 'u') : unicodeEscape ('\\' :: c :: t) = 0 := by
  unfold unicodeEscape
  split <;> simp_all

theorem unicodeEscape_digits (other : s.head? ≠ some '{') : unicodeEscape ('\\' :: 'u' :: s) =
    if ((s.take 4).takeWhile isHex).length == 4 then 6 else 0 := by
  unfold unicodeEscape
  split <;> simp_all

/-- Digits between braces end where white space begins. -/
theorem unicodeEscape_braces_append (w : Text) (pauses : Pauses s) :
    unicodeEscape ('\\' :: 'u' :: '{' :: (w ++ s)) = unicodeEscape ('\\' :: 'u' :: '{' :: w) := by
  have digits := takeWhile_append (fun _ => isHex_of_isWhite) w pauses
  have closed := head?_drop_append (length_takeWhile_le isHex w) pauses
    (by decide : isWhite '}' = false)
  simp only [unicodeEscape, digits, Bool.and_eq_true, beq_iff_eq, closed]

theorem take_pauses (pauses : Pauses s) (n : Nat) : Pauses (s.take n) := fun c first => by
  cases n with
  | zero => cases first
  | succ n =>
      cases s with
      | nil => cases first
      | cons d s => exact pauses c first

/-- Four digits are digits before white space. -/
theorem unicodeEscape_digits_append (brace : w.head? ≠ some '{') (pauses : Pauses s) :
    unicodeEscape ('\\' :: 'u' :: (w ++ s)) = unicodeEscape ('\\' :: 'u' :: w) := by
  have brace' : (w ++ s).head? ≠ some '{' := by
    cases w with
    | nil => exact head?_ne_of_pauses pauses (by decide)
    | cons c u => exact brace
  rw [unicodeEscape_digits brace, unicodeEscape_digits brace', List.take_append,
    takeWhile_append (fun _ => isHex_of_isWhite) _ (take_pauses pauses _)]

theorem unicodeEscape_append (w : Text) (pauses : Pauses s) :
    unicodeEscape (w ++ s) = unicodeEscape w := by
  have stopped {c : Char} (visible : isWhite c = false) : s.head? ≠ some c :=
    head?_ne_of_pauses pauses visible
  rcases w with _ | ⟨a, _ | ⟨b, w⟩⟩
  · cases s with
    | nil => rfl
    | cons c s =>
        exact unicodeEscape_of_ne fun same => stopped (by decide) (congrArg some same)
  · by_cases backslash : a = '\\'
    · subst backslash
      cases s with
      | nil => rfl
      | cons c s =>
          exact unicodeEscape_backslash_of_ne fun same => stopped (by decide) (congrArg some same)
    · rw [List.cons_append, unicodeEscape_of_ne backslash, unicodeEscape_of_ne backslash]
  · rw [List.cons_append, List.cons_append]
    by_cases backslash : a = '\\'
    · subst backslash
      by_cases letter : b = 'u'
      · subst letter
        by_cases brace : w.head? = some '{'
        · obtain ⟨u, rfl⟩ := List.head?_eq_some_iff.1 brace
          exact unicodeEscape_braces_append u pauses
        · exact unicodeEscape_digits_append brace pauses
      · rw [unicodeEscape_backslash_of_ne letter, unicodeEscape_backslash_of_ne letter]
    · rw [unicodeEscape_of_ne backslash, unicodeEscape_of_ne backslash]

theorem unicodeEscape_le (t : Text) : unicodeEscape t ≤ t.length := by
  unfold unicodeEscape
  split
  · next rest =>
      dsimp only
      split
      · next closed =>
          rw [Bool.and_eq_true, beq_iff_eq] at closed
          have more : (rest.drop (rest.takeWhile isHex).length) ≠ [] := fun none => by
            rw [none] at closed
            cases closed.2
          have := List.length_pos_iff.2 more
          rw [List.length_drop] at this
          simp only [List.length_cons]
          omega
      · exact Nat.zero_le _
  · next rest _ =>
      split
      · next four =>
          have := length_takeWhile_le isHex (rest.take 4)
          rw [beq_iff_eq.1 four, List.length_take] at this
          simp only [List.length_cons]
          omega
      · exact Nat.zero_le _
  · exact Nat.zero_le _

theorem nameRest_le (k : Nat) (t : Text) : nameRest k t ≤ t.length := by
  induction t generalizing k with
  | nil => cases k <;> exact Nat.le_refl 0
  | cons c t ih =>
      have (k : Nat) : 1 + nameRest k t ≤ (c :: t).length := by
        have := ih k
        rw [List.length_cons]
        omega
      cases k with
      | succ k => exact this k
      | zero =>
          unfold nameRest
          split
          · exact this 0
          · split
            · exact Nat.zero_le _
            · exact this _

theorem nameRest_of_isNamePart (fits : isNamePart c = true) (t : Text) :
    nameRest 0 (c :: t) = 1 + nameRest 0 t := by
  rw [nameRest, if_pos fits]

theorem nameRest_of_escape {k : Nat} (other : isNamePart c = false)
    (escape : unicodeEscape (c :: t) = k + 1) : nameRest 0 (c :: t) = 1 + nameRest k t := by
  rw [nameRest, if_neg (Bool.eq_false_iff.1 other), escape]

theorem nameRest_of_neither (other : isNamePart c = false) (none : unicodeEscape (c :: t) = 0) :
    nameRest 0 (c :: t) = 0 := by
  rw [nameRest, if_neg (Bool.eq_false_iff.1 other), none]

theorem nameRest_succ (k : Nat) (c : Char) (t : Text) :
    nameRest (k + 1) (c :: t) = 1 + nameRest k t := rfl

theorem nameRest_append {k : Nat} (le : k ≤ w.length) (pauses : Pauses s) :
    nameRest k (w ++ s) = nameRest k w := by
  induction w generalizing k with
  | nil =>
      obtain rfl := Nat.le_zero.1 le
      cases s with
      | nil => rfl
      | cons c s =>
          exact nameRest_of_neither (isNamePart_of_isWhite (pauses c rfl))
            (unicodeEscape_append [] pauses)
  | cons c w ih =>
      cases k with
      | succ k =>
          rw [List.cons_append, nameRest_succ, nameRest_succ, ih (Nat.le_of_succ_le_succ le)]
      | zero =>
          have escape : unicodeEscape (c :: (w ++ s)) = unicodeEscape (c :: w) :=
            unicodeEscape_append (c :: w) pauses
          rw [List.cons_append]
          cases part : isNamePart c with
          | true =>
              rw [nameRest_of_isNamePart part, nameRest_of_isNamePart part, ih (Nat.zero_le _)]
          | false =>
              have inside := unicodeEscape_le (c :: w)
              cases length : unicodeEscape (c :: w) with
              | zero =>
                  rw [nameRest_of_neither part (escape.trans length),
                    nameRest_of_neither part length]
              | succ k =>
                  rw [length] at inside
                  rw [nameRest_of_escape part (escape.trans length), nameRest_of_escape part length,
                    ih (Nat.le_of_succ_le_succ inside)]

def beginsName (t : Text) : Bool := t.head?.any isNameStart || unicodeEscape t != 0

/-- A name is the rest of a name, if one may begin there. -/
theorem name_eq (t : Text) : name t = if beginsName t then nameRest 0 t else 0 := by
  cases t with
  | nil => rfl
  | cons c t =>
      rw [beginsName, List.head?_cons, Option.any_some, name]
      cases start : isNameStart c with
      | true =>
          have part : isNamePart c = true := by rw [isNamePart, start, Bool.true_or]
          rw [if_pos rfl, Bool.true_or, if_pos rfl, nameRest_of_isNamePart part]
      | false =>
          rw [if_neg Bool.false_ne_true, Bool.false_or]
          cases escape : unicodeEscape (c :: t) with
          | zero => rfl
          | succ k =>
              have backslash : c = '\\' := by
                by_contra other
                rw [unicodeEscape_of_ne other] at escape
                cases escape
              subst backslash
              exact (nameRest_of_escape (by decide) escape).symm

theorem name_le (t : Text) : name t ≤ t.length := by
  rw [name_eq]
  split
  · exact nameRest_le 0 t
  · exact Nat.zero_le _

theorem name_append (w : Text) (pauses : Pauses s) : name (w ++ s) = name w := by
  have begins : beginsName (w ++ s) = beginsName w := by
    have stops (c : Char) (white : isWhite c = true) : isNameStart c = false :=
      (Bool.or_eq_false_iff.1 (isNamePart_of_isWhite white)).1
    rw [beginsName, beginsName, unicodeEscape_append w pauses, any_head?_append stops w pauses]
  rw [name_eq, name_eq, begins, nameRest_append (Nat.zero_le _) pauses]

theorem tight_name : Tight name := .of_append name_le fun w _ _ pauses => name_append w pauses

theorem privateName_eq (t : Text) :
    privateName ('#' :: t) = if name t = 0 then 0 else name t + 1 := by
  rw [privateName]
  cases name t <;> rfl

theorem privateName_of_ne (other : t.head? ≠ some '#') : privateName t = 0 := by
  unfold privateName
  split
  · exact absurd rfl other
  · rfl

theorem tight_privateName : Tight privateName := by
  refine .of_append (fun t => ?_) fun w s solid pauses => ?_
  · unfold privateName
    split
    · next rest =>
        have := name_le rest
        split
        · exact Nat.zero_le _
        · rw [List.length_cons]
          omega
    · exact Nat.zero_le _
  · by_cases hash : w.head? = some '#'
    · obtain ⟨u, rfl⟩ : ∃ u, w = '#' :: u := List.head?_eq_some_iff.1 hash
      have same := name_append u pauses
      rw [List.cons_append, privateName_eq, privateName_eq, same]
    · have other : (w ++ s).head? ≠ some '#' := by
        cases w with
        | nil => exact head?_ne_of_pauses pauses (by decide)
        | cons c w => exact hash
      rw [privateName_of_ne hash, privateName_of_ne other]

theorem freeName_eq (t : Text) :
    freeName t = if reserved.contains (t.take (name t)) then 0 else name t := by
  unfold freeName
  split
  · next none => rw [none, ite_self]
  · rfl

theorem tight_freeName : Tight freeName := by
  refine .of_append (fun t => ?_) fun w s solid pauses => ?_
  · rw [freeName_eq]
    split
    · exact Nat.zero_le _
    · exact name_le t
  · rw [freeName_eq, freeName_eq, name_append w pauses, List.take_append_of_le_length (name_le w)]

theorem tagName_eq (t : Text) : tagName t =
    if name t != 0 then name t + ((t.drop (name t)).takeWhile
      fun c => isNamePart c || c == '-' || c == ':' || c == '.').length else 0 := by
  unfold tagName
  split
  · next none =>
      rw [none]
      rfl
  · next k some => rw [if_pos (bne_iff_ne.2 some)]

theorem tight_tagName : Tight tagName := by
  have part := eq_false_of_isWhite (f := fun c => isNamePart c || c == '-' || c == ':' || c == '.')
    (by decide) (by decide) (by decide) (by decide)
  have begins (w s : Text) (pauses : Pauses s) : (name (w ++ s) != 0) = (name w != 0) := by
    rw [name_append w pauses]
  rw [funext tagName_eq]
  exact (tight_name.andThen (tight_takeWhile part)).onlyIf begins

theorem closing_of_isHex (fits : isHex c = true) : Closing c :=
  closing_of (by decide) (by decide) fits

/-- All of four digits are digits. -/
theorem closing_of_mem_digits (four : ((t.take 4).takeWhile isHex).length = 4) :
    ∀ c ∈ t.take 4, Closing c := by
  have all := (List.takeWhile_prefix (l := t.take 4) isHex).eq_of_length (by
    have := length_takeWhile_le isHex (t.take 4)
    have := List.length_take_le 4 t
    omega)
  rw [← all]
  exact fun c member => closing_of_isHex (List.mem_takeWhile_imp member)

theorem closes_unicodeEscape : Closes unicodeEscape := by
  intro t c last
  unfold unicodeEscape at last
  split at last
  · next rest =>
      dsimp only at last
      split at last
      · next closed =>
          have brace := eq_of_beq (Bool.and_eq_true_iff.1 closed).2
          have ends := getLast?_take_succ (t := '\\' :: 'u' :: '{' :: rest)
            (n := (rest.takeWhile isHex).length + 3) brace
          cases ends.symm.trans last
          exact ⟨by decide, by decide⟩
      · cases last
  · next rest _ =>
      split at last
      · next four =>
          have long : rest.take 4 ≠ [] := fun none => by
            rw [none] at four
            cases four
          have parts : ('\\' :: 'u' :: rest).take 6 = ['\\', 'u'] ++ rest.take 4 := rfl
          rw [parts, List.getLast?_append_of_ne_nil _ long] at last
          exact closing_of_mem_digits (eq_of_beq four) c (List.mem_of_getLast? last)
      · cases last
  · cases last

theorem le_nameRest (k : Nat) (t : Text) (le : k ≤ t.length) : k ≤ nameRest k t := by
  induction t generalizing k with
  | nil =>
      obtain rfl := Nat.le_zero.1 le
      exact Nat.zero_le _
  | cons c t ih =>
      cases k with
      | zero => exact Nat.zero_le _
      | succ k =>
          have := ih k (Nat.le_of_succ_le_succ le)
          rw [nameRest_succ]
          omega

theorem closing_of_nameRest (k : Nat) (t : Text) (more : k < nameRest k t) :
    ∀ c ∈ (t.take (nameRest k t)).getLast?, Closing c := by
  induction t generalizing k with
  | nil => cases k <;> cases more
  | cons d t ih =>
      have goOn (k : Nat) (more : k < nameRest k t) :
          ∀ c ∈ ((d :: t).take (1 + nameRest k t)).getLast?, Closing c := by
        rw [getLast?_take_one_add (take_ne_nil (Nat.zero_lt_of_lt more) (nameRest_le k t))]
        exact ih k more
      cases k with
      | succ k =>
          rw [nameRest_succ] at more ⊢
          exact goOn k (by omega)
      | zero =>
          cases part : isNamePart d with
          | true =>
              rw [nameRest_of_isNamePart part]
              rcases Nat.eq_zero_or_pos (nameRest 0 t) with none | more
              · rw [none]
                intro c last
                cases last
                exact closing_of (by decide) (by decide) part
              · exact goOn 0 more
          | false =>
              have inside := unicodeEscape_le (d :: t)
              have closing := closes_unicodeEscape (d :: t)
              cases escape : unicodeEscape (d :: t) with
              | zero =>
                  rw [nameRest_of_neither part escape]
                  exact nofun
              | succ k =>
                  rw [escape] at inside closing
                  rw [nameRest_of_escape part escape]
                  rcases Nat.eq_or_lt_of_le (le_nameRest k t (Nat.le_of_succ_le_succ inside)) with
                    done | more
                  · rw [← done, Nat.add_comm]
                    exact closing
                  · exact goOn k more

theorem closes_name : Closes name := by
  intro t
  rw [name_eq]
  split
  · next begins =>
      rcases Nat.eq_zero_or_pos (nameRest 0 t) with none | more
      · rw [none]
        exact nofun
      · exact closing_of_nameRest 0 t more
  · exact nofun

theorem closes_privateName : Closes privateName := by
  intro t
  by_cases hash : t.head? = some '#'
  · obtain ⟨u, rfl⟩ := List.head?_eq_some_iff.1 hash
    rw [privateName_eq]
    split
    · exact nofun
    · next found =>
        rw [Nat.add_comm,
          getLast?_take_one_add (take_ne_nil (Nat.pos_of_ne_zero found) (name_le u))]
        exact closes_name u
  · rw [privateName_of_ne hash]
    exact nofun

theorem closes_freeName : Closes freeName := by
  intro t
  rw [freeName_eq]
  split
  · exact nofun
  · exact closes_name t

theorem closes_tagName : Closes tagName := by
  have part (c : Char) (fits : (isNamePart c || c == '-' || c == ':' || c == '.') = true) :
      Closing c :=
    closing_of (f := fun c => isNamePart c || c == '-' || c == ':' || c == '.') (by decide)
      (by decide) fits
  intro t
  rw [tagName_eq]
  split
  · exact closes_name.andThen (keeps_takeWhile part).closes t
  · exact nofun

end ApiReference.Syntax.Lexeme
