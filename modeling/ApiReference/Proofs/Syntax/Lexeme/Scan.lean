import ApiReference.Proofs.Syntax.Lexeme.Literal
import ApiReference.Proofs.Syntax.Lexeme.Name
import ApiReference.Proofs.Syntax.Lexeme.Number

/-!
# How tokens are scanned

Whatever token the grammar looks for, it finds it in both of two texts that differ only in their
gaps, or in neither. Main statements: `Scan.cutsAlike`, `agree_any`.
-/

namespace ApiReference.Syntax

variable {p q r : Layout} {s t u v : Text} {c : Char}

theorem Layout.isOpen_of_closing (closing : Lexeme.Closing p.last) : p.isOpen = false := by
  rw [isOpen, beq_eq_false_iff_ne.2 closing.1, beq_eq_false_iff_ne.2 closing.2]
  exact Bool.and_false _

/-- The layout after a text that ends in a closing character. -/
theorem Reflow.closing_last (reflow : Reflow p u v r) (some : u ≠ [])
    (closing : ∀ c ∈ u.getLast?, Lexeme.Closing c) : Lexeme.Closing r.last := by
  induction reflow with
  | nil => exact absurd rfl some
  | @same p q c s t token more ih =>
      cases s with
      | nil =>
          obtain ⟨-, rfl⟩ := more.of_nil
          exact closing c rfl
      | cons d s => exact ih (List.cons_ne_nil d s) (List.getLast?_cons_cons ▸ closing)
  | @gap p q g h s t left right unescaped token more ih =>
      cases s with
      | nil =>
          obtain ⟨-, rfl⟩ := more.of_nil
          exact (by decide : Lexeme.Closing ' ')
      | cons d s =>
          rw [List.getLast?_append_of_ne_nil _ (List.cons_ne_nil d s)] at closing
          exact ih (List.cons_ne_nil d s) closing
  | @fold p q g h s t left right ends more ih =>
      cases s with
      | nil =>
          obtain ⟨-, rfl⟩ := more.of_nil
          exact (by decide : Lexeme.Closing ' ')
      | cons d s =>
          rw [List.getLast?_append_of_ne_nil _ (List.cons_ne_nil d s)] at closing
          exact ih (List.cons_ne_nil d s) closing

theorem CutsAlike.mono {P Q : Layout → Prop} {j k : Nat} (weaker : ∀ r, P r → Q r)
    (alike : CutsAlike p q s t P j k) : CutsAlike p q s t Q j k :=
  alike.imp_right fun ⟨found, found', r, cut, ends⟩ => ⟨found, found', r, cut, weaker r ends⟩

namespace Lexeme
variable {scan : Text → Nat}

theorem Tight.cutsAlike (tight : Tight scan) (reflow : Reflow p s t q) :
    CutsAlike p q s t (fun r => Closes scan → r.isOpen = false) (scan s) (scan t) := by
  obtain ⟨same, r, cut⟩ := tight.cut reflow
  by_cases none : scan s = 0
  · exact .inl ⟨none, same.trans none⟩
  · refine .inr ⟨none, same ▸ none, r, cut, fun closes => Layout.isOpen_of_closing ?_⟩
    exact cut.front.closing_last (take_ne_nil (Nat.pos_of_ne_zero none) cut.le) (closes s)

theorem any_eq (t : Text) : any t =
    if name t ≠ 0 then name t else if string t ≠ 0 then string t
    else if number t ≠ 0 then number t else if t.isEmpty then 0 else 1 := by
  unfold any
  split
  · next none =>
      rw [if_neg (not_not.2 none)]
      split
      · next none =>
          rw [if_neg (not_not.2 none)]
          split
          · next none => rw [if_neg (not_not.2 none)]
          · next found => rw [if_pos found]
      · next found => rw [if_pos found]
  · next found => rw [if_pos found]

/-- A token of any kind is cut off alike. -/
theorem agree_any (reflow : Reflow p s t q) (visible : ∀ c ∈ s.head?, isWhite c = false) :
    CutsAlike p q s t (fun r => (∀ c ∈ s.head?, Closing c) → r.isOpen = false) (any s)
      (any t) := by
  rw [any_eq, any_eq]
  rcases tight_name.cutsAlike reflow with ⟨none, none'⟩ | ⟨found, found', r, cut, closed⟩
  swap
  · rw [if_pos found, if_pos found']
    exact .inr ⟨found, found', r, cut, fun _ => closed closes_name⟩
  rw [if_neg (not_not.2 none), if_neg (not_not.2 none')]
  rcases agree_string reflow with ⟨none, none'⟩ | ⟨found, found', r, cut, bound⟩
  swap
  · rw [if_pos found, if_pos found']
    exact .inr ⟨found, found', r, cut, fun _ => Layout.isOpen_of_bound bound⟩
  rw [if_neg (not_not.2 none), if_neg (not_not.2 none')]
  rcases tight_number.cutsAlike reflow with ⟨none, none'⟩ | ⟨found, found', r, cut, closed⟩
  swap
  · rw [if_pos found, if_pos found']
    exact .inr ⟨found, found', r, cut, fun _ => closed keeps_number.closes⟩
  rw [if_neg (not_not.2 none), if_neg (not_not.2 none')]
  rcases reflow.cases_head with ⟨c, s, t, rfl, rfl, -, one, more⟩ | ⟨pauses, -⟩
  · exact .inr ⟨Nat.one_ne_zero, Nat.one_ne_zero, _, (Cut.here more).after one,
      fun closing => Layout.isOpen_of_closing (closing c rfl)⟩
  · cases s with
    | nil =>
        rw [reflow.of_nil.1]
        exact .inl ⟨rfl, rfl⟩
    | cons c s =>
        exact absurd (pauses c rfl) (Bool.eq_false_iff.1 (visible c rfl))

/-- The ways in which the grammar scans tokens. -/
inductive Scan : (Text → Nat) → Prop where
  | name : Scan name
  | privateName : Scan privateName
  | freeName : Scan freeName
  | string : Scan string
  | template : Scan template
  | number : Scan number
  | regex : Scan regex
  | operator : Scan operator
  | tagName : Scan tagName
  | elementText : Scan elementText
  | hashBang : Scan hashBang
  | any : Scan any
  | word {w : Text} (letters : w.all isNamePart = true) : Scan (word w)
  | mark {m forbidden : Text} (signs : m.all marks.contains = true)
      (others : forbidden.all marks.contains = true)
      (closing : m.length = 1 ∨ ∀ c ∈ m, Closing c) : Scan (mark m forbidden)

/-- Whether a scan may find a token that ends in a semicolon or an opening brace. -/
def mayOpen (scan : Text → Nat) : Bool := scan [';'] != 0 || scan ['{'] != 0

/-- Whether a scan at a text finds none that does. A scan that takes an angle bracket either takes
names and single characters or never takes a semicolon or an opening brace. -/
def Shuts (scan : Text → Nat) (t : Text) : Prop :=
  mayOpen scan = false ∨ scan ['<'] ≠ 0 ∧ ∀ c ∈ t.head?, Closing c

theorem Scan.cutsAlike (known : Scan scan) (visible : ∀ c ∈ s.head?, isWhite c = false)
    (reflow : Reflow p s t q) :
    CutsAlike p q s t (fun r => Shuts scan s → r.isOpen = false) (scan s) (scan t) := by
  have still {scan : Text → Nat} (tight : Tight scan) (closes : Closes scan) :
      CutsAlike p q s t (fun r => Shuts scan s → r.isOpen = false) (scan s) (scan t) :=
    (tight.cutsAlike reflow).mono fun _ closed _ => closed closes
  have bound {j k : Nat} (alike : CutsAlike p q s t (·.free = false) j k) :
      CutsAlike p q s t (fun r => Shuts scan s → r.isOpen = false) j k :=
    alike.mono fun _ bound _ => Layout.isOpen_of_bound bound
  cases known with
  | name => exact still tight_name closes_name
  | privateName => exact still tight_privateName closes_privateName
  | freeName => exact still tight_freeName closes_freeName
  | tagName => exact still tight_tagName closes_tagName
  | number => exact still tight_number keeps_number.closes
  | operator => exact still tight_operator keeps_operator.closes
  | word letters => exact still (tight_word letters) (keeps_word letters).closes
  | string => exact bound (agree_string reflow)
  | regex => exact bound (agree_regex reflow)
  | hashBang => exact bound (agree_hashBang reflow)
  | template =>
      exact (agree_template reflow).mono fun _ closing _ => Layout.isOpen_of_closing closing
  | elementText =>
      refine (agree_elementText reflow).mono fun _ _ shuts => ?_
      rcases shuts with never | ⟨angle, -⟩
      · cases never
      · exact absurd rfl angle
  | any =>
      refine (agree_any reflow visible).mono fun _ closed shuts => ?_
      rcases shuts with never | ⟨-, closing⟩
      · cases never
      · exact closed closing
  | @mark m forbidden signs others closing =>
      refine ((tight_mark signs others).cutsAlike reflow).mono fun r closed shuts => closed ?_
      refine (keeps_mark (closing.elim (fun single => ?_) id)).closes
      obtain ⟨c, rfl⟩ := List.length_eq_one_iff.1 single
      refine List.forall_mem_singleton.2 ⟨?_, ?_⟩
      · rintro rfl
        rcases shuts with never | ⟨angle, -⟩
        · cases never
        · exact angle rfl
      · rintro rfl
        rcases shuts with never | ⟨angle, -⟩
        · cases never
        · exact angle rfl

end Lexeme
end ApiReference.Syntax
