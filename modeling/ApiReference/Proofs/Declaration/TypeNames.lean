import ApiReference.Declaration.Signature
import ApiReference.Proofs.Text.Classes
import ApiReference.Proofs.Text.Following
import ApiReference.Proofs.Text.Parts
import ApiReference.Proofs.Text.Preference
import ApiReference.Proofs.Text.Words

/-!
# Names of types in a text

A text refers to the capitalized words in it: of the words between gaps those that have a capital
first and then nothing but letters, digits and low lines of ASCII. Main statements:
`references_eq`, `mem_references_iff`, `references_split`.
-/

namespace ApiReference.Declaration
open ApiReference.Text (Pattern isWordChar isBoundary)
open ApiReference.Text.Pattern (Reads Prefers findAfter findAll)

/-- A capital letter with letters, digits and low lines behind it. -/
def IsTypeName : Text → Prop
  | [] => False
  | c :: w => c.isUpper = true ∧ ∀ d ∈ w, (d.isAlphanum || d == '_') = true

instance decidableIsTypeName : (w : Text) → Decidable (IsTypeName w)
  | [] => inferInstanceAs (Decidable False)
  | c :: w => inferInstanceAs
      (Decidable (c.isUpper = true ∧ ∀ d ∈ w, (d.isAlphanum || d == '_') = true))

/-- Whether a character stands between words. -/
def isGap (c : Char) : Bool := !isWordChar c

theorem isGap_iff {c : Char} : isGap c = true ↔ isWordChar c = false := by
  rw [isGap, Bool.not_eq_true']

theorem isGap_eq_false_iff {c : Char} : isGap c = false ↔ isWordChar c = true := by
  rw [isGap, Bool.not_eq_false']

theorem isWordChar_of_isUpper {c : Char} (capital : c.isUpper = true) : isWordChar c = true := by
  have letter : c.isAlpha = true := Bool.or_eq_true_iff.2 (.inl capital)
  apply Text.isWordChar_of_isAlphanum
  exact Bool.or_eq_true_iff.2 (.inl letter)

theorem isWordChar_of_fits {c : Char} (fits : (c.isAlphanum || c == '_') = true) :
    isWordChar c = true := by
  rcases Bool.or_eq_true_iff.1 fits with letter | line
  · exact Text.isWordChar_of_isAlphanum letter
  · rw [eq_of_beq line]
    decide

theorem IsTypeName.isWordChar {w : Text} (isName : IsTypeName w) : ∀ c ∈ w, isWordChar c = true := by
  cases w with
  | nil => exact nofun
  | cons c w =>
      obtain ⟨capital, others⟩ := isName
      refine List.forall_mem_cons.2 ⟨isWordChar_of_isUpper capital, fun d member => ?_⟩
      exact isWordChar_of_fits (others d member)

theorem IsTypeName.exists_last {w : Text} (isName : IsTypeName w) :
    ∃ c, w.getLast? = some c ∧ Text.isWordChar c = true := by
  cases w with
  | nil => exact isName.elim
  | cons c w =>
      have last : (c :: w).getLast? = some (w.getLast?.getD c) := List.getLast?_cons
      exact ⟨_, last, isName.isWordChar _ (List.mem_of_getLast? last)⟩

section
variable {before : Option Char} {rest : Text} {h : Text.Hit}

/-- A match is a name of a type that is a whole word. -/
theorem exists_of_reads (reads : Reads typeReferencePattern (.start before rest) h) :
    ∃ w, IsTypeName w ∧ Text.Hit.Passes (.start before rest) w h ∧
      (∀ c ∈ before, isWordChar c = false) ∧ ∀ c ∈ h.rest.head?, isWordChar c = false := by
  obtain ⟨_, start, reads⟩ := Pattern.reads_all_cons.1 reads
  obtain ⟨opens, rfl⟩ := Pattern.reads_boundary.1 start
  obtain ⟨m, first, reads⟩ := Pattern.reads_all_cons.1 reads
  obtain ⟨c, more, next, capital, rfl⟩ := Pattern.reads_one.1 first
  obtain ⟨m, others, reads⟩ := Pattern.reads_all_cons.1 reads
  obtain ⟨w, fits, passes⟩ := others.many_one
  obtain ⟨_, stop, last⟩ := Pattern.reads_all_cons.1 reads
  obtain ⟨closes, rfl⟩ := Pattern.reads_boundary.1 stop
  obtain rfl := Pattern.reads_all_nil.1 last
  have isName : IsTypeName (c :: w) := ⟨capital, fits⟩
  have whole := (Text.Hit.Passes.char next).trans passes
  refine ⟨c :: w, isName, whole, ?_, ?_⟩
  · exact (Pattern.isBoundary_cons_iff (isWordChar_of_isUpper capital)).1 (next ▸ opens)
  · obtain ⟨d, last, word⟩ := isName.exists_last
    rw [whole.before, List.singleton_append, last, Option.some_or] at closes
    exact (Pattern.isBoundary_some_iff word).1 closes

/-- A name of a type that is a whole word is matched. -/
theorem prefers_typeName {w : Text} (isName : IsTypeName w)
    (apart : ∀ c ∈ before, isWordChar c = false) (outside : ∀ c ∈ rest.head?, isWordChar c = false) :
    Prefers typeReferencePattern (.start before (w ++ rest))
      ((Text.Hit.start before (w ++ rest)).over w rest) := by
  obtain ⟨d, last, word⟩ := isName.exists_last
  cases w with
  | nil => exact isName.elim
  | cons c w =>
      obtain ⟨capital, others⟩ := isName
      have start : Prefers .boundary (.start before (c :: w ++ rest)) _ := Pattern.prefers_boundary
        ((Pattern.isBoundary_cons_iff (isWordChar_of_isUpper capital)).2 apart)
      have first : Prefers (.one Char.isUpper) (.start before (c :: w ++ rest)) _ :=
        Pattern.prefers_one rfl capital
      have ended : ∀ e ∈ rest.head?, (e.isAlphanum || e == '_') = false := by
        intro e ahead
        rw [Bool.eq_false_iff]
        intro fits
        have within := isWordChar_of_fits fits
        rw [outside e ahead] at within
        cases within
      have more := Pattern.prefers_many_one (p := fun c => c.isAlphanum || c == '_')
        (h := (Text.Hit.start before (c :: w ++ rest)).over [c] (w ++ rest)) rfl others ended
      rw [Text.Hit.over_over] at more
      have closes : isBoundary ((c :: w).getLast?.or before) rest = true := by
        rw [last, Option.some_or]
        exact (Pattern.isBoundary_some_iff word).2 outside
      have stop := Pattern.prefers_boundary
        (h := (Text.Hit.start before (c :: w ++ rest)).over (c :: w) rest) closes
      exact start.seq (first.seq (more.seq (stop.seq (Pattern.prefers_empty _))))

end

/-- The names of types that a text refers to, one after the other. -/
def references (t : Text) : List Text := typeReferencePattern.findAll t

section
variable {v tail rest : Text} {c : Char}

/-- Where no name of a type is a whole word, nothing is matched. -/
theorem ends_eq_nil {before : Option Char} (none : ∀ w after, rest = w ++ after → IsTypeName w →
      (∀ c ∈ before, isWordChar c = false) → ¬ ∀ c ∈ after.head?, isWordChar c = false) :
    typeReferencePattern.ends (.start before rest) = [] := by
  refine List.eq_nil_iff_forall_not_mem.2 fun h member => ?_
  obtain ⟨w, isName, passes, apart, outside⟩ := exists_of_reads (.of_mem_ends member)
  exact none w h.rest passes.rest isName apart outside

theorem findAfter_nil (before : Option Char) : findAfter typeReferencePattern before [] = none := by
  rw [findAfter, ends_eq_nil]
  · rfl
  · intro w after split isName
    obtain rfl := (List.append_eq_nil_iff.1 split.symm).1
    exact isName.elim

theorem findAfter_gap (gap : isWordChar c = false) (before : Option Char) :
    findAfter typeReferencePattern before (c :: rest) =
      findAfter typeReferencePattern (some c) rest := by
  rw [findAfter, ends_eq_nil]
  · rfl
  · intro w after split isName
    cases w with
    | nil => exact isName.elim
    | cons d w =>
        obtain ⟨rfl, -⟩ := List.cons.inj split
        rw [isName.isWordChar c List.mem_cons_self] at gap
        cases gap

/-- A word that is no name of a type is passed over as a whole. -/
theorem findAfter_other (word : ∀ c ∈ v, isWordChar c = true) (other : ¬ IsTypeName v)
    (ended : ∀ c ∈ tail.head?, isWordChar c = false) (before : Option Char) :
    findAfter typeReferencePattern before (v ++ tail) =
      findAfter typeReferencePattern (v.getLast?.or before) tail := by
  refine Pattern.findAfter_append tail fun a c b split => ends_eq_nil ?_
  intro w after parts isName apart outside
  cases last : a.getLast? with
  | none =>
      -- A match at the start of the word is the whole word.
      obtain rfl := List.getLast?_eq_none_iff.1 last
      have whole : v ++ tail = w ++ after := by rw [split]; exact parts
      have same : v = w := by
        rw [← Text.takeWhile_run word ended, whole, Text.takeWhile_run isName.isWordChar outside]
      exact other (same ▸ isName)
  | some d =>
      have inside := word d (split ▸ List.mem_append_left _ (List.mem_of_getLast? last))
      rw [apart d (by rw [last]; rfl)] at inside
      cases inside

theorem go_word (tail : Text) (word : ∀ c ∈ v, isWordChar c = true)
    (ended : ∀ c ∈ tail.head?, isWordChar c = false) {before : Option Char}
    (apart : ∀ c ∈ before, isWordChar c = false) (n : Nat) :
    findAll.go typeReferencePattern (n + 1) before (v ++ tail) =
      if IsTypeName v then v :: findAll.go typeReferencePattern n v.getLast? tail
      else findAll.go typeReferencePattern (n + 1) (v.getLast?.or before) tail := by
  split
  · next isName =>
      have found : findAfter typeReferencePattern before ([] ++ (v ++ tail)) =
          some ((Text.Hit.start before (v ++ tail)).over v tail) :=
        Pattern.findAfter_of_prefers (fun a c b split => by cases a <;> cases split)
          (prefers_typeName isName apart ended)
      obtain ⟨d, last, -⟩ := isName.exists_last
      rw [findAll.go, show findAfter typeReferencePattern before (v ++ tail) = _ from found]
      simp only [Text.Hit.text, Text.Hit.over, Text.Hit.start, List.append_nil,
        List.reverse_reverse, last, Option.some_or]
  · next other => rw [findAll.go, findAfter_other word other ended, findAll.go]

theorem go_nil (n : Nat) (before : Option Char) :
    findAll.go typeReferencePattern n before [] = [] := by
  cases n with
  | zero => rfl
  | succ n => rw [findAll.go, findAfter_nil]

theorem go_gap (gap : isWordChar c = false) (n : Nat) (before : Option Char) :
    findAll.go typeReferencePattern n before (c :: rest) =
      findAll.go typeReferencePattern n (some c) rest := by
  cases n with
  | zero => rfl
  | succ n => rw [findAll.go, findAfter_gap gap, findAll.go]

end

/-- A scan from a place between words finds the names of types among the words. -/
theorem go_eq {n : Nat} {t : Text} {before : Option Char} (enough : t.length < n)
    (apart : ∀ c ∈ before, isWordChar c = false) :
    findAll.go typeReferencePattern n before t =
      (Text.splitOn isGap t).filter fun w => IsTypeName w := by
  induction length : t.length using Nat.strongRecOn generalizing n t before with
  | ind k ih =>
      obtain ⟨n, rfl⟩ : ∃ m, n = m + 1 := ⟨n - 1, by omega⟩
      obtain ⟨v, vs, pieces⟩ := List.exists_cons_of_ne_nil (Text.splitOn_ne_nil isGap t)
      have word : ∀ c ∈ v, isWordChar c = true := fun c member => isGap_eq_false_iff.1
        (Text.of_mem_splitOn (pieces.symm ▸ List.mem_cons_self) c member).1
      rw [pieces, List.filter_cons]
      rcases Text.splitOn_eq_cons pieces with ⟨rfl, rfl⟩ | ⟨c, rest, rfl, gap, rfl⟩
      · have scan := go_word [] word nofun apart n
        rw [List.append_nil, go_nil, go_nil] at scan
        rw [scan]
        simp only [decide_eq_true_eq, List.filter_nil]
      · have gap := isGap_iff.1 gap
        have after (d : Char) (same : d ∈ some c) : isWordChar d = false :=
          Option.some.inj same ▸ gap
        rw [List.length_append, List.length_cons] at length enough
        have behind {m : Nat} (more : rest.length < m) :
            findAll.go typeReferencePattern m (some c) rest =
              (Text.splitOn isGap rest).filter fun w => IsTypeName w :=
          ih rest.length (by omega) more after rfl
        rw [go_word (c :: rest) word after apart, go_gap gap, go_gap gap, behind (by omega),
          behind (by omega)]
        simp only [decide_eq_true_eq]

theorem references_eq (t : Text) :
    references t = (Text.splitOn isGap t).filter fun w => IsTypeName w :=
  go_eq (Nat.lt_succ_self _) nofun

/-- Whether a text begins and ends at gaps or ends of the text it stands in. -/
def Apart (before after : Text) : Prop :=
  (∀ c ∈ before.getLast?, isWordChar c = false) ∧ ∀ c ∈ after.head?, isWordChar c = false

/-- Whether a text stands in another one as a whole word. -/
def StandsIn (w t : Text) : Prop := ∃ before after, t = before ++ (w ++ after) ∧ Apart before after

theorem mem_references_iff {name t : Text} :
    name ∈ references t ↔ IsTypeName name ∧ StandsIn name t := by
  rw [references_eq, List.mem_filter, decide_eq_true_iff, Text.mem_splitOn_iff]
  simp only [isGap_iff, isGap_eq_false_iff]
  constructor
  · rintro ⟨⟨-, a, b, split, apart⟩, isName⟩
    exact ⟨isName, a, b, split, apart⟩
  · rintro ⟨isName, a, b, split, apart⟩
    exact ⟨⟨isName.isWordChar, a, b, split, apart⟩, isName⟩

/-- What is cut off behind a name does not change the names before. -/
theorem references_split {t name : Text} {lead more : List Text}
    (names : references t = lead ++ name :: more) :
    ∃ a b, t = a ++ (name ++ b) ∧ Apart a b ∧ references (a ++ name) = lead ++ [name] := by
  rw [references_eq] at names
  obtain ⟨front, back, pieces, rfl, found⟩ := List.filter_eq_append_iff.1 names
  obtain ⟨others, rest, rfl, none, isName, -⟩ := List.filter_eq_cons_iff.1 found
  rw [← List.append_assoc] at pieces
  obtain ⟨a, b, split, before, after, cut⟩ := Text.splitOn_eq_append_cons pieces
  refine ⟨a, b, split, ⟨fun c last => isGap_iff.1 (before c last), fun c first =>
    isGap_iff.1 (after c first)⟩, ?_⟩
  rw [references_eq, cut, List.filter_append, List.filter_append, List.filter_eq_nil_iff.2 none,
    List.append_nil, List.filter_singleton, isName]
  rfl

end ApiReference.Declaration
