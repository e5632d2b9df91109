import ApiReference.Proofs.Query.Evidence
import ApiReference.Proofs.Query.Version
import ApiReference.Proofs.Text.LowerForms
import ApiReference.Proofs.Text.Words

/-!
# Where tokens come from

A token is a word without the punctuation around it, or the name or the version of a pinned word.
Tokens are words themselves. Main statements: `mem_tokens_iff`, `isWord_lower`,
`mem_versionWordIndices_iff`.
-/

namespace ApiReference.Query
open ApiReference.Text (isBlank isAsciiDigit IsWord)

/-- A word is cut at its last at sign. -/
theorem splitLast_at_eq_some {word a b : Text} : Text.splitLast (· == '@') word = some (a, b) ↔
    word = a ++ '@' :: b ∧ '@' ∉ b := by
  rw [Text.splitLast_eq_some]
  constructor
  · rintro ⟨c, split, sign, after⟩
    obtain rfl : c = '@' := beq_iff_eq.1 sign
    exact ⟨split, fun member => absurd (after '@' member) (by decide)⟩
  · rintro ⟨split, absent⟩
    exact ⟨'@', split, rfl, fun d member => beq_false_of_ne (ne_of_mem_of_not_mem member absent)⟩

theorem splitPinned?_eq_some_iff_splitLast {word name version : Text} :
    Token.splitPinned? word = some (name, version) ↔
      Text.splitLast (· == '@') word = some (name, version) ∧
        name ≠ [] ∧ version.head?.any isAsciiDigit = true := by
  unfold Token.splitPinned?
  cases Text.splitLast (· == '@') word with
  | none => exact ⟨nofun, fun both => nomatch both.1⟩
  | some parts =>
      obtain ⟨a, b⟩ := parts
      simp only [List.isEmpty_iff, Option.ite_none_left_eq_some, Option.ite_none_right_eq_some,
        Option.some.injEq, Prod.mk.injEq]
      constructor
      · rintro ⟨some, digit, rfl, rfl⟩
        exact ⟨⟨rfl, rfl⟩, some, digit⟩
      · rintro ⟨⟨rfl, rfl⟩, some, digit⟩
        exact ⟨some, digit, rfl, rfl⟩

theorem splitPinned?_eq_some {word name version : Text} :
    Token.splitPinned? word = some (name, version) ↔ word = name ++ '@' :: version ∧
      '@' ∉ version ∧ name ≠ [] ∧ version.head?.any isAsciiDigit = true := by
  rw [splitPinned?_eq_some_iff_splitLast, splitLast_at_eq_some, and_assoc]

theorem splitPinned?_eq_none {word : Text} (sign : '@' ∉ word) : Token.splitPinned? word = none := by
  cases split : Token.splitPinned? word with
  | none => rfl
  | some parts =>
      obtain ⟨whole, -⟩ := splitPinned?_eq_some.1 split
      rw [whole] at sign
      exact absurd (List.mem_append_right _ List.mem_cons_self) sign

/-- How a token comes from a word: it is the name or the version of a pinned word, or any other
word as a whole. -/
inductive ComesFrom (word : Text) : Token → Prop where
  | whole (nonempty : Token.bare word ≠ []) (free : Token.splitPinned? (Token.bare word) = none) :
      ComesFrom word (.ofText (Token.bare word))
  | name {name version : Text}
      (pinned : Token.splitPinned? (Token.bare word) = some (name, version)) :
      ComesFrom word (.ofText name)
  | version {name version : Text}
      (pinned : Token.splitPinned? (Token.bare word) = some (name, version)) :
      ComesFrom word (.ofText version)

theorem comesFrom_of_mem {word : Text} {t : Token} (member : t ∈ Token.ofWord word) :
    ComesFrom word t := by
  unfold Token.ofWord at member
  simp only [List.isEmpty_iff] at member
  split at member
  · cases member
  · next nonempty =>
      split at member
      · next name version pinned =>
          rcases List.mem_pair.1 member with rfl | rfl
          · exact .name pinned
          · exact .version pinned
      · next free =>
          obtain rfl := List.mem_singleton.1 member
          exact .whole nonempty free

theorem mem_of_mem_bare {word : Text} {c : Char} (member : c ∈ Token.bare word) : c ∈ word :=
  (Text.trimOf_sublist _ word).mem (Text.mem_of_mem_trimEndOf member)

theorem ComesFrom.isWord {word : Text} {t : Token} (source : ComesFrom word t)
    (visible : ∀ c ∈ word, isBlank c = false) : IsWord t.written := by
  have bare : ∀ c ∈ Token.bare word, isBlank c = false :=
    fun c member => visible c (mem_of_mem_bare member)
  cases source with
  | whole nonempty free => exact ⟨nonempty, bare⟩
  | name pinned =>
      obtain ⟨split, -, nonempty, -⟩ := splitPinned?_eq_some.1 pinned
      rw [split] at bare
      exact ⟨nonempty, (List.forall_mem_append.1 bare).1⟩
  | @version name version pinned =>
      obtain ⟨split, -, -, digit⟩ := splitPinned?_eq_some.1 pinned
      rw [split] at bare
      refine ⟨?_, (List.forall_mem_cons.1 (List.forall_mem_append.1 bare).2).2⟩
      rintro rfl
      cases digit

theorem exists_comesFrom {query : Text} {t : Token} (member : t ∈ tokens query) :
    ∃ word ∈ Text.words query, ComesFrom word t := by
  obtain ⟨word, listed, made⟩ := List.mem_flatMap.1 member
  exact ⟨word, listed, comesFrom_of_mem made⟩

theorem isWord_lower {query : Text} {t : Token} (member : t ∈ tokens query) : IsWord t.lower := by
  obtain ⟨word, listed, source⟩ := exists_comesFrom member
  obtain ⟨nonempty, visible⟩ := source.isWord (Text.isWord_of_mem_words listed).visible
  rw [Token.lower_eq member]
  refine ⟨Text.lower_ne_nil nonempty, fun c inside => Bool.eq_false_iff.2 fun blank => ?_⟩
  have kept := visible c ((Text.mem_lower_iff (.inr blank)).1 inside)
  rw [blank] at kept
  cases kept

theorem indexed_append (a b : List Token) :
    indexed (a ++ b) = indexed a ++ (indexed b).map fun (i, t) => (a.length + i, t) := by
  have lengths : (List.range a.length).length = a.length := List.length_range
  rw [indexed, List.length_append, List.range_add, List.zip_append lengths]
  refine congrArg (indexed a ++ ·) ?_
  rw [List.zip_map_left]
  rfl

theorem mem_indexed_place (before : List Token) (t : Token) (after : List Token) :
    (before.length, t) ∈ indexed (before ++ t :: after) := by
  have start : (0, t) ∈ indexed (t :: after) := by
    rw [indexed, List.length_cons, List.range_succ_eq_map]
    exact List.mem_cons_self
  rw [indexed_append]
  exact List.mem_append_right _ (List.mem_map.2 ⟨(0, t), start, rfl⟩)

/-- Two tokens that are the word "version" and a number. -/
def IsVersionPair (first second : Token) : Prop :=
  first.lower = "version".toList ∧ second.lower.head?.any isAsciiDigit = true ∧
    second.isVersion = true

theorem isVersionPair_iff {first second : Token} : (first.lower == "version".toList &&
    second.lower.head?.any isAsciiDigit && second.isVersion) = true ↔
      IsVersionPair first second := by
  rw [Bool.and_eq_true, Bool.and_eq_true, beq_iff_eq, and_assoc]
  rfl

theorem mem_versionWordIndices_cons {i j : Nat} {first second : Token} {rest : List Token} :
    j ∈ versionWordIndices i (first :: second :: rest) ↔
      j = i ∧ IsVersionPair first second ∨ j ∈ versionWordIndices (i + 1) (second :: rest) := by
  rw [versionWordIndices, ← isVersionPair_iff]
  split
  · next pair => rw [List.mem_cons, and_iff_left pair]
  · next none => rw [or_iff_right fun pair => none pair.2]

/-- The word "version" is left out in each pair of it and a number, and nowhere else. -/
theorem mem_versionWordIndices_iff {i j : Nat} {ts : List Token} :
    j ∈ versionWordIndices i ts ↔ ∃ before first second after,
      ts = before ++ first :: second :: after ∧ j = i + before.length ∧
        IsVersionPair first second := by
  induction ts generalizing i with
  | nil =>
      refine ⟨nofun, ?_⟩
      rintro ⟨before, first, second, after, split, -⟩
      exact absurd split.symm (List.append_ne_nil_of_right_ne_nil before (List.cons_ne_nil _ _))
  | cons t ts ih =>
      cases ts with
      | nil =>
          refine ⟨nofun, ?_⟩
          rintro ⟨before, first, second, after, split, -⟩
          have lengths := congrArg List.length split
          simp only [List.length_append, List.length_cons, List.length_nil] at lengths
          omega
      | cons u ts =>
          rw [mem_versionWordIndices_cons, ih]
          constructor
          · rintro (⟨rfl, pair⟩ | ⟨before, first, second, after, split, rfl, pair⟩)
            · exact ⟨[], t, u, ts, rfl, rfl, pair⟩
            · refine ⟨t :: before, first, second, after, congrArg (t :: ·) split, ?_, pair⟩
              rw [List.length_cons]
              omega
          · rintro ⟨before, first, second, after, split, rfl, pair⟩
            cases before with
            | nil =>
                cases split
                exact .inl ⟨rfl, pair⟩
            | cons v before =>
                obtain ⟨rfl, rest⟩ := List.cons.inj split
                refine .inr ⟨before, first, second, after, rest, ?_, pair⟩
                rw [List.length_cons]
                omega

end ApiReference.Query
