import ApiReference.Proofs.Query.Tokens
import ApiReference.Proofs.Query.VersionTokens
import ApiReference.Catalog.Builtin

/-!
# The version is no part of the concept

The concept of a query leaves out the version that is read from it, alone and behind the letter v,
the word "version" before it, and the version that a word is pinned to. A version that stands behind
an at sign in a word of its own stays part of the concept. Main statement: `concept_version`.
-/

namespace ApiReference.Query
open ApiReference.Text (isAsciiDigit isBlank IsWord)

/-- The tokens of a query that may make up its concept. -/
def kept (catalog : Catalog) (query : Text) : List Token :=
  conceptTokens catalog (tokens query)
    (detect catalog (tokens query) (normalize (tokens query))) (normalize (tokens query))

/-- Whether a token at a place is taken to name the framework. -/
def NamesFramework (catalog : Catalog) (query : Text) (i : Nat) (t : Token) : Prop :=
  ∃ d, detect catalog (tokens query) (normalize (tokens query)) = some d ∧
    (i ∈ d.consumed ∨ t.lower ∈ frameworkWords catalog d.target (normalize (tokens query)))

section
variable {catalog : Catalog} {query : Text}

/-- Whether a token at a place may be part of the concept. -/
def isKept (catalog : Catalog) (query : Text) : Nat × Token → Bool := fun (i, t) =>
  let detected := detect catalog (tokens query) (normalize (tokens query))
  !((detected.map Detection.consumed).getD []).contains i &&
    !(versionWordIndices 0 (tokens query)).contains i &&
    !((detected.map fun d =>
      frameworkWords catalog d.target (normalize (tokens query))).getD []).contains t.lower &&
    isContentToken t

theorem kept_eq : kept catalog query =
    ((indexed (tokens query)).filter (isKept catalog query)).map Prod.snd := rfl

theorem isKept_iff {i : Nat} {t : Token} : isKept catalog query (i, t) = true ↔
    ¬ NamesFramework catalog query i t ∧ i ∉ versionWordIndices 0 (tokens query) ∧
      isContentToken t = true := by
  unfold isKept NamesFramework
  cases detect catalog (tokens query) (normalize (tokens query)) with
  | none => simp
  | some d => simp [and_assoc, and_left_comm]

theorem content_of_mem_kept {t : Token} (member : t ∈ kept catalog query) :
    t ∈ tokens query ∧ isContentToken t = true := by
  rw [kept_eq] at member
  obtain ⟨⟨i, u⟩, among, rfl⟩ := List.mem_map.1 member
  obtain ⟨listed, fits⟩ := List.mem_filter.1 among
  exact ⟨exists_mem_indexed.1 ⟨i, listed⟩, (isKept_iff.1 fits).2.2⟩

theorem concept_parse : (parse catalog query).concept = concept catalog query (tokens query)
    (detect catalog (tokens query) (normalize (tokens query))) (normalize (tokens query)) := rfl

theorem concept_of_kept {first : Token} {more : List Token}
    (all : kept catalog query = first :: more) : (parse catalog query).concept =
      if hookName.accepts first.lower || (camelStart.atStart first.written).isSome then first.lower
      else Text.join [' '] ((first :: more).map Token.lower) := by
  rw [concept_parse, concept, show conceptTokens .. = first :: more from all]

/-- The words of a concept are tokens that were kept for it, if there are any. -/
theorem exists_of_mem_words_concept (some : kept catalog query ≠ []) {w : Text}
    (member : w ∈ Text.words (parse catalog query).concept) :
    ∃ t ∈ kept catalog query, w = t.lower := by
  have isWord : ∀ t ∈ kept catalog query, IsWord t.lower := fun t member =>
    isWord_lower (content_of_mem_kept member).1
  obtain ⟨first, more, all⟩ := List.exists_cons_of_ne_nil some
  rw [concept_of_kept all] at member
  rw [all] at isWord ⊢
  split at member
  · rw [(isWord first List.mem_cons_self).words_eq] at member
    exact ⟨first, List.mem_cons_self, List.mem_singleton.1 member⟩
  · rw [Text.words_join (List.forall_mem_map.2 isWord)] at member
    obtain ⟨t, listed, rfl⟩ := List.mem_map.1 member
    exact ⟨t, listed, rfl⟩

end

section
variable {catalog : Catalog} {query version : Text}

theorem isVersion_of_lower (extracted : Version.extract? query = some version) {t : Token}
    (same : t.lower = Text.lower version ∨ t.lower = 'v' :: Text.lower version) :
    t.isVersion = true := by
  have accepted := (Version.isVersion_of_extract? extracted).lower.accepts
  rw [Token.isVersion]
  rcases same with same | same
  · rw [same, accepted.1]
  · rw [same, accepted.2]

/-- A version is not kept, be it alone or behind the letter v. -/
theorem lower_ne_version (extracted : Version.extract? query = some version) {t : Token}
    (member : t ∈ kept catalog query) :
    t.lower ≠ Text.lower version ∧ t.lower ≠ 'v' :: Text.lower version := by
  rw [← not_or]
  intro same
  have content := (content_of_mem_kept member).2
  rw [isContentToken, isVersion_of_lower extracted same, Bool.not_true, Bool.and_false] at content
  cases content

theorem head?_lower_version (extracted : Version.extract? query = some version)
    (digit : version.head?.any isAsciiDigit = true) :
    (Text.lower version).head?.any isAsciiDigit = true := by
  rw [Text.lower_eq_map (Version.isVersion_of_extract? extracted).plain, List.head?_map]
  cases first : version.head? with
  | none =>
      rw [first] at digit
      cases digit
  | some c =>
      rw [first] at digit
      have small := Text.toLower_of_isSmall (Text.isCaseless_of_isAsciiDigit digit).isSmall
      rw [Option.map_some, small]
      exact digit

/-- What ends with an at sign and the version is the name of a word pinned to something else. -/
theorem pinned_of_lower (extracted : Version.extract? query = some version)
    (digit : version.head?.any isAsciiDigit = true) {t : Token} (member : t ∈ tokens query)
    {name : Text} (nonempty : name ≠ []) (same : t.lower = name ++ '@' :: Text.lower version) :
    ∃ word ∈ Text.words query, ∃ rest,
      Token.splitPinned? (Token.bare word) = some (t.written, rest) := by
  have sign : Text.IsCaseless '@' := by decide
  have absent : '@' ∉ Text.lower version := by
    rw [Text.mem_lower_iff sign]
    exact (Version.isVersion_of_extract? extracted).not_mem_sign
  rw [Token.lower_eq member] at same
  obtain ⟨word, listed, source⟩ := exists_comesFrom member
  refine ⟨word, listed, ?_⟩
  cases source with
  | name pinned => exact ⟨_, pinned⟩
  | @version name' version' pinned =>
      have inside : '@' ∈ Text.lower version' := by
        rw [show Text.lower version' = _ from same]
        exact List.mem_append_right name List.mem_cons_self
      exact absurd ((Text.mem_lower_iff sign).1 inside) (splitPinned?_eq_some.1 pinned).2.1
  | whole _ free =>
      obtain ⟨a, b, split, absent, some, context, lowered⟩ :=
        Text.exists_of_lowerAfter_eq sign same absent
      have pinned : Token.splitPinned? (Token.bare word) = .some (a, b) := by
        refine splitPinned?_eq_some.2 ⟨split, absent, some nonempty, ?_⟩
        have first := head?_lower_version extracted digit
        rw [← lowered] at first
        cases head : (Text.lowerAfter context b).head? with
        | none =>
            rw [head] at first
            cases first
        | some c =>
            rw [head] at first
            rw [Text.head?_lowerAfter (Text.isCaseless_of_isAsciiDigit first) head]
            exact first
      rw [pinned] at free
      cases free

/-- Where some tokens are dropped, what is kept is what is kept before and after them. -/
theorem kept_around {before after : List Token} (dropped : List Token)
    (whole : tokens query = before ++ (dropped ++ after))
    (each : ∀ i t, (i, t) ∈ indexed dropped →
      isKept catalog query (before.length + i, t) = false) :
    ∃ a b, kept catalog query = a ++ b ∧ a.Sublist before ∧ b.Sublist after := by
  have nothing : ((indexed dropped).map fun (i, t) => (before.length + i, t)).filter
      (isKept catalog query) = [] := by
    rw [List.filter_eq_nil_iff]
    rintro _ member
    obtain ⟨⟨i, t⟩, inside, rfl⟩ := List.mem_map.1 member
    exact Bool.eq_false_iff.1 (each i t inside)
  have sublist {ts : List Token} (places : List (Nat × Token)) (same : places.map Prod.snd = ts) :
      ((places.filter (isKept catalog query)).map Prod.snd).Sublist ts := by
    rw [← same]
    exact List.filter_sublist.map Prod.snd
  rw [kept_eq, whole, indexed_append, indexed_append, List.map_append, List.filter_append,
    List.filter_append, nothing, List.nil_append, List.map_append]
  refine ⟨_, _, rfl, sublist _ (map_snd_indexed before), sublist _ ?_⟩
  rw [List.map_map, List.map_map]
  exact map_snd_indexed after

/-- Of the word "version" and the version neither is kept, only what stands around them. -/
theorem kept_around_pair (extracted : Version.extract? query = some version)
    (digit : version.head?.any isAsciiDigit = true) {before after : List Token}
    {first second : Token} (whole : tokens query = before ++ first :: second :: after)
    (word : first.lower = "version".toList) (number : second.lower = Text.lower version) :
    ∃ a b, kept catalog query = a ++ b ∧ a.Sublist before ∧ b.Sublist after := by
  have pair : IsVersionPair first second := by
    refine ⟨word, ?_, isVersion_of_lower extracted (.inl number)⟩
    rw [number]
    exact head?_lower_version extracted digit
  have versionWord : before.length ∈ versionWordIndices 0 (tokens query) :=
    mem_versionWordIndices_iff.2 ⟨before, first, second, after, whole, (Nat.zero_add _).symm, pair⟩
  refine kept_around [first, second] whole fun i t member => ?_
  rw [Bool.eq_false_iff]
  intro fits
  obtain ⟨-, elsewhere, content⟩ := isKept_iff.1 fits
  rcases List.mem_pair.1 member with same | same
  · cases same
    exact elsewhere versionWord
  · cases same
    rw [isContentToken, pair.2.2, Bool.not_true, Bool.and_false] at content
    cases content

/-- A version behind an at sign in a word of its own is kept, unless it names the framework. -/
theorem mem_kept_of_sign {before after : List Token} {t : Token}
    (whole : tokens query = before ++ t :: after)
    (sign : t.lower = '@' :: Text.lower version)
    (other : ¬ NamesFramework catalog query before.length t) : t ∈ kept catalog query := by
  have place : (before.length, t) ∈ indexed (tokens query) := by
    rw [whole]
    exact mem_indexed_place before t after
  have notWord : before.length ∉ versionWordIndices 0 (tokens query) := by
    intro listed
    obtain ⟨before', first, second, after', split, same, word, -⟩ :=
      mem_versionWordIndices_iff.1 listed
    rw [Nat.zero_add] at same
    obtain ⟨-, rest⟩ := List.append_inj (whole.symm.trans split) same
    obtain ⟨rfl, -⟩ := List.cons.inj rest
    rw [sign] at word
    have start := congrArg List.head? word
    rw [List.head?_cons] at start
    exact absurd start (by decide)
  have content : isContentToken t = true := by
    have stop : ∀ s ∈ Token.stopWords, s.head? ≠ some '@' := by decide
    have notStop : t.isStopWord = false := by
      rw [Token.isStopWord, sign, Bool.eq_false_iff]
      intro listed
      exact stop _ (List.contains_iff_mem.1 listed) rfl
    rw [isContentToken, notStop, Token.isVersion, sign, Version.not_accepts_sign]
    rfl
  rw [kept_eq]
  exact List.mem_map.2 ⟨(before.length, t), List.mem_filter.2 ⟨place,
    isKept_iff.2 ⟨other, notWord, content⟩⟩, rfl⟩

end

/-- No word of a concept is the version that is read from the query, alone or behind the letter v; a
word that ends with an at sign and the version is the name of a word pinned to something else; and
of the word "version" and the version after it neither is kept. The last two hold where the version
begins with an ASCII digit. Behind an at sign in a word of its own the version is kept, always,
unless that token names the framework. -/
theorem concept_version (catalog : Catalog) (query version : Text)
    (extracted : (parse catalog query).version = some version) :
    (kept catalog query ≠ [] → ∀ w ∈ Text.words (parse catalog query).concept,
      (∃ t ∈ kept catalog query, w = t.lower) ∧
      w ≠ Text.lower version ∧ w ≠ 'v' :: Text.lower version ∧
      (version.head?.any isAsciiDigit = true →
        ∀ name, name ≠ [] → w = name ++ '@' :: Text.lower version →
          ∃ word ∈ Text.words query, ∃ pinned rest,
            Token.splitPinned? (Token.bare word) = some (pinned, rest) ∧ Text.lower pinned = w)) ∧
    (version.head?.any isAsciiDigit = true → ∀ before first second after,
      tokens query = before ++ first :: second :: after →
      first.lower = "version".toList → second.lower = Text.lower version →
        ∃ a b, kept catalog query = a ++ b ∧ a.Sublist before ∧ b.Sublist after) ∧
    (∀ before t after, tokens query = before ++ t :: after →
      t.lower = '@' :: Text.lower version → ¬ NamesFramework catalog query before.length t →
        t ∈ kept catalog query) := by
  refine ⟨fun some w member => ?_, fun digit before first second after => kept_around_pair extracted
    digit, fun before t after => mem_kept_of_sign⟩
  obtain ⟨t, listed, rfl⟩ := exists_of_mem_words_concept some member
  obtain ⟨alone, letter⟩ := lower_ne_version extracted listed
  refine ⟨⟨t, listed, rfl⟩, alone, letter, fun digit name nonempty same => ?_⟩
  have token := (content_of_mem_kept listed).1
  obtain ⟨word, inside, rest, pinned⟩ := pinned_of_lower extracted digit token nonempty same
  exact ⟨word, inside, t.written, rest, pinned, (Token.lower_eq token).symm⟩

theorem concept_version_pair :
    (parse .builtin "react version 18.2 useState".toList).version = some "18.2".toList ∧
    ∃ a b, kept .builtin "react version 18.2 useState".toList = a ++ b ∧
      a.Sublist [.ofText "react".toList] ∧ b.Sublist [.ofText "useState".toList] := by
  have extracted :
      (parse .builtin "react version 18.2 useState".toList).version = some "18.2".toList := by
    decide +kernel
  refine ⟨extracted, ?_⟩
  obtain ⟨-, pair, -⟩ := concept_version .builtin "react version 18.2 useState".toList
    "18.2".toList extracted
  exact pair (by decide) [.ofText "react".toList] (.ofText "version".toList)
    (.ofText "18.2".toList) [.ofText "useState".toList] (by decide +kernel) (by decide +kernel) rfl

/-- A version behind an at sign is kept as a word of its own, and so is the word "version" before
digits of another script or with a long s in it. -/
theorem concept_with_version :
    (parse .builtin "react @18.2.0 useState".toList).version = some "18.2.0".toList ∧
    (parse .builtin "react @18.2.0 useState".toList).concept = "@18.2.0 usestate".toList ∧
    (parse .builtin "react version ١٨ useState".toList).version = some "١٨".toList ∧
    (parse .builtin "react version ١٨ useState".toList).concept = "version usestate".toList ∧
    (parse .builtin "react verſion 18 useState".toList).version = some "18".toList ∧
    (parse .builtin "react verſion 18 useState".toList).concept = "verſion usestate".toList := by
  decide +kernel

end ApiReference.Query
