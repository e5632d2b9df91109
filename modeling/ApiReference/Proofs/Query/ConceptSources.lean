import ApiReference.Proofs.Query.ConceptVersions
import ApiReference.Proofs.Text.Trimming

/-!
# Where concepts come from

A concept is made of tokens, or it is an identifier that stands in the query as a whole word. Both
come to something: a query without a concept is one without tokens, and no framework is detected in
it. Main statements: `concept_eq_nil_iff`, `concept_sources`.
-/

namespace ApiReference.Query
open ApiReference.Text (IsWord Pattern isBoundary)

theorem Token.ofWord_ne_nil {word : Text} (some : bare word ≠ []) : ofWord word ≠ [] := by
  simp only [ofWord, List.isEmpty_iff, if_neg some]
  split <;> exact List.cons_ne_nil _ _

/-- Letters and digits are never punctuation around a word. -/
theorem tokens_ne_nil {query : Text} {c : Char} (fits : c.isAlphanum = true) (member : c ∈ query) :
    tokens query ≠ [] := by
  have tokenChar : Token.isTokenChar c = true := by
    simp only [Token.isTokenChar, Text.isAlphanumeric_of_isAlphanum fits, Bool.true_or]
  have kept : (c == '.' || c == '-') = false := by
    have range := Text.toNat_of_isAlphanum fits
    rw [Bool.or_eq_false_iff]
    constructor <;> refine beq_false_of_ne ?_ <;> rintro rfl <;> exact absurd range (by decide)
  obtain ⟨word, listed, inside⟩ :=
    Text.exists_mem_words (Text.not_isBlank_of_isAlphanum fits) member
  have bare : c ∈ Token.bare word :=
    Text.mem_trimEndOf kept (Text.mem_trimOf (congrArg (!·) tokenChar) inside)
  intro empty
  exact Token.ofWord_ne_nil (List.ne_nil_of_mem bare) (List.flatMap_eq_nil_iff.1 empty word listed)

/-- The empty query contains no phrase, so no step has anything to go by. -/
theorem detect_nil (catalog : Catalog) : detect catalog [] (normalize []) = none := by
  have phrase : detectPhrase catalog [] (normalize []) = none := by
    rw [detectPhrase, List.findSome?_eq_none_iff]
    intro f _
    rw [Option.map_eq_none_iff, List.find?_eq_none]
    intro a _ fits
    obtain ⟨blank, occurs⟩ := Bool.and_eq_true_iff.1 fits
    obtain rfl : a = [] := List.isEmpty_iff.1 occurs
    cases blank
  rw [detect, phrase]
  rfl

/-- Whether a text is small letters with a capital behind them, and then letters and digits. -/
def IsCamelCase (w : Text) : Prop :=
  ∃ small capital more, w = small ++ capital :: more ∧ small ≠ [] ∧
    (∀ c ∈ small, c.isLower = true) ∧ capital.isUpper = true ∧ ∀ c ∈ more, c.isAlphanum = true

/-- Whether a text stands in another one as a whole word. -/
def IsWholeWord (w t : Text) : Prop :=
  ∃ lead rest, t = lead ++ w ++ rest ∧ isBoundary lead.getLast? (w ++ rest) = true ∧
    isBoundary w.getLast? rest = true

theorem camelWord_found {query : Text} {h : Text.Hit} (found : camelWord.find query = some h) :
    IsCamelCase h.text ∧ IsWholeWord h.text query := by
  obtain ⟨lead, rest, rfl, reads⟩ := Pattern.find_eq_some found
  obtain ⟨_, beginning, inside⟩ := Pattern.reads_all_cons.1 reads
  obtain ⟨start, rfl⟩ := Pattern.reads_boundary.1 beginning
  obtain ⟨_, lower, further⟩ := Pattern.reads_all_cons.1 inside
  obtain ⟨first, small, isLower, areLower, overSmall⟩ := lower.some_one
  obtain ⟨_, upper, behind⟩ := Pattern.reads_all_cons.1 further
  obtain ⟨capital, _, next, isUpper, rfl⟩ := Pattern.reads_one.1 upper
  obtain ⟨_, others, final⟩ := Pattern.reads_all_cons.1 behind
  obtain ⟨more, areAlphanum, overMore⟩ := others.many_one
  obtain ⟨_, ending, done⟩ := Pattern.reads_all_cons.1 final
  obtain rfl := Pattern.reads_all_nil.1 done
  obtain ⟨finish, rfl⟩ := Pattern.reads_boundary.1 ending
  have whole : (Text.Hit.start lead.getLast? rest).Passes ((first :: small) ++ capital :: more) h :=
    overSmall.trans ((Text.Hit.Passes.char next).trans overMore)
  have text : h.text = (first :: small) ++ capital :: more := by
    rw [Text.Hit.text, whole.taken, Text.Hit.start, List.append_nil, List.reverse_reverse]
  have split : rest = h.text ++ h.rest := by
    rw [text]
    exact whole.rest
  refine ⟨⟨first :: small, capital, more, text, List.cons_ne_nil first small,
    List.forall_mem_cons.2 ⟨isLower, areLower⟩, isUpper, areAlphanum⟩, lead, h.rest, ?_, ?_, ?_⟩
  · rw [List.append_assoc, ← split]
  · rw [← split]
    exact start
  · rw [whole.before] at finish
    rw [text]
    exact finish

/-- An identifier has a capital, so there is a token that it is part of. -/
theorem tokens_ne_nil_of_camelWord {query : Text} {h : Text.Hit}
    (found : camelWord.find query = some h) : tokens query ≠ [] := by
  obtain ⟨⟨small, capital, more, text, -, -, isUpper, -⟩, lead, rest, split, -⟩ :=
    camelWord_found found
  have letter : capital.isAlpha = true := Bool.or_eq_true_iff.2 (.inl isUpper)
  have fits : capital.isAlphanum = true := Bool.or_eq_true_iff.2 (.inl letter)
  refine tokens_ne_nil fits ?_
  rw [split, text]
  simp

section
variable {catalog : Catalog} {query : Text}

/-- Where no token is kept, the concept is sought in the text, and else all tokens make it up. -/
theorem concept_of_kept_eq_nil (nothing : kept catalog query = []) :
    (parse catalog query).concept = match camelWord.find query with
      | some h => Text.lower h.text
      | none => normalize (tokens query) := by
  rw [concept_parse, concept]
  split
  · next first more all => exact absurd (all.symm.trans nothing) (List.cons_ne_nil first more)
  · rfl

theorem words_normalize {ts : List Token} (each : ∀ t ∈ ts, t ∈ tokens query) :
    Text.words (normalize ts) = ts.map Token.lower :=
  Text.words_join (List.forall_mem_map.2 fun t member => isWord_lower (each t member))

/-- Tokens put together make a text that is not empty, since it has words. -/
theorem normalize_ne_nil {ts : List Token} (each : ∀ t ∈ ts, t ∈ tokens query) (some : ts ≠ []) :
    normalize ts ≠ [] := by
  intro empty
  have words := words_normalize each
  rw [empty] at words
  exact some (List.map_eq_nil_iff.1 words.symm)

/-- Whatever the filters leave of them, something comes of tokens. -/
theorem concept_ne_nil_of_tokens (some : tokens query ≠ []) :
    (parse catalog query).concept ≠ [] := by
  cases all : kept catalog query with
  | nil =>
      rw [concept_of_kept_eq_nil all]
      split
      · next h found =>
          obtain ⟨⟨small, capital, more, text, -⟩, -⟩ := camelWord_found found
          refine Text.lower_ne_nil ?_
          rw [text]
          exact List.append_ne_nil_of_right_ne_nil small (List.cons_ne_nil capital more)
      · exact normalize_ne_nil (fun t member => member) some
  | cons first more =>
      have each : ∀ t ∈ first :: more, t ∈ tokens query := fun t member =>
        (content_of_mem_kept (all ▸ member)).1
      rw [concept_of_kept all]
      split
      · exact (isWord_lower (each first List.mem_cons_self)).nonempty
      · exact normalize_ne_nil each (List.cons_ne_nil first more)

theorem concept_eq_nil_of_tokens (empty : tokens query = []) :
    (parse catalog query).concept = [] := by
  have nothing : kept catalog query = [] := by
    rw [kept_eq, empty]
    rfl
  rw [concept_of_kept_eq_nil nothing]
  split
  · next h found => exact absurd empty (tokens_ne_nil_of_camelWord found)
  · rw [empty]
    rfl

/-- A query has no concept exactly if it has no token. -/
theorem concept_eq_nil_iff : (parse catalog query).concept = [] ↔ tokens query = [] :=
  ⟨not_imp_not.1 concept_ne_nil_of_tokens, concept_eq_nil_of_tokens⟩

/-- The words of a concept are tokens in lower case, or it is an identifier in lower case. -/
theorem concept_sources :
    (∀ w ∈ Text.words (parse catalog query).concept, ∃ t ∈ tokens query, w = t.lower) ∨
    ∃ h, camelWord.find query = some h ∧ IsCamelCase h.text ∧ IsWholeWord h.text query ∧
      (parse catalog query).concept = Text.lower h.text := by
  by_cases all : kept catalog query = []
  · rw [concept_of_kept_eq_nil all]
    split
    · next h found =>
        obtain ⟨camelCase, whole⟩ := camelWord_found found
        exact .inr ⟨h, found, camelCase, whole, rfl⟩
    · rw [words_normalize fun t member => member]
      refine .inl fun w member => ?_
      obtain ⟨t, listed, rfl⟩ := List.mem_map.1 member
      exact ⟨t, listed, rfl⟩
  · refine .inl fun w member => ?_
    obtain ⟨t, listed, same⟩ := exists_of_mem_words_concept all member
    exact ⟨t, (content_of_mem_kept listed).1, same⟩

/-- A query that a framework is detected in has a concept. -/
theorem concept_ne_nil_of_detected (detected : (parse catalog query).target.isSome = true) :
    (parse catalog query).concept ≠ [] := by
  intro empty
  have target : (parse catalog query).target =
      (detect catalog (tokens query) (normalize (tokens query))).map Detection.target := rfl
  rw [target, concept_eq_nil_iff.1 empty, detect_nil] at detected
  cases detected

end
end ApiReference.Query
