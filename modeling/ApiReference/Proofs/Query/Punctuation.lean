import ApiReference.Catalog.Builtin
import ApiReference.Proofs.Query.Tokens
import ApiReference.Proofs.Text.Following

/-!
# Punctuation at the end of a query

The version of a query and the identifiers in it are read without regard to punctuation behind it.
Its last word loses the characters that no token ends with, and after that dots and hyphens; so it
keeps what other punctuation stands before dots and hyphens. Main statement:
`parse_append_punctuation`.
-/

namespace ApiReference

namespace Query
open ApiReference.Text (isBlank isWordChar isAsciiDigit trimEndOf IsWord)

/-- ASCII punctuation that words lose at their end. -/
def isTrimmed (c : Char) : Bool :=
  (0x21 ≤ c.toNat && c.toNat ≤ 0x7E && !c.isAlphanum) &&
    (!Token.isTokenChar c || c == '.' || c == '-')

/-- Whether a text ends with a character that tokens end with. -/
def EndsToken (t : Text) : Prop :=
  ∃ c, t.getLast? = some c ∧ Token.isTokenChar c = true ∧ c ≠ '.' ∧ c ≠ '-'

theorem of_isTrimmed {c : Char} (trimmed : isTrimmed c = true) :
    isWordChar c = false ∧ isBlank c = false ∧ c ≠ '@' := by
  have listed : ∀ n < 0x7F, isTrimmed (Char.ofNat n) = true → isWordChar (Char.ofNat n) = false ∧
      isBlank (Char.ofNat n) = false ∧ Char.ofNat n ≠ '@' := by
    decide +kernel
  have range : c.toNat < 0x7F := by
    simp only [isTrimmed, Bool.and_eq_true, decide_eq_true_eq] at trimmed
    omega
  have found := listed c.toNat range
  rw [Char.ofNat_toNat] at found
  exact found trimmed

theorem not_isBlank_of_isTokenChar {c : Char} (token : Token.isTokenChar c = true) :
    isBlank c = false := by
  rw [Bool.eq_false_iff]
  intro blank
  rw [Token.isTokenChar, Text.not_isAlphanumeric_of_isBlank blank] at token
  simp only [Bool.false_or, Bool.or_eq_true, beq_iff_eq] at token
  rcases token with ((((rfl | rfl) | rfl) | rfl) | rfl) | rfl <;> exact absurd blank (by decide)

/-- What is left of the punctuation behind a word. -/
def remnant (p : Text) : Text :=
  trimEndOf (fun c => c == '.' || c == '-') (trimEndOf (fun c => !Token.isTokenChar c) p)

theorem bare_append_cons {c : Char} (token : Token.isTokenChar c = true) (dot : c ≠ '.')
    (hyphen : c ≠ '-') (w p : Text) : Token.bare (w ++ c :: p) =
      w.dropWhile (fun c => !Token.isTokenChar c) ++ c :: remnant p := by
  have kept : (!Token.isTokenChar c) = false := by rw [token, Bool.not_true]
  have kept' : (c == '.' || c == '-') = false := by
    rw [beq_false_of_ne dot, beq_false_of_ne hyphen, Bool.or_self]
  have start : (w ++ c :: p).dropWhile (fun c => !Token.isTokenChar c) =
      w.dropWhile (fun c => !Token.isTokenChar c) ++ c :: p := by
    rw [List.dropWhile_append]
    split
    · next all =>
        rw [List.isEmpty_iff.1 all, List.nil_append, List.dropWhile_cons_of_neg]
        rw [kept]
        exact Bool.false_ne_true
    · rfl
  rw [Token.bare, Text.trimOf, Text.trimStartOf, start,
    Text.trimEndOf_append_cons (p := fun c => !Token.isTokenChar c) kept,
    Text.trimEndOf_append_cons (p := fun c => c == '.' || c == '-') kept']
  rfl

theorem bare_append {w : Text} (ends : EndsToken w) (p : Text) :
    Token.bare (w ++ p) = Token.bare w ++ remnant p := by
  obtain ⟨c, last, token, dot, hyphen⟩ := ends
  obtain ⟨w, rfl⟩ := List.getLast?_eq_some_iff.1 last
  rw [List.append_assoc, List.singleton_append, bare_append_cons token dot hyphen,
    bare_append_cons token dot hyphen, List.append_assoc]
  rfl

/-- Nothing is left of dots and hyphens before all else, and only of such punctuation. -/
theorem remnant_eq_nil_iff {p : Text} : remnant p = [] ↔ ∃ dots rest, p = dots ++ rest ∧
    (∀ c ∈ dots, c = '.' ∨ c = '-') ∧ ∀ c ∈ rest, Token.isTokenChar c = false := by
  rw [remnant, Text.trimEndOf_eq_nil_iff]
  constructor
  · intro dots
    have split := Text.trimEndOf_append_dropped (fun c => !Token.isTokenChar c) p
    refine ⟨_, _, split.symm, fun c member => ?_, fun c member => ?_⟩
    · simpa using dots c member
    · have dropped := List.mem_takeWhile_imp (List.mem_reverse.1 member)
      rwa [Bool.not_eq_true'] at dropped
  · rintro ⟨dots, rest, rfl, each, dropped⟩ c member
    rw [Text.trimEndOf_append dots fun d inside => by rw [dropped d inside]; rfl] at member
    rcases each c (Text.mem_of_mem_trimEndOf member) with rfl | rfl <;> rfl

theorem exists_tokens_append {q p : Text} (ends : EndsToken q)
    (visible : ∀ c ∈ p, isBlank c = false) : ∃ lead w, q = lead ++ w ∧ EndsToken w ∧
      tokens q = tokens lead ++ Token.ofWord w ∧
      tokens (q ++ p) = tokens lead ++ Token.ofWord (w ++ p) := by
  obtain ⟨c, last, token, other⟩ := ends
  obtain ⟨lead, w, rfl, word, apart⟩ :=
    Text.exists_last_word last (not_isBlank_of_isTokenChar token)
  have extended : IsWord (w ++ p) := ⟨List.append_ne_nil_of_left_ne_nil word.nonempty p,
    List.forall_mem_append.2 ⟨word.visible, visible⟩⟩
  have last : w.getLast? = some c := by
    rw [List.getLast?_append, List.getLast?_eq_some_getLast word.nonempty, Option.some_or] at last
    rw [List.getLast?_eq_some_getLast word.nonempty, last]
  refine ⟨lead, w, rfl, ⟨c, last, token, other⟩, ?_, ?_⟩
  · rw [tokens, Text.words_append_word apart word, List.flatMap_append, List.flatMap_singleton]
    rfl
  · rw [tokens, List.append_assoc, Text.words_append_word apart extended, List.flatMap_append,
      List.flatMap_singleton]
    rfl

theorem tokens_append {q p : Text} (ends : EndsToken q) (visible : ∀ c ∈ p, isBlank c = false)
    (nothing : remnant p = []) : tokens (q ++ p) = tokens q := by
  obtain ⟨lead, w, -, ends, own, extended⟩ := exists_tokens_append ends visible
  have bare : Token.bare (w ++ p) = Token.bare w := by
    rw [bare_append ends, nothing, List.append_nil]
  rw [own, extended, Token.ofWord, bare]
  rfl

section
variable {p : Text} (outside : ∀ c ∈ p, isWordChar c = false)
include outside

theorem extract?_append (q : Text) : Version.extract? (q ++ p) = Version.extract? q := by
  have letter : Version.afterLetter.Closes := Text.Pattern.closes_all [.boundary, _, .marked _]
  have word : Version.afterWord.Closes := Text.Pattern.closes_all [.boundary, _, _, .marked _]
  have sign : Version.afterAt.Closes := Text.Pattern.closes_all [_, .marked _]
  have mark (found : Option Text.Hit) :
      (found.map (·.followed p)).bind (·.mark) = found.bind (·.mark) := by
    cases found <;> rfl
  simp only [Version.extract?, List.findSome?_cons, List.findSome?_nil, letter.find_append outside,
    word.find_append outside, sign.find_append outside, mark]

theorem concept_append (catalog : Catalog) (q : Text) (ts : List Token)
    (detected : Option Detection) (normalized : Text) :
    concept catalog (q ++ p) ts detected normalized = concept catalog q ts detected normalized := by
  have camel : camelWord.Closes := Text.Pattern.closes_all [.boundary, _, _, _]
  rw [concept, concept, camel.find_append outside]
  cases camelWord.find q <;> rfl

end

theorem parse_append {q p : Text} (catalog : Catalog) (ends : EndsToken q)
    (trimmed : ∀ c ∈ p, isTrimmed c = true) (nothing : remnant p = []) :
    parse catalog (q ++ p) = { parse catalog q with query := q ++ p } := by
  have outside : ∀ c ∈ p, isWordChar c = false := fun c member => (of_isTrimmed (trimmed c member)).1
  have visible : ∀ c ∈ p, isBlank c = false := fun c member => (of_isTrimmed (trimmed c member)).2.1
  simp only [parse, tokens_append ends visible nothing, extract?_append outside,
    concept_append outside]

theorem detect_empty (ts : List Token) (normalized : Text) :
    detect ⟨[]⟩ ts normalized = detectDynamic ts := by
  have none {α β : Type} (l : List α) : l.findSome? (fun _ => (.none : Option β)) = .none :=
    List.findSome?_eq_none_iff.2 fun _ _ => rfl
  simp only [detect, detectPackage, Catalog.ownerOf?, detectKey, detectPhrase, detectAlias, detectApi,
    Catalog.keysForApi, detectFuzzy, List.find?_nil, List.filter_nil, List.map_nil, Option.map_none,
    List.findSome?_nil, none]
  rfl

theorem tokens_identifier {p : Text} (trimmed : ∀ c ∈ p, isTrimmed c = true) :
    tokens ("useState".toList ++ p) = [.ofText ("useState".toList ++ remnant p)] := by
  have ends : EndsToken "useState".toList := ⟨'e', by decide, by decide, by decide, by decide⟩
  have word : IsWord ("useState".toList ++ p) := by
    refine ⟨List.append_ne_nil_of_left_ne_nil (by decide) p, List.forall_mem_append.2 ⟨by decide, ?_⟩⟩
    exact fun c member => (of_isTrimmed (trimmed c member)).2.1
  have bare : Token.bare ("useState".toList ++ p) = "useState".toList ++ remnant p := by
    rw [bare_append ends]
    rfl
  have sign : '@' ∉ "useState".toList ++ remnant p := by
    intro member
    rcases List.mem_append.1 member with inside | inside
    · exact absurd inside (by decide)
    · have listed := Text.mem_of_mem_trimEndOf (Text.mem_of_mem_trimEndOf inside)
      exact (of_isTrimmed (trimmed '@' listed)).2.2 rfl
  rw [tokens, word.words_eq, List.flatMap_singleton, Token.ofWord, bare, splitPinned?_eq_none sign]
  rfl

theorem remnant_of_parse_eq {p : Text} (trimmed : ∀ c ∈ p, isTrimmed c = true)
    (same : (parse ⟨[]⟩ ("useState".toList ++ p)).target = (parse ⟨[]⟩ "useState".toList).target) :
    remnant p = [] := by
  have own : (parse ⟨[]⟩ "useState".toList).target =
      some ⟨"usestate".toList, "usestate".toList, .dynamic⟩ := by
    decide +kernel
  have extended : (parse ⟨[]⟩ ("useState".toList ++ p)).target =
      (detect ⟨[]⟩ (tokens ("useState".toList ++ p))
        (normalize (tokens ("useState".toList ++ p)))).map Detection.target := rfl
  rw [own, extended, tokens_identifier trimmed, detect_empty] at same
  obtain ⟨d, found, target⟩ := Option.map_eq_some_iff.1 same
  obtain ⟨⟨i, t⟩, listed, made⟩ := List.exists_of_findSome?_eq_some found
  obtain rfl : t = _ := List.mem_singleton.1 (exists_mem_indexed.1 ⟨i, listed⟩)
  simp only at made
  split at made
  · obtain rfl := Option.some.inj made
    have plain : ∀ c ∈ "useState".toList ++ remnant p, Text.IsPlain c := by
      refine List.forall_mem_append.2 ⟨fun c member => .inl ?_, fun c member => .inl ?_⟩
      · exact (by decide : ∀ d ∈ "useState".toList, d.toNat < 128) c member
      · have listed := trimmed c (Text.mem_of_mem_trimEndOf (Text.mem_of_mem_trimEndOf member))
        simp only [isTrimmed, Bool.and_eq_true, decide_eq_true_eq] at listed
        omega
    have lower := congrArg Target.framework target
    have length := congrArg List.length lower
    have eight : "useState".toList.length = 8 ∧ "usestate".toList.length = 8 := by decide
    simp only [Token.ofText, Text.lower_eq_map plain, List.length_map, List.length_append, eight] at length
    exact List.length_eq_zero_iff.1 (Nat.add_eq_left.1 length)
  · cases made

/-- Behind a query that ends with a token, punctuation that words lose makes no difference, whatever
the catalog and the query, exactly if in it dots and hyphens come before all else. To the version it
never makes a difference. -/
theorem parse_append_punctuation (p : Text) (trimmed : ∀ c ∈ p, isTrimmed c = true) :
    ((∀ catalog q, EndsToken q →
        parse catalog (q ++ p) = { parse catalog q with query := q ++ p }) ↔
      ∃ dots rest, p = dots ++ rest ∧ (∀ c ∈ dots, c = '.' ∨ c = '-') ∧
        ∀ c ∈ rest, Token.isTokenChar c = false) ∧
    ∀ catalog q, (parse catalog (q ++ p)).version = (parse catalog q).version := by
  refine ⟨⟨fun always => ?_, fun form catalog q ends => ?_⟩, fun catalog q => ?_⟩
  · rw [← remnant_eq_nil_iff]
    have same := always ⟨[]⟩ "useState".toList ⟨'e', by decide, by decide, by decide, by decide⟩
    exact remnant_of_parse_eq trimmed (by rw [same])
  · exact parse_append catalog ends trimmed (remnant_eq_nil_iff.2 form)
  · exact extract?_append (fun c member => (of_isTrimmed (trimmed c member)).1) q

theorem parse_append_dots : (∀ c ∈ "...?)".toList, isTrimmed c = true) ∧
    ∀ catalog, parse catalog "react useEffect...?)".toList =
      { parse catalog "react useEffect".toList with query := "react useEffect...?)".toList } := by
  have trimmed : ∀ c ∈ "...?)".toList, isTrimmed c = true := by decide
  refine ⟨trimmed, fun catalog => ?_⟩
  exact (parse_append_punctuation "...?)".toList trimmed).1.2
    ⟨"...".toList, "?)".toList, rfl, by decide, by decide⟩ catalog "react useEffect".toList
    ⟨'t', by decide, by decide, by decide, by decide⟩

/-- Brackets before a full stop stay part of the concept. -/
theorem concept_keeps_brackets :
    (parse .builtin "react useEffect()".toList).concept = "useeffect".toList ∧
    (parse .builtin "react useEffect().".toList).concept = "useeffect()".toList ∧
    (parse .builtin "react useEffect()".toList).confidence = 58 ∧
    (parse .builtin "react useEffect().".toList).confidence = 62 := by
  decide +kernel

end Query
end ApiReference
