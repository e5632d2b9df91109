import ApiReference.Proofs.Number.Rounding
import ApiReference.Rendering.Search

/-!
# What is written on a page

Every step of a rendering adds a text to the end of a page and counts it. Most steps add the same
text to every page. The steps that write lists add some of the items, and all of them if the page
then uses half of its budget at most. Main statements: `writesList_overloadsSection`,
`writesList_relatedTypesSection`, `writesList_examplesSection`, `writesList_resultSections`.
-/

namespace ApiReference.Rendering
open ApiReference.Declaration (ApiSignature RelatedType)

namespace Page

@[simp] theorem push_push (p : Page) (t u : Text) : (p.push t).push u = p.push (t ++ u) := by
  simp only [push, List.append_assoc, List.length_append, Nat.add_assoc]

@[simp] theorem push_nil (p : Page) : p.push [] = p := by
  simp only [push, List.append_nil, List.length_nil, Nat.add_zero]

@[simp] theorem push_chars (p : Page) (t : Text) : (p.push t).chars = p.chars + t.length := rfl

@[simp] theorem push_budget (p : Page) (t : Text) : (p.push t).budget = p.budget := rfl

theorem line_eq (p : Page) (t : Text) : p.line t = p.push (t ++ ['\n']) := push_push p t ['\n']

def codeText (language code : Text) : Text :=
  fence ++ language ++ '\n' :: Text.trimEnd code ++ '\n' :: fence ++ ['\n']

theorem codeBlock_eq (p : Page) (language code : Text) :
    p.codeBlock language code = p.push (codeText language code) := by
  simp [codeBlock, line_eq, codeText]

/-- The line that says how many items were left out, if any were. -/
def remark (count : Nat) (what : String) : Text :=
  if count = 0 then []
  else '_' :: Text.ofNat count ++ " more ".toList ++ what.toList ++ " omitted_\n".toList

@[simp] theorem remark_zero (what : String) : remark 0 what = [] := rfl

theorem omitted_eq (p : Page) (count : Nat) (what : String) :
    p.omitted count what = p.push (remark count what) := by
  unfold omitted remark
  split
  · exact (push_nil p).symm
  · have ending : " omitted_\n".toList = " omitted_".toList ++ ['\n'] := rfl
    rw [line_eq, ending]
    simp only [List.cons_append, List.append_assoc]

theorem lines_eq (p : Page) (ts : List Text) :
    p.lines ts = p.push (ts.flatMap fun t => t ++ ['\n']) := by
  unfold lines
  induction ts generalizing p with
  | nil => exact (push_nil p).symm
  | cons t ts ih => rw [List.foldl_cons, ih, line_eq, push_push, List.flatMap_cons]

/-- A page that uses half of its budget at most is not past a share of half or more. -/
theorem past_eq_false {p : Page} {share : Share} (half : 2 ^ 52 ≤ share.parts)
    (room : p.chars ≤ p.budget / 2) : p.past share = false := by
  have double : p.chars * 2 ^ 1 ≤ p.budget := by omega
  refine decide_eq_false (Nat.not_lt.mpr ?_)
  calc Number.nearest53 p.chars * 2 ^ 53
      = Number.nearest53 (p.chars * 2 ^ 1) * 2 ^ 52 := by
        rw [Number.nearest53_mul_two_pow, Nat.mul_assoc, ← Nat.pow_add]
    _ ≤ Number.nearest53 p.budget * 2 ^ 52 :=
        Nat.mul_le_mul_right _ (Number.nearest53_mono double)
    _ = Number.nearest53 (Number.nearest53 p.budget * 2 ^ 52) := by
        rw [Number.nearest53_mul_two_pow, Number.nearest53_nearest53]
    _ ≤ Number.nearest53 (Number.nearest53 p.budget * share.parts) :=
        Number.nearest53_mono (Nat.mul_le_mul_left _ half)

section Items
variable {α : Type} {write : Page → α → Page} {item : α → Text}
variable (writes : ∀ p a, write p a = p.push (item a)) (share : Share) (atLeast shown : Nat)
variable (p : Page) (as : List α)
include writes

/-- The items written are the first ones, and the least number of them unless there are fewer. -/
theorem items_some :
    ∃ count ≤ as.length, (count < as.length → atLeast ≤ shown + count) ∧
      items share atLeast write shown p as =
        (p.push ((as.take count).flatMap item), shown + count) := by
  induction as generalizing shown p with
  | nil => exact ⟨0, Nat.le_refl 0, fun less => absurd less (Nat.lt_irrefl 0), by simp [items]⟩
  | cons a as ih =>
      rw [items]
      split
      · next stop =>
          have enough := of_decide_eq_true (Bool.and_eq_true_iff.mp stop).1
          exact ⟨0, Nat.zero_le _, fun _ => enough, by simp⟩
      · obtain ⟨count, among, least, rest⟩ := ih (shown + 1) (write p a)
        have further : shown + 1 + count = shown + (count + 1) := by omega
        refine ⟨count + 1, Nat.succ_le_succ among, fun less => ?_, ?_⟩
        · have := least (Nat.lt_of_succ_lt_succ less)
          omega
        · rw [rest, writes, push_push, List.take_succ_cons, List.flatMap_cons, further]

/-- Where there is room for all items, all are written. -/
theorem items_all (half : 2 ^ 52 ≤ share.parts)
    (room : p.chars + (as.flatMap item).length ≤ p.budget / 2) :
    items share atLeast write shown p as = (p.push (as.flatMap item), shown + as.length) := by
  induction as generalizing shown p with
  | nil => simp [items]
  | cons a as ih =>
      rw [List.flatMap_cons, List.length_append] at room
      have onward : p.past share = false := past_eq_false half (by omega)
      have rest := ih (shown + 1) (p.push (item a)) (by simp only [push_chars, push_budget]; omega)
      have further : shown + 1 + as.length = shown + (a :: as).length := by
        rw [List.length_cons]
        omega
      rw [items, onward, Bool.and_false, if_neg Bool.false_ne_true, writes, rest, push_push,
        List.flatMap_cons, further]

end Items
end Page

open Page (remark codeText)

/-- A step writes a list: some items, the least number of them unless there are fewer, and all of
them where there is room. `text count` is what is written for that many items. -/
structure WritesList (step : Page → Page) (least length : Nat) (text : Nat → Text) : Prop where
  some : ∀ p, ∃ count ≤ length, min least length ≤ count ∧ step p = p.push (text count)
  all : ∀ p, p.chars + (text length).length ≤ p.budget / 2 → step p = p.push (text length)

/-- A heading, the first items of a list, what stands below them, a remark on the other items and
an empty line; nothing at all for an empty list. -/
def listText {α : Type} (heading : Text) (item : α → Text) (below : Text) (what : String)
    (as : List α) (count : Nat) : Text :=
  if as.isEmpty then []
  else heading ++ (as.take count).flatMap item ++ below ++ remark (as.length - count) what ++ ['\n']

/-- Sections with a list are written alike. -/
theorem writesList_of_items {α : Type} (share : Share) (write : Page → α → Page)
    {step : Page → Page} {least : Nat} {item : α → Text} {heading below : Text} {what : String}
    {as : List α} (half : 2 ^ 52 ≤ share.parts) (writes : ∀ p a, write p a = p.push (item a))
    (step_eq : ∀ p, step p = if as.isEmpty then p else
      let (q, shown) := Page.items share least write 0 (p.push heading) as
      ((q.push below).omitted (as.length - shown) what).gap) :
    WritesList step least as.length (listText heading item below what as) where
  some p := by
    rw [step_eq]
    by_cases empty : as.isEmpty
    · rw [if_pos empty, List.isEmpty_iff.mp empty]
      exact ⟨0, Nat.le_refl 0, Nat.min_le_right _ _, (Page.push_nil p).symm⟩
    · obtain ⟨count, among, enough, written⟩ :=
        Page.items_some writes share least 0 (p.push heading) as
      refine ⟨count, among, ?_, ?_⟩
      · by_cases fewer : count < as.length
        · have := enough fewer
          omega
        · omega
      · simp only [empty, written, listText, Page.omitted_eq, Page.gap, Page.push_push,
          List.append_assoc, Nat.zero_add, if_false, Bool.false_eq_true]
  all p room := by
    rw [step_eq]
    by_cases empty : as.isEmpty
    · rw [if_pos empty, List.isEmpty_iff.mp empty]
      exact (Page.push_nil p).symm
    · simp only [listText, empty, List.take_length, Nat.sub_self, Page.remark_zero,
        List.length_append, if_false, Bool.false_eq_true] at room ⊢
      have written := Page.items_all writes share least 0 (p.push heading) as half
        (by simp only [Page.push_chars, Page.push_budget]; omega)
      simp only [written, Nat.zero_add, Nat.sub_self, Page.omitted_eq, Page.remark_zero, Page.gap,
        Page.push_push, List.append_assoc, List.nil_append]

/-- Every page gets the same text from a step. -/
def Writes (step : Page → Page) (t : Text) : Prop := ∀ p, step p = p.push t

namespace Writes
variable {step : Page → Page} {t : Text}

theorem nothing : Writes (fun p => p) [] := fun p => (Page.push_nil p).symm

theorem push (h : Writes step t) (u : Text) : Writes (fun p => (step p).push u) (t ++ u) := by
  intro p
  simp only [h p, Page.push_push]

theorem line (h : Writes step t) (u : Text) :
    Writes (fun p => (step p).line u) (t ++ u ++ ['\n']) := (h.push u).push ['\n']

theorem gap (h : Writes step t) : Writes (fun p => (step p).gap) (t ++ ['\n']) := h.push ['\n']

theorem codeBlock (h : Writes step t) (language code : Text) :
    Writes (fun p => (step p).codeBlock language code) (t ++ codeText language code) := by
  intro p
  simp only [h p, Page.codeBlock_eq, Page.push_push]

theorem lines (h : Writes step t) (us : List Text) :
    Writes (fun p => (step p).lines us) (t ++ us.flatMap fun u => u ++ ['\n']) := by
  intro p
  simp only [h p, Page.lines_eq, Page.push_push]

end Writes

theorem writes_titleSection (r : ContextResponse) (api : ApiSignature) :
    ∃ t, Writes (titleSection r api) t :=
  ⟨_, ((Writes.nothing.line _).gap.codeBlock _ _).gap⟩

theorem writes_deprecationSection (api : ApiSignature) :
    ∃ t, Writes (deprecationSection api) t := by
  unfold deprecationSection Writes
  split
  · exact ⟨_, (Writes.nothing.line _).gap⟩
  · exact ⟨_, Writes.nothing⟩

theorem writes_descriptionSection (api : ApiSignature) :
    ∃ t, Writes (descriptionSection api) t := by
  unfold descriptionSection Writes
  split
  · exact ⟨_, (Writes.nothing.line _).gap⟩
  · exact ⟨_, Writes.nothing⟩

theorem writes_parametersSection (api : ApiSignature) :
    ∃ t, Writes (parametersSection api) t := by
  unfold parametersSection Writes
  split
  · exact ⟨_, Writes.nothing⟩
  · exact ⟨_, ((Writes.nothing.line _).lines _).gap⟩

theorem writes_returnsSection (api : ApiSignature) : ∃ t, Writes (returnsSection api) t := by
  unfold returnsSection Writes
  split
  · exact ⟨_, ((Writes.nothing.line _).line _).gap⟩
  · exact ⟨_, Writes.nothing⟩

theorem writes_bulletSection (heading : String) (bullets : List Text) :
    ∃ t, Writes (bulletSection heading bullets) t := by
  unfold bulletSection Writes
  split
  · exact ⟨_, Writes.nothing⟩
  · exact ⟨_, ((Writes.nothing.line _).lines _).gap⟩

theorem writes_missingSection (r : ContextResponse) : ∃ t, Writes (missingSection r) t := by
  unfold missingSection Writes
  split
  · exact ⟨_, ((Writes.nothing.line _).gap.line _).gap⟩
  · exact ⟨_, (Writes.nothing.line _).gap⟩

theorem writes_sourceSection (r : ContextResponse) : ∃ t, Writes (sourceSection r) t := by
  unfold sourceSection Writes
  split
  · exact ⟨_, Writes.nothing.line _⟩
  · exact ⟨_, Writes.nothing⟩

theorem writes_searchHeading (r : SearchResponse) : ∃ t, Writes (searchHeading r) t :=
  ⟨_, ((Writes.nothing.line _).line _).gap⟩

/-- The title of a search result: its rank, name, kind, package and score. -/
def resultTitle (rank : Nat) (r : SearchResult) : Text :=
  let deprecated := if r.deprecated then " deprecated".toList else []
  Text.ofNat rank ++ ". ".toList ++ inlineCode r.name ++ " [".toList ++ r.kind.name ++ deprecated ++
    "] ".toList ++ packageAt r.package r.version ++ " (score ".toList ++ integerText r.score ++ [')']

/-- A search result with its signature and the first line of what is known of it. -/
def resultText (signatureChars rank : Nat) (r : SearchResult) : Text :=
  let summary := match r.description.bind fun d => (Text.lines d).head? with
    | some summary => summary ++ ['\n']
    | none => []
  resultTitle rank r ++ ['\n'] ++ codeText "typescript".toList (truncate signatureChars r.signature) ++
    summary ++ ['\n']

theorem writes_resultSection (limits : Limits) (rank : Nat) (r : SearchResult) :
    Writes (resultSection limits rank r) (resultText limits.signatureChars rank r) := by
  intro p
  have coded := (Writes.nothing.line (resultTitle rank r)).codeBlock declarationLanguage
    (truncate limits.signatureChars r.signature)
  unfold resultSection resultText
  cases r.description.bind fun d => (Text.lines d).head? with
  | none =>
      refine (coded.gap p).trans (congrArg p.push ?_)
      exact congrArg (· ++ ['\n']) (List.append_nil _).symm
  | some summary =>
      refine ((coded.line summary).gap p).trans (congrArg p.push ?_)
      exact congrArg (· ++ ['\n']) (List.append_assoc _ summary ['\n'])

/-- What a step adds to an empty page. -/
def added (step : Page → Page) : Text := (step (Page.empty 0)).text

theorem writes_added {step : Page → Page} (h : ∃ t, Writes step t) : Writes step (added step) := by
  obtain ⟨t, writes⟩ := h
  have text : added step = t := by
    rw [added, writes]
    rfl
  rwa [text]

def overloadsText (overloads : List Text) : Nat → Text :=
  listText ("## Overloads\n".toList ++ Page.fence ++ declarationLanguage ++ ['\n'])
    (fun o => Text.trimEnd o ++ ['\n']) (Page.fence ++ ['\n']) "overloads" overloads

def relatedTypesText (signatureChars : Nat) (related : List RelatedType) : Nat → Text :=
  listText "## Related Types\n".toList
    (fun t => codeText declarationLanguage (truncate signatureChars t.signature)) []
    "related types" related

/-- An example with its heading. -/
def exampleText (title language code : Text) : Text :=
  "### ".toList ++ title ++ '\n' :: codeText language code

/-- The examples that the declaration of the API has. -/
def documentedOf (r : ContextResponse) : List Text := (r.api.map ApiSignature.examples).getD []

/-- What is written of the examples of a response: first of those of the declaration, then of those
found elsewhere. -/
def exampleTexts (r : ContextResponse) : List Text :=
  (documentedOf r).map (exampleText "From the type documentation".toList "typescript".toList) ++
    r.examples.map fun e => exampleText (e.context.getD e.source) e.language e.code

theorem length_exampleTexts (r : ContextResponse) :
    (exampleTexts r).length = (documentedOf r).length + r.examples.length := by
  rw [exampleTexts, List.length_append, List.length_map, List.length_map]

theorem exampleTexts_eq (r : ContextResponse) :
    exampleTexts r = (samples r).map fun s => exampleText s.title s.language s.code := by
  rw [samples, List.map_append, List.map_map, List.map_map]
  rfl

def examplesText (r : ContextResponse) : Nat → Text :=
  listText "## Examples\n".toList id [] "examples" (exampleTexts r)

theorem listText_map {α : Type} (heading : Text) (item : α → Text) (below : Text) (what : String)
    (as : List α) (count : Nat) :
    listText heading id below what (as.map item) count = listText heading item below what as count := by
  simp only [listText, List.isEmpty_map, List.length_map, ← List.map_take, List.flatMap_map, id]

theorem examplesText_eq (r : ContextResponse) : examplesText r =
    listText "## Examples\n".toList (fun s : Sample => exampleText s.title s.language s.code) []
      "examples" (samples r) := by
  funext count
  rw [examplesText, exampleTexts_eq, listText_map]

theorem writesList_overloadsSection (api : ApiSignature) :
    WritesList (overloadsSection api) 2 (api.overloads.getD []).length
      (overloadsText (api.overloads.getD [])) := by
  refine writesList_of_items .threeFifths (fun p o => p.line (Text.trimEnd o)) (by decide)
    (fun p o => Page.line_eq p _) fun p => ?_
  unfold overloadsSection
  cases api.overloads.getD [] with
  | nil => rfl
  | cons first more => simp [Page.line_eq]

theorem writesList_relatedTypesSection (limits : Limits) (api : ApiSignature) :
    WritesList (relatedTypesSection limits api) 3 api.relatedTypes.length
      (relatedTypesText limits.signatureChars api.relatedTypes) := by
  refine writesList_of_items .threeFifths (fun p (t : RelatedType) =>
    p.codeBlock declarationLanguage (truncate limits.signatureChars t.signature)) (by decide)
    (fun p t => Page.codeBlock_eq p _ _) fun p => ?_
  simp [relatedTypesSection, Page.line_eq]

theorem writesList_examplesSection (r : ContextResponse) :
    WritesList (examplesSection r) 1 ((documentedOf r).length + r.examples.length)
      (examplesText r) := by
  rw [← length_exampleTexts, examplesText_eq, exampleTexts_eq, List.length_map]
  refine writesList_of_items .sevenTenths
    (fun p (s : Sample) => (p.line ("### ".toList ++ s.title)).codeBlock s.language s.code)
    (by decide)
    (fun p s => ?_) fun p => ?_
  · simp [Page.line_eq, Page.codeBlock_eq, exampleText]
  · simp [examplesSection, Page.line_eq]

/-- What is written of search results with consecutive ranks. -/
def resultsText (signatureChars : Nat) : Nat → List SearchResult → Text
  | _, [] => []
  | rank, r :: rs => resultText signatureChars rank r ++ resultsText signatureChars (rank + 1) rs

theorem writesList_resultSections (limits : Limits) (rank : Nat) (rs : List SearchResult) :
    WritesList (resultSections limits rank · rs) 0 rs.length fun count =>
      resultsText limits.signatureChars rank (rs.take count) ++ remark (rs.length - count) "results" := by
  induction rs generalizing rank with
  | nil => exact ⟨fun p => ⟨0, Nat.le_refl 0, Nat.zero_le 0, Writes.nothing p⟩,
      fun p _ => Writes.nothing p⟩
  | cons r rs ih =>
      have written := writes_resultSection limits rank r
      constructor
      · intro p
        simp only [resultSections]
        split
        · exact ⟨0, Nat.zero_le _, Nat.zero_le _, Page.omitted_eq p _ _⟩
        · obtain ⟨count, among, -, rest⟩ := (ih (rank + 1)).some (resultSection limits rank r p)
          refine ⟨count + 1, Nat.succ_le_succ among, Nat.zero_le _, ?_⟩
          rw [rest, written, Page.push_push, List.take_succ_cons, resultsText, List.length_cons,
            Nat.add_sub_add_right, List.append_assoc]
      · intro p room
        rw [List.take_length, Nat.sub_self, Page.remark_zero, List.append_nil, resultsText,
          List.length_append] at room
        have onward : p.past .sevenTenths = false := Page.past_eq_false (by decide) (by omega)
        have rest := (ih (rank + 1)).all (p.push (resultText limits.signatureChars rank r))
        rw [List.take_length, Nat.sub_self, Page.remark_zero, List.append_nil, Page.push_chars,
          Page.push_budget] at rest
        simp only [resultSections, onward, Bool.false_eq_true, if_false, written p,
          rest (by omega), Page.push_push, List.take_length, Nat.sub_self, Page.remark_zero,
          List.append_nil, resultsText]

end ApiReference.Rendering
