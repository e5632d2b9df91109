import ApiReference.Proofs.Rendering.Writing

/-!
# Texts keep to their budget

A page knows its number of characters: every step of a rendering adds to the text and to the count
alike. So the final cut sees every text that is too long. Main statement: `texts_within_budget`.
-/

namespace ApiReference.Rendering
open ApiReference.Declaration (ApiSignature)

inductive RenderingStep (limits : Limits) : (Page → Page) → Prop where
  | push (t : Text) : RenderingStep limits (·.push t)
  | line (t : Text) : RenderingStep limits (·.line t)
  | gap : RenderingStep limits Page.gap
  | codeBlock (language code : Text) : RenderingStep limits (·.codeBlock language code)
  | omitted (count : Nat) (what : String) : RenderingStep limits (·.omitted count what)
  | lines (ts : List Text) : RenderingStep limits (·.lines ts)
  | items {α : Type} (share : Share) (atLeast shown : Nat) (write : Page → α → Page) (as : List α)
      (each : ∀ a, RenderingStep limits (write · a)) :
      RenderingStep limits fun p => (p.items share atLeast write shown as).1
  | bullets (heading : String) (bs : List Text) : RenderingStep limits (bulletSection heading bs)
  | title (r : ContextResponse) (api : ApiSignature) : RenderingStep limits (titleSection r api)
  | deprecation (api : ApiSignature) : RenderingStep limits (deprecationSection api)
  | description (api : ApiSignature) : RenderingStep limits (descriptionSection api)
  | parameters (api : ApiSignature) : RenderingStep limits (parametersSection api)
  | returns (api : ApiSignature) : RenderingStep limits (returnsSection api)
  | overloads (api : ApiSignature) : RenderingStep limits (overloadsSection api)
  | relatedTypes (api : ApiSignature) : RenderingStep limits (relatedTypesSection limits api)
  | missing (r : ContextResponse) : RenderingStep limits (missingSection r)
  | examples (r : ContextResponse) : RenderingStep limits (examplesSection r)
  | source (r : ContextResponse) : RenderingStep limits (sourceSection r)
  | searchHeading (r : SearchResponse) : RenderingStep limits (searchHeading r)
  | result (rank : Nat) (r : SearchResult) : RenderingStep limits (resultSection limits rank r)
  | results (rank : Nat) (rs : List SearchResult) :
      RenderingStep limits (resultSections limits rank · rs)
  /-- One step after the other. -/
  | next {first second : Page → Page} (before : RenderingStep limits first)
      (after : RenderingStep limits second) : RenderingStep limits fun p => second (first p)

/-- A step adds a text to every page, though not the same one. -/
def Appends (step : Page → Page) : Prop := ∀ p, ∃ t, step p = p.push t

theorem Appends.of_writes {step : Page → Page} (h : ∃ t, Writes step t) : Appends step := by
  obtain ⟨t, writes⟩ := h
  exact fun p => ⟨t, writes p⟩

theorem Appends.of_writesList {step : Page → Page} {least length : Nat} {text : Nat → Text}
    (h : WritesList step least length text) : Appends step := by
  intro p
  obtain ⟨count, -, -, written⟩ := h.some p
  exact ⟨text count, written⟩

theorem Appends.next {first second : Page → Page} (h : Appends first) (h' : Appends second) :
    Appends fun p => second (first p) := by
  intro p
  obtain ⟨t, written⟩ := h p
  obtain ⟨u, written'⟩ := h' (p.push t)
  exact ⟨t ++ u, by simp only [written, written', Page.push_push]⟩

theorem Appends.items {α : Type} {write : Page → α → Page} (each : ∀ a, Appends (write · a))
    (share : Share) (atLeast shown : Nat) (as : List α) :
    Appends fun p => (p.items share atLeast write shown as).1 := by
  induction as generalizing shown with
  | nil => exact .of_writes ⟨[], Writes.nothing⟩
  | cons a as ih =>
      intro p
      simp only [Page.items]
      split
      · exact ⟨[], Writes.nothing p⟩
      · exact (each a).next (ih (shown + 1)) p

variable {limits : Limits}

theorem RenderingStep.appends {step : Page → Page} (h : RenderingStep limits step) :
    Appends step := by
  induction h with
  | push t => exact fun p => ⟨t, rfl⟩
  | line t => exact fun p => ⟨_, Page.line_eq p t⟩
  | gap => exact fun p => ⟨_, rfl⟩
  | codeBlock language code => exact fun p => ⟨_, Page.codeBlock_eq p language code⟩
  | omitted count what => exact fun p => ⟨_, Page.omitted_eq p count what⟩
  | lines ts => exact fun p => ⟨_, Page.lines_eq p ts⟩
  | items share atLeast shown write as each ih => exact .items ih share atLeast shown as
  | bullets heading bs => exact .of_writes (writes_bulletSection heading bs)
  | title r api => exact .of_writes (writes_titleSection r api)
  | deprecation api => exact .of_writes (writes_deprecationSection api)
  | description api => exact .of_writes (writes_descriptionSection api)
  | parameters api => exact .of_writes (writes_parametersSection api)
  | returns api => exact .of_writes (writes_returnsSection api)
  | overloads api => exact .of_writesList (writesList_overloadsSection api)
  | relatedTypes api => exact .of_writesList (writesList_relatedTypesSection limits api)
  | missing r => exact .of_writes (writes_missingSection r)
  | examples r => exact .of_writesList (writesList_examplesSection r)
  | source r => exact .of_writes (writes_sourceSection r)
  | searchHeading r => exact .of_writes (writes_searchHeading r)
  | result rank r => exact .of_writes ⟨_, writes_resultSection limits rank r⟩
  | results rank rs => exact .of_writesList (writesList_resultSections limits rank rs)
  | next before after ih ih' => exact ih.next ih'

/-- A whole page is made from an empty one by rendering steps. -/
theorem contextPage_eq (limits : Limits) (r : ContextResponse) :
    ∃ step, RenderingStep limits step ∧ contextPage limits r = step (Page.empty limits.chars) := by
  have ending {step : Page → Page} (before : RenderingStep limits step) :=
    (((before.next (.examples r)).next (.bullets "## Similar APIs" (r.relatedApis.map inlineCode))).next
      (.bullets "## Notes" r.notes)).next (.source r)
  cases found : r.api with
  | some api =>
      refine ⟨_, ending ((((((((RenderingStep.title r api).next (.deprecation api)).next
        (.description api)).next (.parameters api)).next (.returns api)).next
        (.overloads api)).next (.relatedTypes api)).next (.bullets "## See Also" api.seeAlso)), ?_⟩
      simp only [contextPage, found, apiSections]
  | none =>
      refine ⟨_, ending (.missing r), ?_⟩
      simp only [contextPage, found]

theorem searchPage_eq (limits : Limits) (r : SearchResponse) :
    ∃ step, RenderingStep limits step ∧ searchPage limits r = step (Page.empty limits.chars) := by
  by_cases empty : r.results.isEmpty
  · refine ⟨_, (RenderingStep.searchHeading r).next (.line "No matching APIs.".toList), ?_⟩
    simp only [searchPage, if_pos empty]
  · refine ⟨_, (RenderingStep.searchHeading r).next (.results 1 r.results), ?_⟩
    simp only [searchPage, if_neg empty]

namespace Page

/-- The count of a page is its number of characters. -/
def Counted (p : Page) : Prop := p.chars = p.text.length

theorem Counted.empty (budget : Nat) : (Page.empty budget).Counted := rfl

theorem Counted.push {p : Page} (h : p.Counted) (t : Text) : (p.push t).Counted := by
  simp only [Counted, Page.push, List.length_append, Nat.add_right_cancel_iff]
  exact h

theorem Counted.after {p : Page} (h : p.Counted) {step : Page → Page} (appends : Appends step) :
    (step p).Counted := by
  obtain ⟨t, written⟩ := appends p
  rw [written]
  exact h.push t

/-- The text fits, or there is room for the marker at the cut, or nothing is left. -/
theorem Counted.length_finish_le {p : Page} (h : p.Counted) : p.finish.length ≤ p.budget := by
  unfold finish
  split
  · next fits => exact h ▸ fits
  · rw [List.length_append, List.length_take]
    split
    · omega
    · simp only [List.length_nil]
      omega

end Page

theorem Appends.budget_eq {step : Page → Page} (h : Appends step) (p : Page) :
    (step p).budget = p.budget := by
  obtain ⟨t, written⟩ := h p
  rw [written, Page.push_budget]

/-- What rendering steps make of an empty page keeps to its budget. -/
theorem RenderingStep.length_finish_le {step : Page → Page} (h : RenderingStep limits step)
    (budget : Nat) : (step (Page.empty budget)).finish.length ≤ budget := by
  have counted := (Page.Counted.empty budget).after h.appends
  have kept : (step (Page.empty budget)).budget = budget := h.appends.budget_eq _
  exact Nat.le_trans counted.length_finish_le (Nat.le_of_eq kept)

/-- No text has more characters than its budget, since each step of its rendering, from the empty
page on, keeps the count of characters right. -/
theorem texts_within_budget (limits : Limits) :
    (∀ r : ContextResponse, (contextText limits r).length ≤ limits.chars ∧
      ∃ step, RenderingStep limits step ∧ contextPage limits r = step (Page.empty limits.chars)) ∧
    (∀ r : SearchResponse, (searchText limits r).length ≤ limits.chars ∧
      ∃ step, RenderingStep limits step ∧ searchPage limits r = step (Page.empty limits.chars)) ∧
    ∀ step, RenderingStep limits step → ∀ p : Page,
      p.chars = p.text.length → (step p).chars = (step p).text.length := by
  refine ⟨fun r => ?_, fun r => ?_, fun step h p counted => ?_⟩
  · obtain ⟨step, h, page⟩ := contextPage_eq limits r
    refine ⟨?_, step, h, page⟩
    rw [contextText, page]
    exact h.length_finish_le limits.chars
  · obtain ⟨step, h, page⟩ := searchPage_eq limits r
    refine ⟨?_, step, h, page⟩
    rw [searchText, page]
    exact h.length_finish_le limits.chars
  · exact Page.Counted.after counted h.appends

end ApiReference.Rendering
