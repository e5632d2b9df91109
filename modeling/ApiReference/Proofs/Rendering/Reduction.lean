import ApiReference.Proofs.Rendering.Writing

/-!
# Reductions are announced

A text of limited size stands for the full one: it is the full text where that takes half of the
budget at most, it says of each list how many items are left out, and where its end is cut off it
ends with a marker. Main statement: `reductions_announced`.
-/

namespace ApiReference.Rendering
open ApiReference.Declaration (ApiSignature RelatedType)
open Page (remark)

/-- A list on a page: what its items are called, how many there are, and how many of them are
written however little room there is. -/
structure Listing where
  what : String
  length : Nat
  least : Nat

/-- How a text stands for a full one. `showing` has so many first items of each list, with a remark
on the others; the full text has all items, and `render` makes the text for a budget. -/
structure Announced {ι : Type} (lists : ι → Listing) (showing : (ι → Nat) → Text)
    (render : Nat → Text) (budget : Nat) (shown : ι → Nat) : Prop where
  among : ∀ i, shown i ≤ (lists i).length
  enough : ∀ i, min (lists i).least (lists i).length ≤ shown i
  /-- What fits is not cut. -/
  uncut : (showing shown).length ≤ budget → render budget = showing shown
  cut : budget < (showing shown).length →
    render budget = (showing shown).take (budget - cutMarker.length) ++ cutMarker
  /-- The full text is what any budget gives that is twice as large or larger. -/
  full : ∀ larger, (showing fun i => (lists i).length).length ≤ larger / 2 →
    render larger = showing fun i => (lists i).length
  /-- What differs from the full text is marked as cut, or else says how much of each list it has
  left out. -/
  announced : render budget ≠ (showing fun i => (lists i).length) →
    cutMarker <:+ render budget ∨ (∃ i, shown i < (lists i).length) ∧
      ∀ i, shown i < (lists i).length →
        remark ((lists i).length - shown i) (lists i).what <:+: render budget

theorem Page.finish_push (budget : Nat) (t : Text) : ((Page.empty budget).push t).finish =
    if t.length ≤ budget then t
    else t.take (budget - cutMarker.length) ++
      if cutMarker.length ≤ budget then cutMarker else [] := by
  simp [Page.finish, Page.push, Page.empty]

/-- What is to be shown of pages, for their texts to stand for a full one. -/
theorem Announced.of_pages {ι : Type} {lists : ι → Listing} {showing : (ι → Nat) → Text}
    {page : Nat → Page} {budget : Nat} {shown : ι → Nat} (room : cutMarker.length ≤ budget)
    (bounds : ∀ i, shown i ≤ (lists i).length ∧ min (lists i).least (lists i).length ≤ shown i)
    (written : page budget = (Page.empty budget).push (showing shown))
    (full : ∀ larger, (showing fun i => (lists i).length).length ≤ larger / 2 →
      page larger = (Page.empty larger).push (showing fun i => (lists i).length))
    (remarked : ∀ i, shown i < (lists i).length →
      remark ((lists i).length - shown i) (lists i).what <:+: showing shown) :
    Announced lists showing (fun budget => (page budget).finish) budget shown := by
  have uncut (fits : (showing shown).length ≤ budget) : (page budget).finish = showing shown := by
    rw [written, Page.finish_push, if_pos fits]
  have cut (beyond : budget < (showing shown).length) : (page budget).finish =
      (showing shown).take (budget - cutMarker.length) ++ cutMarker := by
    rw [written, Page.finish_push, if_neg (Nat.not_le.mpr beyond), if_pos room]
  refine ⟨fun i => (bounds i).1, fun i => (bounds i).2, uncut, cut, ?_, ?_⟩
  · intro larger half
    rw [full larger half, Page.finish_push, if_pos (by omega)]
  · intro differs
    by_cases fits : (showing shown).length ≤ budget
    · rw [uncut fits] at differs ⊢
      -- Texts that differ show different numbers of items.
      obtain ⟨i, fewer⟩ : ∃ i, shown i ≠ (lists i).length := by
        refine Classical.byContradiction fun none => differs (congrArg showing (funext fun i => ?_))
        exact Classical.not_not.mp (not_exists.mp none i)
      exact .inr ⟨⟨i, Nat.lt_of_le_of_ne (bounds i).1 fewer⟩, remarked⟩
    · rw [cut (Nat.not_le.mp fits)]
      exact .inl (List.suffix_append _ _)

theorem remark_infix_listText {α : Type} (heading : Text) (item : α → Text) (below : Text)
    (what : String) (as : List α) {count : Nat} (fewer : count < as.length) :
    remark (as.length - count) what <:+: listText heading item below what as count := by
  have nonempty : ¬ as.isEmpty := by
    rw [List.isEmpty_iff]
    rintro rfl
    exact Nat.not_lt_zero _ fewer
  rw [listText, if_neg nonempty]
  exact ⟨_, ['\n'], rfl⟩

/-- The lists of a context page that become shorter. -/
inductive ContextList where
  | overloads
  | relatedTypes
  | examples

def overloadsOf (r : ContextResponse) : List Text := (r.api.bind ApiSignature.overloads).getD []

def relatedTypesOf (r : ContextResponse) : List RelatedType :=
  (r.api.map ApiSignature.relatedTypes).getD []

theorem overloadsOf_eq {r : ContextResponse} {api : ApiSignature} (found : r.api = some api) :
    overloadsOf r = api.overloads.getD [] := by
  rw [overloadsOf, found, Option.bind_some]

theorem relatedTypesOf_eq {r : ContextResponse} {api : ApiSignature} (found : r.api = some api) :
    relatedTypesOf r = api.relatedTypes := by
  rw [relatedTypesOf, found, Option.map_some, Option.getD_some]

def contextLists (r : ContextResponse) : ContextList → Listing
  | .overloads => ⟨"overloads", (overloadsOf r).length, 2⟩
  | .relatedTypes => ⟨"related types", (relatedTypesOf r).length, 3⟩
  | .examples => ⟨"examples", (documentedOf r).length + r.examples.length, 1⟩

/-- What a page says of an API with so many overloads and related types. -/
def apiText (signatureChars : Nat) (r : ContextResponse) (api : ApiSignature)
    (overloads related : Nat) : Text :=
  added (titleSection r api) ++ added (deprecationSection api) ++ added (descriptionSection api) ++
    added (parametersSection api) ++ added (returnsSection api) ++
    overloadsText (api.overloads.getD []) overloads ++
    relatedTypesText signatureChars api.relatedTypes related ++
    added (bulletSection "## See Also" api.seeAlso)

/-- The text of a context page with so many items of each list. -/
def contextShowing (signatureChars : Nat) (r : ContextResponse) (shown : ContextList → Nat) :
    Text :=
  (match r.api with
    | some api => apiText signatureChars r api (shown .overloads) (shown .relatedTypes)
    | none => added (missingSection r)) ++
  examplesText r (shown .examples) ++
  added (bulletSection "## Similar APIs" (r.relatedApis.map inlineCode)) ++
  added (bulletSection "## Notes" r.notes) ++ added (sourceSection r)

section Context
variable (limits : Limits) (r : ContextResponse) (api : ApiSignature)

/-- The sections before the first list write the same on every page. -/
theorem apiHead_eq (p : Page) :
    returnsSection api (parametersSection api (descriptionSection api (deprecationSection api
      (titleSection r api p)))) =
    p.push (added (titleSection r api) ++ added (deprecationSection api) ++
      added (descriptionSection api) ++ added (parametersSection api) ++
      added (returnsSection api)) := by
  rw [writes_added (writes_titleSection r api), writes_added (writes_deprecationSection api),
    writes_added (writes_descriptionSection api), writes_added (writes_parametersSection api),
    writes_added (writes_returnsSection api)]
  simp only [Page.push_push]

theorem apiSections_some (p : Page) : ∃ overloads ≤ (api.overloads.getD []).length,
    ∃ related ≤ api.relatedTypes.length,
      min 2 (api.overloads.getD []).length ≤ overloads ∧
      min 3 api.relatedTypes.length ≤ related ∧
      apiSections limits r api p =
        p.push (apiText limits.signatureChars r api overloads related) := by
  obtain ⟨overloads, among, enough, written⟩ := (writesList_overloadsSection api).some
    (p.push (added (titleSection r api) ++ added (deprecationSection api) ++
      added (descriptionSection api) ++ added (parametersSection api) ++
      added (returnsSection api)))
  obtain ⟨related, among', enough', written'⟩ :=
    (writesList_relatedTypesSection limits api).some _
  refine ⟨overloads, among, related, among', enough, enough', ?_⟩
  simp only [apiSections, apiHead_eq, apiText]
  rw [written, written', writes_added (writes_bulletSection _ _)]
  simp only [Page.push_push]

theorem apiSections_all (p : Page)
    (room : p.chars + (apiText limits.signatureChars r api (api.overloads.getD []).length
      api.relatedTypes.length).length ≤ p.budget / 2) :
    apiSections limits r api p = p.push (apiText limits.signatureChars r api
      (api.overloads.getD []).length api.relatedTypes.length) := by
  simp only [apiText, List.length_append] at room
  simp only [apiSections, apiHead_eq, apiText]
  rw [(writesList_overloadsSection api).all, (writesList_relatedTypesSection limits api).all,
    writes_added (writes_bulletSection _ _)]
  · simp only [Page.push_push]
  · simp only [Page.push_chars, Page.push_budget, List.length_append]
    omega
  · simp only [Page.push_chars, Page.push_budget, List.length_append]
    omega

/-- So do those behind the last list. -/
theorem contextTail_eq (p : Page) :
    sourceSection r (bulletSection "## Notes" r.notes
      (bulletSection "## Similar APIs" (r.relatedApis.map inlineCode) p)) =
    p.push (added (bulletSection "## Similar APIs" (r.relatedApis.map inlineCode)) ++
      added (bulletSection "## Notes" r.notes) ++ added (sourceSection r)) := by
  rw [writes_added (writes_bulletSection _ _), writes_added (writes_bulletSection _ _),
    writes_added (writes_sourceSection r)]
  simp only [Page.push_push]

/-- A context page shows some of each list, and the least number of them. -/
theorem contextPage_some :
    ∃ shown : ContextList → Nat,
      (∀ i, shown i ≤ (contextLists r i).length ∧
        min (contextLists r i).least (contextLists r i).length ≤ shown i) ∧
      contextPage limits r =
        (Page.empty limits.chars).push (contextShowing limits.signatureChars r shown) := by
  cases found : r.api with
  | none =>
      obtain ⟨examples, among, enough, written⟩ := (writesList_examplesSection r).some
        ((Page.empty limits.chars).push (added (missingSection r)))
      refine ⟨fun | .examples => examples | _ => 0, ?_, ?_⟩
      · rintro (_ | _ | _)
        · exact ⟨Nat.zero_le _, by simp [contextLists, overloadsOf, found]⟩
        · exact ⟨Nat.zero_le _, by simp [contextLists, relatedTypesOf, found]⟩
        · exact ⟨among, enough⟩
      · simp only [contextPage, found, contextShowing]
        rw [writes_added (writes_missingSection r), written, contextTail_eq]
        simp only [Page.push_push, List.append_assoc]
  | some api =>
      obtain ⟨overloads, among₁, related, among₂, enough₁, enough₂, written⟩ :=
        apiSections_some limits r api (Page.empty limits.chars)
      obtain ⟨examples, among₃, enough₃, written'⟩ := (writesList_examplesSection r).some _
      refine ⟨fun | .overloads => overloads | .relatedTypes => related | .examples => examples,
        ?_, ?_⟩
      · rintro (_ | _ | _)
        · simp only [contextLists, overloadsOf_eq found]
          exact ⟨among₁, enough₁⟩
        · simp only [contextLists, relatedTypesOf_eq found]
          exact ⟨among₂, enough₂⟩
        · exact ⟨among₃, enough₃⟩
      · simp only [contextPage, found, contextShowing]
        rw [written, written', contextTail_eq]
        simp only [Page.push_push, List.append_assoc]

/-- A context page shows all of each list where there is room. -/
theorem contextPage_all
    (room : (contextShowing limits.signatureChars r fun i => (contextLists r i).length).length ≤
      limits.chars / 2) :
    contextPage limits r = (Page.empty limits.chars).push
      (contextShowing limits.signatureChars r fun i => (contextLists r i).length) := by
  cases found : r.api with
  | none =>
      simp only [contextShowing, found, contextLists, List.length_append] at room
      simp only [contextPage, found, contextShowing, contextLists]
      rw [writes_added (writes_missingSection r), (writesList_examplesSection r).all,
        contextTail_eq]
      · simp only [Page.push_push, List.append_assoc]
      · simp only [Page.push_chars, Page.push_budget, Page.empty]
        omega
  | some api =>
      simp only [contextShowing, found, contextLists, overloadsOf_eq found,
        relatedTypesOf_eq found, List.length_append] at room
      simp only [contextPage, found, contextShowing, contextLists, overloadsOf_eq found,
        relatedTypesOf_eq found]
      rw [apiSections_all, (writesList_examplesSection r).all, contextTail_eq]
      · simp only [Page.push_push, List.append_assoc]
      · simp only [Page.push_chars, Page.push_budget, Page.empty]
        omega
      · simp only [Page.empty]
        omega

/-- What is left out of the lists of an API is said among its declarations. -/
theorem remark_infix_apiText (signatureChars : Nat) {overloads related : Nat} :
    (overloads < (api.overloads.getD []).length →
      remark ((api.overloads.getD []).length - overloads) "overloads" <:+:
        apiText signatureChars r api overloads related) ∧
    (related < api.relatedTypes.length →
      remark (api.relatedTypes.length - related) "related types" <:+:
        apiText signatureChars r api overloads related) := by
  constructor
  · intro fewer
    have said : _ <:+: overloadsText (api.overloads.getD []) overloads :=
      remark_infix_listText _ _ _ _ _ fewer
    exact ((said.trans (List.suffix_append _ _).isInfix).trans (List.prefix_append _ _).isInfix).trans
      (List.prefix_append _ _).isInfix
  · intro fewer
    have said : _ <:+: relatedTypesText signatureChars api.relatedTypes related :=
      remark_infix_listText _ _ _ _ _ fewer
    exact (said.trans (List.suffix_append _ _).isInfix).trans (List.prefix_append _ _).isInfix

/-- What is left out of a list is said on the page. -/
theorem remark_infix_contextShowing (signatureChars : Nat) {shown : ContextList → Nat}
    (i : ContextList) (fewer : shown i < (contextLists r i).length) :
    remark ((contextLists r i).length - shown i) (contextLists r i).what <:+:
      contextShowing signatureChars r shown := by
  have behind {said head : Text} (h : said <:+: head) : said <:+: head ++
      added (bulletSection "## Similar APIs" (r.relatedApis.map inlineCode)) ++
      added (bulletSection "## Notes" r.notes) ++ added (sourceSection r) :=
    ((h.trans (List.prefix_append _ _).isInfix).trans (List.prefix_append _ _).isInfix).trans
      (List.prefix_append _ _).isInfix
  unfold contextShowing
  refine behind ?_
  cases i with
  | examples =>
      have said : _ <:+: examplesText r (shown .examples) :=
        remark_infix_listText _ _ _ _ (exampleTexts r) (by rwa [length_exampleTexts])
      rw [length_exampleTexts] at said
      exact said.trans (List.suffix_append _ _).isInfix
  | overloads =>
      cases found : r.api with
      | none => simp [contextLists, overloadsOf, found] at fewer
      | some api =>
          simp only [contextLists, overloadsOf_eq found] at fewer ⊢
          exact ((remark_infix_apiText r api signatureChars).1 fewer).trans
            (List.prefix_append _ _).isInfix
  | relatedTypes =>
      cases found : r.api with
      | none => simp [contextLists, relatedTypesOf, found] at fewer
      | some api =>
          simp only [contextLists, relatedTypesOf_eq found] at fewer ⊢
          exact ((remark_infix_apiText r api signatureChars).2 fewer).trans
            (List.prefix_append _ _).isInfix

end Context

def searchLists (r : SearchResponse) : Unit → Listing
  | () => ⟨"results", r.results.length, 0⟩

/-- The text of a search page with so many results. -/
def searchShowing (signatureChars : Nat) (r : SearchResponse) (shown : Unit → Nat) : Text :=
  added (searchHeading r) ++
    if r.results.isEmpty then "No matching APIs.\n".toList
    else resultsText signatureChars 1 (r.results.take (shown ())) ++
      remark (r.results.length - shown ()) "results"

theorem searchPage_some (limits : Limits) (r : SearchResponse) :
    ∃ shown : Unit → Nat, shown () ≤ r.results.length ∧
      searchPage limits r =
        (Page.empty limits.chars).push (searchShowing limits.signatureChars r shown) := by
  by_cases empty : r.results.isEmpty
  · refine ⟨fun _ => 0, Nat.zero_le _, ?_⟩
    simp only [searchPage, searchShowing, if_pos empty]
    rw [writes_added (writes_searchHeading r), Page.line_eq, Page.push_push]
    rfl
  · obtain ⟨count, among, -, written⟩ := (writesList_resultSections limits 1 r.results).some
      ((Page.empty limits.chars).push (added (searchHeading r)))
    refine ⟨fun _ => count, among, ?_⟩
    simp only [searchPage, searchShowing, if_neg empty]
    rw [writes_added (writes_searchHeading r), written, Page.push_push]

theorem searchPage_all (limits : Limits) (r : SearchResponse)
    (room : (searchShowing limits.signatureChars r fun _ => r.results.length).length ≤
      limits.chars / 2) :
    searchPage limits r = (Page.empty limits.chars).push
      (searchShowing limits.signatureChars r fun _ => r.results.length) := by
  by_cases empty : r.results.isEmpty
  · simp only [searchPage, searchShowing, if_pos empty]
    rw [writes_added (writes_searchHeading r), Page.line_eq, Page.push_push]
    rfl
  · simp only [searchShowing, if_neg empty, List.length_append] at room
    simp only [searchPage, searchShowing, if_neg empty]
    rw [writes_added (writes_searchHeading r), (writesList_resultSections limits 1 r.results).all,
      Page.push_push]
    simp only [Page.push_chars, Page.push_budget, Page.empty, List.length_append]
    omega

/-- Texts announce what they leave out, those of an API and those of a search. -/
theorem reductions_announced (signatureChars budget : Nat) (room : cutMarker.length ≤ budget) :
    (∀ r : ContextResponse, ∃ shown, Announced (contextLists r) (contextShowing signatureChars r)
      (fun chars => contextText ⟨chars, signatureChars⟩ r) budget shown) ∧
    (∀ r : SearchResponse, ∃ shown, Announced (searchLists r) (searchShowing signatureChars r)
      (fun chars => searchText ⟨chars, signatureChars⟩ r) budget shown) := by
  constructor
  · intro r
    obtain ⟨shown, bounds, written⟩ := contextPage_some ⟨budget, signatureChars⟩ r
    exact ⟨shown, .of_pages room bounds written
      (fun larger half => contextPage_all ⟨larger, signatureChars⟩ r half)
      (fun i fewer => remark_infix_contextShowing r signatureChars i fewer)⟩
  · intro r
    obtain ⟨shown, among, written⟩ := searchPage_some ⟨budget, signatureChars⟩ r
    refine ⟨shown, .of_pages room (fun _ => ⟨among, Nat.zero_le _⟩) written
      (fun larger half => searchPage_all ⟨larger, signatureChars⟩ r half) fun _ fewer => ?_⟩
    have nonempty : ¬ r.results.isEmpty := by
      rw [List.isEmpty_iff]
      intro none
      simp [searchLists, none] at fewer
    unfold searchShowing
    rw [if_neg nonempty]
    exact (List.suffix_append _ _).isInfix.trans (List.suffix_append _ _).isInfix

/-! Three results where there is room for two, four examples where there is room for three, and room
for little more than the marker. -/

namespace Crowded

def result (name : String) : SearchResult :=
  { framework := "vue".toList, package := "vue".toList, version := "3.5.0".toList,
    name := name.toList, kind := .function, signature := "function ref(): Ref".toList,
    description := none, deprecated := false, score := 100 }

def results : SearchResponse :=
  { query := "ref".toList, results := [result "ref", result "toRef", result "unref"],
    frameworksSearched := ["vue".toList], totalFound := 3 }

def missing : ContextResponse := { query := "ref".toList, concept := "ref".toList, confidence := 0 }

/-- A function with two examples in its documentation and two found elsewhere. -/
def sampled : ContextResponse :=
  { query := "ref".toList, concept := "ref".toList, confidence := 0,
    api := some
      { name := "ref".toList, kind := .function, signature := "function ref(): Ref".toList,
        description := none, parameters := [], returnType := none, generics := [],
        overloads := none, relatedTypes := [], examples := ["ref(0)".toList, "ref(1)".toList],
        seeAlso := [], deprecated := false, deprecationMessage := none },
    examples := [⟨"ref(2)".toList, "ts".toList, "README".toList, [], some "Usage".toList, none⟩,
      ⟨"ref(3)".toList, "ts".toList, "README".toList, [], none, none⟩] }

theorem reductions_announced_crowded :
    (cutMarker.length ≤ 250 ∧ ∃ count < 3,
      remark (3 - count) "results" <:+: searchText ⟨250, 40⟩ results) ∧
    (cutMarker.length ≤ 290 ∧ ∃ count < 4, 1 ≤ count ∧
      remark (4 - count) "examples" <:+: contextText ⟨290, 40⟩ sampled ∧
      "### From the type documentation".toList <:+: contextText ⟨290, 40⟩ sampled ∧
      "### Usage".toList <:+: contextText ⟨290, 40⟩ sampled) ∧
    (cutMarker.length ≤ 24 ∧ contextText ⟨24, 40⟩ missing = "# No".toList ++ cutMarker) := by
  refine ⟨?_, ?_, ?_⟩
  · have room : cutMarker.length ≤ 250 := by decide
    obtain ⟨shown, h⟩ := (reductions_announced 40 250 room).2 results
    have differs : searchText ⟨250, 40⟩ results ≠ searchShowing 40 results fun _ => 3 := by
      decide +kernel
    have unmarked : ¬ cutMarker <:+ searchText ⟨250, 40⟩ results := by decide +kernel
    obtain ⟨⟨i, fewer⟩, said⟩ := (h.announced differs).resolve_left unmarked
    exact ⟨room, shown i, fewer, said i fewer⟩
  · have room : cutMarker.length ≤ 290 := by decide
    obtain ⟨shown, h⟩ := (reductions_announced 40 290 room).1 sampled
    have differs : contextText ⟨290, 40⟩ sampled ≠
        contextShowing 40 sampled fun i => (contextLists sampled i).length := by
      decide +kernel
    have unmarked : ¬ cutMarker <:+ contextText ⟨290, 40⟩ sampled := by decide +kernel
    obtain ⟨⟨i, fewer⟩, said⟩ := (h.announced differs).resolve_left unmarked
    -- There are no other lists of which something can be left out.
    obtain rfl : i = .examples := by
      cases i with
      | examples => rfl
      | overloads | relatedTypes => exact absurd fewer (Nat.not_lt_zero _)
    exact ⟨room, shown .examples, fewer, h.enough .examples, said .examples fewer,
      by decide +kernel, by decide +kernel⟩
  · have room : cutMarker.length ≤ 24 := by decide
    obtain ⟨shown, h⟩ := (reductions_announced 40 24 room).1 missing
    -- Without lists the text is the same for all counts.
    have text : contextShowing 40 missing shown =
        "# No API found for \"ref\"\n\n".toList := rfl
    have cut := h.cut (by rw [text]; decide)
    rw [text] at cut
    exact ⟨room, cut⟩

end Crowded
end ApiReference.Rendering
