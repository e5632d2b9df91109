import ApiReference.Proofs.Markdown.Fences
import ApiReference.Proofs.Rendering.Reduction

/-!
# Code on pages

A context page is prose and code in turn. Read by the rules for fenced code it has the blocks that
it was written with if and only if no line of the code shown looks like a closing fence and no line
of the prose like an opening one. Main statement: `contextText_places`.
-/

namespace ApiReference.Rendering
open ApiReference.Declaration (ApiSignature RelatedType)
open ApiReference.Markdown (Piece Ended ended_nil ended_concat places rows)
open Page (remark codeText)

/-- A piece of code without white space at its end. -/
def codePiece (language code : Text) : Piece := .code language (Text.trimEnd code ++ ['\n'])

/-- A heading, pieces for the first items of a list, a remark on the other items and an empty line;
nothing at all for an empty list. -/
def listPieces {α : Type} (heading : String) (pieces : List α → List Piece) (what : String)
    (as : List α) (count : Nat) : List Piece :=
  if as.isEmpty then []
  else .prose (heading.toList ++ ['\n']) ::
    (pieces (as.take count) ++ [.prose (remark (as.length - count) what ++ ['\n'])])

/-- The heading of a page about an API. -/
def titleLine (r : ContextResponse) (api : ApiSignature) : Text :=
  "# ".toList ++ api.name ++ " [".toList ++ api.kind.name ++ [']'] ++
    match r.package, r.version with
    | some package, some version => " (".toList ++ packageAt package version ++ [')']
    | _, _ => []

/-- The overloads share one block. -/
def overloadPieces (overloads : List Text) : List Piece :=
  [.code declarationLanguage (overloads.flatMap fun o => Text.trimEnd o ++ ['\n'])]

def relatedTypePieces (signatureChars : Nat) (related : List RelatedType) : List Piece :=
  related.map fun t => codePiece declarationLanguage (truncate signatureChars t.signature)

def samplePieces (samples : List Sample) : List Piece :=
  samples.flatMap fun s => [.prose ("### ".toList ++ s.title ++ ['\n']), codePiece s.language s.code]

/-- What is written of an API with so many overloads and related types. -/
def apiPieces (signatureChars : Nat) (r : ContextResponse) (api : ApiSignature)
    (overloads related : Nat) : List Piece :=
  [.prose (titleLine r api ++ ['\n', '\n']), codePiece declarationLanguage api.signature,
    .prose ['\n'], .prose (added (deprecationSection api)), .prose (added (descriptionSection api)),
    .prose (added (parametersSection api)), .prose (added (returnsSection api))] ++
  listPieces "## Overloads" overloadPieces "overloads" (api.overloads.getD []) overloads ++
  listPieces "## Related Types" (relatedTypePieces signatureChars) "related types" api.relatedTypes
    related ++
  [.prose (added (bulletSection "## See Also" api.seeAlso))]

/-- A context page with so many items of each list. -/
def contextPieces (signatureChars : Nat) (r : ContextResponse) (shown : ContextList → Nat) :
    List Piece :=
  (match r.api with
    | some api => apiPieces signatureChars r api (shown .overloads) (shown .relatedTypes)
    | none => [.prose (added (missingSection r))]) ++
  listPieces "## Examples" samplePieces "examples" (samples r) (shown .examples) ++
  [.prose (added (bulletSection "## Similar APIs" (r.relatedApis.map inlineCode))),
    .prose (added (bulletSection "## Notes" r.notes)), .prose (added (sourceSection r))]

theorem text_codePiece (language code : Text) :
    (codePiece language code).text = codeText language code := by
  simp [codePiece, Piece.text, codeText]

theorem text_listPieces {α : Type} (item : α → Text) (above below : Text) {heading : String}
    {pieces : List α → List Piece} {what : String} {as : List α} {count : Nat}
    (written : ∀ bs, (pieces bs).flatMap Piece.text = above ++ bs.flatMap item ++ below) :
    (listPieces heading pieces what as count).flatMap Piece.text =
      listText (heading.toList ++ ['\n'] ++ above) item below what as count := by
  unfold listPieces listText
  split
  · rfl
  · simp [written, Piece.text]

theorem text_overloads (overloads : List Text) (count : Nat) :
    (listPieces "## Overloads" overloadPieces "overloads" overloads count).flatMap Piece.text =
      overloadsText overloads count := by
  rw [text_listPieces (fun o => Text.trimEnd o ++ ['\n'])
    (Page.fence ++ declarationLanguage ++ ['\n']) (Page.fence ++ ['\n'])]
  · rfl
  · intro bs
    simp [overloadPieces, Piece.text]

theorem text_relatedTypes (signatureChars : Nat) (related : List RelatedType) (count : Nat) :
    (listPieces "## Related Types" (relatedTypePieces signatureChars) "related types" related
      count).flatMap Piece.text = relatedTypesText signatureChars related count := by
  rw [text_listPieces (fun t =>
      codeText declarationLanguage (truncate signatureChars t.signature)) [] []]
  · rfl
  · intro bs
    simp [relatedTypePieces, List.flatMap_map, text_codePiece]

theorem text_samples (r : ContextResponse) (count : Nat) :
    (listPieces "## Examples" samplePieces "examples" (samples r) count).flatMap Piece.text =
      examplesText r count := by
  rw [examplesText_eq, text_listPieces (fun s => exampleText s.title s.language s.code) [] []]
  · rfl
  · intro bs
    simp [samplePieces, List.flatMap_assoc, text_codePiece, Piece.text_prose, exampleText]

theorem added_titleSection (r : ContextResponse) (api : ApiSignature) :
    added (titleSection r api) =
      titleLine r api ++ ['\n', '\n'] ++ codeText declarationLanguage api.signature ++ ['\n'] := by
  have written : titleSection r api (Page.empty 0) =
      ((((Page.empty 0).line (titleLine r api)).gap).codeBlock declarationLanguage
        api.signature).gap := rfl
  rw [added, written]
  simp [Page.line_eq, Page.codeBlock_eq, Page.gap, Page.push, Page.empty]

theorem text_apiPieces (signatureChars : Nat) (r : ContextResponse) (api : ApiSignature)
    (overloads related : Nat) :
    (apiPieces signatureChars r api overloads related).flatMap Piece.text =
      apiText signatureChars r api overloads related := by
  simp only [apiPieces, List.flatMap_append, List.flatMap_cons, List.flatMap_nil, text_overloads,
    text_relatedTypes, text_codePiece, Piece.text_prose, apiText, added_titleSection, List.append_assoc,
    List.append_nil]

theorem text_contextPieces (signatureChars : Nat) (r : ContextResponse)
    (shown : ContextList → Nat) :
    (contextPieces signatureChars r shown).flatMap Piece.text =
      contextShowing signatureChars r shown := by
  unfold contextPieces contextShowing
  cases r.api with
  | none =>
      simp only [List.flatMap_append, List.flatMap_cons, List.flatMap_nil, text_samples, Piece.text_prose,
        List.append_assoc, List.append_nil]
  | some api =>
      simp only [List.flatMap_append, List.flatMap_cons, List.flatMap_nil, text_samples, Piece.text_prose,
        text_apiPieces, List.append_assoc, List.append_nil]

theorem ended_text_gap (p : Page) : Ended p.gap.text := ended_concat p.text

theorem ended_text_line (p : Page) (t : Text) : Ended (p.line t).text := ended_concat _

theorem ended_bulletSection (heading : String) (bullets : List Text) :
    Ended (added (bulletSection heading bullets)) := by
  unfold added bulletSection
  split
  · exact ended_nil
  · exact ended_text_gap _

theorem ended_deprecationSection (api : ApiSignature) :
    Ended (added (deprecationSection api)) := by
  unfold added deprecationSection
  split
  · exact ended_text_gap _
  · exact ended_nil

theorem ended_descriptionSection (api : ApiSignature) :
    Ended (added (descriptionSection api)) := by
  unfold added descriptionSection
  split
  · exact ended_text_gap _
  · exact ended_nil

theorem ended_parametersSection (api : ApiSignature) :
    Ended (added (parametersSection api)) := by
  unfold added parametersSection
  split
  · exact ended_nil
  · exact ended_text_gap _

theorem ended_returnsSection (api : ApiSignature) : Ended (added (returnsSection api)) := by
  unfold added returnsSection
  split
  · exact ended_text_gap _
  · exact ended_nil

theorem ended_missingSection (r : ContextResponse) : Ended (added (missingSection r)) := by
  unfold added missingSection
  split
  · exact ended_text_gap _
  · exact ended_text_gap _

theorem ended_sourceSection (r : ContextResponse) : Ended (added (sourceSection r)) := by
  unfold added sourceSection
  split
  · exact ended_text_line _ _
  · exact ended_nil

theorem isWhole_codePiece (language code : Text) : (codePiece language code).IsWhole :=
  ended_concat _

theorem isWhole_listPieces {α : Type} {heading : String} {pieces : List α → List Piece}
    {what : String} {as : List α} {count : Nat}
    (whole : ∀ bs, ∀ p ∈ pieces bs, p.IsWhole) :
    ∀ p ∈ listPieces heading pieces what as count, p.IsWhole := by
  unfold listPieces
  split
  · exact List.forall_mem_nil _
  · refine List.forall_mem_cons.2 ⟨ended_concat _, List.forall_mem_append.2 ⟨whole _, ?_⟩⟩
    exact List.forall_mem_singleton.2 (ended_concat _)

theorem isWhole_overloadPieces (overloads : List Text) :
    ∀ p ∈ overloadPieces overloads, p.IsWhole := by
  refine List.forall_mem_singleton.2 ?_
  change Ended _
  induction overloads with
  | nil => exact ended_nil
  | cons o overloads ih => exact (ended_concat _).append ih

theorem isWhole_apiPieces (signatureChars : Nat) (r : ContextResponse) (api : ApiSignature)
    (overloads related : Nat) :
    ∀ p ∈ apiPieces signatureChars r api overloads related, p.IsWhole := by
  have title : Ended (titleLine r api ++ ['\n', '\n']) := by
    rw [← List.singleton_append, ← List.append_assoc]
    exact ended_concat _
  have relatedWhole (bs : List RelatedType) : ∀ p ∈ relatedTypePieces signatureChars bs, p.IsWhole :=
    List.forall_mem_map.2 fun t _ => isWhole_codePiece _ _
  refine List.forall_mem_append.2 ⟨List.forall_mem_append.2 ⟨List.forall_mem_append.2 ⟨?_,
    isWhole_listPieces isWhole_overloadPieces⟩, isWhole_listPieces relatedWhole⟩,
    List.forall_mem_singleton.2 (ended_bulletSection _ _)⟩
  simp only [List.forall_mem_cons]
  exact ⟨title, isWhole_codePiece _ _, ended_concat [], ended_deprecationSection api,
    ended_descriptionSection api, ended_parametersSection api, ended_returnsSection api,
    List.forall_mem_nil _⟩

theorem isWhole_contextPieces (signatureChars : Nat) (r : ContextResponse)
    (shown : ContextList → Nat) : ∀ p ∈ contextPieces signatureChars r shown, p.IsWhole := by
  have samplesWhole (bs : List Sample) : ∀ p ∈ samplePieces bs, p.IsWhole := by
    intro p member
    obtain ⟨s, -, inside⟩ := List.mem_flatMap.1 member
    rcases List.mem_pair.1 inside with rfl | rfl
    · exact ended_concat _
    · exact isWhole_codePiece _ _
  refine List.forall_mem_append.2 ⟨List.forall_mem_append.2 ⟨?_,
    isWhole_listPieces samplesWhole⟩, ?_⟩
  · cases r.api with
    | none => exact List.forall_mem_singleton.2 (ended_missingSection r)
    | some api => exact isWhole_apiPieces _ _ _ _ _
  · simp only [List.forall_mem_cons]
    exact ⟨ended_bulletSection _ _, ended_bulletSection _ _, ended_sourceSection r,
      List.forall_mem_nil _⟩

/-- The text of a page that is not cut consists of prose and of code between fences. Each of its
lines stands where it is meant to, so that headings, notes and the source are outside of all blocks,
if and only if no line of prose looks like an opening fence, no language has a backtick, and no line
of any code looks like a closing fence. -/
theorem contextText_places (limits : Limits) (r : ContextResponse)
    (uncut : (contextPage limits r).chars ≤ limits.chars) :
    ∃ shown : ContextList → Nat,
      (∀ i, shown i ≤ (contextLists r i).length ∧
        min (contextLists r i).least (contextLists r i).length ≤ shown i) ∧
      contextText limits r =
        (contextPieces limits.signatureChars r shown).flatMap Piece.text ∧
      (places none (rows (contextText limits r)) =
          (contextPieces limits.signatureChars r shown).flatMap Piece.meant ↔
        ∀ p ∈ contextPieces limits.signatureChars r shown, p.IsPlain) := by
  obtain ⟨shown, bounds, written⟩ := contextPage_some limits r
  have fits : (contextShowing limits.signatureChars r shown).length ≤ limits.chars := by
    rw [written] at uncut
    simpa [Page.push, Page.empty] using uncut
  have text : contextText limits r =
      (contextPieces limits.signatureChars r shown).flatMap Piece.text := by
    rw [contextText, written, Page.finish_push, if_pos fits, text_contextPieces]
  refine ⟨shown, bounds, text, ?_⟩
  rw [text]
  exact Piece.places_rows_iff (isWhole_contextPieces _ _ _)

/-! One example in the documentation of a function, without fences of its own and with them. -/

namespace Documented

def api (sample : String) : ApiSignature :=
  { name := "f".toList, kind := .function, signature := "function f(): void".toList,
    description := none, parameters := [], returnType := some "void".toList, generics := [],
    overloads := none, relatedTypes := [], examples := [sample.toList], seeAlso := [],
    deprecated := false, deprecationMessage := none }

def response (sample : String) : ContextResponse :=
  { query := "f".toList, concept := "f".toList, api := some (api sample),
    notes := ["Version 1.0.0 is old.".toList], confidence := 0 }

def limits : Limits := ⟨8000, 600⟩

theorem contextText_places_call :
    (contextPage limits (response "f()")).chars ≤ limits.chars ∧
    ∃ shown, places none (rows (contextText limits (response "f()"))) =
      (contextPieces limits.signatureChars (response "f()") shown).flatMap Piece.meant := by
  have uncut : (contextPage limits (response "f()")).chars ≤ limits.chars := by decide +kernel
  obtain ⟨shown, bounds, -, read⟩ := contextText_places limits (response "f()") uncut
  have one : shown .examples = 1 := Nat.le_antisymm (bounds .examples).1 (bounds .examples).2
  refine ⟨uncut, shown, read.2 ?_⟩
  have plain : ∀ p ∈ contextPieces limits.signatureChars (response "f()")
      fun | .examples => 1 | _ => 0, p.IsPlain := by decide +kernel
  have overloads : shown .overloads = 0 := Nat.le_zero.1 (bounds .overloads).1
  have related : shown .relatedTypes = 0 := Nat.le_zero.1 (bounds .relatedTypes).1
  simpa [contextPieces, one, overloads, related] using plain

/-- The lines of a page whose example has fences of its own. -/
def fenced : List Text := rows (contextText limits (response "```ts\nf()\n```"))

/-- Behind an example with fences of its own the notes are read as code. -/
theorem contextText_fenced :
    (contextPage limits (response "```ts\nf()\n```")).chars ≤ limits.chars ∧
    ∃ i : Nat, fenced[i]? = some "## Notes".toList ∧
      (places none fenced)[i]? = some Markdown.LinePlace.inside :=
  ⟨by decide +kernel, 17, by decide +kernel⟩

end Documented
end ApiReference.Rendering
