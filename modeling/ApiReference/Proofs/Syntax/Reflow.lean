import ApiReference.Proofs.Text.Parts
import ApiReference.Proofs.Text.Spacing
import ApiReference.Syntax.Lexeme

/-!
# Texts laid out anew

Two texts that differ only in the white space between tokens: gaps on a line may be wider or
narrower, and a line may go on with the next one where it ends in a semicolon or an opening brace, unless
something stands on it that would have to end with it. Main statements: `Reflow.span`,
`Reflow.respaced`.
-/

namespace ApiReference.Syntax

/-- White space between tokens of a line. -/
def isSpacing (c : Char) : Bool := c == ' ' || c == '\t'

/-- White space between tokens, line ends included. -/
def isWhite (c : Char) : Bool := isSpacing c || c == '\n' || c == '\r'

/-- A character with which something may begin that the end of the line would end, given the
character before: a string, a regular expression, a comment or the first line of a script. -/
def beginsLineBound (before c : Char) : Bool :=
  c == '"' || c.toNat == 39 || c == '/' || (before == '#' && c == '!')

/-- A character at which no comment begins and that is not passed over between tokens. -/
def beginsToken (c : Char) : Bool := !Lexeme.isSpace c && c != '/'

/-- What the layout at a place depends on. -/
structure Layout where
  /-- Nothing has begun on the line that its end would end. -/
  free : Bool
  /-- The character before. -/
  last : Char
  /-- There is a gap before the place that has a line end in one of the texts, maybe not in both. -/
  folded : Bool

namespace Layout

def next (p : Layout) (c : Char) : Layout :=
  ⟨if c = '\n' ∧ p.last ≠ '\\' then true else p.free && !beginsLineBound p.last c, c, false⟩

/-- Whether a line end may be added or taken away at a place. -/
def isOpen (p : Layout) : Bool := p.free && (p.last == ';' || p.last == '{')

/-- The layout after a gap within a line. -/
def spaced (p : Layout) : Layout := ⟨p.free, ' ', false⟩

/-- The layout after a gap with line ends in one of the texts. -/
def afterFold : Layout := ⟨true, ' ', true⟩

end Layout

/-- A run of characters of a class. -/
def IsRun (f : Char → Bool) (t : Text) : Prop := t ≠ [] ∧ ∀ c ∈ t, f c = true

/-- Two texts from one layout to another that differ only in their gaps. -/
inductive Reflow : Layout → Text → Text → Layout → Prop where
  | nil {p : Layout} : Reflow p [] [] p
  | same {p q : Layout} {c : Char} {s t : Text}
      (token : p.folded = true → beginsToken c = true) (more : Reflow (p.next c) s t q) :
      Reflow p (c :: s) (c :: t) q
  | gap {p q : Layout} {g h s t : Text} (left : IsRun isSpacing g) (right : IsRun isSpacing h)
      (unescaped : p.last ≠ '\\') (token : p.folded = false) (more : Reflow p.spaced s t q) :
      Reflow p (g ++ s) (h ++ t) q
  | fold {p q : Layout} {g h s t : Text} (left : IsRun isWhite g) (right : IsRun isWhite h)
      (ends : p.isOpen = true) (more : Reflow .afterFold s t q) : Reflow p (g ++ s) (h ++ t) q

theorem isWhite_of_isSpacing {c : Char} (spacing : isSpacing c = true) : isWhite c = true := by
  rw [isWhite, spacing]
  rfl

theorem isSpacing_cases {P : Char → Prop} (space : P ' ') (tab : P '\t') {c : Char}
    (spacing : isSpacing c = true) : P c := by
  simp only [isSpacing, Bool.or_eq_true, beq_iff_eq] at spacing
  rcases spacing with rfl | rfl <;> assumption

theorem isWhite_cases {P : Char → Prop} (space : P ' ') (tab : P '\t') (lineFeed : P '\n')
    (carriageReturn : P '\r') {c : Char} (white : isWhite c = true) : P c := by
  simp only [isWhite, isSpacing, Bool.or_eq_true, beq_iff_eq] at white
  rcases white with ((rfl | rfl) | rfl) | rfl <;> assumption

theorem IsRun.white {g : Text} (run : IsRun isSpacing g) : IsRun isWhite g :=
  ⟨run.1, fun c member => isWhite_of_isSpacing (run.2 c member)⟩

/-- A class that has none of the characters of a run ends before it. -/
theorem IsRun.ends {f g : Char → Bool} {t : Text} (run : IsRun f t)
    (other : ∀ c, f c = true → g c = false) (s : Text) :
    (t ++ s).takeWhile g = [] ∧ (t ++ s).dropWhile g = t ++ s := by
  obtain ⟨some, all⟩ := run
  cases t with
  | nil => exact absurd rfl some
  | cons c t =>
      have apart := Bool.eq_false_iff.1 (other c (all c List.mem_cons_self))
      exact ⟨List.takeWhile_cons_of_neg apart, List.dropWhile_cons_of_neg apart⟩

namespace Reflow
variable {p q r : Layout} {c : Char} {s t u v : Text} {f : Char → Bool}

theorem append (first : Reflow p u v r) (second : Reflow r s t q) :
    Reflow p (u ++ s) (v ++ t) q := by
  induction first with
  | nil => exact second
  | same token _ ih => exact .same token (ih second)
  | gap left right unescaped token _ ih =>
      rw [List.append_assoc, List.append_assoc]
      exact .gap left right unescaped token (ih second)
  | fold left right ends _ ih =>
      rw [List.append_assoc, List.append_assoc]
      exact .fold left right ends (ih second)

theorem onlyGap (left : IsRun isSpacing u) (right : IsRun isSpacing v) (unescaped : p.last ≠ '\\')
    (token : p.folded = false) : Reflow p u v p.spaced := by
  have gap := Reflow.gap left right unescaped token (.nil (p := p.spaced))
  rwa [List.append_nil, List.append_nil] at gap

theorem onlyFold (left : IsRun isWhite u) (right : IsRun isWhite v) (ends : p.isOpen = true) :
    Reflow p u v .afterFold := by
  have fold := Reflow.fold left right ends (.nil (p := .afterFold))
  rwa [List.append_nil, List.append_nil] at fold

theorem eq_nil_iff (reflow : Reflow p s t q) : s = [] ↔ t = [] := by
  cases reflow with
  | nil => exact Iff.rfl
  | same => exact iff_of_false (List.cons_ne_nil _ _) (List.cons_ne_nil _ _)
  | gap left right | fold left right =>
      exact iff_of_false (List.append_ne_nil_of_left_ne_nil left.1 _)
        (List.append_ne_nil_of_left_ne_nil right.1 _)

theorem of_nil (reflow : Reflow p [] t q) : t = [] ∧ q = p := by
  generalize none : ([] : Text) = s at reflow
  cases reflow with
  | nil => exact ⟨rfl, rfl⟩
  | same => cases none
  | gap left | fold left =>
      exact absurd none.symm (List.append_ne_nil_of_left_ne_nil left.1 _)

/-- A text laid out as it is. -/
theorem refl (token : p.folded = true → ∀ c ∈ s.head?, beginsToken c = true) :
    Reflow p s s (s.foldl Layout.next p) := by
  induction s generalizing p with
  | nil => exact .nil
  | cons c s ih => exact .same (fun folded => token folded c rfl) (ih nofun)

/-- A character that is in no gap stands in both texts. -/
theorem uncons (reflow : Reflow p (c :: s) t q) (other : isSpacing c = false)
    (fixed : isWhite c = false ∨ p.isOpen = false) :
    ∃ t', t = c :: t' ∧ Reflow p [c] [c] (p.next c) ∧ Reflow (p.next c) s t' q := by
  generalize whole : c :: s = cs at reflow
  cases reflow with
  | nil => cases whole
  | same token more =>
      cases whole
      exact ⟨_, rfl, .same token .nil, more⟩
  | @gap _ _ g _ _ _ left right =>
      obtain ⟨some, all⟩ := left
      cases g with
      | nil => exact absurd rfl some
      | cons d g =>
          cases whole
          exact absurd (all c List.mem_cons_self) (Bool.eq_false_iff.1 other)
  | @fold _ _ g _ _ _ left right ends =>
      obtain ⟨some, all⟩ := left
      cases g with
      | nil => exact absurd rfl some
      | cons d g =>
          cases whole
          rcases fixed with solid | closed
          · exact absurd (all c List.mem_cons_self) (Bool.eq_false_iff.1 solid)
          · exact absurd ends (Bool.eq_false_iff.1 closed)

/-- Where one text goes on with white space, so does the other. -/
theorem isWhite_head (reflow : Reflow p s t q) :
    (∃ c ∈ s.head?, isWhite c = true) ↔ ∃ c ∈ t.head?, isWhite c = true := by
  have run {g s : Text} (white : IsRun isWhite g) : ∃ c ∈ (g ++ s).head?, isWhite c = true := by
    obtain ⟨some, all⟩ := white
    cases g with
    | nil => exact absurd rfl some
    | cons c g => exact ⟨c, rfl, all c List.mem_cons_self⟩
  cases reflow with
  | nil => exact Iff.rfl
  | same => exact Iff.rfl
  | gap left right => exact iff_of_true (run left.white) (run right.white)
  | fold left right => exact iff_of_true (run left) (run right)

/-- Both texts are cut in two where the run of a class at their beginning ends. -/
def SpanCut (I : Layout → Prop) (f : Char → Bool) (p : Layout) (s t : Text) (q : Layout) : Prop :=
  ∃ r, I r ∧ Reflow p (s.takeWhile f) (t.takeWhile f) r ∧
    Reflow r (s.dropWhile f) (t.dropWhile f) q

/-- What both texts begin with is in the run of a class as a whole, or the run ends before it. -/
theorem SpanCut.run {I : Layout → Prop} {kind : Char → Bool} {b : Bool}
    (front : Reflow p u v r) (left : IsRun kind u) (right : IsRun kind v)
    (fits : ∀ c, kind c = true → f c = b) (more : Reflow r s t q) (start : I p)
    (rest : b = true → SpanCut I f r s t q) : SpanCut I f p (u ++ s) (v ++ t) q := by
  cases b with
  | true =>
      have all {g : Text} (run : IsRun kind g) : ∀ c ∈ g, f c = true :=
        fun c member => fits c (run.2 c member)
      obtain ⟨r', reached, front', back⟩ := rest rfl
      refine ⟨r', reached, ?_, ?_⟩
      · rw [List.takeWhile_append_of_pos (all left), List.takeWhile_append_of_pos (all right)]
        exact front.append front'
      · rwa [List.dropWhile_append_of_pos (all left), List.dropWhile_append_of_pos (all right)]
  | false =>
      obtain ⟨none, whole⟩ := left.ends fits s
      obtain ⟨none', whole'⟩ := right.ends fits t
      refine ⟨p, start, ?_, ?_⟩
      · rw [none, none']
        exact .nil
      · rw [whole, whole']
        exact front.append more

/-- The run of a class at the beginning of both texts. The class does not tell spaces and tabs
apart, and where it tells them from line ends, no line end may be added or taken away as long as the run
lasts, which is what the invariant is for. -/
theorem span {I : Layout → Prop} {b : Bool} (spacing : ∀ c, isSpacing c = true → f c = b)
    (white : ∀ p, I p → p.isOpen = true → (∀ c, isWhite c = true → f c = b) ∧ I .afterFold)
    (spaced : ∀ p, I p → I p.spaced) (next : ∀ p c, I p → f c = true → I (p.next c))
    (reflow : Reflow p s t q) (start : I p) : SpanCut I f p s t q := by
  induction reflow with
  | nil => exact ⟨_, start, .nil, .nil⟩
  | @same p q c s t token more ih =>
      have single : IsRun (· == c) [c] := ⟨List.cons_ne_nil c [], by simp⟩
      refine SpanCut.run (.same token .nil) single single (fun d same => ?_) more start fun fits =>
        ih (next p c start fits)
      rw [beq_iff_eq.1 same]
  | @gap p q g h s t left right unescaped token more ih =>
      exact .run (onlyGap left right unescaped token) left right spacing more start fun _ =>
        ih (spaced p start)
  | @fold p q g h s t left right ends more ih =>
      obtain ⟨white, folded⟩ := white p start ends
      exact .run (onlyFold left right ends) left right white more start fun _ => ih folded

/-- The run of a class that does not tell white space apart. -/
theorem span_white {b : Bool} (white : ∀ c, isWhite c = true → f c = b) (reflow : Reflow p s t q) :
    ∃ r, Reflow p (s.takeWhile f) (t.takeWhile f) r ∧
      Reflow r (s.dropWhile f) (t.dropWhile f) q := by
  obtain ⟨r, -, front, back⟩ := span (I := fun _ => True)
    (fun c spacing => white c (isWhite_of_isSpacing spacing)) (fun _ _ _ => ⟨white, trivial⟩)
    (fun _ _ => trivial) (fun _ _ _ _ => trivial) reflow trivial
  exact ⟨r, front, back⟩

/-- Characters that are in no gap stand in both texts. -/
theorem exists_of_append (solid : ∀ c ∈ u, isWhite c = false) (reflow : Reflow p (u ++ s) t q) :
    ∃ r t', t = u ++ t' ∧ Reflow p u u r ∧ Reflow r s t' q := by
  induction u generalizing p t with
  | nil => exact ⟨p, t, rfl, .nil, reflow⟩
  | cons c u ih =>
      obtain ⟨first, rest⟩ := List.forall_mem_cons.1 solid
      have spacing : isSpacing c = false :=
        (Bool.or_eq_false_iff.1 (Bool.or_eq_false_iff.1 first).1).1
      obtain ⟨t, rfl, one, more⟩ := reflow.uncons spacing (.inl first)
      obtain ⟨r, t', rfl, front, back⟩ := ih rest more
      exact ⟨r, t', rfl, one.append front, back⟩

/-- Whatever stands after a backslash stands there in both texts. -/
theorem cases_escaped (reflow : Reflow p s t q) (escaped : p.last = '\\') :
    (s = [] ∧ t = []) ∨ ∃ c s' t', s = c :: s' ∧ t = c :: t' ∧ Reflow p [c] [c] (p.next c) ∧
      Reflow (p.next c) s' t' q := by
  cases reflow with
  | nil => exact .inl ⟨rfl, rfl⟩
  | same token more => exact .inr ⟨_, _, _, rfl, rfl, .same token .nil, more⟩
  | gap _ _ unescaped => exact absurd escaped unescaped
  | fold _ _ ends =>
      rw [Layout.isOpen, escaped] at ends
      exact absurd ends (by simp)

/-- White space or the end of the text. -/
def Pauses (t : Text) : Prop := ∀ c ∈ t.head?, isWhite c = true

/-- Both texts begin with the same character, or with white space or nothing. -/
theorem cases_head (reflow : Reflow p s t q) :
    (∃ c s' t', s = c :: s' ∧ t = c :: t' ∧ isWhite c = false ∧ Reflow p [c] [c] (p.next c) ∧
      Reflow (p.next c) s' t' q) ∨ Pauses s ∧ Pauses t := by
  have head := reflow.isWhite_head
  cases s with
  | nil =>
      rw [reflow.eq_nil_iff.1 rfl]
      exact .inr ⟨nofun, nofun⟩
  | cons c s =>
      cases white : isWhite c with
      | true =>
          obtain ⟨d, first, white'⟩ := head.1 ⟨c, rfl, white⟩
          refine .inr ⟨fun e found => ?_, fun e found => ?_⟩
          · cases found
            exact white
          · cases first.symm.trans found
            exact white'
      | false =>
          have spacing : isSpacing c = false :=
            (Bool.or_eq_false_iff.1 (Bool.or_eq_false_iff.1 white).1).1
          obtain ⟨t, rfl, one, more⟩ := reflow.uncons spacing (.inl white)
          exact .inl ⟨c, s, t, rfl, rfl, white, one, more⟩

/-- Both texts begin with the same characters, up to where both come to white space or both end. -/
theorem exists_solid (reflow : Reflow p s t q) : ∃ r w s' t', s = w ++ s' ∧ t = w ++ t' ∧
    (∀ c ∈ w, isWhite c = false) ∧ Reflow p w w r ∧ Reflow r s' t' q ∧
    Pauses s' ∧ Pauses t' ∧ (s' = [] ↔ t' = []) := by
  let solid : Text := s.takeWhile (!isWhite ·)
  have all : ∀ c ∈ solid, isWhite c = false := fun c member => by
    simpa using List.mem_takeWhile_imp (p := (!isWhite ·)) member
  have ended : Pauses (s.dropWhile (!isWhite ·)) := fun c first => by
    simpa using Text.head?_dropWhile (!isWhite ·) s c first
  have whole : s = solid ++ s.dropWhile (!isWhite ·) := List.takeWhile_append_dropWhile.symm
  generalize s.dropWhile (!isWhite ·) = s' at whole ended
  generalize solid = w at all whole
  subst whole
  obtain ⟨r, t', rfl, front, back⟩ := exists_of_append all reflow
  refine ⟨r, w, s', t', rfl, rfl, all, front, back, ended, fun c first => ?_, back.eq_nil_iff⟩
  cases s' with
  | nil =>
      rw [back.eq_nil_iff.1 rfl] at first
      cases first
  | cons d s' =>
      obtain ⟨e, found, white⟩ := back.isWhite_head.1 ⟨d, rfl, ended d rfl⟩
      cases first.symm.trans found
      exact white

/-- While something goes on that the end of the line would end, one text has a line end if and only
if the other has. -/
theorem lineFeed_iff (reflow : Reflow p s t q) (bound : p.free = false) :
    '\n' ∈ s ↔ '\n' ∈ t := by
  induction reflow with
  | nil => exact Iff.rfl
  | @same p q c s t token more ih =>
      by_cases lineFeed : c = '\n'
      · subst lineFeed
        exact iff_of_true List.mem_cons_self List.mem_cons_self
      · have still : (p.next c).free = false := by
          rw [Layout.next, if_neg fun h => lineFeed h.1, bound]
          rfl
        simp only [List.mem_cons, Ne.symm lineFeed, false_or]
        exact ih still
  | @gap p q g h s t left right unescaped token more ih =>
      have none {g : Text} (run : IsRun isSpacing g) : '\n' ∉ g :=
        fun member => absurd (run.2 _ member) (by decide)
      rw [List.mem_append, List.mem_append, or_iff_right (none left), or_iff_right (none right)]
      exact ih bound
  | @fold p _ _ _ _ _ left right ends =>
      rw [Layout.isOpen, bound] at ends
      cases ends

/-- Gaps of texts laid out anew are wider or narrower, and nothing else differs. -/
theorem respaced (reflow : Reflow p s t q) : Text.Respaced s t := by
  have narrow {g : Text} (run : IsRun isWhite g) (u : Text) :
      Text.squeeze (g ++ u) = Text.putSpaced ' ' (Text.squeeze u) := by
    refine Text.squeeze_run_append run.1 (fun c member => ?_) u
    exact isWhite_cases (P := fun c => Text.isBlank c = true) rfl rfl rfl rfl (run.2 c member)
  induction reflow with
  | nil => rfl
  | @same _ _ c _ _ _ _ ih => exact congrArg (Text.putSpaced c) ih
  | gap left right _ _ _ ih => rw [Text.Respaced, narrow left.white, narrow right.white, ih]
  | fold left right _ _ ih => rw [Text.Respaced, narrow left, narrow right, ih]

end Reflow
end ApiReference.Syntax
