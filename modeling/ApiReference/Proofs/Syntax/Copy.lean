import ApiReference.Proofs.Syntax.Placement
import ApiReference.Proofs.Text.Spacing
import Mathlib.Data.List.Forall2

/-!
# Copies of trees

A tree and a copy of it in another text or at another place: kinds and roles are the same, the texts
of the trees in them are related in a given way, and what stands between these differs only in how
wide its gaps are. What is found among the children of a tree is found among those of the copy, in
the same order. Main statements: `Kin.child?`, `Copies.find?_find?`, `Copy.kin`.
-/

namespace ApiReference.Syntax

open Cursor (Leads)
open Text (Respaced)

/-- A place in each of two texts. -/
structure Places where
  left : Cursor
  right : Cursor

namespace Places

/-- What stands between places: texts that differ only in how wide their gaps are. -/
structure Passes (u v : Text) (a b : Places) : Prop where
  left : Leads u a.left b.left
  right : Leads v a.right b.right
  respaced : Respaced u v

/-- From places on to later ones the texts differ only in how wide their gaps are. -/
def Onward (a b : Places) : Prop := ∃ u v, Passes u v a b

variable {a b d : Places} {s t u v : Text}

theorem Passes.refl (a : Places) : Passes [] [] a a := ⟨⟨rfl, rfl⟩, ⟨rfl, rfl⟩, .refl []⟩

theorem Passes.trans (first : Passes u v a b) (second : Passes s t b d) :
    Passes (u ++ s) (v ++ t) a d :=
  ⟨first.left.trans second.left, first.right.trans second.right,
    first.respaced.append second.respaced⟩

theorem Onward.refl (a : Places) : Onward a a := ⟨[], [], .refl a⟩

theorem Onward.trans : Onward a b → Onward b d → Onward a d
  | ⟨_, _, first⟩, ⟨_, _, second⟩ => ⟨_, _, first.trans second⟩

end Places

open Places

/-- Two trees that differ at most in where they stand, in their text and in their children. -/
structure Tree.Like (t t' : Tree) : Prop where
  kind : t'.kind = t.kind
  role : t'.label.role = t.label.role
  missing : t'.label.missing = t.label.missing

/-- Trees and their copies between places, with related texts, and so the children of each of them
within it. -/
inductive Copies (R : Text → Text → Prop) : Places → List Tree → List Tree → Places → Prop where
  | done {a b : Places} (skipped : Onward a b) : Copies R a [] [] b
  | tree {a b d e : Places} {t t' : Tree} {ts us : List Tree} (skipped : Onward a b)
      (start : t.start = b.left.position) (start' : t'.start = b.right.position) (like : t.Like t')
      (related : R t.text t'.text) (text : Passes t.text t'.text b d)
      (inside : Copies R b t.children t'.children d) (after : Copies R d ts us e) :
      Copies R a (t :: ts) (t' :: us) e

/-- A tree and its copy between places. -/
structure Spans (R : Text → Text → Prop) (t t' : Tree) (b d : Places) : Prop where
  like : t.Like t'
  start : t.start = b.left.position
  start' : t'.start = b.right.position
  related : R t.text t'.text
  text : Passes t.text t'.text b d
  inside : Copies R b t.children t'.children d

/-- A tree and a copy of it, whose texts are related, and so those of the trees in them. -/
def Copy (R : Text → Text → Prop) (t t' : Tree) : Prop := ∃ b d, Spans R t t' b d

/-- A semicolon that is nothing in particular to its parent. -/
def Tree.isSemicolon (t : Tree) : Bool := t.kind == .token [';'] && t.label.role == none

/-- The children of a tree but for semicolons. -/
def Tree.parts (t : Tree) : List Tree := t.children.filter fun c => !c.isSemicolon

/-- Two trees of one kind, both faultless or neither, whose children are copies but for semicolons. -/
structure Kin (R : Text → Text → Prop) (t t' : Tree) : Prop where
  kind : t'.kind = t.kind
  fault : t'.hasFault = t.hasFault
  parts : List.Forall₂ (Copy R) t.parts t'.parts

/-- What is found among the children and is no semicolon is found among the parts. -/
theorem Tree.find?_parts (t : Tree) {p : Tree → Bool}
    (other : ∀ c, p c = true → c.isSemicolon = false) : t.parts.find? p = t.children.find? p := by
  rw [parts, List.find?_filter]
  congr 1
  funext c
  cases fits : p c with
  | false => exact decide_eq_false fun both => nomatch both.2
  | true =>
      rw [other c fits]
      rfl

theorem Tree.child?_eq_find? (t : Tree) (r : Role) :
    t.child? r = t.parts.find? fun c => c.label.role == some r := by
  refine (t.find?_parts fun c role => ?_).symm
  rw [isSemicolon, beq_iff_eq.1 role]
  exact Bool.and_false _

theorem Tree.childOfKind?_eq_find? (t : Tree) {k : Kind} (other : k ≠ .token [';']) :
    t.childOfKind? k = t.parts.find? fun c => c.kind == k := by
  refine (t.find?_parts fun c same => ?_).symm
  rw [isSemicolon, beq_iff_eq.1 same, beq_eq_false_iff_ne.2 other]
  rfl

theorem Tree.Like.isSemicolon_eq {t t' : Tree} (like : t.Like t') :
    t'.isSemicolon = t.isSemicolon := by
  rw [Tree.isSemicolon, Tree.isSemicolon, like.kind, like.role]

theorem Tree.Like.inRole_eq {t t' : Tree} (like : t.Like t') (r : Role) :
    (t'.label.role == some r) = (t.label.role == some r) :=
  congrArg (· == some r) like.role

namespace Tree.Like
variable {t t' : Tree} {p : Tree → Bool} (like : t.Like t') (agree : ∀ t t', t.Like t' → p t' = p t)
include like agree

theorem find?_cons_of_pos (fits : p t = true) (ts us : List Tree) :
    (t :: ts).find? p = some t ∧ (t' :: us).find? p = some t' :=
  ⟨List.find?_cons_of_pos fits, List.find?_cons_of_pos ((agree t t' like).trans fits)⟩

theorem find?_cons_of_neg (fits : p t = false) (ts us : List Tree) :
    (t :: ts).find? p = ts.find? p ∧ (t' :: us).find? p = us.find? p :=
  ⟨List.find?_cons_of_neg (Bool.eq_false_iff.1 fits),
    List.find?_cons_of_neg (Bool.eq_false_iff.1 ((agree t t' like).trans fits))⟩

end Tree.Like

variable {R : Text → Text → Prop}

namespace Copies
variable {a b : Places} {ts us : List Tree} {p q : Tree → Bool}

theorem onward (copies : Copies R a ts us b) : Onward a b := by
  induction copies with
  | done skipped => exact skipped
  | tree skipped _ _ _ _ text _ _ _ more => exact skipped.trans (.trans ⟨_, _, text⟩ more)

theorem forall₂ (copies : Copies R a ts us b) : List.Forall₂ (Copy R) ts us := by
  induction copies with
  | done skipped => exact .nil
  | tree skipped start start' like related text inside _ _ ih =>
      exact .cons ⟨_, _, like, start, start', related, text, inside⟩ ih

/-- What is found in one list of trees is found in the other, at the same place. -/
theorem find? (copies : Copies R a ts us b) (agree : ∀ t t', t.Like t' → p t' = p t) {c : Tree}
    (found : ts.find? p = some c) : ∃ c' m n, us.find? p = some c' ∧ Onward a m ∧
      Spans R c c' m n ∧ Onward n b := by
  induction copies with
  | done skipped => cases found
  | @tree a m n b t t' ts us skipped start start' like related text inside after _ ih =>
      cases fits : p t with
      | true =>
          obtain ⟨here, here'⟩ := like.find?_cons_of_pos agree fits ts us
          rw [here']
          obtain rfl : t = c := Option.some.inj (here.symm.trans found)
          exact ⟨t', m, n, rfl, skipped, ⟨like, start, start', related, text, inside⟩, after.onward⟩
      | false =>
          obtain ⟨later, later'⟩ := like.find?_cons_of_neg agree fits ts us
          rw [later']
          obtain ⟨c', k, l, found', before, spans, rest⟩ := ih (later.symm.trans found)
          exact ⟨c', k, l, found', skipped.trans (.trans ⟨_, _, text⟩ before), spans, rest⟩

/-- Of two trees found in a list, the first ends before the second begins, or the second begins before
the first ends, in both texts. -/
theorem find?_find? (copies : Copies R a ts us b) (agree : ∀ t t', t.Like t' → p t' = p t)
    (agree' : ∀ t t', t.Like t' → q t' = q t) {c d : Tree} (found : ts.find? p = some c)
    (found' : ts.find? q = some d) : ∃ c' d' m n k l, us.find? p = some c' ∧ us.find? q = some d' ∧
      Spans R c c' m n ∧ Spans R d d' k l ∧ Onward a n ∧ Onward k b ∧
      (Onward n k ∨ Onward k n) := by
  -- Whether the first tree of the lists is one of the two decides which of them comes first.
  induction copies with
  | done skipped => cases found
  | @tree a m n b t t' ts us skipped start start' like related text inside after _ ih =>
      have spans : Spans R t t' m n := ⟨like, start, start', related, text, inside⟩
      have along : Onward m n := ⟨_, _, text⟩
      cases fits : p t with
      | true =>
          obtain ⟨here, here'⟩ := like.find?_cons_of_pos agree fits ts us
          rw [here']
          obtain rfl : t = c := Option.some.inj (here.symm.trans found)
          cases fits' : q t with
          | true =>
              obtain ⟨also, also'⟩ := like.find?_cons_of_pos agree' fits' ts us
              rw [also']
              obtain rfl : t = d := Option.some.inj (also.symm.trans found')
              exact ⟨t', t', m, n, m, n, rfl, rfl, spans, spans, skipped.trans along,
                along.trans after.onward, .inr along⟩
          | false =>
              obtain ⟨later, later'⟩ := like.find?_cons_of_neg agree' fits' ts us
              rw [later']
              obtain ⟨d', k, l, found'', before, spans', rest⟩ :=
                after.find? agree' (later.symm.trans found')
              exact ⟨t', d', m, n, k, l, rfl, found'', spans, spans', skipped.trans along,
                .trans ⟨_, _, spans'.text⟩ rest, .inl before⟩
      | false =>
          obtain ⟨later, later'⟩ := like.find?_cons_of_neg agree fits ts us
          rw [later']
          rw [later] at found
          cases fits' : q t with
          | true =>
              obtain ⟨here, here'⟩ := like.find?_cons_of_pos agree' fits' ts us
              rw [here']
              obtain rfl : t = d := Option.some.inj (here.symm.trans found')
              obtain ⟨c', k, l, found'', before, spans', rest⟩ := after.find? agree found
              have further : Onward m l := along.trans (before.trans ⟨_, _, spans'.text⟩)
              exact ⟨c', t', k, l, m, n, found'', rfl, spans', spans, skipped.trans further,
                along.trans after.onward, .inr further⟩
          | false =>
              obtain ⟨also, also'⟩ := like.find?_cons_of_neg agree' fits' ts us
              rw [also']
              rw [also] at found'
              obtain ⟨c', d', k, l, i, j, first, second, spans', spans'', before, rest, order⟩ :=
                ih found found'
              exact ⟨c', d', k, l, i, j, first, second, spans', spans'',
                skipped.trans (along.trans before), rest, order⟩

end Copies

theorem Spans.stop {t t' : Tree} {b d : Places} (spans : Spans R t t' b d) :
    t.stop = d.left.position ∧ t'.stop = d.right.position := by
  rw [Tree.stop, Tree.stop, spans.start, spans.start', spans.text.left.position,
    spans.text.right.position]
  exact ⟨rfl, rfl⟩

namespace Copy
variable {t t' : Tree}

theorem like : Copy R t t' → t.Like t'
  | ⟨_, _, spans⟩ => spans.like

theorem related : Copy R t t' → R t.text t'.text
  | ⟨_, _, spans⟩ => spans.related

theorem respaced : Copy R t t' → Respaced t.text t'.text
  | ⟨_, _, spans⟩ => spans.text.respaced

theorem children : Copy R t t' → List.Forall₂ (Copy R) t.children t'.children
  | ⟨_, _, spans⟩ => spans.inside.forall₂

theorem hasToken_eq (copy : Copy R t t') (spelling : Text) :
    t'.hasToken spelling = t.hasToken spelling := by
  have children := copy.children
  rw [Tree.hasToken, Tree.hasToken]
  generalize t.children = ts at children
  generalize t'.children = us at children
  induction children with
  | nil => rfl
  | cons first _ ih => rw [List.any_cons, List.any_cons, first.like.kind, ih]

end Copy

theorem rel_find? {ts us : List Tree} {p : Tree → Bool} (copies : List.Forall₂ (Copy R) ts us)
    (agree : ∀ t t', t.Like t' → p t' = p t) :
    Option.Rel (Copy R) (ts.find? p) (us.find? p) := by
  induction copies with
  | nil => exact .none
  | @cons t t' ts us copy _ ih =>
      cases fits : p t with
      | true =>
          obtain ⟨here, here'⟩ := copy.like.find?_cons_of_pos agree fits ts us
          rw [here, here']
          exact .some copy
      | false =>
          obtain ⟨later, later'⟩ := copy.like.find?_cons_of_neg agree fits ts us
          rwa [later, later']

mutual
theorem Copy.hasFault_eq {t t' : Tree} (copy : Copy R t t') : t'.hasFault = t.hasFault :=
  match t, t' with
  | .node l ts, .node l' ts' => by
    have kind : l'.kind = l.kind := copy.like.kind
    have missing : l'.missing = l.missing := copy.like.missing
    have inside : Tree.hasFaultAll ts' = Tree.hasFaultAll ts := hasFaultAll_eq copy.children
    rw [Tree.hasFault, Tree.hasFault, kind, missing, inside]

theorem hasFaultAll_eq {ts us : List Tree} (copies : List.Forall₂ (Copy R) ts us) :
    Tree.hasFaultAll us = Tree.hasFaultAll ts :=
  match ts, us, copies with
  | [], [], .nil => rfl
  | t :: ts, u :: us, .cons first rest => by
    rw [Tree.hasFaultAll, Tree.hasFaultAll, first.hasFault_eq, hasFaultAll_eq rest]
end

theorem Copy.kin {t t' : Tree} (copy : Copy R t t') : Kin R t t' := by
  refine ⟨copy.like.kind, copy.hasFault_eq, ?_⟩
  have children := copy.children
  rw [Tree.parts, Tree.parts]
  generalize t.children = ts at children
  generalize t'.children = us at children
  induction children with
  | nil => exact .nil
  | cons first _ ih =>
      rw [List.filter_cons, List.filter_cons, first.like.isSemicolon_eq]
      split
      · exact .cons first ih
      · exact ih

namespace Kin
variable {t t' : Tree}

theorem child? (kin : Kin R t t') (r : Role) : Option.Rel (Copy R) (t.child? r) (t'.child? r) := by
  rw [Tree.child?_eq_find?, Tree.child?_eq_find?]
  exact rel_find? kin.parts fun _ _ like => like.inRole_eq r

theorem childOfKind? (kin : Kin R t t') {k : Kind} (other : k ≠ .token [';']) :
    Option.Rel (Copy R) (t.childOfKind? k) (t'.childOfKind? k) := by
  rw [Tree.childOfKind?_eq_find? t other, Tree.childOfKind?_eq_find? t' other]
  exact rel_find? kin.parts fun _ _ like => congrArg (· == k) like.kind

end Kin

/-- What is made of trees is the same if it is the same for copies that are found. -/
theorem map_eq_of_rel {A : Type} {f : Tree → A} (same : ∀ c c', Copy R c c' → f c' = f c)
    {o o' : Option Tree} (rel : Option.Rel (Copy R) o o') : o'.map f = o.map f := by
  cases rel with
  | none => rfl
  | some copy => exact congrArg some (same _ _ copy)

theorem rel_bind_childOfKind? {o o' : Option Tree} (rel : Option.Rel (Copy R) o o') {k : Kind}
    (other : k ≠ .token [';']) :
    Option.Rel (Copy R) (o.bind fun t => t.childOfKind? k) (o'.bind fun t => t.childOfKind? k) := by
  cases rel with
  | none => exact .none
  | some copy => exact copy.kin.childOfKind? other

section
variable (R) [DecidableRel R]

mutual
/-- Whether a tree is found to be a copy of another one, in one pass over both. -/
def Tree.isCopy : Tree → Tree → Bool
  | .node l ts, .node l' ts' =>
    l'.kind == l.kind && l'.role == l.role && l'.missing == l.missing && decide (R l.text l'.text) &&
      areCopies ⟨l.start, l.text⟩ ⟨l'.start, l'.text⟩ ts ts'

/-- The same for lists of trees in two texts. -/
def Tree.areCopies : Cursor → Cursor → List Tree → List Tree → Bool
  | a, a', [], [] => decide (Respaced a.rest a'.rest)
  | a, a', t :: ts, t' :: ts' =>
    let gap := takeBytes (t.start.offset - a.position.offset) a.rest
    let gap' := takeBytes (t'.start.offset - a'.position.offset) a'.rest
    match Text.stripStart (gap ++ t.text) a.rest, Text.stripStart (gap' ++ t'.text) a'.rest with
    | some rest, some rest' =>
      a.position.after gap == t.start && a'.position.after gap' == t'.start &&
        decide (Respaced gap gap') && isCopy t t' && areCopies ⟨t.stop, rest⟩ ⟨t'.stop, rest'⟩ ts ts'
    | _, _ => false
  | _, _, _, _ => false
end

end

/-- A cursor with more text after its own. -/
def Cursor.before (c : Cursor) (more : Text) : Cursor := ⟨c.position, c.rest ++ more⟩

/-- From a cursor over a gap to a tree and on to what follows it. -/
theorem Cursor.leads_before {c : Cursor} {gap rest : Text} {t : Tree}
    (whole : c.rest = gap ++ (t.text ++ rest)) (start : c.position.after gap = t.start)
    (more : Text) :
    Leads gap (c.before more) (.before ⟨t.start, t.text⟩ (rest ++ more)) ∧
      c.position.after c.rest = t.stop.after rest := by
  refine ⟨⟨?_, start.symm⟩, ?_⟩
  · rw [Cursor.before, Cursor.before, whole, List.append_assoc, List.append_assoc]
  · rw [whole, Position.after_append, start, Position.after_append]
    rfl

section
variable [DecidableRel R]

mutual
theorem spans_of_isCopy (respaced : ∀ s u, R s u → Respaced s u) {t t' : Tree}
    (checked : t.isCopy R t' = true) (more more' : Text) :
    Spans R t t' ⟨.before ⟨t.start, t.text⟩ more, .before ⟨t'.start, t'.text⟩ more'⟩
      ⟨⟨t.stop, more⟩, ⟨t'.stop, more'⟩⟩ :=
  match t, t' with
  | .node l ts, .node l' ts' => by
    rw [Tree.isCopy] at checked
    simp only [Bool.and_eq_true, beq_iff_eq, decide_eq_true_iff] at checked
    obtain ⟨⟨⟨⟨kind, role⟩, missing⟩, related⟩, inside⟩ := checked
    refine ⟨⟨kind, role, missing⟩, rfl, rfl, related, ?_, ?_⟩
    · exact ⟨⟨rfl, rfl⟩, ⟨rfl, rfl⟩, respaced _ _ related⟩
    · exact copies_of_areCopies respaced inside more more'

theorem copies_of_areCopies (respaced : ∀ s u, R s u → Respaced s u) {a a' : Cursor}
    {ts ts' : List Tree} (checked : Tree.areCopies R a a' ts ts' = true) (more more' : Text) :
    Copies R ⟨a.before more, a'.before more'⟩ ts ts'
      ⟨⟨a.position.after a.rest, more⟩, ⟨a'.position.after a'.rest, more'⟩⟩ :=
  match ts, ts' with
  | [], [] => by
    rw [Tree.areCopies, decide_eq_true_iff] at checked
    exact .done ⟨_, _, ⟨rfl, rfl⟩, ⟨rfl, rfl⟩, checked⟩
  | t :: ts, t' :: ts' => by
    rw [Tree.areCopies] at checked
    generalize takeBytes (t.start.offset - a.position.offset) a.rest = gap at checked
    generalize takeBytes (t'.start.offset - a'.position.offset) a'.rest = gap' at checked
    split at checked
    · next rest rest' found found' =>
        have whole := Text.stripStart_eq_some_iff.1 found
        have whole' := Text.stripStart_eq_some_iff.1 found'
        rw [List.append_assoc] at whole whole'
        simp only [Bool.and_eq_true, beq_iff_eq, decide_eq_true_iff] at checked
        obtain ⟨⟨⟨⟨start, start'⟩, narrow⟩, first⟩, others⟩ := checked
        have spans := spans_of_isCopy respaced first (rest ++ more) (rest' ++ more')
        have after := copies_of_areCopies respaced others more more'
        obtain ⟨skipped, stop⟩ := Cursor.leads_before whole start more
        obtain ⟨skipped', stop'⟩ := Cursor.leads_before whole' start' more'
        rw [stop, stop']
        exact .tree ⟨gap, gap', skipped, skipped', narrow⟩ spans.start spans.start' spans.like
          spans.related spans.text spans.inside after
    · cases checked
  | [], _ :: _ | _ :: _, [] => by cases checked
end

theorem copy_of_isCopy (respaced : ∀ s u, R s u → Respaced s u) {t t' : Tree}
    (checked : t.isCopy R t' = true) : Copy R t t' :=
  ⟨_, _, spans_of_isCopy respaced checked [] []⟩

end

end ApiReference.Syntax
