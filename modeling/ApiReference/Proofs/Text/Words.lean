import ApiReference.Text.Basic
import Mathlib.Data.List.Induction

/-!
# Pieces and words

Where a text is cut, its two sides are cut each for itself, and so the words of a text are those of
its sides around a blank. Words put together with spaces are the words of what they make.
Main statements: `splitOn_append_cons`, `splitOn_join`, `mem_splitOn_iff`, `splitLast_eq_some`,
`words_append_word`, `words_join`.
-/

namespace ApiReference.Text
variable {p : Char → Bool} {t : Text}

theorem splitOn_of_forall (none : ∀ c ∈ t, p c = false) : splitOn p t = [t] := by
  induction t with
  | nil => rfl
  | cons c t ih =>
      obtain ⟨first, rest⟩ := List.forall_mem_cons.1 none
      rw [splitOn, first, ih rest]
      rfl

theorem splitOn_ne_nil (p : Char → Bool) (t : Text) : splitOn p t ≠ [] := by
  cases t with
  | nil => exact List.cons_ne_nil _ _
  | cons c t =>
      rw [splitOn]
      split
      · exact List.cons_ne_nil _ _
      · split <;> exact List.cons_ne_nil _ _

theorem splitOn_append_cons {c : Char} (separates : p c = true) (a b : Text) :
    splitOn p (a ++ c :: b) = splitOn p a ++ splitOn p b := by
  induction a with
  | nil =>
      rw [List.nil_append, splitOn, splitOn, if_pos separates]
      rfl
  | cons d a ih =>
      rw [List.cons_append, splitOn, splitOn, ih]
      split
      · rfl
      · obtain ⟨piece, more, pieces⟩ := List.exists_cons_of_ne_nil (splitOn_ne_nil p a)
        rw [pieces]
        rfl

theorem splitOn_join {c : Char} (separates : p c = true) {ts : List Text} (some : ts ≠ [])
    (each : ∀ t ∈ ts, ∀ d ∈ t, p d = false) : splitOn p (join [c] ts) = ts := by
  induction ts with
  | nil => exact absurd rfl some
  | cons t ts ih =>
      obtain ⟨first, rest⟩ := List.forall_mem_cons.1 each
      cases ts with
      | nil => exact splitOn_of_forall first
      | cons u ts =>
          have split : join [c] (t :: u :: ts) = t ++ c :: join [c] (u :: ts) :=
            List.append_assoc t [c] _
          rw [split, splitOn_append_cons separates, splitOn_of_forall first,
            ih (List.cons_ne_nil u ts) rest]
          rfl

/-- A piece has no separators. -/
theorem of_mem_splitOn {piece : Text} (member : piece ∈ splitOn p t) :
    ∀ c ∈ piece, p c = false ∧ c ∈ t := by
  induction t generalizing piece with
  | nil =>
      obtain rfl := List.mem_singleton.1 member
      exact nofun
  | cons d t ih =>
      rw [splitOn] at member
      split at member
      · rcases List.mem_cons.1 member with rfl | member
        · exact nofun
        · exact fun c inside => (ih member c inside).imp_right (List.mem_cons_of_mem d)
      · next other =>
          obtain ⟨first, more, pieces⟩ := List.exists_cons_of_ne_nil (splitOn_ne_nil p t)
          rw [pieces] at member ih
          rcases List.mem_cons.1 member with rfl | member
          · refine List.forall_mem_cons.2 ⟨⟨Bool.eq_false_iff.2 other, List.mem_cons_self⟩, ?_⟩
            exact fun c inside =>
              (ih List.mem_cons_self c inside).imp_right (List.mem_cons_of_mem d)
          · exact fun c inside => (ih (List.mem_cons_of_mem first member) c inside).imp_right
              (List.mem_cons_of_mem d)

theorem exists_mem_splitOn {c : Char} (other : p c = false) (member : c ∈ t) :
    ∃ piece ∈ splitOn p t, c ∈ piece := by
  induction t with
  | nil => cases member
  | cons d t ih =>
      rw [splitOn]
      split
      · next separates =>
          have behind : c ∈ t := by
            rcases List.mem_cons.1 member with rfl | behind
            · rw [other] at separates
              cases separates
            · exact behind
          obtain ⟨piece, listed, inside⟩ := ih behind
          exact ⟨piece, List.mem_cons_of_mem [] listed, inside⟩
      · obtain ⟨first, more, pieces⟩ := List.exists_cons_of_ne_nil (splitOn_ne_nil p t)
        rw [pieces] at ih ⊢
        rcases List.mem_cons.1 member with rfl | behind
        · exact ⟨c :: first, List.mem_cons_self, List.mem_cons_self⟩
        · obtain ⟨piece, listed, inside⟩ := ih behind
          rcases List.mem_cons.1 listed with rfl | listed
          · exact ⟨d :: piece, List.mem_cons_self, List.mem_cons_of_mem d inside⟩
          · exact ⟨piece, List.mem_cons_of_mem _ listed, inside⟩

/-- The first piece is the whole text, or a separator comes behind it. -/
theorem splitOn_eq_cons {v : Text} {vs : List Text} (pieces : splitOn p t = v :: vs) :
    (t = v ∧ vs = []) ∨ ∃ c rest, t = v ++ c :: rest ∧ p c = true ∧ splitOn p rest = vs := by
  induction t generalizing v with
  | nil =>
      obtain ⟨rfl, rfl⟩ := List.cons.inj pieces
      exact .inl ⟨rfl, rfl⟩
  | cons d t ih =>
      rw [splitOn] at pieces
      split at pieces
      · next separates =>
          obtain ⟨rfl, rfl⟩ := List.cons.inj pieces
          exact .inr ⟨d, t, rfl, separates, rfl⟩
      · obtain ⟨first, more, cut⟩ := List.exists_cons_of_ne_nil (splitOn_ne_nil p t)
        rw [cut] at pieces
        obtain ⟨rfl, rfl⟩ := List.cons.inj pieces
        rcases ih cut with ⟨rfl, rfl⟩ | ⟨c, rest, rfl, separates, behind⟩
        · exact .inl ⟨rfl, rfl⟩
        · exact .inr ⟨c, rest, rfl, separates, behind⟩

/-- Every piece stands between separators or the ends of the text, and what is cut off behind it
does not change those before. -/
theorem splitOn_eq_append_cons {us vs : List Text} {v : Text} (pieces : splitOn p t = us ++ v :: vs) :
    ∃ a b, t = a ++ (v ++ b) ∧ (∀ c ∈ a.getLast?, p c = true) ∧ (∀ c ∈ b.head?, p c = true) ∧
      splitOn p (a ++ v) = us ++ [v] := by
  have visible {u : Text} (member : u ∈ us ++ v :: vs) : ∀ c ∈ u, p c = false := fun c inside =>
    (of_mem_splitOn (pieces.symm ▸ member) c inside).1
  induction us generalizing t with
  | nil =>
      have whole : splitOn p v = [v] := splitOn_of_forall (visible List.mem_cons_self)
      rcases splitOn_eq_cons pieces with ⟨rfl, -⟩ | ⟨c, rest, rfl, separates, -⟩
      · exact ⟨[], [], (List.append_nil t).symm, nofun, nofun, whole⟩
      · refine ⟨[], c :: rest, rfl, nofun, fun d first => ?_, whole⟩
        exact Option.some.inj first ▸ separates
  | cons u us ih =>
      rcases splitOn_eq_cons pieces with ⟨-, none⟩ | ⟨c, rest, rfl, separates, behind⟩
      · exact absurd none (List.append_ne_nil_of_right_ne_nil us (List.cons_ne_nil v vs))
      · obtain ⟨a, b, rfl, before, after, cut⟩ := ih behind fun member =>
          visible (List.mem_cons_of_mem u member)
        refine ⟨u ++ c :: a, b, ?_, fun d last => ?_, after, ?_⟩
        · rw [List.append_assoc, List.cons_append]
        · rw [List.getLast?_append, List.getLast?_cons, Option.some_or] at last
          cases ends : a.getLast? with
          | none =>
              rw [ends] at last
              exact Option.some.inj last ▸ separates
          | some e =>
              rw [ends] at last
              exact before d (ends.trans last)
        · rw [List.append_assoc, List.cons_append, splitOn_append_cons separates,
            splitOn_of_forall (visible List.mem_cons_self), cut]
          rfl

/-- The pieces are the texts without separators that stand between separators or the ends. -/
theorem mem_splitOn_iff {v : Text} : v ∈ splitOn p t ↔ (∀ c ∈ v, p c = false) ∧
    ∃ a b, t = a ++ (v ++ b) ∧ (∀ c ∈ a.getLast?, p c = true) ∧ ∀ c ∈ b.head?, p c = true := by
  constructor
  · intro member
    obtain ⟨us, vs, pieces⟩ := List.append_of_mem member
    obtain ⟨a, b, split, before, after, -⟩ := splitOn_eq_append_cons pieces
    exact ⟨fun c inside => (of_mem_splitOn member c inside).1, a, b, split, before, after⟩
  · rintro ⟨visible, a, b, rfl, before, after⟩
    have first : v ∈ splitOn p (v ++ b) := by
      cases b with
      | nil => rw [List.append_nil, splitOn_of_forall visible]; exact List.mem_singleton_self v
      | cons c b =>
          rw [splitOn_append_cons (after c rfl), splitOn_of_forall visible]
          exact List.mem_cons_self
    cases last : a.getLast? with
    | none =>
        rw [List.getLast?_eq_none_iff.1 last]
        exact first
    | some c =>
        obtain ⟨a, rfl⟩ := List.getLast?_eq_some_iff.1 last
        rw [List.append_assoc, List.singleton_append, splitOn_append_cons (before c last)]
        exact List.mem_append_right _ first

/-- A text is cut at the first separator. -/
theorem splitOnce_eq_some {a b : Text} (split : splitOnce p t = some (a, b)) :
    ∃ c, t = a ++ c :: b ∧ p c = true ∧ ∀ d ∈ a, p d = false := by
  induction t generalizing a with
  | nil => cases split
  | cons c t ih =>
      rw [splitOnce] at split
      split at split
      · next separates =>
          cases split
          exact ⟨c, rfl, separates, List.forall_mem_nil _⟩
      · next other =>
          obtain ⟨⟨a, b⟩, rest, made⟩ := Option.map_eq_some_iff.1 split
          cases made
          obtain ⟨d, rfl, separates, before⟩ := ih rest
          exact ⟨d, rfl, separates, List.forall_mem_cons.2 ⟨Bool.eq_false_iff.2 other, before⟩⟩

theorem splitOnce_append_cons {c : Char} (separates : p c = true) {a : Text}
    (before : ∀ d ∈ a, p d = false) (b : Text) : splitOnce p (a ++ c :: b) = some (a, b) := by
  induction a with
  | nil => rw [List.nil_append, splitOnce, if_pos separates]
  | cons d a ih =>
      obtain ⟨other, before⟩ := List.forall_mem_cons.1 before
      rw [List.cons_append, splitOnce, other, ih before]
      rfl

/-- A text is cut at the last separator. -/
theorem splitLast_eq_some {a b : Text} : splitLast p t = some (a, b) ↔
    ∃ c, t = a ++ c :: b ∧ p c = true ∧ ∀ d ∈ b, p d = false := by
  unfold splitLast
  constructor
  · intro split
    obtain ⟨⟨u, v⟩, once, made⟩ := Option.map_eq_some_iff.1 split
    cases made
    obtain ⟨c, backwards, separates, before⟩ := splitOnce_eq_some once
    refine ⟨c, ?_, separates, fun d member => before d (List.mem_reverse.1 member)⟩
    rw [← t.reverse_reverse, backwards]
    simp
  · rintro ⟨c, rfl, separates, after⟩
    have backwards : (a ++ c :: b).reverse = b.reverse ++ c :: a.reverse := by simp
    rw [backwards, splitOnce_append_cons separates fun d member => after d (List.mem_reverse.1 member)]
    simp

/-- Whether a text is a word: not empty and without blanks. -/
structure IsWord (w : Text) : Prop where
  nonempty : w ≠ []
  visible : ∀ c ∈ w, isBlank c = false

theorem isWord_of_mem_words {w : Text} (member : w ∈ words t) : IsWord w := by
  obtain ⟨piece, some⟩ := List.mem_filter.1 member
  refine ⟨?_, fun c inside => (of_mem_splitOn piece c inside).1⟩
  rintro rfl
  cases some

theorem exists_mem_words {c : Char} (visible : isBlank c = false) (member : c ∈ t) :
    ∃ w ∈ words t, c ∈ w := by
  obtain ⟨piece, listed, inside⟩ := exists_mem_splitOn visible member
  refine ⟨piece, List.mem_filter.2 ⟨listed, ?_⟩, inside⟩
  rw [Bool.not_eq_true', List.isEmpty_eq_false_iff]
  exact List.ne_nil_of_mem inside

theorem words_append_cons {c : Char} (blank : isBlank c = true) (a b : Text) :
    words (a ++ c :: b) = words a ++ words b := by
  rw [words, splitOn_append_cons blank, List.filter_append]
  rfl

theorem IsWord.words_eq {w : Text} (word : IsWord w) : words w = [w] := by
  have kept : (!w.isEmpty) = true := by
    rw [Bool.not_eq_true', List.isEmpty_eq_false_iff]
    exact word.nonempty
  rw [words, splitOn_of_forall word.visible]
  exact List.filter_eq_self.2 (List.forall_mem_singleton.2 kept)

/-- The last word of a text. -/
theorem words_append_word {lead w : Text} (apart : ∀ c ∈ lead.getLast?, isBlank c = true)
    (word : IsWord w) : words (lead ++ w) = words lead ++ [w] := by
  cases last : lead.getLast? with
  | none =>
      rw [List.getLast?_eq_none_iff.1 last, List.nil_append, word.words_eq]
      rfl
  | some c =>
      obtain ⟨t, rfl⟩ := List.getLast?_eq_some_iff.1 last
      have blank := apart c last
      rw [List.append_assoc, List.singleton_append, words_append_cons blank, words_append_cons blank,
        word.words_eq]
      exact congrArg (· ++ [w]) (List.append_nil _).symm

theorem exists_last_word {c : Char} (last : t.getLast? = some c) (visible : isBlank c = false) :
    ∃ lead w, t = lead ++ w ∧ IsWord w ∧ ∀ d ∈ lead.getLast?, isBlank d = true := by
  obtain ⟨start, rfl⟩ := List.getLast?_eq_some_iff.1 last
  induction start using List.reverseRecOn generalizing c with
  | nil => exact ⟨[], [c], rfl, ⟨List.cons_ne_nil c [], List.forall_mem_singleton.2 visible⟩, nofun⟩
  | append_singleton start d ih =>
      cases blank : isBlank d with
      | true =>
          refine ⟨start ++ [d], [c], rfl, ⟨List.cons_ne_nil c [], List.forall_mem_singleton.2 visible⟩,
            fun e final => ?_⟩
          rw [List.getLast?_concat] at final
          exact Option.some.inj final ▸ blank
      | false =>
          obtain ⟨lead, w, split, word, apart⟩ := ih blank List.getLast?_concat
          refine ⟨lead, w ++ [c], by rw [split, List.append_assoc], ⟨List.append_ne_nil_of_left_ne_nil
            word.nonempty _, List.forall_mem_append.2 ⟨word.visible, ?_⟩⟩, apart⟩
          exact List.forall_mem_singleton.2 visible

theorem words_join {ts : List Text} (each : ∀ t ∈ ts, IsWord t) : words (join [' '] ts) = ts := by
  cases ts with
  | nil => rfl
  | cons t ts =>
      rw [words, splitOn_join (by decide) (List.cons_ne_nil t ts) fun u member =>
        (each u member).visible, List.filter_eq_self]
      intro u member
      rw [Bool.not_eq_true', List.isEmpty_eq_false_iff]
      exact (each u member).nonempty

theorem collapse_collapse (t : Text) : collapse (collapse t) = collapse t :=
  congrArg (join [' ']) (words_join fun _ => isWord_of_mem_words)

end ApiReference.Text
