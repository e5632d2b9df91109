import ApiReference.Declaration.Sharing
import ApiReference.Proofs.Declaration.Eviction
import Mathlib.Data.List.Induction
import Mathlib.Data.Nat.Init

/-!
# Calls that share a reader

However the steps of the calls fall between each other, a call comes back with what it would get
where nothing is kept. The invariant is about what is kept and what a caller has in hand at once: a
reading may be kept long after it was made, and after others were kept in its place. Which reading
two calls in turn come back with is told by serials. Main statement: `shared_calls_undisturbed`.
-/

namespace ApiReference.Declaration
variable {κ : Type} [DecidableEq κ]

/-- What one step of a call does to the call and to the shelf. -/
inductive Move (keyOf : ReadingKey → κ) (call : ReaderCall) :
    Progress → Shelf κ → Progress → Shelf κ → Prop
  | found {shelf key reading} : call.key? = some key →
      shelf.cache.get? (keyOf key) = some reading →
      Move keyOf call .waiting shelf (.returned (some reading)) shelf
  | made {shelf key} : call.key? = some key → shelf.cache.get? (keyOf key) = none →
      Move keyOf call .waiting shelf (.made (shelf.make key).1) (shelf.make key).2
  | kept {shelf key reading} : call.key? = some key →
      Move keyOf call (.made reading) shelf (.returned (some reading))
        (shelf.keep (keyOf key) reading)
  | cleared {progress shelf} : call = .clear →
      Move keyOf call progress shelf (.returned none) shelf.clear
  | ended {shelf reading} : Move keyOf call (.returned reading) shelf (.returned reading) shelf

theorem Shelf.step_move (keyOf : ReadingKey → κ) (shelf : Shelf κ) (call : ReaderCall)
    (progress : Progress) : Move keyOf call progress shelf (shelf.step keyOf call progress).1
      (shelf.step keyOf call progress).2 := by
  cases progress with
  | returned reading => simpa only [step] using .ended
  | waiting =>
      cases call with
      | clear => exact .cleared rfl
      | read content fileName aim =>
          cases found : shelf.cache.get? (keyOf (ReadingKey.ofText content fileName)) with
          | some reading => simpa only [step, found] using .found rfl found
          | none => simpa only [step, found] using .made rfl found
  | made reading =>
      cases call with
      | clear => exact .cleared rfl
      | read content fileName aim => exact .kept rfl

/-- What is kept in a place is the file of a key whose place it is. -/
def Shelf.Holds (keyOf : ReadingKey → κ) (used : ReadingKey → Prop) (shelf : Shelf κ) : Prop :=
  ∀ place reading, shelf.cache.get? place = some reading →
    ∃ key, used key ∧ keyOf key = place ∧ reading.file = key.file

/-- What a caller has in hand is a reading of the text that the call is about. -/
inductive Progress.Suits (call : ReaderCall) : Progress → Prop
  | waiting : Suits call .waiting
  | made {key reading} : call.key? = some key → reading.file = key.file →
      Suits call (.made reading)
  | read {key reading} : call.key? = some key → reading.file = key.file →
      Suits call (.returned (some reading))
  | cleared : call = .clear → Suits call (.returned none)

theorem Shelf.Holds.empty (keyOf : ReadingKey → κ) (used : ReadingKey → Prop) (capacity : Nat) :
    (Shelf.empty capacity).Holds keyOf used := by
  intro place reading found
  cases found

theorem Shelf.Holds.keep {keyOf : ReadingKey → κ} {used : ReadingKey → Prop} {shelf : Shelf κ}
    (h : shelf.Holds keyOf used) {key : ReadingKey} {reading : Reading} (uses : used key)
    (same : reading.file = key.file) : (shelf.keep (keyOf key) reading).Holds keyOf used := by
  intro place other found
  by_cases this : keyOf key = place
  · subst this
    obtain rfl := Option.some.inj ((Cache.get?_insert_self _ _ _).symm.trans found)
    exact ⟨key, uses, rfl, same⟩
  · exact h place other (Cache.get?_of_get?_insert this found)

section Step
variable {keyOf : ReadingKey → κ} {used : ReadingKey → Prop} {call : ReaderCall}
variable {progress progress' : Progress} {shelf shelf' : Shelf κ}

/-- One step keeps both halves of the invariant: what is found was kept for the same key, since no
other key has its place. -/
theorem Move.sound (move : Move keyOf call progress shelf progress' shelf')
    (apart : ∀ a b, used a → used b → keyOf a = keyOf b → a = b)
    (uses : ∀ key, call.key? = some key → used key)
    (holds : shelf.Holds keyOf used) (suits : progress.Suits call) :
    shelf'.Holds keyOf used ∧ progress'.Suits call := by
  cases move with
  | @found _ key reading asked found =>
      obtain ⟨other, usesOther, place, same⟩ := holds _ _ found
      obtain rfl := apart other key usesOther (uses key asked) place
      exact ⟨holds, .read asked same⟩
  | made asked absent => exact ⟨holds, .made asked rfl⟩
  | @kept _ key reading asked =>
      -- Others may have been kept since the reading was made; it is still one of the same text.
      cases suits with
      | @made own _ asked' same =>
          obtain rfl := Option.some.inj (asked.symm.trans asked')
          exact ⟨holds.keep (uses key asked) same, .read asked same⟩
  | cleared clear => exact ⟨.empty keyOf used 0, .cleared clear⟩
  | ended => exact ⟨holds, suits⟩

def Progress.steps : Progress → Nat
  | waiting => 0
  | made _ => 1
  | returned _ => 2

theorem Move.steps (move : Move keyOf call progress shelf progress' shelf') :
    min (progress.steps + 1) 2 ≤ progress'.steps := by
  cases move with
  | found asked found => exact Nat.le_succ 1
  | made asked absent => exact Nat.le_refl 1
  | kept asked => exact Nat.le_refl 2
  | cleared clear => exact Nat.min_le_right _ 2
  | ended => exact Nat.min_le_right _ 2

theorem Progress.Suits.answer? (suits : progress.Suits call) {answer : Answer}
    (back : progress.answer? call = some answer) : answer = call.plain := by
  cases suits with
  | waiting => cases back
  | made asked same => cases back
  | cleared clear =>
      subst clear
      exact (Option.some.inj back).symm
  | @read key reading asked same =>
      cases call with
      | clear => cases asked
      | read content fileName aim =>
          obtain rfl := Option.some.inj asked
          rw [← Option.some.inj back]
          exact congrArg aim.answer same

theorem Progress.Suits.answer?_isSome (suits : progress.Suits call) (ended : 2 ≤ progress.steps) :
    (progress.answer? call).isSome := by
  cases suits with
  | waiting => cases ended
  | made asked same => exact absurd ended (Nat.not_succ_le_self 1)
  | cleared clear =>
      subst clear
      rfl
  | read asked same =>
      cases call with
      | clear => cases asked
      | read content fileName aim => rfl

end Step

namespace Traffic
variable {keyOf : ReadingKey → κ} {calls : Nat → ReaderCall} {capacity : Nat}

theorem progress_advance_self (traffic : Traffic κ) (i : Nat) :
    (advance keyOf calls traffic i).progress i =
      (traffic.shelf.step keyOf (calls i) (traffic.progress i)).1 := if_pos rfl

theorem progress_advance_of_ne (traffic : Traffic κ) {i j : Nat} (different : j ≠ i) :
    (advance keyOf calls traffic i).progress j = traffic.progress j := if_neg different

theorem run_append (schedule more : List Nat) : run keyOf calls capacity (schedule ++ more) =
    more.foldl (advance keyOf calls) (run keyOf calls capacity schedule) := List.foldl_append

/-- What is kept and what the callers have in hand is right. -/
structure Sound (keyOf : ReadingKey → κ) (used : ReadingKey → Prop) (calls : Nat → ReaderCall)
    (traffic : Traffic κ) : Prop where
  holds : traffic.shelf.Holds keyOf used
  suits : ∀ i, (traffic.progress i).Suits (calls i)

theorem Sound.start (keyOf : ReadingKey → κ) (used : ReadingKey → Prop) (calls : Nat → ReaderCall)
    (capacity : Nat) : Sound keyOf used calls (start capacity) :=
  ⟨.empty keyOf used capacity, fun _ => .waiting⟩

variable {used : ReadingKey → Prop}

theorem Sound.advance {traffic : Traffic κ} (h : Sound keyOf used calls traffic)
    (apart : ∀ a b, used a → used b → keyOf a = keyOf b → a = b) {i : Nat}
    (uses : ∀ key, (calls i).key? = some key → used key) :
    Sound keyOf used calls (advance keyOf calls traffic i) := by
  have move := traffic.shelf.step_move keyOf (calls i) (traffic.progress i)
  obtain ⟨holds, suits⟩ := move.sound apart uses h.holds (h.suits i)
  refine ⟨holds, fun j => ?_⟩
  by_cases same : j = i
  · subst same
    rw [progress_advance_self]
    exact suits
  · rw [progress_advance_of_ne traffic same]
    exact h.suits j

theorem Sound.run (apart : ∀ a b, used a → used b → keyOf a = keyOf b → a = b)
    (capacity : Nat) (schedule : List Nat)
    (uses : ∀ i ∈ schedule, ∀ key, (calls i).key? = some key → used key) :
    Sound keyOf used calls (Traffic.run keyOf calls capacity schedule) := by
  unfold Traffic.run
  -- A schedule may go on from any sound state, so the induction is not about the start.
  generalize begun : Traffic.start capacity = traffic
  have sound : Sound keyOf used calls traffic := begun ▸ .start keyOf used calls capacity
  clear begun
  induction schedule generalizing traffic with
  | nil => exact sound
  | cons i schedule ih =>
      exact ih (fun j member => uses j (List.mem_cons_of_mem i member)) _
        (sound.advance apart (uses i List.mem_cons_self))

/-- Two turns are enough for a call. -/
theorem steps_run (keyOf : ReadingKey → κ) (calls : Nat → ReaderCall) (capacity : Nat)
    (schedule : List Nat) (i : Nat) :
    min (schedule.count i) 2 ≤ ((run keyOf calls capacity schedule).progress i).steps := by
  induction schedule using List.reverseRecOn with
  | nil => exact Nat.zero_le _
  | append_singleton schedule j ih =>
      rw [run_append, List.foldl_cons, List.foldl_nil, List.count_append]
      by_cases same : i = j
      · subst same
        have move := (run keyOf calls capacity schedule).shelf.step_move keyOf (calls i)
          ((run keyOf calls capacity schedule).progress i)
        have more := move.steps
        rw [progress_advance_self, List.count_singleton_self]
        omega
      · have none : List.count i [j] = 0 := List.count_eq_zero.mpr (by simpa using same)
        rw [progress_advance_of_ne _ same, none]
        exact ih

end Traffic

namespace Shelf
variable {keyOf : ReadingKey → κ} {shelf : Shelf κ} {key : ReadingKey} {place : κ} {bound : Nat}

theorem read_of_found {reading : Reading} (found : shelf.cache.get? (keyOf key) = some reading) :
    shelf.read keyOf key = (reading, shelf) := by
  simp only [read, found]

theorem read_of_absent (absent : shelf.cache.get? (keyOf key) = none) :
    shelf.read keyOf key = ((shelf.make key).1,
      (shelf.make key).2.keep (keyOf key) (shelf.make key).1) := by
  simp only [read, absent]

theorem serve_of_key {call : ReaderCall} (shelf : Shelf κ) (asked : call.key? = some key) :
    shelf.serve keyOf call =
      (.returned (some (shelf.read keyOf key).1), (shelf.read keyOf key).2) := by
  cases call with
  | clear => cases asked
  | read content fileName aim =>
      obtain rfl := Option.some.inj asked
      exact shelf.serve_read keyOf content fileName aim

/-- A call in turn clears the shelf or reads a text. -/
theorem serve_cases (keyOf : ReadingKey → κ) (shelf : Shelf κ) (call : ReaderCall) :
    (call = .clear ∧ (shelf.serve keyOf call).2 = shelf.clear) ∨
      ∃ key, call.key? = some key ∧ (shelf.serve keyOf call).2 = (shelf.read keyOf key).2 := by
  cases call with
  | clear => exact .inl ⟨rfl, rfl⟩
  | read content fileName aim => exact .inr ⟨_, rfl, congrArg Prod.snd (serve_of_key shelf rfl)⟩

theorem get?_read_self (keyOf : ReadingKey → κ) (shelf : Shelf κ) (key : ReadingKey) :
    (shelf.read keyOf key).2.cache.get? (keyOf key) = some (shelf.read keyOf key).1 := by
  cases found : shelf.cache.get? (keyOf key) with
  | some reading => rw [read_of_found found, found]
  | none =>
      rw [read_of_absent found]
      exact Cache.get?_insert_self _ _ _

theorem done_le_serve (keyOf : ReadingKey → κ) (shelf : Shelf κ) (call : ReaderCall) :
    shelf.done ≤ (shelf.serve keyOf call).2.done := by
  rcases serve_cases keyOf shelf call with ⟨-, state⟩ | ⟨key, -, state⟩
  · have same : (shelf.serve keyOf call).2.done = shelf.clear.done := congrArg Shelf.done state
    exact Nat.le_of_eq same.symm
  · rw [state]
    cases found : shelf.cache.get? (keyOf key) with
    | some reading => exact Nat.le_of_eq (congrArg (·.2.done) (read_of_found found).symm)
    | none =>
        rw [read_of_absent found]
        exact Nat.le_succ _

/-- What is kept in a place after a call was kept there before, or the place was free. -/
theorem get?_serve_cases {call : ReaderCall} {reading : Reading}
    (kept : (shelf.serve keyOf call).2.cache.get? place = some reading) :
    shelf.cache.get? place = some reading ∨ (shelf.cache.get? place = none ∧
      reading.serial = shelf.done ∧ (shelf.serve keyOf call).2.done = shelf.done + 1) := by
  rcases serve_cases keyOf shelf call with ⟨-, state⟩ | ⟨key, -, state⟩
  · rw [state] at kept
    cases kept
  · cases found : shelf.cache.get? (keyOf key) with
    | some other =>
        rw [state, read_of_found found] at kept
        exact .inl kept
    | none =>
        rw [state, read_of_absent found] at kept ⊢
        by_cases same : keyOf key = place
        · subst same
          obtain rfl := Option.some.inj ((Cache.get?_insert_self _ _ _).symm.trans kept)
          exact .inr ⟨found, rfl, rfl⟩
        · exact .inl (Cache.get?_of_get?_insert same kept)

/-- Every reading kept was made before now. -/
def Made (shelf : Shelf κ) : Prop :=
  ∀ place reading, shelf.cache.get? place = some reading → reading.serial < shelf.done

/-- Whatever is kept in a place was made after a number of others. -/
structure Since (place : κ) (bound : Nat) (shelf : Shelf κ) : Prop where
  done : bound ≤ shelf.done
  kept : ∀ reading, shelf.cache.get? place = some reading → bound ≤ reading.serial

theorem Made.serve (made : shelf.Made) (call : ReaderCall) :
    (shelf.serve keyOf call).2.Made := by
  intro place reading kept
  rcases get?_serve_cases kept with before | ⟨-, serial, done⟩
  · have earlier := made place reading before
    have more := done_le_serve keyOf shelf call
    omega
  · omega

theorem Since.serve (since : shelf.Since place bound) (call : ReaderCall) :
    (shelf.serve keyOf call).2.Since place bound := by
  refine ⟨Nat.le_trans since.done (done_le_serve keyOf shelf call), ?_⟩
  intro reading kept
  rcases get?_serve_cases kept with before | ⟨-, serial, -⟩
  · exact since.kept reading before
  · have made := since.done
    omega

end Shelf

namespace Traffic
variable {keyOf : ReadingKey → κ} {calls : Nat → ReaderCall} {capacity : Nat}
variable {place : κ} {bound : Nat}

/-- The shelf that a call finds when the calls are served in turn. -/
def shelfFor (keyOf : ReadingKey → κ) (calls : Nat → ReaderCall) (capacity n : Nat) : Shelf κ :=
  (run keyOf calls capacity (inTurn n)).shelf

/-- In the course of a call the reading kept in a place goes, though nothing is cleared. -/
def Evicts (keyOf : ReadingKey → κ) (calls : Nat → ReaderCall) (capacity : Nat) (place : κ)
    (n : Nat) : Prop :=
  calls n ≠ .clear ∧ ((shelfFor keyOf calls capacity n).cache.get? place).isSome ∧
    (shelfFor keyOf calls capacity (n + 1)).cache.get? place = none

theorem run_inTurn_succ (keyOf : ReadingKey → κ) (calls : Nat → ReaderCall) (capacity n : Nat) :
    run keyOf calls capacity (inTurn (n + 1)) =
      advance keyOf calls (advance keyOf calls (run keyOf calls capacity (inTurn n)) n) n :=
  run_append (inTurn n) [n, n]

theorem progress_inTurn_of_le {n i : Nat} (h : n ≤ i) :
    (run keyOf calls capacity (inTurn n)).progress i = .waiting := by
  induction n with
  | zero => rfl
  | succ n ih =>
      have different : i ≠ n := by omega
      rw [run_inTurn_succ, progress_advance_of_ne _ different, progress_advance_of_ne _ different]
      exact ih (by omega)

/-- Two steps of a call that has not begun serve it. -/
theorem advance_advance {traffic : Traffic κ} {n : Nat} (waiting : traffic.progress n = .waiting) :
    (advance keyOf calls (advance keyOf calls traffic n) n).shelf =
        (traffic.shelf.serve keyOf (calls n)).2 ∧
      (advance keyOf calls (advance keyOf calls traffic n) n).progress n =
        (traffic.shelf.serve keyOf (calls n)).1 := by
  simp only [advance, Shelf.serve, waiting, ↓reduceIte, and_self]

theorem shelfFor_succ (keyOf : ReadingKey → κ) (calls : Nat → ReaderCall) (capacity n : Nat) :
    shelfFor keyOf calls capacity (n + 1) =
      ((shelfFor keyOf calls capacity n).serve keyOf (calls n)).2 := by
  unfold shelfFor
  rw [run_inTurn_succ]
  exact (advance_advance (progress_inTurn_of_le (Nat.le_refl n))).1

theorem progress_inTurn (keyOf : ReadingKey → κ) (calls : Nat → ReaderCall) (capacity : Nat)
    {n i : Nat} (h : i < n) : (run keyOf calls capacity (inTurn n)).progress i =
      ((shelfFor keyOf calls capacity i).serve keyOf (calls i)).1 := by
  induction n with
  | zero => cases h
  | succ n ih =>
      rw [run_inTurn_succ]
      by_cases same : i = n
      · subst same
        exact (advance_advance (progress_inTurn_of_le (Nat.le_refl i))).2
      · rw [progress_advance_of_ne _ same, progress_advance_of_ne _ same]
        exact ih (by omega)

theorem get?_shelfFor_self (keyOf : ReadingKey → κ) (capacity : Nat) {i : Nat} {key : ReadingKey}
    (asked : (calls i).key? = some key) :
    (shelfFor keyOf calls capacity (i + 1)).cache.get? (keyOf key) =
      some ((shelfFor keyOf calls capacity i).read keyOf key).1 := by
  rw [shelfFor_succ, Shelf.serve_of_key _ asked]
  exact Shelf.get?_read_self keyOf _ key

theorem made_shelfFor (keyOf : ReadingKey → κ) (calls : Nat → ReaderCall) (capacity n : Nat) :
    (shelfFor keyOf calls capacity n).Made := by
  induction n with
  | zero =>
      intro place reading kept
      cases kept
  | succ n ih =>
      rw [shelfFor_succ]
      exact ih.serve (calls n)

theorem done_shelfFor_le (keyOf : ReadingKey → κ) (calls : Nat → ReaderCall) (capacity : Nat)
    {m n : Nat} (h : m ≤ n) :
    (shelfFor keyOf calls capacity m).done ≤ (shelfFor keyOf calls capacity n).done := by
  induction n, h using Nat.le_induction with
  | base => exact Nat.le_refl _
  | succ n _ ih =>
      rw [shelfFor_succ]
      exact Nat.le_trans ih (Shelf.done_le_serve keyOf _ (calls n))

theorem since_shelfFor {m n : Nat} (h : m ≤ n)
    (since : (shelfFor keyOf calls capacity m).Since place bound) :
    (shelfFor keyOf calls capacity n).Since place bound := by
  induction n, h using Nat.le_induction with
  | base => exact since
  | succ n _ ih =>
      rw [shelfFor_succ]
      exact ih.serve (calls n)

/-- What is kept in a place stays the same until it is cleared or evicted. -/
theorem get?_shelfFor_of_undisturbed {m n : Nat} {reading : Reading} (h : m ≤ n)
    (kept : (shelfFor keyOf calls capacity m).cache.get? place = some reading)
    (undisturbed : ∀ k, m ≤ k → k < n →
      calls k ≠ .clear ∧ ¬ Evicts keyOf calls capacity place k) :
    (shelfFor keyOf calls capacity n).cache.get? place = some reading := by
  induction n, h using Nat.le_induction with
  | base => exact kept
  | succ n later ih =>
      have before := ih fun k first last => undisturbed k first (Nat.lt_succ_of_lt last)
      obtain ⟨notCleared, notEvicted⟩ := undisturbed n later (Nat.lt_succ_self n)
      cases after : (shelfFor keyOf calls capacity (n + 1)).cache.get? place with
      | none => exact absurd ⟨notCleared, by rw [before]; rfl, after⟩ notEvicted
      | some other =>
          -- No reading takes the place of one that is kept, so this is the old one.
          rw [shelfFor_succ] at after
          rcases Shelf.get?_serve_cases after with same | ⟨absent, -⟩
          · exact same.symm.trans before
          · rw [before] at absent
            cases absent

/-- What was kept in a place is gone after a call that clears or evicts it. -/
theorem get?_shelfFor_of_disturbed {k : Nat}
    (disturbed : calls k = .clear ∨ Evicts keyOf calls capacity place k) :
    (shelfFor keyOf calls capacity (k + 1)).cache.get? place = none := by
  rcases disturbed with cleared | ⟨-, -, absent⟩
  · rw [shelfFor_succ, cleared]
    rfl
  · exact absent

/-- Two calls in turn for one key share their reading exactly if it was kept throughout. -/
theorem serial_eq_iff {i j : Nat} {key : ReadingKey} (h : i < j)
    (first : (calls i).key? = some key) (second : (calls j).key? = some key) :
    ((shelfFor keyOf calls capacity i).read keyOf key).1.serial =
        ((shelfFor keyOf calls capacity j).read keyOf key).1.serial ↔
      ∀ k, i < k → k < j → calls k ≠ .clear ∧ ¬ Evicts keyOf calls capacity (keyOf key) k := by
  have keptFirst := get?_shelfFor_self keyOf capacity first
  have keptSecond := get?_shelfFor_self keyOf capacity second
  constructor
  · intro equal k after before
    by_contra disturbance
    have disturbed : calls k = .clear ∨ Evicts keyOf calls capacity (keyOf key) k := by
      by_contra neither
      exact disturbance (not_or.mp neither)
    -- From the disturbance on, only newer readings can stand in the place.
    have since : (shelfFor keyOf calls capacity (k + 1)).Since (keyOf key)
        (shelfFor keyOf calls capacity (k + 1)).done := by
      refine ⟨Nat.le_refl _, ?_⟩
      intro reading kept
      rw [get?_shelfFor_of_disturbed disturbed] at kept
      cases kept
    have new := (since_shelfFor (by omega : k + 1 ≤ j + 1) since).kept _ keptSecond
    have old := made_shelfFor keyOf calls capacity (i + 1) _ _ keptFirst
    have order := done_shelfFor_le keyOf calls capacity (by omega : i + 1 ≤ k + 1)
    omega
  · intro undisturbed
    have kept := get?_shelfFor_of_undisturbed h keptFirst undisturbed
    rw [Shelf.read_of_found kept]

end Traffic

/-- Some call of a schedule reads for a key. -/
def Traffic.Uses (calls : Nat → ReaderCall) (schedule : List Nat) (key : ReadingKey) : Prop :=
  ∃ i ∈ schedule, (calls i).key? = some key

theorem ReadingKey.place_injective {δ : Type} {digest : Text → δ} {a b : ReadingKey}
    (apart : digest a.content = digest b.content → a.content = b.content)
    (same : a.place digest = b.place digest) : a = b := by
  obtain ⟨dialect, digests⟩ := Prod.mk.inj same
  have content := apart digests
  cases a
  cases b
  simp only [ReadingKey.mk.injEq]
  exact ⟨dialect, content⟩

open Traffic in
/-- Calls that share a reader come back with what they would get from one that keeps nothing, in
whatever order they take their steps, if no two of their texts have the same digest. In turn, two
calls for one text and dialect share their reading exactly if it was neither cleared nor evicted
between them. -/
theorem shared_calls_undisturbed {δ : Type} [DecidableEq δ] (digest : Text → δ) (capacity : Nat)
    (calls : Nat → ReaderCall) (schedule : List Nat)
    (apart : ∀ a b, Uses calls schedule a → Uses calls schedule b →
      digest a.content = digest b.content → a.content = b.content) :
    (∀ i answer,
      ((run (ReadingKey.place digest) calls capacity schedule).progress i).answer? (calls i) =
        some answer → answer = (calls i).plain) ∧
    (∀ i, 2 ≤ schedule.count i →
      ((run (ReadingKey.place digest) calls capacity schedule).progress i).answer? (calls i) =
        some (calls i).plain) ∧
    ∀ n, schedule = inTurn n → ∀ i j key, i < j → j < n →
      (calls i).key? = some key → (calls j).key? = some key →
      ∃ first second,
        (run (ReadingKey.place digest) calls capacity schedule).progress i =
          .returned (some first) ∧
        (run (ReadingKey.place digest) calls capacity schedule).progress j =
          .returned (some second) ∧
        (first.serial = second.serial ↔ ∀ k, i < k → k < j → calls k ≠ .clear ∧
          ¬ Evicts (ReadingKey.place digest) calls capacity (key.place digest) k) := by
  have sound : Sound (ReadingKey.place digest) (Uses calls schedule) calls
      (run (ReadingKey.place digest) calls capacity schedule) := by
    apply Sound.run
    · intro a b usedA usedB same
      exact ReadingKey.place_injective (apart a b usedA usedB) same
    · intro i member key asked
      exact ⟨i, member, asked⟩
  have plain : ∀ i answer,
      ((run (ReadingKey.place digest) calls capacity schedule).progress i).answer? (calls i) =
        some answer → answer = (calls i).plain := by
    intro i answer back
    exact (sound.suits i).answer? back
  refine ⟨plain, ?_, ?_⟩
  · intro i twice
    have steps := steps_run (ReadingKey.place digest) calls capacity schedule i
    have back := (sound.suits i).answer?_isSome (by omega)
    obtain ⟨answer, found⟩ := Option.isSome_iff_exists.mp back
    rw [found, plain i answer found]
  · rintro n rfl i j key before last first second
    have turn := progress_inTurn (ReadingKey.place digest) calls capacity
      (Nat.lt_trans before last)
    have turn' := progress_inTurn (ReadingKey.place digest) calls capacity last
    rw [Shelf.serve_of_key _ first] at turn
    rw [Shelf.serve_of_key _ second] at turn'
    exact ⟨_, _, turn, turn', serial_eq_iff before first second⟩

/-! A text is read twice, then everything is cleared and it is read again. -/

namespace Rereading

/-- The XXH3 digests, of 128 bits, of the two texts read here. -/
def digest (text : Text) : Nat :=
  if text = [] then 0x99aa06d3014798d86001c324468d497f else 0xa96faf705af16834e6c632b61e964e1f

def calls : Nat → ReaderCall
  | 1 => .read [] "index.d.ts".toList .parse
  | 3 => .clear
  | _ => .read ['a'] "index.d.ts".toList .parse

def served : Traffic (Syntax.Dialect × Nat) :=
  Traffic.run (ReadingKey.place digest) calls 2 (Traffic.inTurn 5)

theorem shared_calls_undisturbed_rereading :
    (served.progress 4).answer? (calls 4) = some (calls 0).plain ∧
    ∃ first second third, served.progress 0 = .returned (some first) ∧
      served.progress 2 = .returned (some second) ∧ served.progress 4 = .returned (some third) ∧
      first.serial = second.serial ∧ second.serial ≠ third.serial := by
  have apart : ∀ a b, Traffic.Uses calls (Traffic.inTurn 5) a →
      Traffic.Uses calls (Traffic.inTurn 5) b → digest a.content = digest b.content →
      a.content = b.content := by
    have texts : ∀ key, Traffic.Uses calls (Traffic.inTurn 5) key →
        key.content = [] ∨ key.content = ['a'] := by
      rintro key ⟨i, -, asked⟩
      unfold calls at asked
      split at asked
      · obtain rfl := Option.some.inj asked
        exact .inl rfl
      · cases asked
      · obtain rfl := Option.some.inj asked
        exact .inr rfl
    intro a b usedA usedB same
    rcases texts a usedA with ofA | ofA <;> rcases texts b usedB with ofB | ofB <;>
      simp [ofA, ofB, digest] at same ⊢
  obtain ⟨-, answered, identity⟩ :=
    shared_calls_undisturbed digest 2 calls (Traffic.inTurn 5) apart
  have key : (calls 0).key? = some (ReadingKey.ofText ['a'] "index.d.ts".toList) := rfl
  obtain ⟨first, second, zero, two, same⟩ :=
    identity 5 rfl 0 2 _ (by decide) (by decide) key rfl
  obtain ⟨second', third, two', four, renewed⟩ :=
    identity 5 rfl 2 4 _ (by decide) (by decide) key rfl
  obtain rfl : second = second' := by
    rw [two] at two'
    injection two' with both
    exact Option.some.inj both
  refine ⟨answered 4 (by decide), first, second, third, zero, two, four, ?_, ?_⟩
  · refine same.mpr fun k after before => ?_
    obtain rfl : k = 1 := by omega
    have kept : ((Traffic.shelfFor (ReadingKey.place digest) calls 2 2).cache.get?
        ((ReadingKey.ofText ['a'] "index.d.ts".toList).place digest)).isSome := by decide +kernel
    refine ⟨by decide, fun evicted => ?_⟩
    rw [evicted.2.2] at kept
    cases kept
  · intro equal
    exact (renewed.mp equal 3 (by decide) (by decide)).1 rfl

end Rereading
end ApiReference.Declaration
