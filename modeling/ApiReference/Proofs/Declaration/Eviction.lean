import ApiReference.Declaration.Cache
import Mathlib.Data.List.Perm.Basic

/-!
# First in, first out

The two halves of a cache stay in step through every run, and the run shows who is in it: a key
stays from the insertion that found it absent, and a new key drives out the one whose stay began
earliest, once the cache is full. Main statement: `first_in_first_out`.
-/

namespace ApiReference.Cache
variable {κ ν : Type}

/-- The keys in order are the keys of the table, each once, and no more than there is room for. -/
structure InStep (c : Cache κ ν) : Prop where
  nodup : c.order.Nodup
  perm : c.order.Perm c.keys
  bounded : c.order.length ≤ c.capacity
  positive : 0 < c.capacity

theorem InStep.size {c : Cache κ ν} (h : c.InStep) : c.size = c.order.length := by
  rw [h.perm.length_eq, keys, List.length_map, Cache.size]

theorem InStep.empty (capacity : Nat) : (Cache.empty capacity : Cache κ ν).InStep := by
  constructor
  · exact List.nodup_nil
  · exact .refl _
  · exact Nat.zero_le _
  · exact Nat.lt_of_lt_of_le Nat.zero_lt_one (Nat.le_max_right _ _)

theorem InStep.clear {c : Cache κ ν} (h : c.InStep) : c.clear.InStep :=
  ⟨List.nodup_nil, .refl _, Nat.zero_le _, h.positive⟩

variable [DecidableEq κ]

theorem isSome_get? {c : Cache κ ν} {key : κ} : (c.get? key).isSome ↔ key ∈ c.keys := isSome_lookup

theorem InStep.mem_order {c : Cache κ ν} (h : c.InStep) {key : κ} :
    key ∈ c.order ↔ (c.get? key).isSome := by
  rw [isSome_get?, h.perm.mem_iff]

theorem InStep.not_mem_order {c : Cache κ ν} (h : c.InStep) {key : κ} (absent : c.get? key = none) :
    key ∉ c.order := by
  intro member
  have present := h.mem_order.mp member
  rw [absent] at present
  cases present

theorem makeRoom_of_room {capacity : Nat} {order : List κ} (values : List (κ × ν))
    (room : order.length < capacity) : makeRoom capacity order values = (order, values) := by
  cases order with
  | nil => rfl
  | cons oldest order =>
      have few : ¬ capacity ≤ order.length + 1 := by
        simp only [List.length_cons] at room
        omega
      rw [makeRoom, if_neg few]

theorem makeRoom_of_full {capacity : Nat} (oldest : κ) {order : List κ} (values : List (κ × ν))
    (full : (oldest :: order).length = capacity) :
    makeRoom capacity (oldest :: order) values = (order, remove oldest values) := by
  rw [List.length_cons] at full
  rw [makeRoom, if_pos (Nat.le_of_eq full.symm), makeRoom_of_room _ (Nat.lt_of_succ_le
    (Nat.le_of_eq full))]

theorem insert_of_present {c : Cache κ ν} {key : κ} (value : ν) (present : (c.get? key).isSome) :
    c.insert key value = { c with values := replace key value c.values } := by
  rw [insert, if_pos present]

theorem insert_of_room {c : Cache κ ν} {key : κ} (value : ν) (absent : c.get? key = none)
    (room : c.order.length < c.capacity) :
    c.insert key value =
      { c with values := (key, value) :: c.values, order := c.order ++ [key] } := by
  rw [insert, absent, makeRoom_of_room _ room]
  rfl

theorem insert_of_full {c : Cache κ ν} {key oldest : κ} {order : List κ} (value : ν)
    (absent : c.get? key = none) (listed : c.order = oldest :: order)
    (full : c.order.length = c.capacity) :
    c.insert key value =
      { c with values := (key, value) :: remove oldest c.values, order := order ++ [key] } := by
  rw [listed] at full
  rw [insert, absent, listed, makeRoom_of_full _ _ full]
  rfl

/-- An insertion finds its key present, or there is room, or the oldest key has to go. -/
theorem InStep.insert_cases {c : Cache κ ν} (h : c.InStep) (key : κ) :
    (c.get? key).isSome ∨ (c.get? key = none ∧ c.order.length < c.capacity) ∨
      (c.get? key = none ∧ ∃ oldest order, c.order = oldest :: order ∧
        c.order.length = c.capacity) := by
  cases found : c.get? key with
  | some value => exact .inl rfl
  | none =>
      refine .inr ?_
      rcases Nat.lt_or_eq_of_le h.bounded with room | full
      · exact .inl ⟨rfl, room⟩
      · cases listed : c.order with
        | nil =>
            have positive := h.positive
            rw [listed, List.length_nil] at full
            omega
        | cons oldest order => exact .inr ⟨rfl, oldest, order, rfl, by rw [← listed]; exact full⟩

theorem InStep.insert {c : Cache κ ν} (h : c.InStep) (key : κ) (value : ν) :
    (c.insert key value).InStep := by
  rcases h.insert_cases key with present | ⟨absent, room⟩ | ⟨absent, oldest, order, listed, full⟩
  · rw [insert_of_present value present]
    refine ⟨h.nodup, ?_, h.bounded, h.positive⟩
    rw [keys, map_fst_replace]
    exact h.perm
  · have last := List.perm_append_singleton key c.order
    rw [insert_of_room value absent room]
    refine ⟨?_, last.trans (h.perm.cons key), ?_, h.positive⟩
    · exact last.nodup_iff.mpr (List.nodup_cons.mpr ⟨h.not_mem_order absent, h.nodup⟩)
    · rw [last.length_eq]
      exact room
  · have last := List.perm_append_singleton key order
    have new := h.not_mem_order absent
    obtain ⟨gone, nodup⟩ := List.nodup_cons.mp (listed ▸ h.nodup)
    rw [insert_of_full value absent listed full]
    refine ⟨?_, last.trans ?_, ?_, h.positive⟩
    · rw [listed] at new
      exact last.nodup_iff.mpr
        (List.nodup_cons.mpr ⟨fun member => new (List.mem_cons_of_mem _ member), nodup⟩)
    · -- What is left in order is what is left in the table: all but the oldest key.
      have kept := h.perm.filter fun k => decide (k ≠ oldest)
      have rest : order.filter (fun k => decide (k ≠ oldest)) = order :=
        List.filter_eq_self.mpr fun k member => decide_eq_true fun same => gone (same ▸ member)
      rw [listed, List.filter_cons_of_neg (by simp), rest] at kept
      rw [keys, List.map_cons, map_fst_remove]
      exact kept.cons key
    · rw [last.length_eq, ← full, listed]
      exact Nat.le_refl _

theorem get?_insert_self (c : Cache κ ν) (key : κ) (value : ν) :
    (c.insert key value).get? key = some value := by
  by_cases present : (c.get? key).isSome
  · rw [insert_of_present value present, get?, lookup_replace value key (isSome_get?.mp present),
      if_pos rfl]
  · rw [insert, if_neg present, get?, lookup_cons, if_pos rfl]

theorem get?_insert_of_present {c : Cache κ ν} {key other : κ} (value : ν)
    (present : (c.get? key).isSome) (different : key ≠ other) :
    (c.insert key value).get? other = c.get? other := by
  rw [insert_of_present value present, get?, lookup_replace value other (isSome_get?.mp present),
    if_neg different, get?]

theorem get?_insert_of_room {c : Cache κ ν} {key other : κ} (value : ν)
    (absent : c.get? key = none) (room : c.order.length < c.capacity) (different : key ≠ other) :
    (c.insert key value).get? other = c.get? other := by
  rw [insert_of_room value absent room, get?, lookup_cons, if_neg different, get?]

theorem get?_insert_of_full {c : Cache κ ν} {key oldest other : κ} {order : List κ} (value : ν)
    (absent : c.get? key = none) (listed : c.order = oldest :: order)
    (full : c.order.length = c.capacity) (different : key ≠ other) :
    (c.insert key value).get? other = if oldest = other then none else c.get? other := by
  rw [insert_of_full value absent listed full, get?, lookup_cons, if_neg different, lookup_remove,
    get?]

theorem lookup_makeRoom {capacity : Nat} {order : List κ} {values : List (κ × ν)} {key : κ}
    {value : ν} (h : lookup (makeRoom capacity order values).2 key = some value) :
    lookup values key = some value := by
  induction order generalizing values with
  | nil => exact h
  | cons oldest order ih =>
      rw [makeRoom] at h
      split at h
      · have left := ih h
        rw [lookup_remove] at left
        split at left
        · cases left
        · exact left
      · exact h

/-- Whatever stands under another key after an insertion stood there before. -/
theorem get?_of_get?_insert {c : Cache κ ν} {key other : κ} {value old : ν}
    (different : key ≠ other) (h : (c.insert key value).get? other = some old) :
    c.get? other = some old := by
  by_cases present : (c.get? key).isSome
  · rwa [get?_insert_of_present value present different] at h
  · rw [insert, if_neg present, get?, lookup_cons, if_neg different] at h
    exact lookup_makeRoom h

inductive Operation (κ ν : Type) where
  | get (key : κ)
  | insert (key : κ) (value : ν)
  | clear

def perform (c : Cache κ ν) : Operation κ ν → Cache κ ν
  | .get _ => c
  | .insert key value => c.insert key value
  | .clear => c.clear

/-- A new cache after some operations, the last one first. -/
def after (capacity : Nat) : List (Operation κ ν) → Cache κ ν
  | [] => empty capacity
  | op :: earlier => (after capacity earlier).perform op

theorem InStep.after (capacity : Nat) (history : List (Operation κ ν)) :
    (Cache.after capacity history).InStep := by
  induction history with
  | nil => exact .empty capacity
  | cons op earlier ih =>
      cases op with
      | get key => exact ih
      | insert key value => exact ih.insert key value
      | clear => exact ih.clear

@[simp] theorem capacity_insert (c : Cache κ ν) (key : κ) (value : ν) :
    (c.insert key value).capacity = c.capacity := by
  unfold insert
  split <;> rfl

@[simp] theorem capacity_after (capacity : Nat) (history : List (Operation κ ν)) :
    (after capacity history).capacity = max capacity 1 := by
  induction history with
  | nil => rfl
  | cons op earlier ih =>
      cases op with
      | get key => exact ih
      | insert key value => exact (capacity_insert _ key value).trans ih
      | clear => exact ih

/-- The present stay of a key began with the operation of a number, counted from the first one. -/
inductive StaysSince (capacity : Nat) : List (Operation κ ν) → κ → Nat → Prop
  | began {earlier key value} : (after capacity earlier).get? key = none →
      StaysSince capacity (.insert key value :: earlier) key earlier.length
  | lasts {earlier key start op} : StaysSince capacity earlier key start →
      ((after capacity (op :: earlier)).get? key).isSome →
      StaysSince capacity (op :: earlier) key start

/-- The present stay of a key began earliest of all. -/
def Oldest (capacity : Nat) (history : List (Operation κ ν)) (key : κ) : Prop :=
  ∃ start, StaysSince capacity history key start ∧
    ∀ other later, StaysSince capacity history other later → start ≤ later

/-- An insertion of a new key into a full cache drives out the oldest one. -/
def Evicts (capacity : Nat) (history : List (Operation κ ν)) (key other : κ) : Prop :=
  (after capacity history).get? key = none ∧ (after capacity history).size = max capacity 1 ∧
    Oldest capacity history other

/-- A value is the last one inserted under a key that was neither evicted nor cleared since. -/
inductive Stands (capacity : Nat) : List (Operation κ ν) → κ → ν → Prop
  | inserted {earlier key value} : Stands capacity (.insert key value :: earlier) key value
  | passedOver {earlier key value read} : Stands capacity earlier key value →
      Stands capacity (.get read :: earlier) key value
  | spared {earlier key value other new} : other ≠ key → ¬ Evicts capacity earlier other key →
      Stands capacity earlier key value → Stands capacity (.insert other new :: earlier) key value

variable {capacity : Nat} {history : List (Operation κ ν)} {key other : κ} {start later : Nat}

theorem StaysSince.present (h : StaysSince capacity history key start) :
    ((after capacity history).get? key).isSome := by
  cases h with
  | @began earlier key value absent =>
      rw [show after capacity (.insert key value :: earlier) =
        (after capacity earlier).insert key value from rfl, get?_insert_self]
      rfl
  | lasts earlier present => exact present

theorem StaysSince.lt_length (h : StaysSince capacity history key start) :
    start < history.length := by
  induction h with
  | began absent => exact Nat.lt_succ_self _
  | lasts earlier present ih => exact Nat.lt_succ_of_lt ih

theorem StaysSince.unique (h : StaysSince capacity history key start)
    (h' : StaysSince capacity history key later) : start = later := by
  induction h with
  | began absent =>
      cases h' with
      | began _ => rfl
      | lasts earlier _ => exact absurd absent (Option.isSome_iff_ne_none.mp earlier.present)
  | lasts earlier present ih =>
      cases h' with
      | began absent => exact absurd absent (Option.isSome_iff_ne_none.mp earlier.present)
      | lasts earlier' _ => exact ih earlier'

/-- A key is present exactly while it stays. -/
theorem present_iff : ((after capacity history).get? key).isSome ↔
    ∃ start, StaysSince capacity history key start := by
  constructor
  · intro present
    induction history with
    | nil => cases present
    | cons op earlier ih =>
        -- A key that is present was so before, or the last operation has brought it in.
        by_cases before : ((after capacity earlier).get? key).isSome
        · obtain ⟨start, stay⟩ := ih before
          exact ⟨start, stay.lasts present⟩
        · have absent := Option.not_isSome_iff_eq_none.mp before
          cases op with
          | get read => exact absurd present before
          | clear => cases present
          | insert new value =>
              by_cases same : new = key
              · subst same
                exact ⟨_, .began absent⟩
              · obtain ⟨old, found⟩ := Option.isSome_iff_exists.mp present
                rw [get?_of_get?_insert same found] at absent
                cases absent
  · rintro ⟨start, stay⟩
    exact stay.present

theorem StaysSince.of_get {read : κ} (h : StaysSince capacity (.get read :: history) key start) :
    StaysSince capacity history key start := by
  cases h with
  | lasts earlier present => exact earlier

theorem StaysSince.of_insert {value : ν} (different : key ≠ other)
    (h : StaysSince capacity (.insert key value :: history) other start) :
    StaysSince capacity history other start := by
  cases h with
  | began absent => exact absurd rfl different
  | lasts earlier present => exact earlier

/-- A new value does not renew the age of its key, nor of any other. -/
theorem staysSince_insert_of_present (value : ν)
    (present : ((after capacity history).get? key).isSome) :
    StaysSince capacity (.insert key value :: history) other start ↔
      StaysSince capacity history other start := by
  constructor
  · intro stay
    cases stay with
    | began absent => exact absurd absent (Option.isSome_iff_ne_none.mp present)
    | lasts earlier present => exact earlier
  · intro stay
    refine stay.lasts ?_
    change (((after capacity history).insert key value).get? other).isSome
    by_cases same : key = other
    · rw [← same, get?_insert_self]
      rfl
    · rw [get?_insert_of_present value present same]
      exact stay.present

theorem InStep.order_insert_of_absent {c : Cache κ ν} (h : c.InStep) (value : ν)
    (absent : c.get? key = none) :
    ∃ kept, kept.Sublist c.order ∧ (c.insert key value).order = kept ++ [key] := by
  rcases h.insert_cases key with present | ⟨-, room⟩ | ⟨-, oldest, order, listed, full⟩
  · exact absurd absent (Option.isSome_iff_ne_none.mp present)
  · exact ⟨c.order, .refl _, by rw [insert_of_room value absent room]⟩
  · refine ⟨order, ?_, by rw [insert_of_full value absent listed full]⟩
    rw [listed]
    exact List.sublist_cons_self _ _

/-- The stays of the keys began in the order in which the keys are listed. -/
theorem order_sorted (capacity : Nat) (history : List (Operation κ ν)) :
    (after capacity history).order.Pairwise fun a b =>
      ∀ start later, StaysSince capacity history a start →
        StaysSince capacity history b later → start < later := by
  induction history with
  | nil => exact .nil
  | cons op earlier ih =>
      cases op with
      | get read =>
          exact ih.imp fun sorted start later first second =>
            sorted start later first.of_get second.of_get
      | clear => exact .nil
      | insert key value =>
          change ((after capacity earlier).insert key value).order.Pairwise _
          by_cases present : ((after capacity earlier).get? key).isSome
          · rw [insert_of_present value present]
            simpa only [staysSince_insert_of_present value present] using ih
          · have absent := Option.not_isSome_iff_eq_none.mp present
            have inStep := InStep.after capacity earlier
            obtain ⟨kept, sublist, order⟩ := inStep.order_insert_of_absent value absent
            have others : ∀ a ∈ kept, key ≠ a := by
              rintro a member rfl
              exact inStep.not_mem_order absent (sublist.subset member)
            rw [order]
            -- Those that are left keep their stays, and the stay of the new key begins after all.
            refine List.pairwise_append.mpr ⟨?_, List.pairwise_singleton _ _, ?_⟩
            · refine (ih.sublist sublist).imp_of_mem ?_
              intro a b first second sorted start later stay stay'
              exact sorted start later (stay.of_insert (others a first))
                (stay'.of_insert (others b second))
            · intro a first b last start later stay stay'
              obtain rfl := List.mem_singleton.mp last
              rw [stay'.unique (.began absent)]
              exact (stay.of_insert (others a first)).lt_length

theorem oldest_iff {oldest : κ} {order : List κ}
    (listed : (after capacity history).order = oldest :: order) :
    Oldest capacity history key ↔ key = oldest := by
  have sorted := order_sorted capacity history
  have inStep := InStep.after capacity history
  rw [listed] at sorted
  have first := (List.pairwise_cons.mp sorted).1
  have listing : ∀ k, ((after capacity history).get? k).isSome → k = oldest ∨ k ∈ order := by
    intro k present
    have member := inStep.mem_order.mpr present
    rw [listed] at member
    exact List.mem_cons.mp member
  have present : ((after capacity history).get? oldest).isSome :=
    inStep.mem_order.mp (listed ▸ List.mem_cons_self)
  obtain ⟨start, stay⟩ := present_iff.mp present
  constructor
  · rintro ⟨began, stay', least⟩
    rcases listing key stay'.present with same | behind
    · exact same
    · have later := first key behind start began stay stay'
      have earlier := least oldest start stay
      omega
  · rintro rfl
    refine ⟨start, stay, fun other later stay' => ?_⟩
    rcases listing other stay'.present with rfl | behind
    · exact Nat.le_of_eq (stay.unique stay')
    · exact Nat.le_of_lt (first other behind start later stay stay')

theorem evicts_iff : Evicts capacity history key other ↔ (after capacity history).get? key = none ∧
    ∃ order, (after capacity history).order = other :: order ∧
      (after capacity history).order.length = (after capacity history).capacity := by
  have inStep := InStep.after capacity history
  unfold Evicts
  rw [inStep.size, capacity_after]
  refine and_congr_right fun absent => ?_
  cases listed : (after capacity history).order with
  | nil =>
      have positive : 0 < max capacity 1 := by omega
      constructor
      · rintro ⟨full, -⟩
        rw [List.length_nil] at full
        omega
      · rintro ⟨order, same, -⟩
        cases same
  | cons oldest order =>
      rw [oldest_iff listed]
      constructor
      · rintro ⟨full, rfl⟩
        exact ⟨order, rfl, full⟩
      · rintro ⟨order', same, full⟩
        exact ⟨full, (List.cons.inj same).1.symm⟩

theorem Evicts.get? (h : Evicts capacity history key other) (value : ν) :
    (after capacity (.insert key value :: history)).get? other = none := by
  obtain ⟨absent, order, listed, full⟩ := evicts_iff.mp h
  have different : key ≠ other := by
    rintro rfl
    exact (InStep.after capacity history).not_mem_order absent (listed ▸ List.mem_cons_self)
  exact (get?_insert_of_full value absent listed full different).trans (if_pos rfl)

/-- Whatever is not evicted stays as it is when another key gets a value. -/
theorem get?_of_not_evicts (value : ν) (different : key ≠ other)
    (spared : ¬ Evicts capacity history key other) :
    (after capacity (.insert key value :: history)).get? other =
      (after capacity history).get? other := by
  rcases (InStep.after capacity history).insert_cases key with
    present | ⟨absent, room⟩ | ⟨absent, oldest, order, listed, full⟩
  · exact get?_insert_of_present value present different
  · exact get?_insert_of_room value absent room different
  · refine (get?_insert_of_full value absent listed full different).trans (if_neg ?_)
    rintro rfl
    exact spared (evicts_iff.mpr ⟨absent, order, listed, full⟩)

/-- The value under a key is the one last inserted, unless the key was evicted or cleared since. -/
theorem get?_after_eq_some {value : ν} :
    (after capacity history).get? key = some value ↔ Stands capacity history key value := by
  induction history generalizing value with
  | nil =>
      constructor
      · intro found
        cases found
      · intro stands
        cases stands
  | cons op earlier ih =>
      constructor
      · intro found
        cases op with
        | get read => exact .passedOver (ih.mp found)
        | clear => cases found
        | insert new given =>
            -- Unless it is the value just inserted, it stood there before and was spared.
            by_cases same : new = key
            · subst same
              have equal := (get?_insert_self _ new given).symm.trans found
              cases equal
              exact .inserted
            · refine .spared same ?_ (ih.mp (get?_of_get?_insert same found))
              intro evicted
              rw [evicted.get? given] at found
              cases found
      · intro stands
        cases stands with
        | inserted => exact get?_insert_self _ key value
        | passedOver stands => exact ih.mpr stands
        | spared different spared stands =>
            rw [get?_of_not_evicts _ different spared]
            exact ih.mpr stands

/-- What a run of operations leaves behind. -/
structure FirstInFirstOut (capacity : Nat) (history : List (Operation κ ν)) : Prop where
  nodup : (after capacity history).order.Nodup
  perm : (after capacity history).order.Perm (after capacity history).keys
  bounded : (after capacity history).order.length ≤ max capacity 1
  size : (after capacity history).size = (after capacity history).order.length
  /-- The value of a key is the one last inserted, unless it was evicted or cleared since. -/
  get : ∀ key value,
    (after capacity history).get? key = some value ↔ Stands capacity history key value
  /-- Exactly the keys that have a value stay, each since one operation. -/
  stays : ∀ key, ((after capacity history).get? key).isSome ↔
    ∃! start, StaysSince capacity history key start
  insert : ∀ key value, (after capacity (.insert key value :: history)).get? key = some value
  /-- While there is room, a new key leaves all others as they are. -/
  spare : ∀ key value, (after capacity history).get? key = none →
    (after capacity history).size < max capacity 1 → ∀ other, key ≠ other →
      (after capacity (.insert key value :: history)).get? other =
        (after capacity history).get? other
  /-- A new key drives exactly one key out of a full cache, the one whose stay began earliest. -/
  evict : ∀ key value, (after capacity history).get? key = none →
    (after capacity history).size = max capacity 1 →
    ∃ oldest, (∀ other, Oldest capacity history other ↔ other = oldest) ∧
      (after capacity (.insert key value :: history)).get? oldest = none ∧
      ∀ other, key ≠ other → oldest ≠ other →
        (after capacity (.insert key value :: history)).get? other =
          (after capacity history).get? other
  /-- A present key only gets a new value: all others keep theirs, and all keys keep their age. -/
  replace : ∀ key value, ((after capacity history).get? key).isSome →
    (after capacity (.insert key value :: history)).order = (after capacity history).order ∧
    (∀ other, key ≠ other → (after capacity (.insert key value :: history)).get? other =
      (after capacity history).get? other) ∧
    ∀ other start, StaysSince capacity (.insert key value :: history) other start ↔
      StaysSince capacity history other start

/-- A cache is a bounded map that is first in, first out, whatever is done to it. -/
theorem first_in_first_out (capacity : Nat) (history : List (Operation κ ν)) :
    FirstInFirstOut capacity history := by
  have inStep := InStep.after capacity history
  constructor
  · exact inStep.nodup
  · exact inStep.perm
  · exact Nat.le_trans inStep.bounded (Nat.le_of_eq (capacity_after capacity history))
  · exact inStep.size
  · exact fun key value => get?_after_eq_some
  · intro key
    rw [present_iff]
    constructor
    · rintro ⟨start, stay⟩
      exact ⟨start, stay, fun later stay' => stay'.unique stay⟩
    · exact ExistsUnique.exists
  · intro key value
    exact get?_insert_self _ key value
  · intro key value absent room other different
    refine get?_of_not_evicts value different ?_
    rintro ⟨-, full, -⟩
    omega
  · intro key value absent full
    have listing : ∃ oldest order, (after capacity history).order = oldest :: order := by
      apply List.exists_cons_of_length_pos
      rw [← inStep.size, full]
      omega
    obtain ⟨oldest, order, listed⟩ := listing
    have evicted : Evicts capacity history key oldest := ⟨absent, full, (oldest_iff listed).mpr rfl⟩
    refine ⟨oldest, fun other => oldest_iff listed, evicted.get? value, ?_⟩
    intro other different younger
    refine get?_of_not_evicts value different ?_
    rintro ⟨-, -, isOldest⟩
    exact younger ((oldest_iff listed).mp isOldest).symm
  · intro key value present
    refine ⟨?_, fun other different => get?_insert_of_present value present different,
      fun other start => staysSince_insert_of_present value present⟩
    change ((after capacity history).insert key value).order = _
    rw [insert_of_present value present]

end ApiReference.Cache
