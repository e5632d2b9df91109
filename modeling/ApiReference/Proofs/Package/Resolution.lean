import ApiReference.Package.Metadata
import ApiReference.Proofs.Number.Literal
import ApiReference.Proofs.Text.Trimming
import ApiReference.Proofs.Text.Words
import Mathlib.Data.List.Lex

/-!
# What a request for a version stands for

A request is looked up without blanks around it and without the letters v at its beginning, first
among the tags, then among the versions, and at last as the beginning of versions, of which the
greatest one counts. Main statements: `resolve?_exact`, `resolve?_within`.
-/

namespace ApiReference.Package
open ApiReference.Text (isAsciiDigit isBlank)

/-- The version that some numbers make up: their decimal digits, with dots between them. -/
def dotted (ns : List Nat) : Text := Text.join ['.'] (ns.map Text.ofNat)

/-- Whether a version is one or more numbers of 64 bits, without leading zeros, with dots between
them. -/
def IsDotted (v : Text) : Prop := ∃ ns, ns ≠ [] ∧ (∀ n ∈ ns, n < Nat.pow 2 64) ∧ v = dotted ns

/-- The numbers of a version, from dot to dot. -/
def components (v : Text) : List Nat := (Text.splitOn (· == '.') v).map Text.toNat

/-- Whether a version comes before another, component by component: the first difference decides,
and a beginning comes before what goes on. -/
def IsBelow (v w : Text) : Prop := List.Lex (· < ·) (components v) (components w)

section
variable {ns : List Nat}

theorem mem_dotted {c : Char} (member : c ∈ dotted ns) : isAsciiDigit c = true ∨ c = '.' := by
  have each : ∀ c ∈ dotted ns, isAsciiDigit c = true ∨ c = '.' := by
    refine (Text.forall_mem_join (P := fun c => isAsciiDigit c = true ∨ c = '.')
      (List.forall_mem_singleton.2 (.inr rfl)) _).2 fun t listed c inside => .inl ?_
    obtain ⟨n, -, rfl⟩ := List.mem_map.1 listed
    exact Text.isAsciiDigit_of_mem_ofNat inside
  exact each c member

/-- Dotted numbers come apart at the dots, whatever else a text is cut at. -/
theorem splitOn_dotted {p : Char → Bool} (some : ns ≠ []) (dot : p '.' = true)
    (digit : ∀ c, isAsciiDigit c = true → p c = false) :
    Text.splitOn p (dotted ns) = ns.map Text.ofNat := by
  refine Text.splitOn_join dot (by simpa using some) fun t listed c inside => ?_
  obtain ⟨n, -, rfl⟩ := List.mem_map.1 listed
  exact digit c (Text.isAsciiDigit_of_mem_ofNat inside)

theorem ne_of_isAsciiDigit {c d : Char} (digit : isAsciiDigit c = true)
    (other : isAsciiDigit d = false) : (c == d) = false := by
  refine beq_false_of_ne ?_
  rintro rfl
  rw [digit] at other
  cases other

theorem components_dotted (some : ns ≠ []) : components (dotted ns) = ns := by
  rw [components, splitOn_dotted some rfl fun c digit => ne_of_isAsciiDigit digit (by decide),
    List.map_map]
  exact (List.map_congr_left fun n _ => Text.toNat_ofNat n).trans (List.map_id ns)

theorem numericParts_dotted (some : ns ≠ []) (fits : ∀ n ∈ ns, n < Nat.pow 2 64) :
    numericParts (dotted ns) = ns := by
  have read : (ns.map Text.ofNat).map (Number.natural? 64) = ns.map Option.some := by
    rw [List.map_map]
    exact List.map_congr_left fun n listed => Number.natural?_ofNat (fits n listed)
  have all : ∀ n ∈ ns.map Option.some, n.isSome = true := by
    intro n listed
    obtain ⟨m, -, rfl⟩ := List.mem_map.1 listed
    rfl
  rw [numericParts, splitOn_dotted some rfl fun c digit => by
    rw [ne_of_isAsciiDigit digit (by decide), ne_of_isAsciiDigit digit (by decide)]; rfl, read,
    List.takeWhile_eq_self_iff.2 all, List.filterMap_map]
  exact List.filterMap_some

end

namespace IsDotted
variable {v w : Text}

theorem numericParts_eq (h : IsDotted v) : numericParts v = components v := by
  obtain ⟨ns, some, fits, rfl⟩ := h
  rw [numericParts_dotted some fits, components_dotted some]

theorem eq_of_components (h : IsDotted v) (h' : IsDotted w) (same : components v = components w) :
    v = w := by
  obtain ⟨ns, some, -, rfl⟩ := h
  obtain ⟨ms, some', -, rfl⟩ := h'
  rw [components_dotted some, components_dotted some'] at same
  rw [same]

theorem mem {c : Char} (h : IsDotted v) (member : c ∈ v) : isAsciiDigit c = true ∨ c = '.' := by
  obtain ⟨ns, -, -, rfl⟩ := h
  exact mem_dotted member

theorem nonempty (h : IsDotted v) : v ≠ [] := by
  rintro rfl
  obtain ⟨ns, some, -, whole⟩ := h
  have parts := components_dotted some
  rw [← whole] at parts
  obtain ⟨n, rfl⟩ : ∃ n, ns = [n] := ⟨_, parts.symm⟩
  exact Nat.toDigits_ne_nil whole.symm

end IsDotted

theorem numbersPrecede_iff {a b : List Nat} :
    numbersPrecede a b = true ↔ List.Lex (· < ·) a b := by
  induction a generalizing b with
  | nil =>
      cases b with
      | nil => exact ⟨nofun, nofun⟩
      | cons m b => exact ⟨fun _ => .nil, fun _ => rfl⟩
  | cons n a ih =>
      cases b with
      | nil => exact ⟨nofun, nofun⟩
      | cons m b =>
          rw [numbersPrecede, Bool.or_eq_true, Bool.and_eq_true, decide_eq_true_eq, beq_iff_eq, ih]
          constructor
          · rintro (less | ⟨rfl, less⟩)
            · exact .rel less
            · exact .cons less
          · rintro (_ | less | less)
            · exact .inl less
            · exact .inr ⟨rfl, less⟩

theorem greatestVersion_eq_none_iff {vs : List Text} : greatestVersion vs = none ↔ vs = [] := by
  cases vs with
  | nil => exact ⟨fun _ => rfl, fun _ => rfl⟩
  | cons v vs =>
      refine ⟨fun none => ?_, nofun⟩
      rw [greatestVersion] at none
      split at none
      · cases none
      · split at none <;> cases none

/-- The greatest of some versions is one of them, and it comes before none of them. -/
theorem greatestVersion_eq_some {vs : List Text} {v : Text} (found : greatestVersion vs = some v) :
    v ∈ vs ∧ ∀ w ∈ vs, ¬ List.Lex (· < ·) (numericParts v) (numericParts w) := by
  induction vs generalizing v with
  | nil => cases found
  | cons u vs ih =>
      have stays : ¬ List.Lex (· < ·) (numericParts u) (numericParts u) := irrefl _
      rw [greatestVersion] at found
      split at found
      · next none =>
          obtain rfl := greatestVersion_eq_none_iff.1 none
          obtain rfl := Option.some.inj found
          exact ⟨List.mem_singleton_self u, List.forall_mem_singleton.2 stays⟩
      · next w greatest =>
          obtain ⟨member, last⟩ := ih greatest
          split at found
          · next above =>
              obtain rfl := Option.some.inj found
              refine ⟨List.mem_cons_self, List.forall_mem_cons.2 ⟨stays, fun x listed less => ?_⟩⟩
              exact last x listed (List.lex_trans Nat.lt_trans (numbersPrecede_iff.1 above) less)
          · next below =>
              obtain rfl := Option.some.inj found
              exact ⟨List.mem_cons_of_mem u member,
                List.forall_mem_cons.2 ⟨mt numbersPrecede_iff.2 below, last⟩⟩

namespace Metadata

/-- Whether a version is within a request: published, without prerelease part, and beginning with
the request and a dot. -/
structure Within (m : Metadata) (request v : Text) : Prop where
  published : v ∈ m.versions
  stable : '-' ∉ v
  begins : request ++ ['.'] <+: v

/-- Whether all versions without prerelease part are numbers with dots between them. -/
def IsNumeric (m : Metadata) : Prop := ∀ v ∈ m.versions, '-' ∉ v → IsDotted v

section
variable {m : Metadata} {request v : Text}

theorem mem_filter_within : (v ∈ m.versions.filter fun v =>
    !v.contains '-' && Text.startsWith (request ++ ['.']) v) ↔ m.Within request v := by
  rw [List.mem_filter, Bool.and_eq_true, Bool.not_eq_true', Text.startsWith_iff,
    List.contains_eq_mem, decide_eq_false_iff_not]
  exact ⟨fun ⟨published, stable, begins⟩ => ⟨published, stable, begins⟩,
    fun ⟨published, stable, begins⟩ => ⟨published, stable, begins⟩⟩

theorem greatestWithin_eq_none_iff :
    m.greatestWithin request = none ↔ ∀ v, ¬ m.Within request v := by
  rw [greatestWithin, greatestVersion_eq_none_iff, List.eq_nil_iff_forall_not_mem]
  exact forall_congr' fun v => not_congr mem_filter_within

/-- Two different versions are one below the other. -/
theorem IsNumeric.isBelow_of_not (numeric : m.IsNumeric) {w : Text} (within : m.Within request v)
    (within' : m.Within request w) (other : w ≠ v) (not : ¬ IsBelow v w) : IsBelow w v := by
  have dotted := numeric v within.published within.stable
  have dotted' := numeric w within'.published within'.stable
  rcases trichotomous_of (List.Lex (· < ·)) (components w) (components v) with less | same | more
  · exact less
  · exact absurd (dotted'.eq_of_components dotted same) other
  · exact absurd more not

theorem IsNumeric.greatestWithin_eq_some_iff (numeric : m.IsNumeric) :
    m.greatestWithin request = some v ↔
      m.Within request v ∧ ∀ w, m.Within request w → w ≠ v → IsBelow w v := by
  have parts {u : Text} (within : m.Within request u) : numericParts u = components u :=
    (numeric u within.published within.stable).numericParts_eq
  have sound {u : Text} (found : m.greatestWithin request = some u) :
      m.Within request u ∧ ∀ w, m.Within request w → w ≠ u → IsBelow w u := by
    obtain ⟨member, last⟩ := greatestVersion_eq_some found
    have within := mem_filter_within.1 member
    refine ⟨within, fun w within' other => ?_⟩
    have not := last w (mem_filter_within.2 within')
    rw [parts within, parts within'] at not
    exact numeric.isBelow_of_not within within' other not
  refine ⟨sound, fun ⟨within, above⟩ => ?_⟩
  cases found : m.greatestWithin request with
  | none => exact absurd within (greatestWithin_eq_none_iff.1 found v)
  | some u =>
      obtain ⟨within', above'⟩ := sound found
      by_contra other
      have differ : v ≠ u := fun same => other (by rw [same])
      exact asymm_of (List.Lex (· < ·)) (above' v within differ) (above u within' differ.symm)

end
end Metadata

/-- A request as it is looked up: without blanks around it, and then without leading letters v. -/
def bareRequest (request : Text) : Text :=
  Text.trimStartOf (fun c => c == 'v' || c == 'V') (Text.trim request)

/-- Whether a text is looked up as it is: there is something of it, no blanks are around it, and it
does not begin with the letter v. -/
structure IsBare (t : Text) : Prop where
  nonempty : t ≠ []
  trimmed : Text.trim t = t
  letterless : ∀ c ∈ t.head?, c ≠ 'v' ∧ c ≠ 'V'

theorem isBare_iff {t : Text} : IsBare t ↔ t ≠ [] ∧ bareRequest t = t := by
  have letters : Text.trimStartOf (fun c => c == 'v' || c == 'V') t = t ↔
      ∀ c ∈ t.head?, c ≠ 'v' ∧ c ≠ 'V' := by
    cases t with
    | nil => exact ⟨fun _ => nofun, fun _ => rfl⟩
    | cons c t =>
        rw [Text.trimStartOf, List.dropWhile_eq_self_iff]
        simp
  constructor
  · rintro ⟨nonempty, trimmed, letterless⟩
    exact ⟨nonempty, by rw [bareRequest, trimmed, letters.2 letterless]⟩
  · rintro ⟨nonempty, same⟩
    -- What is left is a part of the trimmed text, so if nothing is lost the trimmed text is all.
    have part : (bareRequest t).Sublist (Text.trim t) := List.dropWhile_sublist _
    have trimmed : Text.trim t = t := by
      have whole := Text.trimOf_sublist isBlank t
      rw [same] at part
      exact whole.antisymm part
    rw [bareRequest, trimmed] at same
    exact ⟨nonempty, trimmed, letters.1 same⟩

theorem IsDotted.isBare {v : Text} (h : IsDotted v) : IsBare v := by
  have apart {c : Char} (member : c ∈ v) : isBlank c = false ∧ c ≠ 'v' ∧ c ≠ 'V' := by
    have listed : ∀ n < 0x3A, isAsciiDigit (Char.ofNat n) = true →
        isBlank (Char.ofNat n) = false ∧ Char.ofNat n ≠ 'v' ∧ Char.ofNat n ≠ 'V' := by
      decide +kernel
    rcases h.mem member with digit | rfl
    · have small : c.toNat < 0x3A := by
        rw [isAsciiDigit, Bool.and_eq_true, decide_eq_true_eq, decide_eq_true_eq] at digit
        exact Nat.lt_succ_of_le digit.2
      have found := listed c.toNat small
      rw [Char.ofNat_toNat] at found
      exact found digit
    · decide
  exact ⟨h.nonempty, Text.trimOf_of_forall fun c member => (apart member).1,
    fun c first => (apart (List.mem_of_head? first)).2⟩

namespace Metadata
variable {m : Metadata} {request : Text}

theorem resolve?_of_ne_nil (some : bareRequest request ≠ []) : m.resolve? (.some request) =
    (m.tagged? (bareRequest request) <|>
      if m.versions.contains (bareRequest request) then .some (bareRequest request)
      else m.greatestWithin (bareRequest request)) := by
  have filled : (bareRequest request).isEmpty = false := List.isEmpty_eq_false_iff.2 some
  have wanted : ((Option.some request).map bareRequest).filter (fun r => !r.isEmpty) =
      .some (bareRequest request) := by
    rw [Option.map_some, Option.filter_some, filled]
    rfl
  unfold bareRequest at wanted ⊢
  rw [resolve?, wanted]

theorem resolve?_of_nil (none : bareRequest request = []) :
    m.resolve? (some request) = m.tagged? "latest".toList := by
  have unwanted : ((some request).map bareRequest).filter (fun r => !r.isEmpty) = .none := by
    rw [Option.map_some, none]
    rfl
  unfold bareRequest at unwanted
  rw [resolve?, unwanted]

theorem resolve?_of_tagged {v : Text} (bare : IsBare request)
    (tagged : m.tagged? request = some v) : m.resolve? (some request) = some v := by
  obtain ⟨nonempty, same⟩ := isBare_iff.1 bare
  have filled : bareRequest request ≠ [] := same.symm ▸ nonempty
  rw [resolve?_of_ne_nil filled, same, tagged]
  rfl

theorem resolve?_of_published (bare : IsBare request) (untagged : m.tagged? request = none)
    (published : request ∈ m.versions) : m.resolve? (some request) = some request := by
  obtain ⟨nonempty, same⟩ := isBare_iff.1 bare
  have filled : bareRequest request ≠ [] := same.symm ▸ nonempty
  rw [resolve?_of_ne_nil filled, same, untagged, List.contains_iff_mem.2 published]
  rfl

/-- The only tag there is. -/
theorem tagged?_singleton {t v r : Text} (versions : List Text) :
    tagged? ⟨[(t, v)], versions⟩ r = if t = r then some v else none := by
  rw [tagged?, List.reverse_singleton, List.find?_singleton]
  simp only [beq_iff_eq]
  split <;> rfl

/-- Where a tag is all there is, it is found only if it is looked up as it is. -/
theorem isBare_of_tag {t : Text}
    (found : resolve? ⟨[(t, t)], []⟩ (some t) = some t) : IsBare t := by
  rw [isBare_iff]
  by_cases nothing : bareRequest t = []
  · rw [resolve?_of_nil nothing, tagged?_singleton] at found
    split at found
    · next latest =>
        rw [latest] at nothing
        exact absurd nothing (by decide)
    · cases found
  · rw [resolve?_of_ne_nil nothing, tagged?_singleton] at found
    split at found
    · next same => exact ⟨same ▸ nothing, same.symm⟩
    · cases found

/-- Where a tag stands for what a version is looked up as, the version is found only if that is the
version itself. -/
theorem isBare_of_version {t : Text}
    (found : ∀ tags, tagged? ⟨tags, [t]⟩ t = none → resolve? ⟨tags, [t]⟩ (some t) = some t) :
    IsBare t := by
  rw [isBare_iff]
  by_cases nothing : bareRequest t = []
  · have latest := found [] rfl
    rw [resolve?_of_nil nothing] at latest
    cases latest
  · by_cases same : bareRequest t = t
    · exact ⟨same ▸ nothing, same⟩
    · have other := found [(bareRequest t, bareRequest t)]
        (by rw [tagged?_singleton, if_neg same])
      rw [resolve?_of_ne_nil nothing, tagged?_singleton, if_pos rfl] at other
      exact absurd (Option.some.inj other) same

/-- A tag stands for its version, and a version that is no tag for itself, in whatever metadata they
are, exactly if they are looked up as they are; so not if they begin with the letter v. -/
theorem resolve?_exact (t : Text) :
    ((∀ (m : Metadata) (v : Text), m.tagged? t = some v → m.resolve? (some t) = some v) ↔
      IsBare t) ∧
    ((∀ m : Metadata, t ∈ m.versions → m.tagged? t = none → m.resolve? (some t) = some t) ↔
      IsBare t) := by
  refine ⟨⟨fun always => ?_, fun bare m v => resolve?_of_tagged bare⟩,
    ⟨fun always => ?_, fun bare m published untagged =>
      resolve?_of_published bare untagged published⟩⟩
  · exact isBare_of_tag (always ⟨[(t, t)], []⟩ t (by rw [tagged?_singleton, if_pos rfl]))
  · exact isBare_of_version fun tags => always ⟨tags, [t]⟩ (List.mem_singleton_self t)

/-- A tag and a version that begin with the letter v are not found under their names. -/
theorem resolve?_letter :
    tagged? ⟨[("v17-lts".toList, "17.0.2".toList)], ["17.0.2".toList]⟩ "v17-lts".toList =
      some "17.0.2".toList ∧
    resolve? ⟨[("v17-lts".toList, "17.0.2".toList)], ["17.0.2".toList]⟩ (some "v17-lts".toList) =
      none ∧
    resolve? ⟨[], ["v17.0.2".toList]⟩ (some "v17.0.2".toList) = none := by
  decide +kernel

/-- A request that names neither a tag nor a version stands for the greatest version within it, in
whatever order the versions are listed, and for nothing if there is none. What it stands for stands
for itself, unless it is a tag as well. -/
theorem resolve?_within (m : Metadata) (numeric : m.IsNumeric) (request : Text)
    (some : bareRequest request ≠ []) (untagged : m.tagged? (bareRequest request) = none)
    (unpublished : bareRequest request ∉ m.versions) :
    (∀ v, m.resolve? (.some request) = .some v ↔ m.Within (bareRequest request) v ∧
      ∀ w, m.Within (bareRequest request) w → w ≠ v → IsBelow w v) ∧
    (m.resolve? (.some request) = none ↔ ∀ v, ¬ m.Within (bareRequest request) v) ∧
    (∀ versions, (∀ v, v ∈ versions ↔ v ∈ m.versions) →
      resolve? ⟨m.tags, versions⟩ (.some request) = m.resolve? (.some request)) ∧
    (∀ v, m.resolve? (.some request) = .some v → m.tagged? v = none →
      m.resolve? (.some v) = .some v) := by
  have looked (m' : Metadata) (untagged : m'.tagged? (bareRequest request) = none)
      (unpublished : bareRequest request ∉ m'.versions) :
      m'.resolve? (.some request) = m'.greatestWithin (bareRequest request) := by
    rw [resolve?_of_ne_nil some, untagged, List.contains_eq_mem, decide_eq_false unpublished]
    rfl
  rw [looked m untagged unpublished]
  refine ⟨fun v => numeric.greatestWithin_eq_some_iff, greatestWithin_eq_none_iff,
    fun versions same => ?_, fun v found untagged' => ?_⟩
  · rw [looked ⟨m.tags, versions⟩ untagged (mt (same _).1 unpublished)]
    have numeric' : IsNumeric ⟨m.tags, versions⟩ :=
      fun v published => numeric v ((same v).1 published)
    have within (v : Text) : Within ⟨m.tags, versions⟩ (bareRequest request) v ↔
        m.Within (bareRequest request) v :=
      ⟨fun ⟨published, stable, begins⟩ => ⟨(same v).1 published, stable, begins⟩,
        fun ⟨published, stable, begins⟩ => ⟨(same v).2 published, stable, begins⟩⟩
    refine Option.ext fun v => ?_
    rw [numeric'.greatestWithin_eq_some_iff, numeric.greatestWithin_eq_some_iff]
    simp only [within]
  · obtain ⟨⟨published, stable, -⟩, -⟩ := numeric.greatestWithin_eq_some_iff.1 found
    exact resolve?_of_published (numeric v published stable).isBare untagged' published

/-- Metadata with numbers of two digits, a prerelease and a number that only begins with 18. -/
def releases : Metadata where
  tags := [("latest".toList, "19.0.0".toList)]
  versions := ["18.10.0", "18.9.2", "180.0.0", "18.11.0-rc.1", "19.0.0"].map String.toList

theorem isNumeric_releases : releases.IsNumeric := by
  intro v published stable
  simp only [releases, List.map_cons, List.map_nil, List.mem_cons, List.not_mem_nil,
    or_false] at published
  rcases published with rfl | rfl | rfl | rfl | rfl
  · exact ⟨[18, 10, 0], by decide, by decide +kernel, rfl⟩
  · exact ⟨[18, 9, 2], by decide, by decide +kernel, rfl⟩
  · exact ⟨[180, 0, 0], by decide, by decide +kernel, rfl⟩
  · exact absurd (by decide) stable
  · exact ⟨[19, 0, 0], by decide, by decide +kernel, rfl⟩

theorem resolve?_within_releases : releases.IsNumeric ∧ bareRequest " v18".toList ≠ [] ∧
    releases.tagged? (bareRequest " v18".toList) = none ∧
    bareRequest " v18".toList ∉ releases.versions ∧
    releases.resolve? (some " v18".toList) = some "18.10.0".toList ∧
    IsBelow "18.9.2".toList "18.10.0".toList ∧
    releases.resolve? (some "18.10.0".toList) = some "18.10.0".toList := by
  have some : bareRequest " v18".toList ≠ [] := by decide
  have untagged : releases.tagged? (bareRequest " v18".toList) = none := by decide +kernel
  have unpublished : bareRequest " v18".toList ∉ releases.versions := by decide +kernel
  have found : releases.resolve? (.some " v18".toList) = .some "18.10.0".toList := by
    decide +kernel
  obtain ⟨greatest, -, -, again⟩ := resolve?_within releases isNumeric_releases " v18".toList some
    untagged unpublished
  have within : releases.Within (bareRequest " v18".toList) "18.9.2".toList :=
    ⟨by decide +kernel, by decide, by decide +kernel⟩
  exact ⟨isNumeric_releases, some, untagged, unpublished, found,
    ((greatest _).1 found).2 _ within (by decide), again _ found (by decide +kernel)⟩

end Metadata
end ApiReference.Package
