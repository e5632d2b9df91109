import ApiReference.Proofs.Settings.Merging
import ApiReference.Proofs.Settings.Leaves
import ApiReference.Proofs.Text.LowerForms
import ApiReference.Proofs.Text.Words

/-!
# Variables of the environment

Each single setting has a variable. A layer that holds nothing but single settings puts its values
in place of what was there and leaves everything else as it is, as long as the sections it reaches
into are tables. Main statements: `overrides_overlay`, `get?_environmentLayer`, `IsWordy.of_comma`.
-/

namespace ApiReference.Settings
open ApiReference.Toml (Value Table)

/-- The name of a single setting in a layer. -/
def Leaf.path (l : Leaf) : Text := l.part.toList ++ '.' :: l.name.toList

/-- The variable of a single setting. -/
def Leaf.variable (l : Leaf) : Text :=
  "AUGMENTS__".toList ++ (l.part.toList ++ "__".toList ++ l.name.toList).map Char.toUpper

example : leaves.map Leaf.variable = knownVariables.tail := by decide +kernel

theorem pathOf_path : ∀ l ∈ leaves, pathOf l.path = [l.part.toList, l.name.toList] := by
  decide +kernel

theorem path_of_variable : ∀ l ∈ leaves,
    (Text.stripStart variableBeginning (Text.lower l.variable)).map dotted = some l.path := by
  decide +kernel

theorem path_inj {l l' : Leaf} (member : l ∈ leaves) (member' : l' ∈ leaves) :
    l.path = l'.path ↔ l.part.toList = l'.part.toList ∧ l.name.toList = l'.name.toList := by
  constructor
  · intro same
    have parts := congrArg pathOf same
    rw [pathOf_path l member, pathOf_path l' member'] at parts
    exact ⟨(List.cons.inj parts).1, (List.cons.inj (List.cons.inj parts).2).1⟩
  · rintro ⟨part, name⟩
    rw [Leaf.path, Leaf.path, part, name]

theorem variable_inj {l l' : Leaf} (member : l ∈ leaves) (member' : l' ∈ leaves) :
    l.variable = l'.variable ↔ l.path = l'.path := by
  constructor
  · intro same
    have paths := path_of_variable l member
    rw [same, path_of_variable l' member'] at paths
    exact (Option.some.inj paths).symm
  · intro same
    obtain ⟨part, name⟩ := (path_inj member member').1 same
    unfold Leaf.variable
    rw [part, name]

/-- Whether a section can take settings and keep those it has: it is a table or is not there. -/
def Open (t : Table) (part : String) : Prop :=
  ∀ v, Table.get? t part.toList = some v → ∃ entries, v = .table entries

/-- What a table has become once the values of a layer are in place of those of its settings. -/
structure Overrides (layer t u : Table) : Prop where
  fields : ∀ l ∈ leaves, fieldsAt .converting u l.part l.place l.name.toList =
    (Table.get? layer l.path).or (fieldsAt .converting t l.part l.place l.name.toList)
  readable {part : String} (before : Readable .converting t part) : Readable .converting u part
  opens {part : String} (before : Open t part) : Open u part
  frameworks : Table.get? u "frameworks".toList = Table.get? t "frameworks".toList

theorem Overrides.refl (t : Table) : Overrides [] t t where
  fields _ _ := rfl
  readable before := before
  opens before := before
  frameworks := rfl

theorem get?_append (t u : Table) (key : Text) :
    Table.get? (t ++ u) key = (Table.get? t key).or (Table.get? u key) := by
  induction t with
  | nil => rfl
  | cons e t ih =>
      rw [List.cons_append, get?_cons, get?_cons, ih]
      split <;> rfl

/-- Of two layers the later one goes first. -/
theorem Overrides.trans {layer layer' t u w : Table} (first : Overrides layer t u)
    (second : Overrides layer' u w) : Overrides (layer' ++ layer) t w where
  fields l member := by
    rw [second.fields l member, first.fields l member, get?_append, Option.or_assoc]
  readable before := second.readable (first.readable before)
  opens before := second.opens (first.opens before)
  frameworks := second.frameworks.trans first.frameworks

theorem get?_entriesOf (t : Table) (part : String) (ready : Open t part) (i : Nat) (key : Text) :
    Table.get? (entriesOf ((Table.get? t part.toList).getD (.table []))) key =
      fieldsAt .converting t part i key := by
  unfold fieldsAt
  cases found : Table.get? t part.toList with
  | none => rfl
  | some v =>
      obtain ⟨entries, rfl⟩ := ready v found
      rfl

/-- A single setting is put into its section; a section that is no table is made one. -/
theorem setAt_path {l : Leaf} (member : l ∈ leaves) {v : Value}
    (other : ∀ entries, v ≠ .table entries) (t : Table) : setAt (pathOf l.path) v t =
      put l.part.toList (.table (put l.name.toList v
        (entriesOf ((Table.get? t l.part.toList).getD (.table []))))) t := by
  rw [pathOf_path l member, setAt, setAt, merge_of_not_table other]
  exact fun empty => by cases empty

theorem fieldsAt_setAt {l : Leaf} (member : l ∈ leaves) {v : Value}
    (other : ∀ entries, v ≠ .table entries) (t : Table) :
    fieldsAt .converting (setAt (pathOf l.path) v t) l.part l.place l.name.toList = some v := by
  rw [setAt_path member other, fieldsAt, get?_put, if_pos rfl]
  change Table.get? (put l.name.toList v _) l.name.toList = _
  rw [get?_put, if_pos rfl]

/-- A table has under a key what has been put there or what it had. -/
theorem of_get?_put {key other : Text} {v w : Value} {t : Table}
    (found : Table.get? (put key v t) other = some w) : w = v ∨ Table.get? t other = some w := by
  rw [get?_put] at found
  split at found
  · exact .inl (Option.some.inj found).symm
  · exact .inr found

/-- Of all settings only the one whose value is put in place has another value. -/
theorem fieldsAt_put {l l' : Leaf} (member : l ∈ leaves) (member' : l' ∈ leaves) (v : Value)
    {t : Table} (ready : Open t l.part) :
    fieldsAt .converting (put l.part.toList (.table (put l.name.toList v
        (entriesOf ((Table.get? t l.part.toList).getD (.table []))))) t) l'.part l'.place
        l'.name.toList =
      if l.path = l'.path then some v
      else fieldsAt .converting t l'.part l'.place l'.name.toList := by
  have one := path_inj member member'
  have below := get?_entriesOf t l.part ready l'.place l'.name.toList
  unfold fieldsAt at below ⊢
  rw [get?_put]
  by_cases same : l.part.toList = l'.part.toList
  · rw [if_pos same, ← same]
    change Table.get? (put l.name.toList v _) l'.name.toList = _
    rw [get?_put]
    by_cases here : l.name.toList = l'.name.toList
    · rw [if_pos here, if_pos (one.2 ⟨same, here⟩)]
    · rw [if_neg here, if_neg fun both => here (one.1 both).2]
      exact below
  · rw [if_neg same, if_neg fun both => same (one.1 both).1]

/-- A single setting that is set leaves all others as they are if its section can take it. -/
theorem overrides_setAt {l : Leaf} (member : l ∈ leaves) {v : Value}
    (other : ∀ entries, v ≠ .table entries) {t : Table} (ready : Open t l.part) :
    Overrides [(l.path, v)] t (setAt (pathOf l.path) v t) := by
  have apart : ∀ l ∈ leaves, l.part.toList ≠ "frameworks".toList := by decide
  rw [setAt_path member other t]
  refine ⟨fun l' member' => ?_, fun before w found => ?_, fun before w found => ?_, ?_⟩
  · rw [fieldsAt_put member member' v ready, get?_cons]
    split <;> rfl
  · rcases of_get?_put found with rfl | found
    · exact ⟨_, rfl⟩
    · exact before w found
  · rcases of_get?_put found with rfl | found
    · exact ⟨_, rfl⟩
    · exact before w found
  · rw [get?_put, if_neg (apart l member)]

/-- A layer of single settings puts its values, of those of one name the last, in place of what was
there, as long as the sections it reaches into can take them. -/
theorem overrides_overlay {layer : Table} (single : ∀ e ∈ layer, ∃ l ∈ leaves, e.1 = l.path)
    (other : ∀ e ∈ layer, ∀ entries, e.2 ≠ .table entries) {t : Table}
    (ready : ∀ l ∈ leaves, l.path ∈ layer.map Prod.fst → Open t l.part) :
    Overrides layer.reverse t (overlay layer t) := by
  induction layer generalizing t with
  | nil => exact .refl t
  | cons e layer ih =>
      obtain ⟨name, v⟩ := e
      obtain ⟨⟨l, member, rfl⟩, singles⟩ := List.forall_mem_cons.1 single
      obtain ⟨now, others⟩ := List.forall_mem_cons.1 other
      have first := overrides_setAt member now (ready l member List.mem_cons_self)
      have rest := ih singles others fun l member inside =>
        first.opens (ready l member (List.mem_cons_of_mem _ inside))
      rw [List.reverse_cons]
      exact first.trans rest

def valueOf? (environment : List (Text × Text)) (name : Text) : Option Text :=
  (environment.find? fun v => v.1 == name).map Prod.snd

/-- An environment whose variables have names of their own, and in which those that look like
variables of settings are variables of single settings. -/
structure Orderly (environment : List (Text × Text)) : Prop where
  distinct : (environment.map Prod.fst).Nodup
  known : ∀ v ∈ environment, (Text.stripStart variableBeginning (Text.lower v.1)).isSome →
    ∃ l ∈ leaves, v.1 = l.variable

theorem valueOf?_cons (v : Text × Text) (environment : List (Text × Text)) (name : Text) :
    valueOf? (v :: environment) name = if v.1 = name then some v.2 else valueOf? environment name := by
  unfold valueOf?
  rw [List.find?_cons]
  by_cases same : v.1 = name
  · simp only [same, beq_self_eq_true, if_true, Option.map_some]
  · simp only [beq_false_of_ne same, if_neg same]

theorem environmentLayer_cons (v : Text × Text) (environment : List (Text × Text)) :
    environmentLayer (v :: environment) =
      (((Text.stripStart variableBeginning (Text.lower v.1)).map dotted).map fun name =>
        (name, variableValue name v.2)).toList ++ environmentLayer environment := by
  obtain ⟨name, t⟩ := v
  unfold environmentLayer
  rw [List.filterMap_cons]
  dsimp only
  cases Text.stripStart variableBeginning (Text.lower name) <;> rfl

theorem Orderly.tail {v : Text × Text} {environment : List (Text × Text)}
    (orderly : Orderly (v :: environment)) : Orderly environment where
  distinct := (List.nodup_cons.1 orderly.distinct).2
  known w member := orderly.known w (List.mem_cons_of_mem _ member)

/-- A variable adds to the layer the setting that it is the variable of, or nothing. -/
theorem Orderly.cases {v : Text × Text} {environment : List (Text × Text)}
    (orderly : Orderly (v :: environment)) :
    (∃ l ∈ leaves, v.1 = l.variable ∧ environmentLayer (v :: environment) =
      (l.path, variableValue l.path v.2) :: environmentLayer environment) ∨
    ((∀ l ∈ leaves, v.1 ≠ l.variable) ∧
      environmentLayer (v :: environment) = environmentLayer environment) := by
  rw [environmentLayer_cons]
  cases stripped : Text.stripStart variableBeginning (Text.lower v.1) with
  | none =>
      refine .inr ⟨fun l member same => ?_, rfl⟩
      have path := path_of_variable l member
      rw [← same, stripped] at path
      cases path
  | some rest =>
      obtain ⟨l, member, same⟩ := orderly.known v List.mem_cons_self (by rw [stripped]; rfl)
      have path := path_of_variable l member
      rw [← same, stripped] at path
      refine .inl ⟨l, member, same, ?_⟩
      rw [path]
      rfl

section
variable {environment : List (Text × Text)}

theorem valueOf?_eq_none {name : Text} (absent : name ∉ environment.map Prod.fst) :
    valueOf? environment name = none := by
  induction environment with
  | nil => rfl
  | cons v environment ih =>
      rw [List.map_cons, List.mem_cons, not_or] at absent
      rw [valueOf?_cons, if_neg (Ne.symm absent.1), ih absent.2]

theorem get?_environmentLayer (orderly : Orderly environment) {l : Leaf} (member : l ∈ leaves) :
    Table.get? (environmentLayer environment).reverse l.path =
      (valueOf? environment l.variable).map (variableValue l.path) := by
  induction environment with
  | nil => rfl
  | cons v environment ih =>
      have absent := (List.nodup_cons.1 orderly.distinct).1
      rw [valueOf?_cons]
      obtain ⟨l', member', same, layer⟩ | ⟨unlike, layer⟩ := orderly.cases
      · rw [layer, List.reverse_cons, get?_append, ih orderly.tail, get?_cons]
        by_cases here : l'.path = l.path
        · have named : v.1 = l.variable := same.trans ((variable_inj member' member).2 here)
          rw [named] at absent
          rw [if_pos named, if_pos here, here, valueOf?_eq_none absent]
          rfl
        · have named : v.1 ≠ l.variable := fun named =>
            here ((variable_inj member' member).1 (same.symm.trans named))
          rw [if_neg named, if_neg here]
          exact Option.or_none
      · rw [layer, if_neg (unlike l member), ih orderly.tail]

theorem mem_environmentLayer (orderly : Orderly environment) {e : Text × Value}
    (inside : e ∈ environmentLayer environment) :
    ∃ l ∈ leaves, e.1 = l.path ∧ (valueOf? environment l.variable).isSome := by
  induction environment with
  | nil => cases inside
  | cons v environment ih =>
      obtain ⟨l, member, same, layer⟩ | ⟨unlike, layer⟩ := orderly.cases
      · rw [layer] at inside
        rcases List.mem_cons.1 inside with rfl | inside
        · exact ⟨l, member, rfl, by rw [valueOf?_cons, if_pos same]; rfl⟩
        · obtain ⟨l, member, path, found⟩ := ih orderly.tail inside
          refine ⟨l, member, path, ?_⟩
          rw [valueOf?_cons]
          split
          · rfl
          · exact found
      · rw [layer] at inside
        obtain ⟨l, member, path, found⟩ := ih orderly.tail inside
        refine ⟨l, member, path, ?_⟩
        rw [valueOf?_cons, if_neg (unlike l member)]
        exact found

end

/-- The registry that the package manager is configured to use, without slashes at its end. -/
def registryUrl? (environment : List (Text × Text)) : Option Text :=
  (valueOf? environment "NPM_CONFIG_REGISTRY".toList).map (Text.trimEndOf (· == '/'))

/-- The single setting that this registry is. -/
def registryLeaf : Leaf :=
  ⟨"fetch", 0, "registry_url", .text, fun s => .text s.fetch.registryUrl⟩

theorem registryLeaf_mem : registryLeaf ∈ leaves := .tail _ (.head _)

theorem registryLayer_eq (environment : List (Text × Text)) : registryLayer environment =
    ((registryUrl? environment).map fun url => (registryLeaf.path, .string url)).toList := by
  unfold registryLayer registryUrl? valueOf?
  cases environment.find? fun v => v.1 == "NPM_CONFIG_REGISTRY".toList <;> rfl

theorem get?_registryLayer (environment : List (Text × Text)) (name : Text) :
    Table.get? (registryLayer environment).reverse name =
      if registryLeaf.path = name then (registryUrl? environment).map .string else none := by
  rw [registryLayer_eq]
  cases registryUrl? environment with
  | none =>
      split <;> rfl
  | some url => exact get?_cons (registryLeaf.path, .string url) [] name

/-- Whether a text reads neither as a truth value nor as a number. -/
def IsWordy (t : Text) : Prop :=
  Text.lower t ≠ "true".toList ∧ Text.lower t ≠ "false".toList ∧
    Number.integer? 64 t = none ∧ Number.Binary64.read? t = none

instance (t : Text) : Decidable (IsWordy t) := inferInstanceAs (Decidable (_ ∧ _ ∧ _ ∧ _))

theorem mem_of_mem_splitSign {c : Char} {t : Text} (member : c ∈ (Number.splitSign t).2) : c ∈ t := by
  unfold Number.splitSign at member
  split at member
  · exact List.mem_cons_of_mem _ member
  · exact List.mem_cons_of_mem _ member
  · exact member

theorem mem_splitSign {c : Char} {t : Text} (member : c ∈ t) (minus : c ≠ '-') (plus : c ≠ '+') :
    c ∈ (Number.splitSign t).2 := by
  unfold Number.splitSign
  split
  · exact (List.mem_cons.1 member).resolve_left minus
  · exact (List.mem_cons.1 member).resolve_left plus
  · exact member

theorem mem_splitOnce {p : Char → Bool} {c : Char} {t before after : Text}
    (split : Text.splitOnce p t = some (before, after)) (member : c ∈ t) (other : p c = false) :
    c ∈ before ∨ c ∈ after := by
  obtain ⟨d, rfl, separates, -⟩ := Text.splitOnce_eq_some split
  rcases List.mem_append.1 member with member | member
  · exact .inl member
  · rcases List.mem_cons.1 member with rfl | member
    · rw [separates] at other
      cases other
    · exact .inr member

theorem all_isAsciiDigit_of_comma {t : Text} (comma : ',' ∈ t) : t.all Text.isAsciiDigit = false :=
  List.all_eq_false.2 ⟨',', comma, by decide⟩

theorem integer?_of_comma {t : Text} (comma : ',' ∈ t) (bits : Nat) : Number.integer? bits t = none := by
  have other := all_isAsciiDigit_of_comma (mem_splitSign comma (by decide) (by decide))
  simp only [Number.integer?, other, Bool.not_false, Bool.or_true, if_true]

theorem exponent?_of_comma {t : Text} (comma : ',' ∈ t) : Number.Binary64.exponent? t = none := by
  have other := all_isAsciiDigit_of_comma (mem_splitSign comma (by decide) (by decide))
  simp only [Number.Binary64.exponent?, other, Bool.not_false, Bool.or_true, if_true]

/-- A comma in a mantissa is among its digits, before or after the point. -/
theorem all_digits_of_comma {t : Text} (comma : ',' ∈ t) :
    let (whole, fraction) := (Text.splitOnce (· == '.') t).getD (t, [])
    (whole ++ fraction).all Text.isAsciiDigit = false := by
  cases parts : Text.splitOnce (· == '.') t with
  | none => exact all_isAsciiDigit_of_comma (List.mem_append_left _ comma)
  | some pieces =>
      obtain ⟨whole, fraction⟩ := pieces
      exact all_isAsciiDigit_of_comma (List.mem_append.2 (mem_splitOnce parts comma (by decide)))

theorem unsigned?_of_comma {t : Text} (comma : ',' ∈ t) (negative : Bool) :
    Number.Binary64.unsigned? negative t = none := by
  unfold Number.Binary64.unsigned?
  cases parts : Text.splitOnce (fun c => c == 'e' || c == 'E') t with
  | none =>
      have other := all_digits_of_comma comma
      dsimp only at other
      simp only [Option.getD_none, other, Bool.not_false, Bool.or_true, if_true]
  | some pieces =>
      obtain ⟨mantissa, exponent⟩ := pieces
      rcases mem_splitOnce parts comma (by decide) with inside | inside
      · have other := all_digits_of_comma inside
        dsimp only at other
        simp only [Option.getD_some, other, Bool.not_false, Bool.or_true, if_true]
      · simp only [Option.getD_some, exponent?_of_comma inside, Option.map_none, ite_self]

theorem read?_of_comma {t : Text} (comma : ',' ∈ t) : Number.Binary64.read? t = none := by
  have inside := mem_splitSign comma (by decide) (by decide)
  have word {w : Text} (absent : ',' ∉ w) : Text.asciiLower (Number.splitSign t).2 ≠ w := by
    rintro rfl
    exact absent (List.mem_map.2 ⟨',', inside, by decide⟩)
  unfold Number.Binary64.read?
  simp only [beq_false_of_ne (word (by decide : ',' ∉ "inf".toList)),
    beq_false_of_ne (word (by decide : ',' ∉ "infinity".toList)),
    beq_false_of_ne (word (by decide : ',' ∉ "nan".toList)), Bool.or_self, Bool.false_eq_true,
    if_false, unsigned?_of_comma inside]

/-- A text with a comma is neither a truth value nor a number. -/
theorem IsWordy.of_comma {t : Text} (comma : ',' ∈ t) : IsWordy t :=
  have ne {word : Text} (absent : ',' ∉ word) : Text.lower t ≠ word :=
    Text.lower_ne (by decide) comma absent
  ⟨ne (by decide), ne (by decide), integer?_of_comma comma 64, read?_of_comma comma⟩

/-- What reads as an integer has a digit. -/
theorem exists_digit {bits : Nat} {t : Text} {n : Int} (found : Number.integer? bits t = some n) :
    ∃ c ∈ t, Text.isAsciiDigit c = true := by
  unfold Number.integer? at found
  dsimp only at found
  split at found
  · cases found
  · next digits =>
      rw [Bool.not_eq_true, Bool.or_eq_false_iff, Bool.not_eq_false'] at digits
      obtain ⟨some, all⟩ := digits
      cases ds : (Number.splitSign t).2 with
      | nil =>
          rw [ds] at some
          cases some
      | cons c rest =>
          have member : c ∈ (Number.splitSign t).2 := ds ▸ List.mem_cons_self
          exact ⟨c, mem_of_mem_splitSign member, List.all_eq_true.1 all c member⟩

theorem variableValue_of_integer? {name t : Text} {n : Int}
    (found : Number.integer? 64 t = some n) : variableValue name t = .integer n := by
  obtain ⟨c, member, digit⟩ := exists_digit found
  have ne (word : Text) (letters : ∀ d ∈ word, Text.isAsciiDigit d = false) :
      Text.lower t ≠ word := by
    refine Text.lower_ne (Text.isCaseless_of_isAsciiDigit digit) member fun inside => ?_
    rw [letters c inside] at digit
    cases digit
  unfold variableValue
  simp only [beq_false_of_ne (ne "true".toList (by decide)),
    beq_false_of_ne (ne "false".toList (by decide)), found, Bool.false_eq_true, if_false]

theorem variableValue_of_isWordy {name t : Text} (wordy : IsWordy t) : variableValue name t =
    if name = "search.default_frameworks".toList then
      .array ((Text.splitOn (· == ',') t).map .string)
    else .string t := by
  obtain ⟨yes, no, integer, float⟩ := wordy
  unfold variableValue
  simp only [beq_false_of_ne yes, beq_false_of_ne no, integer, float, Bool.false_eq_true, if_false,
    beq_iff_eq]

theorem variableValue_ne_table (name t : Text) (entries : Table) :
    variableValue name t ≠ .table entries := by
  unfold variableValue
  dsimp only
  repeat' split
  all_goals exact nofun

end ApiReference.Settings
