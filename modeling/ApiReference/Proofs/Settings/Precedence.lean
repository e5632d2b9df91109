import ApiReference.Proofs.Settings.Environment
import ApiReference.Proofs.Settings.Files
import ApiReference.Proofs.Settings.RoundTrip

/-!
# Which source a setting comes from

A single setting is what the environment gives it, else what the file has, else its default. What is
loaded keeps all rules. Main statement: `load_settles`.
-/

namespace ApiReference.Settings
open ApiReference.Toml (Value Table Throughout)

/-- The table that a file holds; without a file it is empty. -/
def documentOf? : Option Text → Option Table
  | none => some []
  | some t => Toml.read? t

/-- A document of documented keys, with no date in place of a section. -/
structure Regular (document : Table) : Prop where
  documented : Documented (.table document)
  undated : ∀ part ∈ partNames, ∀ d, Table.get? document part.toList ≠ some (.datetime d)

/-- What the value of its variable means for a single setting. -/
def Leaf.read? (l : Leaf) (t : Text) : Option Datum :=
  l.kind.read? .converting (variableValue l.path t)

/-- The registry of the package manager, for the single setting that it is. -/
def Leaf.registryUrl? (environment : List (Text × Text)) (l : Leaf) : Option Text :=
  if registryLeaf.path = l.path then Settings.registryUrl? environment else none

/-- What a single setting is: the registry of the package manager, else what its variable means,
else what it is in other settings. -/
def Leaf.chosen? (environment : List (Text × Text)) (s : Settings) (l : Leaf) : Option Datum :=
  match l.registryUrl? environment, valueOf? environment l.variable with
  | some url, _ => some (.text url)
  | none, some t => l.read? t
  | none, none => some (l.get s)

/-- Whether the sections that the environment reaches into are tables in a document, or are not
there. -/
def Reaches (environment : List (Text × Text)) (document : Table) : Prop :=
  ∀ l ∈ leaves, (l.registryUrl? environment).isSome ∨ (valueOf? environment l.variable).isSome →
    Open document l.part

def settled (document : Table) (environment : List (Text × Text)) : Table :=
  overlay (registryLayer environment)
    (overlay (environmentLayer environment) (overlay (fileLayer document) defaults))

section
variable {file : Option Text} {environment : List (Text × Text)} {document : Table} {s : Settings}

theorem load_eq (found : documentOf? file = some document) : load file environment =
    match ofTable? .converting (settled document environment) with
    | some s => s.validated
    | none => .error .wrongKind := by
  cases file with
  | none =>
      cases found
      rfl
  | some t =>
      simp only [load, show Toml.read? t = some document from found]
      rfl

theorem load_unreadable (unread : documentOf? file = none) :
    load file environment = .error .unreadableFile := by
  cases file with
  | none => cases unread
  | some t =>
      simp only [load, show Toml.read? t = none from unread]
      rfl

theorem validated_eq_ok {s' : Settings} :
    s.validated = .ok s' ↔ s = s' ∧ s'.problem? = none := by
  unfold validated
  split
  · next problem =>
      refine ⟨nofun, ?_⟩
      rintro ⟨rfl, fine⟩
      rw [problem] at fine
      cases fine
  · next fine =>
      constructor
      · rintro ⟨⟩
        exact ⟨rfl, fine⟩
      · rintro ⟨rfl, -⟩
        rfl

theorem load_eq_ok (accepted : load file environment = .ok s) :
    ∃ document, documentOf? file = some document ∧
      ofTable? .converting (settled document environment) = some s ∧ s.problem? = none := by
  cases found : documentOf? file with
  | none =>
      rw [load_unreadable found] at accepted
      cases accepted
  | some document =>
      rw [load_eq found] at accepted
      split at accepted
      · next made =>
          obtain ⟨rfl, fine⟩ := validated_eq_ok.1 accepted
          exact ⟨document, rfl, made, fine⟩
      · cases accepted

theorem distinct_documentOf? (found : documentOf? file = some document) :
    Throughout List.Nodup (.table document) := by
  cases file with
  | none =>
      cases found
      exact .table List.nodup_nil nofun
  | some t => exact Toml.distinct_read? found

theorem ofTable?_laid (regular : Regular document) (found : documentOf? file = some document)
    (made : ofTable? .strict document = some s) :
    ofTable? .converting (overlay (fileLayer document) defaults) = some s :=
  ofTable?_overlay_fileLayer regular.documented (distinct_documentOf? found) regular.undated made

/-- Whether no variable of an environment is a source of settings. -/
def Silent (environment : List (Text × Text)) : Prop :=
  ∀ v ∈ environment, Text.stripStart variableBeginning (Text.lower v.1) = none ∧
    v.1 ≠ "NPM_CONFIG_REGISTRY".toList

theorem settled_silent (silent : Silent environment) :
    settled document environment = overlay (fileLayer document) defaults := by
  have noVariable : environmentLayer environment = [] := by
    refine List.filterMap_eq_nil_iff.2 fun v member => ?_
    dsimp only
    rw [(silent v member).1]
    rfl
  have noRegistry : registryUrl? environment = none := by
    refine Option.map_eq_none_iff.2 (valueOf?_eq_none fun inside => ?_)
    obtain ⟨v, member, same⟩ := List.mem_map.1 inside
    exact (silent v member).2 same
  rw [settled, registryLayer_eq, noVariable, noRegistry, Option.map_none, Option.toList_none,
    overlay_nil, overlay_nil]

/-- The value that the environment gives a single setting. -/
def Leaf.given? (environment : List (Text × Text)) (l : Leaf) : Option Value :=
  ((l.registryUrl? environment).map .string).or
    ((valueOf? environment l.variable).map (variableValue l.path))

theorem isSome_given?_iff {l : Leaf} : (l.given? environment).isSome ↔
    (l.registryUrl? environment).isSome ∨ (valueOf? environment l.variable).isSome := by
  rw [Leaf.given?, Option.isSome_or, Option.isSome_map, Option.isSome_map, Bool.or_eq_true]

theorem chosen?_eq {l : Leaf} (member : l ∈ leaves) (s : Settings) : l.chosen? environment s =
    match l.given? environment with
    | some v => l.kind.read? .converting v
    | none => some (l.get s) := by
  have text : ∀ l ∈ leaves, registryLeaf.path = l.path → l.kind = .text := by decide
  unfold Leaf.chosen? Leaf.given?
  cases registry : l.registryUrl? environment with
  | some url =>
      rw [Leaf.registryUrl?] at registry
      split at registry
      · next same =>
          rw [text l member same]
          rfl
      · cases registry
  | none => cases valueOf? environment l.variable <;> rfl

theorem get?_given (orderly : Orderly environment) {l : Leaf} (member : l ∈ leaves) :
    Table.get? ((registryLayer environment).reverse ++ (environmentLayer environment).reverse)
      l.path = l.given? environment := by
  rw [get?_append, get?_registryLayer, get?_environmentLayer orderly member, Leaf.given?,
    Leaf.registryUrl?]
  split <;> rfl

/-- A section that is a table in the document, or is not there, is a table over the defaults. -/
theorem open_laid (regular : Regular document) (found : documentOf? file = some document)
    {part : String} (named : part ∈ partNames) (ready : Open document part) :
    Open (overlay (fileLayer document) defaults) part := by
  obtain ⟨base, there⟩ := exists_defaults_part named
  have plain := plain_of_documented regular.documented (distinct_documentOf? found)
  cases plain with
  | table keys each =>
      have laid := get?_fileLayer_defaults regular.documented keys part.toList
      intro v
      rw [laid, there]
      cases here : Table.get? document part.toList with
      | none =>
          rintro ⟨⟩
          exact ⟨base, rfl⟩
      | some w =>
          obtain ⟨entries, rfl⟩ := ready w here
          rintro ⟨⟩
          exact exists_mergeEntries_table base _

theorem isSome_given? (orderly : Orderly environment) {l : Leaf} (member : l ∈ leaves)
    (inside : l.path ∈ (environmentLayer environment).map Prod.fst) :
    (l.given? environment).isSome := by
  obtain ⟨e, inside, path⟩ := List.mem_map.1 inside
  obtain ⟨l', member', path', set⟩ := mem_environmentLayer orderly inside
  rw [(variable_inj member' member).2 (path'.symm.trans path)] at set
  exact isSome_given?_iff.2 (.inr set)

theorem overrides_settled (regular : Regular document) (found : documentOf? file = some document)
    (orderly : Orderly environment) (reaches : Reaches environment document) :
    Overrides ((registryLayer environment).reverse ++ (environmentLayer environment).reverse)
      (overlay (fileLayer document) defaults) (settled document environment) := by
  have ready {l : Leaf} (member : l ∈ leaves) (given : (l.given? environment).isSome) :
      Open (overlay (fileLayer document) defaults) l.part :=
    open_laid regular found (part_mem l member) (reaches l member (isSome_given?_iff.1 given))
  have below : Overrides (environmentLayer environment).reverse
      (overlay (fileLayer document) defaults)
      (overlay (environmentLayer environment) (overlay (fileLayer document) defaults)) := by
    refine overrides_overlay (fun e inside => ?_) (fun e inside => ?_) fun l member inside =>
      ready member (isSome_given? orderly member inside)
    · obtain ⟨l, member, path, -⟩ := mem_environmentLayer orderly inside
      exact ⟨l, member, path⟩
    · obtain ⟨v, -, made⟩ := List.mem_filterMap.1 inside
      obtain ⟨name, -, rfl⟩ := Option.map_eq_some_iff.1 made
      exact variableValue_ne_table _ _
  refine below.trans ?_
  rw [settled, registryLayer_eq]
  cases registry : registryUrl? environment with
  | none =>
      rw [Option.map_none, Option.toList_none, overlay_nil]
      exact .refl _
  | some url =>
      have given : (registryLeaf.given? environment).isSome := by
        rw [Leaf.given?, Leaf.registryUrl?, if_pos rfl, registry]
        rfl
      exact overrides_setAt registryLeaf_mem (v := .string url) nofun
        (below.opens (ready registryLeaf_mem given))

/-- There are settings with what is chosen for each single setting. -/
theorem exists_chosen (valid : ∀ l ∈ leaves, (l.chosen? environment s).isSome) :
    ∃ s' : Settings, s'.frameworks = s.frameworks ∧
      ∀ l ∈ leaves, l.chosen? environment s = some (l.get s') := by
  have chosen : ∀ l ∈ leaves, ∃ d, l.chosen? environment s = some d ∧ d.kind = l.kind := by
    intro l member
    obtain ⟨d, found⟩ := Option.isSome_iff_exists.1 (valid l member)
    refine ⟨d, found, ?_⟩
    rw [chosen?_eq member] at found
    split at found
    · exact kind_read? found
    · cases found
      exact kind_get s l member
  let value (l : Leaf) : Datum := (l.chosen? environment s).getD (l.get s)
  have found {l : Leaf} {d : Datum} (here : l.chosen? environment s = some d) : value l = d := by
    simp only [value, here, Option.getD_some]
  have kinds : ∀ l ∈ leaves, (value l).kind = l.kind := by
    intro l member
    obtain ⟨d, here, kind⟩ := chosen l member
    rw [found here, kind]
  obtain ⟨s', same, get⟩ := exists_settings value kinds s.frameworks
  refine ⟨s', same, fun l member => ?_⟩
  obtain ⟨d, here, -⟩ := chosen l member
  rw [get l member, found here, here]

/-- What all sources stand for together. -/
theorem ofTable?_settled (regular : Regular document) (found : documentOf? file = some document)
    (made : ofTable? .strict document = some s) (orderly : Orderly environment)
    (reaches : Reaches environment document) {s' : Settings}
    (same : s'.frameworks = s.frameworks)
    (chosen : ∀ l ∈ leaves, l.chosen? environment s = some (l.get s')) :
    ofTable? .converting (settled document environment) = some s' := by
  have overrides := overrides_settled regular found orderly reaches
  obtain ⟨readable, stands, frameworks⟩ := ofTable?_eq_some_iff.1 (ofTable?_laid regular found made)
  refine ofTable?_eq_some_iff.2 ⟨fun part named => overrides.readable (readable part named),
    fun l member => ?_, ?_⟩
  · have now := chosen l member
    have before := stands l member
    unfold Leaf.Stands field at before ⊢
    rw [overrides.fields l member, get?_given orderly member]
    rw [chosen?_eq member] at now
    cases given : l.given? environment with
    | some v =>
        rw [given] at now
        exact now
    | none =>
        rw [given] at now
        rw [← now]
        exact before
  · rw [same, ← frameworks]
    unfold frameworksAt? field
    dsimp only
    rw [overrides.frameworks]

/-- The registry of the package manager is the registry, whatever other sources say. -/
theorem registryUrl_eq {url : Text} (registry : registryUrl? environment = some url)
    (made : ofTable? .converting (settled document environment) = some s) :
    s.fetch.registryUrl = url := by
  rw [settled, registryLayer_eq, registry] at made
  obtain ⟨-, stands, -⟩ := ofTable?_eq_some_iff.1 made
  have there := stands registryLeaf registryLeaf_mem
  have set := fieldsAt_setAt registryLeaf_mem (v := .string url) nofun
    (overlay (environmentLayer environment) (overlay (fileLayer document) defaults))
  unfold Leaf.Stands field at there
  change (match fieldsAt .converting (setAt (pathOf registryLeaf.path) (.string url) _)
    registryLeaf.part registryLeaf.place registryLeaf.name.toList with
    | some v => _
    | none => _) = _ at there
  rw [set] at there
  cases there
  rfl

theorem path_of_texts : ∀ l ∈ leaves,
    l.kind = .texts ↔ l.path = "search.default_frameworks".toList := by
  decide

theorem read?_integer {l : Leaf} (number : l.kind = .number) {t : Text} {n : Nat}
    (found : Number.integer? 64 t = some (n : Int)) : l.read? t = some (.number n) := by
  have whole : Convention.converting.number? (.integer n) = some n := by
    change (if (n : Int) < 0 then none else some (n : Int).toNat) = some n
    rw [if_neg (Int.not_lt.2 (Int.natCast_nonneg n)), Int.toNat_natCast]
  rw [Leaf.read?, variableValue_of_integer? found, number, Kind.read?, whole]
  rfl

theorem read?_texts {l : Leaf} (member : l ∈ leaves) (texts : l.kind = .texts) {t : Text}
    (wordy : IsWordy t) : l.read? t = some (.texts (Text.splitOn (· == ',') t)) := by
  have items (ts : List Text) : (ts.map Value.string).mapM Convention.converting.text? = some ts :=
    mapM_map_eq_some (fun t => show Convention.converting.text? (.string t) = some t from rfl) ts
  rw [Leaf.read?, variableValue_of_isWordy wordy, if_pos ((path_of_texts l member).1 texts), texts]
  exact congrArg (Option.map Datum.texts) (items _)

theorem read?_text {l : Leaf} (member : l ∈ leaves) (text : l.kind = .text) {t : Text}
    (wordy : IsWordy t) : l.read? t = some (.text t) := by
  have other : l.path ≠ "search.default_frameworks".toList := by
    rw [Ne, ← path_of_texts l member, text]
    exact nofun
  rw [Leaf.read?, variableValue_of_isWordy wordy, if_neg other, text]
  rfl

/-- A regular document alone stands for the same settings whichever way it is read. Over it, each
single setting that has a variable is what the variable means and all others are as they were; a
registry of the package manager goes before everything else, and whatever is loaded keeps all
rules. -/
theorem load_settles (file : Option Text) (environment : List (Text × Text)) :
    (∀ text document s, file = some text → Toml.read? text = some document → Regular document →
      Silent environment → ofText text = .ok s → load file environment = .ok s) ∧
    (∀ document s, documentOf? file = some document → Regular document →
      ofTable? .strict document = some s → Orderly environment → Reaches environment document →
      (∀ l ∈ leaves, (l.chosen? environment s).isSome) →
      ∃ s' : Settings, s'.frameworks = s.frameworks ∧
        (∀ l ∈ leaves, l.chosen? environment s = some (l.get s')) ∧
        load file environment = s'.validated) ∧
    (∀ l ∈ leaves, ∀ t,
      (∀ n : Nat, l.kind = .number → Number.integer? 64 t = some (n : Int) →
        l.read? t = some (.number n)) ∧
      (l.kind = .texts → ',' ∈ t ∨ IsWordy t →
        l.read? t = some (.texts (Text.splitOn (· == ',') t))) ∧
      (l.kind = .text → IsWordy t → l.read? t = some (.text t))) ∧
    (∀ url s, registryUrl? environment = some url → load file environment = .ok s →
      s.fetch.registryUrl = url) ∧
    ∀ s, load file environment = .ok s → s.problem? = none := by
  refine ⟨?alone, ?laid, ?meaning, ?registry, ?rules⟩
  case alone =>
    rintro text document s rfl read regular silent accepted
    have found : documentOf? (some text) = some document := read
    obtain ⟨made, fine⟩ := ofText_eq_ok.1 accepted
    rw [read, Option.bind_some] at made
    rw [load_eq found, settled_silent silent, ofTable?_laid regular found made]
    exact validated_eq_ok.2 ⟨rfl, fine⟩
  case laid =>
    intro document s found regular made orderly reaches valid
    obtain ⟨s', same, chosen⟩ := exists_chosen valid
    refine ⟨s', same, chosen, ?_⟩
    rw [load_eq found, ofTable?_settled regular found made orderly reaches same chosen]
  case meaning =>
    intro l member t
    exact ⟨fun _ number => read?_integer number, fun texts wordy => read?_texts member texts
      (wordy.elim .of_comma id), fun text => read?_text member text⟩
  case registry =>
    intro url s registry accepted
    obtain ⟨document, -, made, -⟩ := load_eq_ok accepted
    exact registryUrl_eq registry made
  case rules =>
    intro s accepted
    obtain ⟨document, -, -, fine⟩ := load_eq_ok accepted
    exact fine

theorem documented_texts (ts : List Text) : Documented (texts ts) :=
  .array (List.forall_mem_map.2 fun t _ => .string t)

theorem documented_row (f : Framework) : Documented (.table (row f)) := by
  refine .table ?_ ?_
  · simp only [row, pair, List.map_cons, List.map_nil]
    decide
  · simp only [row, pair, List.forall_mem_cons]
    exact ⟨.string _, documented_texts _, documented_texts _, documented_texts _,
      List.forall_mem_nil _⟩

theorem documented_sections (s : Settings) : ∀ t ∈ s.sections, Documented (.table t.2) := by
  have keys : ∀ t ∈ s.sections, ∀ key ∈ t.2.map Prod.fst, key ∈ documentedKeys := by
    simp only [sections, parserSection, fetchSection, contextSection, searchSection, pair,
      List.forall_mem_cons, List.map_cons, List.map_nil]
    decide
  have values : ∀ t ∈ s.sections, ∀ e ∈ t.2, Documented e.2 := by
    simp only [sections, parserSection, fetchSection, contextSection, searchSection, pair,
      List.forall_mem_cons]
    exact ⟨⟨.integer _, List.forall_mem_nil _⟩,
      ⟨.string _, .string _, .integer _, .integer _, .string _, List.forall_mem_nil _⟩,
      ⟨.integer _, .integer _, .integer _, .integer _, List.forall_mem_nil _⟩,
      ⟨documented_texts _, .integer _, List.forall_mem_nil _⟩, List.forall_mem_nil _⟩
  exact fun t member => .table (keys t member) (values t member)

theorem documented_tables (s : Settings) : ∀ e ∈ s.tables, e.1 ∈ documentedKeys ∧ Documented e.2 := by
  have names : ∀ t ∈ s.sections, t.1 ∈ documentedKeys := by
    simp only [sections, List.forall_mem_cons]
    decide
  exact List.forall_mem_map.2 fun t member => ⟨names t member, documented_sections s t member⟩

theorem get?_tables (s : Settings) (rest : Table) : ∀ part ∈ partNames,
    ∃ entries, Table.get? (s.tables ++ rest) part.toList = some (.table entries) := by
  simp only [partNames, List.forall_mem_cons, tables_eq, List.cons_append, get?_pair,
    get?_pair_of_ne, ne_eq, String.reduceEq, not_false_eq_true]
  exact ⟨⟨_, rfl⟩, ⟨_, rfl⟩, ⟨_, rfl⟩, ⟨_, rfl⟩,
    List.forall_mem_nil _⟩

/-- The tables of settings among other documented values are a regular document. -/
theorem regular_of_tables
    (keys : ∀ e ∈ document, e.1 ∈ documentedKeys ∧ Documented e.2)
    (tables : ∀ part ∈ partNames,
      ∃ entries, Table.get? document part.toList = some (.table entries)) :
    Regular document ∧ ∀ part ∈ partNames, Open document part := by
  have opens : ∀ part ∈ partNames, Open document part := by
    intro part named v found
    obtain ⟨entries, there⟩ := tables part named
    rw [there] at found
    exact ⟨entries, (Option.some.inj found).symm⟩
  refine ⟨⟨.table (List.forall_mem_map.2 fun e member => (keys e member).1) fun e member =>
    (keys e member).2, ?_⟩, opens⟩
  intro part named d found
  obtain ⟨_, same⟩ := opens part named _ found
  cases same

/-- Printed settings are a regular document all of whose sections are tables. -/
theorem exists_document (h : s.Printable) : ∃ document,
    Toml.read? (Toml.write s.parts) = some document ∧ ofTable? .strict document = some s ∧
      Regular document ∧ ∀ part ∈ partNames, Open document part := by
  have rows (fs : List Framework) : Documented (.array (fs.map fun f => .table (row f))) :=
    .array (List.forall_mem_map.2 fun f _ => documented_row f)
  have named : "frameworks".toList ∈ documentedKeys := by decide
  have apart : ∀ part ∈ partNames, "frameworks" ≠ part := by decide
  refine ⟨s.outline.table, read?_write_parts Toml.faithful h, ofTable?_outline s, ?_⟩
  obtain ⟨-, table⟩ | table := cases_table_outline s
  · rw [table]
    refine regular_of_tables ?_ ?_
    · exact List.forall_mem_cons.2 ⟨⟨named, rows []⟩, documented_tables s⟩
    · intro part member
      rw [get?_pair_of_ne (apart part member), ← List.append_nil s.tables]
      exact get?_tables s [] part member
  · rw [table]
    refine regular_of_tables ?_ (get?_tables s _)
    refine List.forall_mem_append.2 ⟨documented_tables s, ?_⟩
    exact List.forall_mem_singleton.2 ⟨named, rows s.frameworks⟩

end

def stored : Settings :=
  { fetch := { timeoutSeconds := 9, userAgent := "file".toList }
    frameworks := [⟨"lit".toList, ["lit".toList], [], []⟩] }

/-- Two variables, the registry of the package manager and something else. -/
def surroundings : List (Text × Text) :=
  [("AUGMENTS__FETCH__TIMEOUT_SECS".toList, "5".toList), ("HOME".toList, "/root".toList),
   ("AUGMENTS__SEARCH__DEFAULT_FRAMEWORKS".toList, "react,vue".toList),
   ("NPM_CONFIG_REGISTRY".toList, "http://r.test//".toList)]

/-- The settings of the file with what the surroundings say. -/
def mixed : Settings :=
  { stored with
    fetch := { stored.fetch with registryUrl := "http://r.test".toList, timeoutSeconds := 5 }
    search := { stored.search with defaultFrameworks := ["react".toList, "vue".toList] } }

theorem orderly_surroundings : Orderly surroundings where
  distinct := by decide
  known := by
    have known : ∀ v ∈ surroundings,
        (Text.stripStart variableBeginning (Text.lower v.1)).isSome →
          v.1 ∈ leaves.map Leaf.variable := by
      decide +kernel
    intro v member begins
    obtain ⟨l, leaf, same⟩ := List.mem_map.1 (known v member begins)
    exact ⟨l, leaf, same.symm⟩

theorem load_settles_stored :
    load (some (Toml.write stored.parts)) [] = .ok stored ∧
    load (some (Toml.write stored.parts)) surroundings = .ok mixed ∧
    (∀ l ∈ leaves, (l.kind = .number → l.read? "5".toList = some (.number 5)) ∧
      (l.kind = .texts → l.read? "a,b".toList = some (.texts ["a".toList, "b".toList])) ∧
      (l.kind = .text → l.read? "a".toList = some (.text "a".toList))) ∧
    mixed.fetch.registryUrl = "http://r.test".toList ∧ mixed.problem? = none := by
  have printable : stored.Printable := by
    unfold Printable Toml.Fits
    decide
  have fine : stored.problem? = none ∧ mixed.problem? = none := by decide
  have chosen : ∀ l ∈ leaves, l.chosen? surroundings stored = some (l.get mixed) := by
    decide +kernel
  obtain ⟨document, read, made, regular, opens⟩ := exists_document printable
  have alone : load (some (Toml.write stored.parts)) [] = .ok stored :=
    (load_settles _ []).1 _ document stored rfl read regular (List.forall_mem_nil _)
      (ofText_eq_ok.2 ⟨by rw [read, Option.bind_some, made], fine.1⟩)
  rw [← documentOf?] at read
  obtain ⟨s', same, chosen', loaded⟩ := (load_settles _ surroundings).2.1 document stored read
    regular made orderly_surroundings (fun l member _ => opens l.part (part_mem l member))
    fun l member => by rw [chosen l member]; rfl
  have result : s' = mixed := by
    refine ext_leaves same fun l member => ?_
    have one := chosen' l member
    rw [chosen l member] at one
    exact (Option.some.inj one).symm
  have together : load (some (Toml.write stored.parts)) surroundings = .ok mixed := by
    rw [loaded, result]
    exact validated_eq_ok.2 ⟨rfl, fine.2⟩
  refine ⟨alone, together, fun l member => ?_, ?_, ?_⟩
  · obtain ⟨meaning, -⟩ := (load_settles none []).2.2
    exact ⟨fun number => (meaning l member _).1 5 number (by decide),
      fun texts => (meaning l member _).2.1 texts (.inl (by decide)),
      fun text => (meaning l member _).2.2 text (by decide)⟩
  · exact (load_settles _ surroundings).2.2.2.1 _ mixed (by decide) together
  · exact (load_settles _ surroundings).2.2.2.2 mixed together

/-- A date in place of a section is an empty section in a document and an error in a file; a
variable takes the place of a section that is a list; and a number that has no room among signed
integers is the nearest floating-point number. -/
theorem sources_disagree :
    (ofText "parser = 1979-05-27".toList = .ok {} ∧
      load (some "parser = 1979-05-27".toList) [] = .error .wrongKind) ∧
    (load (some "fetch = [\"http://r.test\"]".toList) [] =
        .ok { fetch := { registryUrl := "http://r.test".toList } } ∧
      load (some "fetch = [\"http://r.test\"]".toList)
          [("AUGMENTS__FETCH__TIMEOUT_SECS".toList, "5".toList)] =
        .ok { fetch := { timeoutSeconds := 5 } }) ∧
    load none [("AUGMENTS__PARSER__CACHE_CAPACITY".toList, "9223372036854775809".toList)] =
      .ok { parser := { cacheCapacity := 9223372036854775808 } } := by
  decide +kernel

end ApiReference.Settings
