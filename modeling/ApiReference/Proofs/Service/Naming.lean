import ApiReference.Proofs.Query.Evidence
import ApiReference.Service.Context
import ApiReference.Service.Search
import ApiReference.Service.World
import Mathlib.Data.List.Basic

/-!
# Names of frameworks

A framework may be named in a query, by the framework of a request, or in the list of a search. The
last two go by the key first. A query goes by packages first, and by keys with or without hyphens
after them. Main statement: `names_agree`.
-/

namespace ApiReference

/-- Whether a word is a listed package or a key, with or without its hyphens. -/
def Catalog.Names (catalog : Catalog) (word : Text) : Prop :=
  (catalog.ownerOf? word).isSome ∨ ∃ f ∈ catalog.entries, word = f.key ∨ word = f.compactKey

instance (catalog : Catalog) (word : Text) : Decidable (catalog.Names word) :=
  inferInstanceAs (Decidable (_ ∨ _))

/-- The first entry whose key is a word, with or without its hyphens. -/
def Catalog.keyed? (catalog : Catalog) (word : Text) : Option Framework :=
  catalog.entries.find? fun f => word == f.key || word == f.compactKey

section
variable {catalog : Catalog} {name : Text}

theorem Catalog.primaryPackage?_of_mem (keyed : catalog.Keyed) {f : Framework}
    (member : f ∈ catalog.entries) (named : Text.lower name = f.key) :
    catalog.primaryPackage? (Text.lower name) = some f.primaryPackage := by
  rw [primaryPackage?_lower, primaryPackage?, keyed.get?_of_mem member named, Option.map_some]

theorem Catalog.isSome_ownerOf? : (catalog.ownerOf? name).isSome ↔
    ∃ f ∈ catalog.entries, Text.lower name ∈ f.packages.map Text.lower := by
  simp only [ownerOf?, List.find?_isSome, List.any_eq_true, beq_iff_eq, List.mem_map]

theorem Catalog.Keyed.keyed?_of_split (keyed : catalog.Keyed) {before after : List Framework}
    {f : Framework} (split : catalog.entries = before ++ f :: after)
    (earliest : ∀ g ∈ before, g.compactKey ≠ f.key) : catalog.keyed? f.key = some f := by
  have earlier : ∀ g ∈ before, ¬ (f.key == g.key || f.key == g.compactKey) = true := by
    intro g within same
    rcases Bool.or_eq_true_iff.mp same with key | compact
    · exact keyed.key_ne split g within (beq_iff_eq.mp key).symm
    · exact earliest g within (beq_iff_eq.mp compact).symm
  rw [keyed?, split, List.find?_append, List.find?_eq_none.mpr earlier, Option.none_or,
    List.find?_cons_of_pos (by rw [beq_self_eq_true f.key, Bool.true_or])]

end

namespace Query
variable {catalog : Catalog} {query word : Text} {tokens : List Token}

/-- A step that looks at each token by itself stops at the one word that it knows. -/
theorem findSome?_indexed {α : Type} (find : Text → Option α) (mk : Nat → Text → α → Detection)
    {a : α} (present : ∃ t ∈ tokens, t.lower = word) (found : find word = some a)
    (alone : ∀ t ∈ tokens, t.lower ≠ word → find t.lower = none) :
    ∃ i, ((indexed tokens).findSome? fun (i, t) => (find t.lower).map (mk i t.lower)) =
      some (mk i word a) := by
  obtain ⟨t, member, rfl⟩ := present
  obtain ⟨i, within⟩ := exists_mem_indexed.mpr member
  cases result : (indexed tokens).findSome? fun (i, t) => (find t.lower).map (mk i t.lower) with
  | none =>
      have nothing := List.findSome?_eq_none_iff.mp result (i, t) within
      simp only [found] at nothing
      cases nothing
  | some detection =>
      obtain ⟨⟨j, u⟩, inside, made⟩ := List.exists_of_findSome?_eq_some result
      have known := exists_mem_indexed.mp ⟨j, inside⟩
      by_cases same : u.lower = t.lower
      · simp only [same, found, Option.map_some] at made
        exact ⟨j, made.symm⟩
      · simp only [alone u known same] at made
        cases made

theorem parse_package {d : Detection}
    (detected : detect catalog (Query.tokens query) (normalize (Query.tokens query)) = some d) :
    (parse catalog query).package = some d.target.package := by
  simp only [parse, Parsed.package, detected, Option.map_some]

section Alone
variable (present : ∃ t ∈ Query.tokens query, t.lower = word)
variable (alone : ∀ t ∈ Query.tokens query, t.lower ≠ word → ¬ catalog.Names t.lower)
include present alone

/-- A package named in a query stands for itself, whatever its framework is. -/
theorem parse_package_of_listed (listed : (catalog.ownerOf? word).isSome) :
    (parse catalog query).package = some word := by
  obtain ⟨f, owner⟩ := Option.isSome_iff_exists.mp listed
  have others : ∀ t ∈ Query.tokens query, t.lower ≠ word → catalog.ownerOf? t.lower = none := by
    intro t member other
    exact Option.not_isSome_iff_eq_none.mp fun owned => alone t member other (.inl owned)
  obtain ⟨i, found⟩ := findSome?_indexed catalog.ownerOf?
    (fun i lower f => ⟨⟨f.key, lower, .packageName⟩, [i]⟩) present owner others
  have package : detectPackage catalog (Query.tokens query) =
      some ⟨⟨f.key, word, .packageName⟩, [i]⟩ := found
  refine parse_package (d := ⟨⟨f.key, word, .packageName⟩, [i]⟩) ?_
  rw [detect, package]
  rfl

/-- A key named in a query that is no package stands for the first entry that has it. -/
theorem parse_package_of_keyed (unlisted : catalog.ownerOf? word = none) {f : Framework}
    (keyed : catalog.keyed? word = some f) :
    (parse catalog query).package = some f.primaryPackage := by
  have others : ∀ t ∈ Query.tokens query, t.lower ≠ word → catalog.keyed? t.lower = none := by
    intro t member other
    refine List.find?_eq_none.mpr fun g within same => alone t member other (.inr ⟨g, within, ?_⟩)
    simpa using same
  obtain ⟨i, found⟩ := findSome?_indexed catalog.keyed?
    (fun i _ f => Detection.ofFramework f .frameworkKey [i]) present keyed others
  have package : detectPackage catalog (Query.tokens query) = none := by
    refine List.findSome?_eq_none_iff.mpr ?_
    rintro ⟨i, t⟩ within
    have member := exists_mem_indexed.mp ⟨i, within⟩
    have unowned : catalog.ownerOf? t.lower = none := by
      by_cases same : t.lower = word
      · rw [same, unlisted]
      · exact Option.not_isSome_iff_eq_none.mp fun owned => alone t member same (.inl owned)
    simp only [unowned, Option.map_none]
  have key : detectKey catalog (Query.tokens query) =
      some (.ofFramework f .frameworkKey [i]) := found
  refine parse_package (d := .ofFramework f .frameworkKey [i]) ?_
  rw [detect, package, key]
  rfl

/-- A key that is no package, or only its own, stands for its entry unless an earlier key is the same
without hyphens. -/
theorem parse_package_of_key (keyed : catalog.Keyed) {before after : List Framework}
    {f : Framework} (split : catalog.entries = before ++ f :: after) (named : word = f.key)
    (own : ∀ g ∈ catalog.entries, f.key ∈ g.packages.map Text.lower → f.primaryPackage = f.key)
    (earliest : ∀ g ∈ before, g.compactKey ≠ f.key) :
    (parse catalog query).package = some f.primaryPackage := by
  subst named
  have member : f ∈ catalog.entries := by
    rw [split]
    exact List.mem_append_right before List.mem_cons_self
  -- A query asks for a package first, and then the key has to be the primary one.
  by_cases listed : (catalog.ownerOf? f.key).isSome
  · obtain ⟨g, within, lists⟩ := Catalog.isSome_ownerOf?.mp listed
    rw [keyed.lower f member] at lists
    rw [parse_package_of_listed present alone listed, own g within lists]
  · have unlisted := Option.not_isSome_iff_eq_none.mp listed
    exact parse_package_of_keyed present alone unlisted (keyed.keyed?_of_split split earliest)

end Alone

end Query

variable {σ : Type}

theorem Service.keyed_catalog (s : Service σ) : s.catalog.Keyed :=
  Catalog.keyed_extend s.settings.frameworks

/-- The framework of a request and the entry of a search are looked up alike. -/
theorem Subject.package_named (s : Service σ) (name : Text) :
    (Subject.named s.catalog name).package = s.packageToSearch name := by
  unfold Subject.named Service.packageToSearch
  simp only
  split
  · next package known => rw [known, Option.getD_some]
  · next unknown =>
      rw [unknown, Option.getD_none]
      split <;> rfl

namespace Service

/-- A name that a query has as a token, with no other token that names a framework, stands for a
package. In the framework of a request and in the list of a search it always stands for the same
one: for a key, in any letter case, the primary package as listed, and for a package as listed that
is no key, that package. In a query a package listed in lower case stands for itself, in any letter
case, and a key that is no other package for the primary package as listed, unless an earlier key is
the same without hyphens. -/
theorem names_agree (s : Service σ) (name query : Text)
    (token : Query.Token.ofText name ∈ Query.tokens query)
    (alone : ∀ t ∈ Query.tokens query, t.lower ≠ Text.lower name → ¬ s.catalog.Names t.lower) :
    (Subject.named s.catalog name).package = s.packageToSearch name ∧
    (∀ before f after, s.catalog.entries = before ++ f :: after → Text.lower name = f.key →
      s.packageToSearch name = f.primaryPackage ∧
      ((∀ g ∈ s.catalog.entries, f.key ∈ g.packages.map Text.lower → f.primaryPackage = f.key) →
        (∀ g ∈ before, g.compactKey ≠ f.key) →
        (s.parseQuery query).package = some f.primaryPackage)) ∧
    (∀ f ∈ s.catalog.entries, Text.lower name ∈ f.packages →
      (s.parseQuery query).package = some (Text.lower name)) ∧
    (∀ f ∈ s.catalog.entries, name ∈ f.packages →
      (∀ g ∈ s.catalog.entries, g.key ≠ Text.lower name) → s.packageToSearch name = name) := by
  have present : ∃ t ∈ Query.tokens query, t.lower = Text.lower name := ⟨_, token, rfl⟩
  refine ⟨Subject.package_named s name, ?_, ?_, ?_⟩
  · intro before f after split named
    have member : f ∈ s.catalog.entries := by
      rw [split]
      exact List.mem_append_right before List.mem_cons_self
    constructor
    · rw [packageToSearch, Catalog.primaryPackage?_of_mem s.keyed_catalog member named,
        Option.getD_some]
    · intro own earliest
      exact Query.parse_package_of_key present alone s.keyed_catalog split named own earliest
  · intro f member listed
    have known : Text.lower (Text.lower name) ∈ f.packages.map Text.lower :=
      List.mem_map_of_mem listed
    exact Query.parse_package_of_listed present alone
      (Catalog.isSome_ownerOf?.mpr ⟨f, member, known⟩)
  · intro f member listed unnamed
    rw [packageToSearch, Catalog.primaryPackage?_lower, Catalog.primaryPackage?,
      Catalog.get?_eq_none unnamed, Option.map_none, Option.getD_none]

end Service

/-! One framework is configured beside the built-in ones. -/

namespace Lit

def service : Service Unit :=
  ⟨{ frameworks := [Catalog.entry "Lit" ["lit", "lit-html"] [] []] }, ({} : World).sources⟩

def angular : Framework :=
  Catalog.entry "angular" ["@angular/core"] ["ng", "angular2"]
    ["ngoninit", "ngondestroy", "injectable", "computed", "signal"]

theorem names_agree_angular :
    (Subject.named service.catalog "Angular".toList).package = "@angular/core".toList ∧
    service.packageToSearch "Angular".toList = "@angular/core".toList ∧
    (service.parseQuery "signals of Angular".toList).package = some "@angular/core".toList := by
  obtain ⟨alike, key, -, -⟩ := service.names_agree "Angular".toList "signals of Angular".toList
    (by decide +kernel) (by decide +kernel)
  have split : service.catalog.entries = service.catalog.entries.take 4 ++
      angular :: service.catalog.entries.drop 5 := by
    have fifth : service.catalog.entries[4]? = some angular := by decide +kernel
    obtain ⟨within, same⟩ := List.getElem?_eq_some_iff.mp fifth
    rw [← same, ← List.drop_eq_getElem_cons within, List.take_append_drop]
  obtain ⟨searched, queried⟩ := key _ _ _ split (by decide +kernel)
  refine ⟨alike.trans searched, searched, queried ?_ (by decide +kernel)⟩
  intro g member lists
  revert g
  decide +kernel

/-- A package goes before a key in a query, but not elsewhere. -/
theorem prisma_disagrees :
    "prisma".toList ∈ service.catalog.keys ∧
    Query.Token.ofText "prisma".toList ∈ Query.tokens "prisma findMany".toList ∧
    (∀ t ∈ Query.tokens "prisma findMany".toList, t.lower ≠ Text.lower "prisma".toList →
      ¬ service.catalog.Names t.lower) ∧
    (Subject.named service.catalog "prisma".toList).package = "@prisma/client".toList ∧
    service.packageToSearch "prisma".toList = "@prisma/client".toList ∧
    (service.parseQuery "prisma findMany".toList).package = some "prisma".toList := by
  decide +kernel

end Lit
end ApiReference
