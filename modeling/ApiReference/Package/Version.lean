import ApiReference.Text.Lowercase
import ApiReference.Text.Pattern

/-!
# Versions of packages

How long what was fetched for a version stays fresh, and the order of published versions.
-/

namespace ApiReference.Package
open ApiReference.Text (Pattern isDecimal)

def hour : Nat := 3600

/-- Three numbers with dots between them, with or without a leading v. -/
def exactVersion : Pattern :=
  let number := Pattern.some (.one isDecimal)
  let dot := Pattern.one (· == '.')
  .all [.opt (.one (· == 'v')), number, dot, number, dot, number]

/-- The seconds for which an answer about a version stays fresh: early prereleases move fast, exact
versions hardly ever change. -/
def freshness (version : Text) : Nat :=
  let version := Text.lower (Text.trim version)
  let mentions := fun (word : String) => Text.occursIn word.toList version
  if mentions "dev" || mentions "alpha" then hour
  else if mentions "beta" || mentions "rc" then 6 * hour
  else if version == "latest".toList || version == "stable".toList ||
      exactVersion.accepts version then
    24 * hour
  else 3 * hour

end ApiReference.Package
