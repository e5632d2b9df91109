import ApiReference.Text.Basic

/-!
# Failures

What can go wrong outside the text at hand: a configuration that cannot be used, or a source of
declarations and examples that does not answer.
-/

namespace ApiReference

/-- A failure with its details. -/
inductive Failure where
  | configuration (details : Text)
  | fetch (details : Text)
  deriving DecidableEq, Repr

def Failure.message : Failure → Text
  | configuration details => "Configuration error: ".toList ++ details
  | fetch details => "Fetch error: ".toList ++ details

end ApiReference
