import ApiReference.Text.Basic

/-!
# Refusals

Why the server does not do what it is asked.
-/

namespace ApiReference.ToolServer

/-- A problem with a request or with the line to the client. -/
inductive Refusal where
  | invalidInput (details : Text)
  | transport (details : Text)
  deriving DecidableEq, Repr

namespace Refusal

def message : Refusal → Text
  | invalidInput details => "Invalid input: ".toList ++ details
  | transport details => "MCP transport error: ".toList ++ details

/-- The wording for the user of a tool, with a hint where one helps. -/
def toolMessage : Refusal → Text
  | invalidInput details =>
    "Invalid input: ".toList ++ details ++
      "\n\nHint: ask about one API at a time, e.g. \"react useEffect cleanup\".".toList
  | transport details => "Transport error: ".toList ++ details

end Refusal

/-- The most characters of a query. -/
def queryLimit : Nat := 1000

/-- What is wrong with a query: only that it may be too long. -/
def queryRefusal? (query : Text) : Option Refusal :=
  if queryLimit < query.length then
    some (.invalidInput
      ("query exceeds maximum length of ".toList ++ Text.ofNat queryLimit ++ " characters".toList))
  else none

end ApiReference.ToolServer
