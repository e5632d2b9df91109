import ApiReference.CommandLine.Invocation
import ApiReference.Json.Printer
import ApiReference.Rendering.Search
import ApiReference.Service.Context
import ApiReference.Service.Document
import ApiReference.Service.Search
import ApiReference.Settings.Document
import ApiReference.Web.Sources

/-!
# Running the program

A run ends with an exit code and the text it has printed. Serving tools is not a run of this kind:
it goes on for as long as there are messages.
-/

namespace ApiReference.CommandLine
open ApiReference.Rendering (Limits contextText searchText)

structure Outcome where
  exitCode : Nat
  output : Text
  deriving DecidableEq, Repr

/-- The end of a run that could not do its work. -/
def Outcome.failed : Outcome := ⟨1, []⟩

/-- The end of a run that prints a text and ends the line. -/
def Outcome.printed (t : Text) : Outcome := ⟨0, t ++ ['\n']⟩

variable {σ : Type}

/-- A service whose sources are on the web, with its first session. -/
def webService (server : Web.Server σ) (settings : Settings) (state : σ) :
    Except Web.Problem (Service (Web.Connection σ) × Session (Web.Connection σ)) := do
  let connection ← Web.connect settings.fetch state
  return (⟨settings, Web.sources server settings⟩, Session.start settings connection)

def jsonText (v : Json.Value) : Text := v.indented 0

def runCommand (server : Web.Server σ) (settings : Settings) (state : σ) :
    Option Command → Outcome × σ
  | none =>
    (.printed
      "Run 'augments serve' to start the MCP server, or --help for more options".toList, state)
  | some .serve => (⟨0, []⟩, state)
  | some .config =>
    match settings.toText with
    | .ok t => (⟨0, t⟩, state)
    | .error _ => (.failed, state)
  | some (.context request json) =>
    match webService server settings state with
    | .error _ => (.failed, state)
    | .ok (service, session) =>
      let (response, session) := service.context request session
      let page := contextText (.ofSettings settings.context) response
      (.printed (if json then jsonText response.toJson else page), session.outside.server)
  | some (.search request json) =>
    match webService server settings state with
    | .error _ => (.failed, state)
    | .ok (service, session) =>
      let (response, session) := service.search request session
      let page := searchText (.ofSettings settings.context) response
      (.printed (if json then jsonText response.toJson else page), session.outside.server)

end ApiReference.CommandLine
