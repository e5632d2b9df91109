import ApiReference.Failure
import ApiReference.Package.Example

/-!
# Sources

Where versions, declaration files and examples come from. Every question may be answered, be
answered with nothing, or fail, and the answer may depend on all questions before it, which is what
the state is for.
-/

namespace ApiReference
open ApiReference.Package (CodeExample)

/-- A declaration file of a package. -/
structure TypeFile where
  content : Text
  /-- The version of the package. -/
  version : Text
  /-- The place of the file in the package. -/
  path : Text
  /-- Where the file was had from. -/
  source : Text
  deriving DecidableEq, Repr

/-- The sources that a service asks. -/
structure Sources (σ : Type) where
  /-- The published version of a package for a request. -/
  version : (package : Text) → (request : Option Text) → σ → Except Failure (Option Text) × σ
  /-- The main declaration file of a package. -/
  types : (package version : Text) → σ → Except Failure (Option TypeFile) × σ
  /-- Another declaration file of a package. -/
  file : (package version path : Text) → σ → Except Failure (Option TypeFile) × σ
  /-- The paths of other files that may hold a concept. -/
  barrelPaths : (package concept : Text) → List Text
  examples : (framework concept : Text) → σ → Except Failure (List CodeExample) × σ

/-- A question to a source. -/
inductive Call where
  | version (package : Text) (request : Option Text)
  | types (package version : Text)
  | file (package version path : Text)
  | examples (framework concept : Text)
  deriving DecidableEq, Repr

/-- A question to a source with its answer. -/
inductive Exchange where
  | version (package : Text) (request : Option Text) (answer : Except Failure (Option Text))
  | types (package version : Text) (answer : Except Failure (Option TypeFile))
  | file (package version path : Text) (answer : Except Failure (Option TypeFile))
  | examples (framework concept : Text) (answer : Except Failure (List CodeExample))

def Exchange.call : Exchange → Call
  | .version package request _ => .version package request
  | .types package at_ _ => .types package at_
  | .file package at_ path _ => .file package at_ path
  | .examples framework concept _ => .examples framework concept

/-- A state of the sources with all that was asked and answered so far, in order. -/
structure Recorded (σ : Type) where
  state : σ
  exchanges : List Exchange

def Recorded.calls {σ : Type} (r : Recorded σ) : List Call := r.exchanges.map Exchange.call

/-- Asks and records the question with its answer. -/
def Recorded.ask {σ α : Type} (exchange : α → Exchange) (question : σ → α × σ) (r : Recorded σ) :
    α × Recorded σ :=
  let (a, state) := question r.state
  (a, ⟨state, r.exchanges ++ [exchange a]⟩)

/-- The sources with a record of all questions and answers. -/
def Sources.recorded {σ : Type} (s : Sources σ) : Sources (Recorded σ) where
  version package request := Recorded.ask (.version package request) (s.version package request)
  types package version := Recorded.ask (.types package version) (s.types package version)
  file package version path :=
    Recorded.ask (.file package version path) (s.file package version path)
  barrelPaths := s.barrelPaths
  examples framework concept :=
    Recorded.ask (.examples framework concept) (s.examples framework concept)

end ApiReference
