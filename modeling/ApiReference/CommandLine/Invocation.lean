import ApiReference.CommandLine.Arguments
import ApiReference.Service.Request

/-!
# Invocations

What the program can be told to do: to serve tools, to answer one request, or to show its settings.
-/

namespace ApiReference.CommandLine

inductive Command where
  | serve
  | config
  /-- Answers a question about one API, as a page or as JSON. -/
  | context (request : ContextRequest) (json : Bool)
  /-- Answers a search. -/
  | search (request : SearchRequest) (json : Bool)
  deriving DecidableEq, Repr

structure Invocation where
  command : Option Command
  verbose : Bool
  /-- The file that holds the settings. -/
  configFile : Option Text
  deriving DecidableEq, Repr

/-- An option without a letter. -/
def long (name : String) (effect : Effect) : Switch := ⟨name.toList, none, effect⟩

/-- Options that may stand before and after the name of a command. -/
def sharedOptions : List Switch :=
  [⟨"config".toList, some 'c', .path⟩, ⟨"verbose".toList, some 'v', .switch⟩,
   ⟨"help".toList, some 'h', .help⟩]

/-- What comes before the name of a command. -/
def mainGrammar : Grammar where
  options := sharedOptions ++ [⟨"version".toList, some 'V', .version⟩]
  commands := ["serve", "context", "search", "config", "help"].map String.toList

/-- What comes after the name of a command. -/
def commandGrammar (name : Text) : Grammar :=
  match String.ofList name with
  | "context" =>
    { options := sharedOptions ++
        [long "framework" .text, long "version" .text, long "no-examples" .switch,
         long "max-examples" .number, long "json" .switch]
      value := some "query".toList }
  | "search" =>
    { options := sharedOptions ++
        [long "framework" .item, long "limit" .number, long "json" .switch]
      value := some "query".toList }
  | _ => { options := sharedOptions }

def Progress.number? (p : Progress) (name : String) : Option Nat :=
  (p.get? name.toList).bind (Number.natural? 64)

/-- The command of a name, with what was read after it. -/
def commandOf (name : Text) (p : Progress) : Command :=
  let query := (p.get? "query".toList).getD []
  let json := p.has "json".toList
  match String.ofList name with
  | "context" =>
    .context
      { query := query
        framework := p.get? "framework".toList
        version := p.get? "version".toList
        includeExamples := if p.has "no-examples".toList then some false else none
        maxExamples := p.number? "max-examples" } json
  | "search" =>
    let frameworks := p.getAll "framework".toList
    .search
      { query := query
        frameworks := if frameworks.isEmpty then none else some frameworks
        limit := p.number? "limit" } json
  | "serve" => .serve
  | _ => .config

/-- Asking for help on a command, which has no commands of its own. -/
def helpOn : List Text → Refusal
  | [] => .displayHelp
  | [name] => if mainGrammar.commands.contains name then .displayHelp else .invalidSubcommand
  | _ => .invalidSubcommand

/-- The run that arguments ask for. What is given after the name of the command goes before what is
given in front of it. -/
def Invocation.ofArguments (arguments : List Text) : Except Refusal Invocation := do
  let (p, command) ← readArguments mainGrammar {} arguments
  match command with
  | none =>
    let p ← finish mainGrammar p
    return ⟨none, p.has "verbose".toList, p.get? "config".toList⟩
  | some (name, rest) =>
    if name == "help".toList then throw (helpOn rest)
    let grammar := commandGrammar name
    let (inner, _) ← readArguments grammar {} rest
    let inner ← finish grammar inner
    let p ← finish mainGrammar p
    return {
      command := some (commandOf name inner)
      verbose := p.has "verbose".toList || inner.has "verbose".toList
      configFile := inner.get? "config".toList <|> p.get? "config".toList }

end ApiReference.CommandLine
