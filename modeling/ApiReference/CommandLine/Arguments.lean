import ApiReference.Number.Literal

/-!
# Reading arguments

Arguments are options, flags and values in order. A value of an option may be attached to it or
follow it; after two hyphens alone everything is a value. What was given for an option is looked at
only once the next option is met or the arguments end, so the first of several mistakes need not be
the one that is reported.
-/

namespace ApiReference.CommandLine

/-- What is wrong with arguments, or that only help or the version was asked for. -/
inductive Refusal where
  | unknownArgument
  | missingRequiredArgument
  | invalidValue
  | valueValidation
  | argumentConflict
  | tooManyValues
  | invalidSubcommand
  | displayHelp
  | displayVersion
  deriving DecidableEq, Repr

/-- The exit code of a program with such arguments. -/
def Refusal.exitCode : Refusal → Nat
  | displayHelp | displayVersion => 0
  | _ => 2

inductive Effect where
  /-- Sets a text, once. -/
  | text
  /-- Sets a path, once; it is not empty. -/
  | path
  /-- Sets a number, once. -/
  | number
  /-- Adds a text to a list. -/
  | item
  /-- Switches something on, once. -/
  | switch
  | help
  | version
  deriving DecidableEq, Repr

def Effect.takesValue : Effect → Bool
  | text | path | number | item => true
  | switch | help | version => false

/-- An option with its long and perhaps a short name. -/
structure Switch where
  name : Text
  letter : Option Char := none
  effect : Effect
  deriving DecidableEq, Repr

/-- What a command understands. -/
structure Grammar where
  options : List Switch
  /-- The name of the one value without an option, if there is one; it is required. -/
  value : Option Text := none
  /-- The names of commands that may follow. -/
  commands : List Text := []
  deriving DecidableEq, Repr

/-- What has been read: settled values by name, and an option whose value is still to be checked. -/
structure Progress where
  settled : List (Text × Text) := []
  pending : Option (Switch × Option Text) := none
  /-- Whether all further arguments are values. -/
  onlyValues : Bool := false
  deriving DecidableEq, Repr

namespace Progress

def has (p : Progress) (name : Text) : Bool := p.settled.any fun e => e.1 == name

def get? (p : Progress) (name : Text) : Option Text :=
  (p.settled.find? fun e => e.1 == name).map Prod.snd

/-- All values of a name in order. -/
def getAll (p : Progress) (name : Text) : List Text :=
  (p.settled.filter fun e => e.1 == name).map Prod.snd

/-- Adds the value of an option, if it may have it. -/
def settle (p : Progress) (s : Switch) (v : Text) : Except Refusal Progress :=
  if s.effect != .item && p.has s.name then .error .argumentConflict
  else if s.effect == .path && v.isEmpty then .error .invalidValue
  else if s.effect == .number && (Number.natural? 64 v).isNone then .error .valueValidation
  else .ok { p with settled := p.settled ++ [(s.name, v)] }

/-- Looks at the value of the pending option, which must have one. -/
def resolve (p : Progress) : Except Refusal Progress :=
  match p.pending with
  | none => .ok p
  | some (_, none) => .error .invalidValue
  | some (s, some v) => { p with pending := none }.settle s v

/-- Whether the next argument is the value of the pending option. -/
def wantsValue (p : Progress) : Bool :=
  match p.pending with
  | some (_, none) => true
  | _ => false

/-- Begins an option whose value follows. -/
def await (p : Progress) (s : Switch) : Except Refusal Progress := do
  return { ← p.resolve with pending := some (s, none) }

/-- Takes an argument as the value of the pending option. -/
def supply (p : Progress) (v : Text) : Progress :=
  { p with pending := p.pending.map fun (s, _) => (s, some v) }

/-- Carries out an option that has no value. -/
def carryOut (p : Progress) (s : Switch) : Except Refusal Progress := do
  let p ← p.resolve
  match s.effect with
  | .help => throw .displayHelp
  | .version => throw .displayVersion
  | _ => p.settle s "true".toList

/-- Carries out an option with an attached value. -/
def attach (p : Progress) (s : Switch) (v : Text) : Except Refusal Progress := do
  (← p.resolve).settle s v

end Progress

/-- An option by its long name, with the value attached to it, if any. -/
def readLong (g : Grammar) (p : Progress) (name : Text) (attached : Option Text) :
    Except Refusal Progress :=
  match g.options.find? fun s => s.name == name with
  | none => .error .unknownArgument
  | some s =>
    match attached with
    | some v => if s.effect.takesValue then p.attach s v else .error .tooManyValues
    | none => if s.effect.takesValue then p.await s else p.carryOut s

/-- Options by their letters; what follows the letter of an option with a value is the value. -/
def readLetters (g : Grammar) (p : Progress) : Text → Except Refusal Progress
  | [] => .ok p
  | c :: rest =>
    match g.options.find? fun s => s.letter == some c with
    | none => .error .unknownArgument
    | some s =>
      if s.effect.takesValue then
        match rest with
        | [] => p.await s
        | '=' :: v => p.attach s v
        | v => p.attach s v
      else do readLetters g (← p.carryOut s) rest

def readValue (g : Grammar) (p : Progress) (v : Text) : Except Refusal Progress :=
  match g.value with
  | some name =>
    if p.has name || p.pending.any fun e => e.1.name == name then .error .unknownArgument
    else do return { ← p.resolve with pending := some (⟨name, none, .text⟩, some v) }
  | none =>
    if g.commands.isEmpty || (p.onlyValues && g.commands.contains v) then .error .unknownArgument
    else .error .invalidSubcommand

/-- One argument that does not name a command. -/
def readArgument (g : Grammar) (p : Progress) (argument : Text) : Except Refusal Progress :=
  if p.onlyValues then readValue g p argument
  else
    match argument with
    | ['-', '-'] => .ok { p with onlyValues := true }
    | '-' :: '-' :: long =>
      match Text.splitOnce (· == '=') long with
      | some (name, v) => readLong g p name (some v)
      | none => readLong g p long none
    | '-' :: c :: letters => readLetters g p (c :: letters)
    | _ => if p.wantsValue then .ok (p.supply argument) else readValue g p argument

/-- Reads arguments up to the name of a command, which is returned with the arguments after it. -/
def readArguments (g : Grammar) :
    Progress → List Text → Except Refusal (Progress × Option (Text × List Text))
  | p, [] => .ok (p, none)
  | p, argument :: arguments =>
    if !p.onlyValues && !p.wantsValue && g.commands.contains argument then
      .ok (p, some (argument, arguments))
    else do readArguments g (← readArgument g p argument) arguments

/-- The values once all arguments have been read. -/
def finish (g : Grammar) (p : Progress) : Except Refusal Progress := do
  let p ← p.resolve
  match g.value with
  | some name => if p.has name then return p else throw .missingRequiredArgument
  | none => return p

end ApiReference.CommandLine
