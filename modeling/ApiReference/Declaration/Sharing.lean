import ApiReference.Declaration.Reader

/-!
# A reader that several callers share

A call looks up a reading and, where there is none, reads the text and keeps what it has read. A
step of a call is taken at once, but between two steps of a call other calls may take theirs, in any
order. Readings are kept in places, and it depends on the places whether two texts get into each
other's way.
-/

namespace ApiReference.Declaration

/-- What a caller wants of a text. -/
inductive Aim where
  | parse
  | extract (concept : Text)
  | search (query : Text) (limit : Nat)
  deriving DecidableEq

inductive ReaderCall where
  | read (content fileName : Text) (aim : Aim)
  | clear
  deriving DecidableEq

inductive Answer where
  | file (file : File)
  | signature (api : Option ApiSignature)
  | hits (hits : List Hit)
  | cleared
  deriving DecidableEq

def Aim.answer (aim : Aim) (file : File) : Answer :=
  match aim with
  | parse => .file file
  | extract concept => .signature (Declaration.extract file concept)
  | search query limit => .hits (Declaration.search file.definitions query limit)

namespace ReaderCall

/-- What comes of a call where nothing is kept. -/
def plain : ReaderCall → Answer
  | read content fileName aim => aim.answer (ReadingKey.ofText content fileName).file
  | clear => .cleared

def key? : ReaderCall → Option ReadingKey
  | read content fileName _ => some (ReadingKey.ofText content fileName)
  | clear => none

end ReaderCall

/-- How far a call is. -/
inductive Progress where
  /-- It has not begun. -/
  | waiting
  /-- It has found nothing and has made a reading, which is not kept yet. -/
  | made (reading : Reading)
  /-- It has come back, with a reading if it was to read. -/
  | returned (reading : Option Reading)

namespace Progress

/-- What has come of a call, if it is back. -/
def answer? (call : ReaderCall) : Progress → Option Answer
  | waiting | made _ => none
  | returned reading =>
    match call with
    | .read _ _ aim => reading.map fun r => aim.answer r.file
    | .clear => some .cleared

end Progress

variable {κ δ : Type} [DecidableEq κ]

/-- The place of a reading where texts are told apart by a digest. -/
def ReadingKey.place (digest : Text → δ) (key : ReadingKey) : Syntax.Dialect × δ :=
  (key.dialect, digest key.content)

/-- One step of a call; a call that is back does nothing more. -/
def Shelf.step (keyOf : ReadingKey → κ) (shelf : Shelf κ) :
    ReaderCall → Progress → Progress × Shelf κ
  | _, .returned reading => (.returned reading, shelf)
  | .clear, _ => (.returned none, shelf.clear)
  | .read content fileName _, .waiting =>
    let key := ReadingKey.ofText content fileName
    match shelf.cache.get? (keyOf key) with
    | some reading => (.returned (some reading), shelf)
    | none =>
      let (reading, shelf) := shelf.make key
      (.made reading, shelf)
  | .read content fileName _, .made reading =>
    (.returned (some reading), shelf.keep (keyOf (ReadingKey.ofText content fileName)) reading)

/-- A call from its beginning to its end, with no other call in between. -/
def Shelf.serve (keyOf : ReadingKey → κ) (shelf : Shelf κ) (call : ReaderCall) :
    Progress × Shelf κ :=
  let (progress, shelf) := shelf.step keyOf call .waiting
  shelf.step keyOf call progress

/-- A shelf and how far the calls are that use it; any number of them may be under way. -/
structure Traffic (κ : Type) where
  shelf : Shelf κ
  progress : Nat → Progress

namespace Traffic

def start (capacity : Nat) : Traffic κ := ⟨.empty capacity, fun _ => .waiting⟩

def advance (keyOf : ReadingKey → κ) (calls : Nat → ReaderCall) (traffic : Traffic κ) (i : Nat) :
    Traffic κ :=
  let (progress, shelf) := traffic.shelf.step keyOf (calls i) (traffic.progress i)
  ⟨shelf, fun j => if j = i then progress else traffic.progress j⟩

/-- Calls that take their steps in the order of a schedule. -/
def run (keyOf : ReadingKey → κ) (calls : Nat → ReaderCall) (capacity : Nat)
    (schedule : List Nat) : Traffic κ :=
  schedule.foldl (advance keyOf calls) (start capacity)

/-- The schedule by which each of the first calls is back before the next one begins. -/
def inTurn : Nat → List Nat
  | 0 => []
  | n + 1 => inTurn n ++ [n, n]

end Traffic

/-- A call that no other one interrupts finds and leaves what a reading does. -/
theorem Shelf.serve_read (keyOf : ReadingKey → κ) (shelf : Shelf κ) (content fileName : Text)
    (aim : Aim) : shelf.serve keyOf (.read content fileName aim) =
      (.returned (some (shelf.read keyOf (ReadingKey.ofText content fileName)).1),
        (shelf.read keyOf (ReadingKey.ofText content fileName)).2) := by
  cases found : shelf.cache.get? (keyOf (ReadingKey.ofText content fileName)) with
  | some reading => simp only [serve, step, read, found]
  | none => simp only [serve, step, read, found]

end ApiReference.Declaration
