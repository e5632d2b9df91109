import ApiReference.Declaration.Cache
import ApiReference.Declaration.Collect
import ApiReference.Declaration.Search
import ApiReference.Declaration.Signature

/-!
# Reading with a cache

A reader keeps the files it has read last. Reading a text again gives the very reading kept, which
its serial number shows.
-/

namespace ApiReference.Declaration

structure ReadingKey where
  dialect : Syntax.Dialect
  content : Text
  deriving DecidableEq

/-- The key of a text in a file of some name. -/
def ReadingKey.ofText (content fileName : Text) : ReadingKey :=
  ⟨Syntax.Dialect.ofFileName fileName, content⟩

def ReadingKey.file (key : ReadingKey) : File := File.ofSource key.dialect key.content

/-- A file that has been read, and the how-manieth reading it was. -/
structure Reading where
  serial : Nat
  file : File

/-- The readings kept under keys, and the number of readings done. -/
structure Shelf (κ : Type) where
  cache : Cache κ Reading
  done : Nat

namespace Shelf
variable {κ : Type} [DecidableEq κ]

def empty (capacity : Nat) : Shelf κ := ⟨Cache.empty capacity, 0⟩

def make (shelf : Shelf κ) (key : ReadingKey) : Reading × Shelf κ :=
  (⟨shelf.done, key.file⟩, { shelf with done := shelf.done + 1 })

def keep (shelf : Shelf κ) (place : κ) (reading : Reading) : Shelf κ :=
  { shelf with cache := shelf.cache.insert place reading }

def clear (shelf : Shelf κ) : Shelf κ := { shelf with cache := shelf.cache.clear }

/-- The reading kept where a key has its place, or else a new one, which is kept from then on. -/
def read (keyOf : ReadingKey → κ) (shelf : Shelf κ) (key : ReadingKey) : Reading × Shelf κ :=
  match shelf.cache.get? (keyOf key) with
  | some reading => (reading, shelf)
  | none =>
    let (reading, shelf) := shelf.make key
    (reading, shelf.keep (keyOf key) reading)

end Shelf

/-- Every reading kept is of the file that its key stands for. -/
def Faithful (c : Cache ReadingKey Reading) : Prop := ∀ e ∈ c.values, e.2.file = e.1.file

theorem Faithful.empty (capacity : Nat) : Faithful (Cache.empty capacity) :=
  fun _ h => nomatch h

theorem Faithful.get? {c : Cache ReadingKey Reading} (h : Faithful c) {key : ReadingKey}
    {reading : Reading} (found : c.get? key = some reading) : reading.file = key.file :=
  h _ (Cache.mem_of_get? found)

theorem Faithful.insert {c : Cache ReadingKey Reading} (h : Faithful c) {key : ReadingKey}
    {reading : Reading} (same : reading.file = key.file) : Faithful (c.insert key reading) := by
  intro e member
  rcases Cache.mem_insert member with old | rfl
  · exact h e old
  · exact same

theorem Faithful.clear (c : Cache ReadingKey Reading) : Faithful c.clear := fun _ h => nomatch h

theorem Faithful.read {shelf : Shelf ReadingKey} (h : Faithful shelf.cache) (key : ReadingKey) :
    Faithful (shelf.read id key).2.cache := by
  unfold Shelf.read
  split
  · exact h
  · exact h.insert rfl

/-- A shelf on which every text has a place of its own. -/
structure Reader extends Shelf ReadingKey where
  faithful : Faithful cache

namespace Reader

def empty (capacity : Nat) : Reader := ⟨Shelf.empty capacity, .empty capacity⟩

/-- The number of readings kept unless configured otherwise. -/
def defaultCapacity : Nat := 50

/-- The number of hits of a search unless asked otherwise. -/
def defaultLimit : Nat := 20

/-- The reading of a text, kept or new. -/
def read (r : Reader) (content fileName : Text) : Reading × Reader :=
  let key := ReadingKey.ofText content fileName
  let found := r.toShelf.read id key
  (found.1, ⟨found.2, r.faithful.read key⟩)

def extract (r : Reader) (content concept fileName : Text) : Option ApiSignature × Reader :=
  let (reading, r) := r.read content fileName
  (Declaration.extract reading.file concept, r)

def search (r : Reader) (content query fileName : Text) (limit : Nat) : List Hit × Reader :=
  let (reading, r) := r.read content fileName
  (Declaration.search reading.file.definitions query limit, r)

def clear (r : Reader) : Reader := ⟨r.toShelf.clear, .clear r.cache⟩

/-- What is read does not depend on what is kept. -/
theorem read_file (r : Reader) (content fileName : Text) :
    (r.read content fileName).1.file = (ReadingKey.ofText content fileName).file := by
  unfold read Shelf.read
  cases found : r.cache.get? (ReadingKey.ofText content fileName) with
  | some reading => simpa only [id_eq, found] using r.faithful.get? found
  | none => simp only [id_eq, found, Shelf.make]

theorem extract_fst (r : Reader) (content concept fileName : Text) :
    (r.extract content concept fileName).1 =
      Declaration.extract (ReadingKey.ofText content fileName).file concept :=
  congrArg (fun file => Declaration.extract file concept) (r.read_file content fileName)

theorem search_fst (r : Reader) (content query fileName : Text) (limit : Nat) :
    (r.search content query fileName limit).1 =
      Declaration.search (ReadingKey.ofText content fileName).file.definitions query limit :=
  congrArg (fun file : File => Declaration.search file.definitions query limit)
    (r.read_file content fileName)

end Reader
end ApiReference.Declaration
