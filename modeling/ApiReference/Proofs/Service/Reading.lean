import ApiReference.Service.Session

/-!
# What a session reads

A session answers from the declarations in a file, whatever it has read and kept before.
-/

namespace ApiReference
open ApiReference.Declaration (ApiSignature Hit ReadingKey)

def TypeFile.declarations (f : TypeFile) : Declaration.File :=
  (ReadingKey.ofText f.content f.path).file

def TypeFile.signature? (f : TypeFile) (concept : Text) : Option ApiSignature :=
  Declaration.extract f.declarations concept

def TypeFile.hits (f : TypeFile) (query : Text) : List Hit :=
  Declaration.ranking f.declarations.definitions query

/-- The signature that a concept names in the file that was answered, if one was. -/
def foundIn? (concept : Text) : Except Failure (Option TypeFile) → Option (ApiSignature × TypeFile)
  | .ok (some file) => (file.signature? concept).map fun api => (api, file)
  | _ => none

namespace Session
variable {σ : Type} (session : Session σ) (file : TypeFile)

@[simp] theorem extract_fst (concept : Text) :
    (session.extract file concept).1 = file.signature? concept :=
  session.reader.extract_fst file.content concept file.path

@[simp] theorem extractAnswer_fst (answer : Except Failure (Option TypeFile)) (concept : Text) :
    (session.extractAnswer answer concept).1 = foundIn? concept answer := by
  rcases answer with e | _ | file
  · rfl
  · rfl
  · exact congrArg (Option.map fun api => (api, file)) (session.extract_fst file concept)

@[simp] theorem search_fst (query : Text) (limit : Nat) :
    (session.search file query limit).1 = (file.hits query).take limit :=
  session.reader.search_fst file.content query file.path limit

end Session
end ApiReference
