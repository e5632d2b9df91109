import ApiReference.Failure
import ApiReference.Package.Version
import ApiReference.Web.Address
import ApiReference.Web.Status

/-!
# Asking the web

A client asks a server for the text at an address and keeps the answer. That there is nothing at an
address is an answer too; what fails is not kept and is asked for again the next time.
-/

namespace ApiReference.Web

/-- What is asked of a server. -/
structure Request where
  url : Text
  /-- The kind of document that is wanted, if a certain one is. -/
  accept : Option Text
  deriving DecidableEq, Repr

/-- What becomes of a request. -/
inductive Reply where
  /-- It did not get through, for a reason. -/
  | unsent (reason : Text)
  /-- It was answered, with a body that could be read or not. -/
  | answered (status : Nat) (body : Except Text Text)

/-- A server, whose answer may depend on all requests before. -/
abbrev Server (σ : Type) := Request → σ → Reply × σ

/-- Why nothing was had from the web. -/
inductive Problem where
  | request (details : Text)
  | decoding (details : Text)
  | configuration (details : Text)
  deriving DecidableEq, Repr

def Problem.message : Problem → Text
  | request details => "HTTP request failed: ".toList ++ details
  | decoding details => "Failed to decode response: ".toList ++ details
  | configuration details => "Configuration error: ".toList ++ details

def Problem.failure : Problem → Failure
  | configuration details => .configuration details
  | p => .fetch p.message

/-- An answer that is kept: the text at an address, or that there is none. -/
structure Kept where
  url : Text
  body : Option Text
  /-- The seconds for which it stays fresh. -/
  seconds : Nat
  deriving DecidableEq, Repr

/-- What keeps answers. To look for an answer may change it as well, since a store may take note of
what is wanted. -/
structure Store (κ : Type) where
  empty : κ
  find : Text → κ → Option (Option Text) × κ
  insert : Kept → κ → κ

/-- The store that forgets nothing, the last answer first. -/
def Store.ofList : Store (List Kept) where
  empty := []
  find url kept := ((kept.find? fun k => k.url == url).map Kept.body, kept)
  insert k kept := k :: kept

/-- A server with what is kept of its answers. -/
structure Connection (σ : Type) (κ : Type := List Kept) where
  server : σ
  kept : κ

variable {σ κ : Type}

/-- What a reply says about an address. -/
def Reply.content (url : Text) : Reply → Except Problem (Option Text)
  | unsent reason => .error (.request ("GET ".toList ++ url ++ ": ".toList ++ reason))
  | answered status body =>
    if status = notFound then .ok none
    else if isSuccess status then
      match body with
      | .ok t => .ok (some t)
      | .error e => .error (.decoding ("GET ".toList ++ url ++ ": ".toList ++ e))
    else .error (.request ("GET ".toList ++ url ++ " returned ".toList ++ statusText status))

/-- The text at an address, if there is any. The version decides how long the answer stays fresh. -/
def getThrough (store : Store κ) (server : Server σ) (version : Text) (request : Request)
    (c : Connection σ κ) : Except Problem (Option Text) × Connection σ κ :=
  let looked := store.find request.url c.kept
  match looked.1 with
  | some body => (.ok body, { c with kept := looked.2 })
  | none =>
    let asked := server request c.server
    match asked.1.content request.url with
    | .ok body =>
      (.ok body, ⟨asked.2, store.insert ⟨request.url, body, Package.freshness version⟩ looked.2⟩)
    | .error e => (.error e, ⟨asked.2, looked.2⟩)

/-- The same over the store that forgets nothing. -/
def get (server : Server σ) (version : Text) (request : Request) (c : Connection σ) :
    Except Problem (Option Text) × Connection σ :=
  getThrough Store.ofList server version request c

/-- The server behind a network that lets nothing through. -/
def unreachable : Server σ := fun request state =>
  let reason :=
    match Address.ofText? request.url with
    | some a => "error sending request for url (".toList ++ a.toText ++ [')']
    | none => "builder error".toList
  (.unsent reason, state)

end ApiReference.Web
