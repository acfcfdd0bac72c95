import CouchClient.Http.Headers
import CouchClient.Url.Split

/-! # Requests — as they are sent to a server

    A request is sent with a few fields that its maker may have left out.
    Without a body, its length is said to be zero. -/

namespace CouchClient

/-- The media type of JSON. -/
def jsonType : Text := text "application/json"

/-- The name by which the client is known to servers. -/
def userAgent : Text := text "couchrelay/1.0"

/-- Where connections go: a scheme and a network location. -/
structure Origin where
  scheme : Text
  netloc : Text
deriving DecidableEq

/-- A request with the parts of its URL. -/
structure Request where
  method : Text
  target : Url.Parts
  body : Option Bytes
  headers : Headers Text
deriving DecidableEq

namespace Request

/-- Whether there is nothing to send. -/
def isEmptyBody (body : Option Bytes) : Bool := (body.getD []).isEmpty

/-- The fields that a request is sent with. -/
def fieldsFor (body : Option Bytes) (fields : List (Text × Text)) :
    Headers Text :=
  let h := (Headers.ofList fields).insertIfNew (text "Accept") jsonType
  let h := h.insertIfNew (text "User-Agent") userAgent
  if isEmptyBody body then h.insert (text "Content-Length") (text "0") else h

/-- A request for a URL; a URL without a scheme is taken for one of
    `http`. -/
def make (method url : Text) (body : Option Bytes)
    (fields : List (Text × Text)) : Except Url.SplitError Request := do
  let target ← Url.split (text "http") url
  return { method, target, body, headers := fieldsFor body fields }

/-- Where the request goes. -/
def origin (r : Request) : Origin := ⟨r.target.scheme, r.target.netloc⟩

/-- What the server is asked for. -/
def selector (r : Request) : Text := r.target.selector

/-- The fields as they are sent, one for each shown name. -/
def sentFields (r : Request) : List (Text × Text) :=
  Entries.ofList r.headers.toList

end Request

end CouchClient
