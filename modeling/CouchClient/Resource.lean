import CouchClient.Action
import CouchClient.Http.Request
import CouchClient.Http.Transport
import CouchClient.Url.Build

/-! # Resources — requests below a fixed URL

    A resource is a URL with fields that every request carries.  Requests
    name a path below it; their own fields win over those of the resource.
    A fault of the delivery is raised with the method and the URL of the
    request, and a response that is no success as the error that it is.

    The variants for JSON send a document and read one: the document is
    encoded before anything is sent. -/

namespace CouchClient

/-- A URL and the fields of every request. -/
structure Resource where
  url : Text
  headers : Headers Text
deriving DecidableEq

namespace Resource

/-- The URL without a slash at its end; of several slashes only the last
    one goes. -/
def withoutSlash (url : Text) : Text :=
  if url.endsWith (.char '/') then url.dropLast else url

/-- The resource at a URL, with the given fields. -/
def ofUrl (url : Text) (fields : List (Text × Text)) : Resource :=
  ⟨withoutSlash url, .ofList fields⟩

/-- The resource as messages show it. -/
def display (r : Resource) : Text := text "<Resource " ++ r.url ++ [.char '>']

/-- The URL of a path below the resource, with query pairs. -/
def urlOf (r : Resource) (path : List Text) (pairs : List (Text × Text)) :
    Except Error Text :=
  (Url.extend r.url path pairs).mapError .unencodable

/-- Fields read by their shown names. -/
def reread (h : Headers Text) : Except Error (List (Text × Text)) :=
  h.reread.mapError fun name => .fault (.missingField name)

/-- The resource at a path below this one, with the same fields. -/
def child (r : Resource) (path : List Text) : Except Error Resource := do
  let url ← r.urlOf path []
  return ofUrl url (← reread r.headers)

/-! ## Delivery -/

variable {β ω : Type} [Transport β ω]

/-- The error of a fault that keeps a request from a response. -/
def errorOf (method url : Text) (f : Fault) : Error :=
  if f.isDelivery then .transport f (some method) (some url) else .fault f

/-- Delivers a request. -/
def deliver (method url : Text) (body : Option Bytes) (headers : Headers Text) :
    Action ω (Response (Body β)) := fun w =>
  match Transport.request method url body headers w with
  | (.error f, w) => (.error (errorOf method url f), w)
  | (.ok r, w) =>
      let body := Body.ofStream r.data (some method) (some url)
      (.ok { r with data := body }, w)

/-- Lets a success pass, and raises the error of a failure. -/
def succeed [Limits] (r : Response (Body β)) : Action ω (Response (Body β)) := fun w =>
  match Response.check { r with data := some r.data } w with
  | (.error e, _, w) => (.error e, w)
  | (.ok (), _, w) => (.ok r, w)

/-- Makes a request for a path below the resource. -/
def request [Limits] (r : Resource) (method : Text) (path : List Text)
    (body : Option Bytes) (fields pairs : List (Text × Text)) :
    Action ω (Response (Body β)) := do
  let url ← .ofExcept (r.urlOf path pairs)
  let response ← deliver method url body (r.headers.copy.update fields)
  succeed response

/-! ## Methods -/

/-- Asks for what is at a path. -/
def get [Limits] (r : Resource) (path : List Text) (fields pairs : List (Text × Text)) :
    Action ω (Response (Body β)) :=
  r.request (text "GET") path none fields pairs

/-- Deletes what is at a path. -/
def delete [Limits] (r : Resource) (path : List Text)
    (fields pairs : List (Text × Text)) : Action ω (Response (Body β)) :=
  r.request (text "DELETE") path none fields pairs

/-- Posts a body to a path. -/
def post [Limits] (r : Resource) (path : List Text) (body : Option Bytes)
    (fields pairs : List (Text × Text)) : Action ω (Response (Body β)) :=
  r.request (text "POST") path body fields pairs

/-- Puts a body at a path. -/
def put [Limits] (r : Resource) (path : List Text) (body : Option Bytes)
    (fields pairs : List (Text × Text)) : Action ω (Response (Body β)) :=
  r.request (text "PUT") path body fields pairs

/-- Reads a body to its end and closes it. -/
def readBody (b : Body β) : Action ω Bytes := fun w =>
  match b.readAll w with
  | (result, _, w) => (result, w)

/-! ## JSON -/

/-- The fields of a request that sends and accepts JSON, unless they say
    something else. -/
def jsonHeaders (fields : List (Text × Text)) : Headers Text :=
  let h := (Headers.ofList fields).insertIfNew (text "Content-Type") jsonType
  h.insertIfNew (text "Accept") jsonType

/-- The same fields, read by their shown names. -/
def jsonFields (fields : List (Text × Text)) :
    Except Error (List (Text × Text)) :=
  reread (jsonHeaders fields)

/-- The body that sends a document; null is sent as no body. -/
def documentBody [Limits] (document : Value) : Except Error (Option Bytes) :=
  match document with
  | .null => .ok none
  | v =>
      match v.encodeBytes with
      | .ok bs => .ok (some bs)
      | .error .tooDeep => .error (.tooDeep .writing)
      | .error e => .error (.invalid (.document e))

/-- Reads the JSON value that a response holds, and closes its body. -/
def readJson [Limits] (r : Response (Body β)) : Action ω (Response Json) := fun w =>
  match r.data.readJson w with
  | (.error e, _, w) => (.error e, w)
  | (.ok v, _, w) => (.ok { r with data := v }, w)

/-- Asks for the JSON value at a path. -/
def getJson [Limits] (r : Resource) (path : List Text)
    (fields pairs : List (Text × Text)) : Action ω (Response Json) := do
  let fields ← .ofExcept (jsonFields fields)
  readJson (← r.get path fields pairs)

/-- Deletes what is at a path; the answer is a JSON value. -/
def deleteJson [Limits] (r : Resource) (path : List Text)
    (fields pairs : List (Text × Text)) : Action ω (Response Json) := do
  let fields ← .ofExcept (jsonFields fields)
  readJson (← r.delete path fields pairs)

/-- Posts a document to a path; the answer is a JSON value. -/
def postJson [Limits] (r : Resource) (path : List Text) (document : Value)
    (fields pairs : List (Text × Text)) : Action ω (Response Json) := do
  let body ← .ofExcept (documentBody document)
  let fields ← .ofExcept (jsonFields fields)
  readJson (← r.post path body fields pairs)

/-- Puts a document at a path; the answer is a JSON value. -/
def putJson [Limits] (r : Resource) (path : List Text) (document : Value)
    (fields pairs : List (Text × Text)) : Action ω (Response Json) := do
  let body ← .ofExcept (documentBody document)
  let fields ← .ofExcept (jsonFields fields)
  readJson (← r.put path body fields pairs)

end Resource

end CouchClient
