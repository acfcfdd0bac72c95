import CouchClient.Http.Body
import CouchClient.Http.Headers
import CouchClient.Json.Reading

/-! # Responses — success or failure by the status code

    A response with a code from 200 to 299 is a success, and its body is
    left as it is.  Any other one is a failure: the body is read to its end
    and closed, and what it says about the failure, as an object with the
    members `error` and `reason`, becomes part of the error. -/

namespace CouchClient

/-- A response, with its body or with what was read of it. -/
structure Response (δ : Type) where
  status : Int
  headers : Option (Headers Text)
  data : δ

namespace Json

/-- The member of an object with the given name. -/
def member? (name : Text) : Json → Option Json
  | .obj entries => Entries.get? name entries
  | _ => none

/-- The text of a string. -/
def str? : Json → Option Text
  | .str t => some t
  | _ => none

/-- The text of a string that is not empty. -/
def nonEmptyStr? (v : Json) : Option Text := v.str?.filter fun t => !t.isEmpty

end Json

/-- What the server says about a failure in the body of its response. -/
def failureWords [Limits] (raw : Bytes) :
    Except TooDeep (Option Text × Option Text) :=
  match Json.decode (Utf8.readLossy raw) with
  | .error e =>
      match e.wrong.tooDeep? with
      | some what => .error what
      | none => .ok (none, none)
  | .ok v =>
      .ok ((v.member? (text "error")).bind Json.nonEmptyStr?,
        (v.member? (text "reason")).bind Json.nonEmptyStr?)

/-- The error of a response that is a failure, with the given body. -/
def failureOf [Limits] (status : Int) (raw : Bytes) : Error :=
  if raw.isEmpty then .http ⟨status, none, none⟩
  else
    match failureWords raw with
    | .error what => .tooDeep what
    | .ok (error, reason) => .http ⟨status, error, reason⟩

namespace Response

variable {β ω : Type} [ByteStream β ω]

/-- Lets a success pass, and raises the error of a failure.  The body and
    the world are as the check leaves them. -/
def check [Limits] (r : Response (Option (Body β))) (w : ω) :
    Except Error Unit × Option (Body β) × ω :=
  if Status.isSuccess r.status then (.ok (), r.data, w)
  else
    match r.data with
    | none => (.error (failureOf r.status []), none, w)
    | some b =>
        match b.readAll w with
        | (.error e, b, w) => (.error e, some b, w)
        | (.ok raw, b, w) => (.error (failureOf r.status raw), some b, w)

end Response

/-- The JSON value that bytes hold. -/
def decodeBytes [Limits] (raw : Bytes) : Except Error Json :=
  match Utf8.read raw with
  | .error e => .error (.decode (.encoding e))
  | .ok t => (Json.decode t).mapError .ofReading

/-- Reads a body to its end, closes it, and gives the JSON value that it
    holds. -/
def Body.readJson [Limits] {β ω : Type} [ByteStream β ω] (b : Body β) (w : ω) :
    Except Error Json × Body β × ω :=
  match b.readAll w with
  | (.error e, b, w) => (.error e, b, w)
  | (.ok raw, b, w) => (decodeBytes raw, b, w)

end CouchClient
