import CouchClient.Http.Status
import CouchClient.Json.Basic
import CouchClient.Text.Utf8
import CouchClient.Url.Split
import CouchClient.Value.Display
import CouchClient.Value.Encoding

/-! # Errors — what can go wrong, by its cause

    * `Failure` — what the network does to a connection;
    * `Fault` — what keeps a transport from an answer: a failure, or a
      reason of its own.  A fault of delivery is one that the layers above
      report as a transport error;
    * `Invalid` — why a request was never sent;
    * `BadReply` — why a reply is not what it should be;
    * `Error` — what an operation of the library raises.

    A limit of the interpreter shows in two ways.  A number that is too long
    is a reason not to accept a document or a reply; only in an option it
    is an error of its own.  What is too deep is an error of its own
    everywhere. -/

namespace CouchClient

/-! ## Faults of a transport -/

/-- A kind of failure: its name, and whether it is a failure of the
    delivery. -/
structure FailureKind where
  name : Text
  isDelivery : Bool
deriving DecidableEq

/-- A failure with its own words. -/
structure Failure where
  kind : FailureKind
  message : Text
deriving DecidableEq

/-- What keeps a transport from delivering a request or reading a reply. -/
inductive Fault where
  | failure (f : Failure)
  | redirectLimit
  | unsupportedScheme (scheme : Text)
  | badUrl (e : Url.SplitError)
  | noLocation
  | missingField (name : Text)
deriving DecidableEq

namespace Fault

/-- Whether the fault is one of the delivery. -/
def isDelivery : Fault → Bool
  | .failure f => f.kind.isDelivery
  | .redirectLimit => true
  | .unsupportedScheme _ => false
  | .badUrl _ => false
  | .noLocation => false
  | .missingField _ => false

/-- Says what keeps the transport. -/
def message : Fault → Text
  | .failure f => f.message
  | .redirectLimit => text "redirection limit exceeded"
  | .unsupportedScheme scheme =>
      text "scheme " ++ scheme ++ text " not supported"
  | .badUrl e => e.message
  | .noLocation => text "Cannot mix str and non-str arguments"
  | .missingField name => Text.quoted name

end Fault

/-! ## Requests that are never sent -/

/-- Why the arguments of an operation are not accepted. -/
inductive Invalid where
  | required (what : Text)
  | document (e : EncodeError)
deriving DecidableEq

/-- Says why the arguments are not accepted. -/
def Invalid.message : Invalid → Text
  | .required what => what ++ text " required"
  | .document e => e.message

/-! ## Replies that are not what they should be -/

/-- Why the body of a reply is not what it should be. -/
inductive BadReply where
  | encoding (e : Utf8.Undecodable)
  | json (e : Json.SyntaxError)
  | endOfInput (expected : List CodePoint)
  | unexpected (c : CodePoint) (position : Nat) (expected : List CodePoint)
  | notRows (field raw : Text)
  | notCount (name : Text) (v : Json)
  | notWarning (v : Json)
  | notUpdateSeq (v : Value)
  | notWriteResult (v : Json)
  | notRevision (v : Json)
  | notInfo (v : Json)

/-- The code points that would have been accepted. -/
def BadReply.alternatives (expected : List CodePoint) : Text :=
  Text.join (text " or ") (expected.map fun c => Text.quoted [c])

/-- Says why the body is not what it should be. -/
def BadReply.message : BadReply → Text
  | .encoding e => e.message
  | .json e => e.message
  | .endOfInput [] => text "unexpected end of JSON input"
  | .endOfInput expected =>
      text "unexpected end of JSON input, expected " ++ alternatives expected
  | .unexpected c position expected =>
      text "invalid character " ++ Text.quoted [c] ++ text " at "
        ++ Text.ofNat position ++ text ", expected " ++ alternatives expected
  | .notRows field raw =>
      text "expected an array for " ++ Text.quoted field ++ text ", got "
        ++ raw
  | .notCount name v =>
      name ++ text " is not an integer: " ++ v.display
  | .notWarning v => text "warning is not a string: " ++ v.display
  | .notUpdateSeq v => text "unexpected update sequence " ++ v.display
  | .notWriteResult v => text "unexpected write result: " ++ v.display
  | .notRevision v => text "unexpected revision: " ++ v.display
  | .notInfo v => text "unexpected database info: " ++ v.display

/-- A status that is no success, with what the server says about it. -/
structure HttpError where
  status : Int
  error : Option Text
  reason : Option Text
deriving DecidableEq

/-- The words of the server that are there and not empty. -/
def HttpError.said (words : Option Text) : Option Text :=
  words.filter fun t => !t.isEmpty

/-- What the server says, or the phrase of the status. -/
def HttpError.message (e : HttpError) : Text :=
  match said e.error, said e.reason with
  | some error, some reason => error ++ text ": " ++ reason
  | some error, none => error
  | none, some reason => reason
  | none, none => Status.phrase e.status

/-! ## Errors of operations -/

/-- What an operation raises. -/
inductive Error where
  | invalid (why : Invalid)
  | unsupportedOption (typeName name : Text)
  | argumentTwice (operation argument : Text)
  | transport (cause : Fault) (method url : Option Text)
  | http (e : HttpError)
  | decode (why : BadReply)
  | consistency (requested returned : Text)
  | unencodable (e : Utf8.Unencodable)
  | badUrl (e : Url.SplitError)
  | fault (f : Fault)
  | tooLong (e : TooLong)
  | tooDeep (e : TooDeep)

/-- The error of a text that cannot be read. -/
def Error.ofReading (e : Json.SyntaxError) : Error :=
  match e.wrong.tooDeep? with
  | some what => .tooDeep what
  | none => .decode (.json e)

/-- Says what went wrong. -/
def Error.message : Error → Text
  | .invalid why => why.message
  | .unsupportedOption typeName name =>
      text "cannot convert type " ++ typeName
        ++ text " to a query parameter (option \"" ++ name ++ text "\")"
  | .argumentTwice operation argument =>
      text "Database." ++ operation
        ++ text "() got multiple values for argument '" ++ argument
        ++ text "'"
  | .transport cause method target =>
      match method.filter fun m => !m.isEmpty with
      | some m =>
          m ++ .char ' ' :: target.getD (text "None") ++ text ": "
            ++ cause.message
      | none => cause.message
  | .http e => e.message
  | .decode why => why.message
  | .consistency requested returned =>
      text "modified document ID (" ++ returned
        ++ text ") does not match that requested (" ++ requested ++ text ")"
  | .unencodable e => e.message
  | .badUrl e => e.message
  | .fault f => f.message
  | .tooLong e => e.writingMessage
  | .tooDeep e => e.message

end CouchClient
