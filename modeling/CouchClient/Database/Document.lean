import CouchClient.Http.Response

/-! # Documents — where they are, and what writing them gives

    A document is found below its database by its identifier.  Writing one
    gives its revision, in a field of the response or in the answer. -/

namespace CouchClient

/-- The path of a document.  An identifier that starts with an underscore
    names a reserved segment up to its first slash. -/
def docPath (id : Text) : List Text :=
  if id.head? = some (.char '_') then
    match Text.cut (.char '/') id with
    | (first, some rest) => [first, rest]
    | (_, none) => [id]
  else [id]

/-- The revision in the fields of a response, without its quotes. -/
def revisionOf (headers : Option (Headers Text)) : Option Text :=
  match headers.bind (·.get? (text "ETag")) with
  | none => none
  | some tag =>
      if tag.isEmpty then none else some (Text.strip (· == .char '"') tag)

/-- What a server says about a document that was written: its identifier
    and, unless the write is still to be done, its revision. -/
structure WriteResult where
  id : Text
  rev : Option Text
deriving DecidableEq

namespace WriteResult

/-- The revision that an answer gives. -/
def revOf (v : Json) : Except BadReply (Option Text) :=
  match v.member? (text "rev") with
  | none => .ok none
  | some .null => .ok none
  | some (.str rev) => .ok (some rev)
  | some rev => .error (.notRevision rev)

/-- The result in an answer. -/
def ofJson (v : Json) : Except BadReply WriteResult :=
  match v.member? (text "id") with
  | some (.str id) => do return ⟨id, ← revOf v⟩
  | _ => .error (.notWriteResult v)

end WriteResult

end CouchClient
