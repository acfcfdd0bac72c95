import CouchClient.Text.Quoted
import CouchClient.Text.Utf8
import CouchClient.UpdateSeq

/-! # Rows and what a listing says about them

    A listing is one JSON object.  One of its fields holds the rows, each
    of them an object; the others say how many rows there are and where
    they stand.  Of a row, the key, the value and the document are kept as
    the raw text of the listing. -/

namespace CouchClient

/-- A row of a listing.  The key, the value and the document are raw
    JSON. -/
structure Row where
  id : Option Text
  key : Option Bytes
  value : Option Bytes
  doc : Option Bytes
  error : Option Text
deriving DecidableEq

/-- A member of a row: its value, and the text of the listing for it. -/
structure Member where
  value : Json
  raw : Text

namespace Row

/-- The raw text of a member. -/
def rawOf (members : List (Text × Member)) (name : Text) : Option Bytes :=
  (Entries.get? name members).map fun m => Utf8.bytes m.raw

/-- The text of a member: of a string its value, of anything else but null
    the raw text. -/
def textOf (members : List (Text × Member)) (name : Text) : Option Text :=
  match Entries.get? name members with
  | none => none
  | some m =>
      match m.value with
      | .null => none
      | .str t => some t
      | _ => some m.raw

/-- The row with the given members. -/
def ofMembers (members : List (Text × Member)) : Row where
  id := textOf members (text "id")
  key := rawOf members (text "key")
  value := rawOf members (text "value")
  doc := rawOf members (text "doc")
  error := textOf members (text "error")

/-- A field as messages show it, if it is there. -/
def displayField (name : String) (shown : Option Text) : List Text :=
  match shown with
  | none => []
  | some t => [text name ++ .char '=' :: t]

/-- The row as messages show it, without its document. -/
def display (r : Row) : Text :=
  let fields :=
    displayField "id" (r.id.map Text.quoted)
      ++ displayField "key" (r.key.map Text.quotedBytes)
      ++ displayField "error" (r.error.map Text.quoted)
      ++ displayField "value" (r.value.map Text.quotedBytes)
  text "<Row " ++ Text.join (text ", ") fields ++ [.char '>']

end Row

/-- What a listing says about its rows. -/
structure ListingInfo where
  totalRows : Int
  offset : Int
  updateSeq : Text
  warning : Text
deriving DecidableEq

namespace ListingInfo

/-- What is known before anything is read. -/
def initial : ListingInfo := ⟨0, 0, [], []⟩

/-- The number that a field gives; null counts as zero. -/
def countOf (name : Text) : Json → Except BadReply Int
  | .null => .ok 0
  | .int n => .ok n
  | v => .error (.notCount name v)

/-- The text that a warning gives; null is no warning. -/
def warningOf : Json → Except BadReply Text
  | .null => .ok []
  | .str t => .ok t
  | v => .error (.notWarning v)

/-- Takes note of a field of the listing. -/
def note (info : ListingInfo) (name : Text) (v : Json) :
    Except BadReply ListingInfo :=
  if name = text "total_rows" then do
    return { info with totalRows := ← countOf name v }
  else if name = text "offset" then do
    return { info with offset := ← countOf name v }
  else if name = text "update_seq" then do
    return { info with updateSeq := ← updateSeqText v.toValue }
  else if name = text "warning" then do
    return { info with warning := ← warningOf v }
  else return info

end ListingInfo

end CouchClient
