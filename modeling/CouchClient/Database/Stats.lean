import CouchClient.UpdateSeq
import CouchClient.Http.Response

/-! # Statistics — what a server says about a database

    Older servers give the sizes of a database as fields of their own,
    newer ones in an object.  Both are read into one record, in which a
    number that is not given is zero. -/

namespace CouchClient

namespace Json

/-- The whole number of a member, or zero. -/
def countOf (v : Json) (name : String) : Int :=
  match v.member? (text name) with
  | some (.int n) => n
  | _ => 0

/-- Whether a value says nothing: null, false, zero, or an empty text or
    container. -/
def isVoid : Json → Bool
  | .null => true
  | .bool b => !b
  | .int n => n == 0
  | .float x => x.isZero
  | .str t => t.isEmpty
  | .arr items => items.isEmpty
  | .obj entries => entries.isEmpty

end Json

/-- The sizes of a database in bytes: of its file, of the data that is in
    use, and of its contents without compression. -/
structure Sizes where
  file : Int
  active : Int
  external : Int
deriving DecidableEq

/-- What a server says about a database.  The name is what the server
    gives for it, or an empty text. -/
structure Stats where
  name : Json
  docCount : Int
  deletedCount : Int
  updateSeq : Text
  sizes : Sizes

namespace Stats

/-- The sizes, in either of their shapes. -/
def sizesOf (info : Json) : Sizes :=
  match info.member? (text "sizes") with
  | some (.obj entries) =>
      let sizes := Json.obj entries
      ⟨sizes.countOf "file", sizes.countOf "active",
        sizes.countOf "external"⟩
  | _ => ⟨info.countOf "disk_size", info.countOf "data_size", 0⟩

/-- The name, or an empty text if there is none. -/
def nameOf (info : Json) : Json :=
  match info.member? (text "db_name") with
  | none => .str []
  | some v => if v.isVoid then .str [] else v

/-- The statistics in what the server says. -/
def ofInfo (info : Json) : Except BadReply Stats := do
  let seq := (info.member? (text "update_seq")).getD .null
  let updateSeq ← updateSeqText seq.toValue
  return {
    name := nameOf info
    docCount := info.countOf "doc_count"
    deletedCount := info.countOf "doc_del_count"
    updateSeq
    sizes := sizesOf info }

/-- The statistics in a reply, which has to be an object. -/
def ofReply : Json → Except BadReply Stats
  | .obj entries => ofInfo (.obj entries)
  | v => .error (.notInfo v)

end Stats

end CouchClient
