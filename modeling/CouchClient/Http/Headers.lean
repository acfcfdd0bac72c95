import CouchClient.Entries
import CouchClient.Text.Case

/-! # Headers — fields whose names are compared without case

    Names are stored in lower case and shown with a capital after each
    hyphen, apart from a few words that have a spelling of their own.  The
    fields keep the order in which their names came first. -/

namespace CouchClient

/-- Named fields with values in `α`; the names are in lower case. -/
structure Headers (α : Type) where
  entries : List (Text × α)
deriving DecidableEq

namespace Headers

variable {α : Type}

/-! ## Names -/

/-- The list with another element in the place of the first one that is
    equal to the given one. -/
def replaceFirst (old new : Text) : List Text → List Text
  | [] => []
  | w :: rest => if w = old then new :: rest else w :: replaceFirst old new rest

/-- The words with a spelling of their own: as they are when capitalized,
    and as they are shown. -/
def spellings : List (Text × Text) :=
  [("Md5", "MD5"), ("Te", "TE"), ("P3p", "P3P"), ("Www", "WWW"),
    ("Etag", "ETag")].map fun s => (text s.1, text s.2)

/-- The name of a field as it is shown.  Of a word with a spelling of its
    own, only the first occurrence has it. -/
def displayName (name : Text) : Text :=
  let words := (Text.splitOn (.char '-') name).map Text.capitalize
  Text.join [.char '-']
    (spellings.foldl (fun words s => replaceFirst s.1 s.2 words) words)

/-! ## Fields -/

/-- No fields. -/
def empty : Headers α := ⟨[]⟩

/-- The value of a field. -/
def get? (h : Headers α) (name : Text) : Option α :=
  Entries.get? (Text.lower name) h.entries

/-- Whether a field is there. -/
def contains (h : Headers α) (name : Text) : Bool := (h.get? name).isSome

/-- The fields with a new value for one of them. -/
def insert (h : Headers α) (name : Text) (value : α) : Headers α :=
  ⟨Entries.insert (Text.lower name) value h.entries⟩

/-- The fields without one of them. -/
def erase (h : Headers α) (name : Text) : Headers α :=
  ⟨Entries.erase (Text.lower name) h.entries⟩

/-- The fields with a value for one of them, unless it has one. -/
def insertIfNew (h : Headers α) (name : Text) (value : α) : Headers α :=
  if h.contains name then h else h.insert name value

/-- The fields with new values, one after the other. -/
def insertAll (h : Headers α) (pairs : List (Text × α)) : Headers α :=
  pairs.foldl (fun h p => h.insert p.1 p.2) h

/-- The fields with those of a map, in its order. -/
def update (h : Headers α) (pairs : List (Text × α)) : Headers α :=
  h.insertAll (Entries.ofList pairs)

/-- The fields of a map, in its order. -/
def ofList (pairs : List (Text × α)) : Headers α := empty.update pairs

/-- The number of fields. -/
def size (h : Headers α) : Nat := h.entries.length

/-- The shown names of the fields. -/
def names (h : Headers α) : List Text := h.entries.map fun e => displayName e.1

/-- The shown names of the fields with their values. -/
def toList (h : Headers α) : List (Text × α) :=
  h.entries.map fun e => (displayName e.1, e.2)

/-- The values of the fields. -/
def values (h : Headers α) : List α := h.entries.map Prod.snd

/-- The fields read by their shown names, each with the value that its
    name finds.  Outside of ASCII a shown name may be none of a field any
    more, and then the name that was looked for is the error. -/
def reread (h : Headers α) : Except Text (List (Text × α)) :=
  h.names.mapM fun name =>
    match h.get? name with
    | some value => .ok (name, value)
    | none => .error (Text.lower name)

/-- The same fields, built anew. -/
def copy (h : Headers α) : Headers α := ofList h.entries

end Headers

end CouchClient
