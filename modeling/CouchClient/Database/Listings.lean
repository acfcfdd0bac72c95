import CouchClient.Database.Basic
import CouchClient.QueryOption
import CouchClient.Rows.Stream

/-! # Listings of a database — row streams over its views

    A listing is named by a path below the database.  Its rows are read
    from the response as they are asked for; none is read before. -/

namespace CouchClient.Database

variable {β ω : Type} [Transport β ω]

/-- The name of the field of a listing that holds its rows. -/
def rowsField : Text := text "rows"

/-- The rows of the listing at a path. -/
def listing [Limits] (db : Database) (path : List Text) (pairs : List (Text × Text)) :
    Action ω (RowStream β) := do
  let response ← db.resource.get path [] pairs
  return .ofFeed (.body response.data) rowsField

/-- Refuses an option of a listing that has the name of an argument. -/
def checkListingNames (options : List (Text × Value)) : Except Error Unit :=
  checkNames "rowsQuery" ["self", "path"] options

/-- The rows of the listing at a path, which is given by its segments. -/
def rowsAt [Limits] (db : Database) (path : List Text) (options : List (Text × Value)) :
    Action ω (RowStream β) := do
  .ofExcept (checkListingNames options)
  let pairs ← .ofExcept (QueryOption.encode options)
  db.listing path pairs

/-- The segments of a written path, without slashes at its ends. -/
def segmentsOf (path : Text) : List Text :=
  (Text.splitOn (.char '/') (Text.strip (· == .char '/') path)).map Url.unquote

/-- The rows of the listing at a path, which is written with slashes and
    may have a query.  The pairs of the query stand before those of the
    options. -/
def rowsAtWritten [Limits] (db : Database) (target : Text)
    (options : List (Text × Value)) : Action ω (RowStream β) := do
  .ofExcept (checkListingNames options)
  let pairs ← .ofExcept (QueryOption.encode options)
  let (path, query) := Text.cut (.char '?') target
  db.listing (segmentsOf path) (Url.readQuery (query.getD []) ++ pairs)

/-- The rows of all documents. -/
def allDocs [Limits] (db : Database) (options : List (Text × Value)) :
    Action ω (RowStream β) := do
  .ofExcept (checkNames "allDocs" ["self"] options)
  db.rowsAt [text "_all_docs"] options

/-- The segment before the names of design documents. -/
def designSegment : Text := text "_design"

/-- The name of a design document without the segment before it. -/
def designName (ddoc : Text) : Text :=
  let opening := designSegment ++ [.char '/']
  if opening.isPrefixOf ddoc then ddoc.drop opening.length else ddoc

/-- The rows of a view of a design document, which may be given with the
    segment before its name. -/
def query [Limits] (db : Database) (ddoc view : Text) (options : List (Text × Value)) :
    Action ω (RowStream β) := do
  .ofExcept (checkNames "query" ["self", "ddoc", "view"] options)
  .ofExcept (requiredDesign ddoc)
  .ofExcept (requiredDesign (designName ddoc))
  .ofExcept (required view "view name")
  db.rowsAt [designSegment, designName ddoc, text "_view", view] options

end CouchClient.Database
