import CouchClient.Database.Basic
import CouchClient.Database.Stats

/-! # Maintenance of a database — its statistics and its files -/

namespace CouchClient.Database

variable {β ω : Type} [Transport β ω]

/-- The statistics of the database. -/
def stats [Limits] (db : Database) : Action ω Stats := do
  let response ← db.resource.getJson [] [] []
  .ofExcept ((Stats.ofReply response.data).mapError .decode)

/-- Posts an empty object to a path, for which the server does something. -/
def command [Limits] (db : Database) (path : List Text) : Action ω Unit := do
  let response ← db.resource.post path (some (Utf8.bytes (text "\x7b\x7d")))
    [(text "Content-Type", jsonType)] []
  let _ ← Resource.readBody response.data

/-- Starts the compaction of the database. -/
def compact [Limits] (db : Database) : Action ω Unit := db.command [text "_compact"]

/-- Starts the compaction of the indexes of a design document. -/
def compactView [Limits] (db : Database) (ddoc : Text) : Action ω Unit := do
  .ofExcept (requiredDesign ddoc)
  db.command [text "_compact", ddoc]

/-- Removes the index files that are not used any more. -/
def viewCleanup [Limits] (db : Database) : Action ω Unit :=
  db.command [text "_view_cleanup"]

end CouchClient.Database
