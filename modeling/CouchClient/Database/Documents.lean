import CouchClient.Database.Basic
import CouchClient.Database.Document
import CouchClient.QueryOption

/-! # Operations on documents

    A document is read as the server sends it, and written from a value.
    What the server answers to a write has to name the document that was
    written. -/

namespace CouchClient.Database

variable {β ω : Type} [Transport β ω]

/-- The JSON text of a document. -/
def get [Limits] (db : Database) (id : Text) (options : List (Text × Value)) :
    Action ω Bytes := do
  .ofExcept (checkNames "get" ["self", "id"] options)
  .ofExcept (requiredId id)
  let pairs ← .ofExcept (QueryOption.encode options)
  let response ← db.resource.get (docPath id) [] pairs
  Resource.readBody response.data

/-- Writes a document, and gives its new revision. -/
def put [Limits] (db : Database) (id : Text) (document : Value)
    (options : List (Text × Value)) : Action ω (Option Text) := do
  .ofExcept (checkNames "put" ["self", "id", "document"] options)
  .ofExcept (requiredId id)
  let pairs ← .ofExcept (QueryOption.encode options)
  let response ← db.resource.putJson (docPath id) document [] pairs
  let result ← .ofExcept ((WriteResult.ofJson response.data).mapError .decode)
  if result.id = id then return result.rev
  else .ofExcept (.error (.consistency id result.id))

/-- Writes a document under an identifier that the server may choose. -/
def create [Limits] (db : Database) (document : Value) (options : List (Text × Value)) :
    Action ω WriteResult := do
  .ofExcept (checkNames "createDoc" ["self", "document"] options)
  let pairs ← .ofExcept (QueryOption.encode options)
  let response ← db.resource.postJson [] document [] pairs
  .ofExcept ((WriteResult.ofJson response.data).mapError .decode)

/-- Deletes a revision of a document, and gives the revision of the
    deletion: that of the fields or, without one, that of the answer. -/
def delete [Limits] (db : Database) (id : Text) (rev : Option Text) :
    Action ω (Option Text) := do
  .ofExcept (requiredId id)
  let response ← db.resource.delete (docPath id) []
    [(text "rev", rev.getD [])]
  match (revisionOf response.headers).filter (!·.isEmpty) with
  | some rev =>
      -- the answer is not needed, but it has to be read and closed
      let _ ← Resource.readBody response.data
      return some rev
  | none =>
      let answer ← Resource.readJson response
      let result ← .ofExcept
        ((WriteResult.ofJson answer.data).mapError .decode)
      return result.rev

end CouchClient.Database
