import CouchClient.Url.Query

/-! # Building URLs — a base, path segments and query pairs

    Each segment is quoted, slashes included, so that it stays one
    segment; one slash stands before the first, which may be the last sign
    of the base. -/

namespace CouchClient.Url

/-- Why a URL cannot be built. -/
inductive BuildError where
  | noSegments
  | unencodable (e : Utf8.Unencodable)
deriving DecidableEq

/-- Says why a URL cannot be built. -/
def BuildError.message : BuildError → Text
  | .noSegments => text "segments cannot be None"
  | .unencodable e => e.message

/-- The path that segments add to a base. -/
def pathAfter (base : Text) (segments : List Text) :
    Except Utf8.Unencodable Text := do
  if segments.isEmpty then return []
  else
    let path := Text.join [.char '/'] (← segments.mapM quote)
    return if base.endsWith (.char '/') then path else .char '/' :: path

/-- The query that pairs add to a URL. -/
def queryAfter (pairs : List (Text × Text)) :
    Except Utf8.Unencodable Text := do
  if pairs.isEmpty then return []
  else return .char '?' :: (← writeQuery pairs)

/-- A base with path segments and query pairs. -/
def extend (base : Text) (segments : List Text)
    (pairs : List (Text × Text)) : Except Utf8.Unencodable Text := do
  let path ← pathAfter base segments
  let query ← queryAfter pairs
  return base ++ path ++ query

/-- A base with path segments, which have to be given, and query pairs. -/
def build (base : Text) (segments : Option (List Text))
    (pairs : List (Text × Text)) : Except BuildError Text :=
  match segments with
  | none => .error .noSegments
  | some segments => (extend base segments pairs).mapError .unencodable

end CouchClient.Url
