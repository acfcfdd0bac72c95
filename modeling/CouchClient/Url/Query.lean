import CouchClient.Url.Quote

/-! # Queries — pairs of names and values in a URL

    A query is written as names and values with an equals sign between
    them and ampersands between the pairs.  Both are quoted as in paths,
    but a space becomes a plus sign. -/

namespace CouchClient.Url

/-- A byte as it stands in a query. -/
def quoteQueryByte (b : UInt8) : Text :=
  if b = 0x20 then [.char '+'] else quoteByte b

/-- A text as it stands in a query. -/
def quoteQuery (t : Text) : Except Utf8.Unencodable Text := do
  return (← Utf8.encode t).flatMap quoteQueryByte

/-- One pair of a query. -/
def writePair (p : Text × Text) : Except Utf8.Unencodable Text := do
  let name ← quoteQuery p.1
  let value ← quoteQuery p.2
  return name ++ .char '=' :: value

/-- The query of a list of pairs. -/
def writeQuery (pairs : List (Text × Text)) : Except Utf8.Unencodable Text :=
  return Text.join [.char '&'] (← pairs.mapM writePair)

/-- The text that a name or value of a query stands for. -/
def unquoteQuery (t : Text) : Text :=
  unquote (t.map fun c => if c = .char '+' then .char ' ' else c)

/-- The pair that a piece of a query stands for; without an equals sign the
    value is empty. -/
def readPair (piece : Text) : Text × Text :=
  let (name, value) := Text.cut (.char '=') piece
  (unquoteQuery name, unquoteQuery (value.getD []))

/-- The pairs of a query, empty values included; an empty piece is no
    pair. -/
def readQuery (query : Text) : List (Text × Text) :=
  ((Text.splitOn (.char '&') query).filter fun piece => !piece.isEmpty).map
    readPair

end CouchClient.Url
