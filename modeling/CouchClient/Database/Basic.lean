import CouchClient.Resource

/-! # Databases — a resource on a server

    A database is given by its URL, or by its name and the URL of a
    server.  Each operation on it makes one request at most, and none if
    its arguments are not accepted: the names of the options are looked at
    first, then the identifiers, the values of the options, and the
    document. -/

namespace CouchClient

/-- A database on a server. -/
structure Database where
  resource : Resource
deriving DecidableEq

namespace Database

/-- The fields of every request to a database that is given by its URL or
    its name. -/
def defaultFields : List (Text × Text) := [(text "Accept", jsonType)]

/-- The database at a URL.  A text that is no URL of a server is the name
    of a database on the given one. -/
def ofUrl (server target : Text) : Except Error Database :=
  match Url.split [] target with
  | .error e => .error (.badUrl e)
  | .ok parts =>
      if parts.scheme = text "http" ∨ parts.scheme = text "https" then
        .ok ⟨.ofUrl target defaultFields⟩
      else
        match Url.extend server [target] [] with
        | .error e => .error (.unencodable e)
        | .ok url => .ok ⟨.ofUrl url defaultFields⟩

/-- The name of the database: the last segment of its URL. -/
def name (db : Database) : Text :=
  Url.unquote ((Text.splitOn (.char '/') db.resource.url).getLast?.getD [])

/-- The database as messages show it. -/
def display (db : Database) : Text :=
  text "<Database " ++ Text.quoted db.name ++ [.char '>']

/-! ## Arguments -/

/-- Refuses an argument that is empty. -/
def required (argument : Text) (what : String) : Except Error Unit :=
  if argument.isEmpty then .error (.invalid (.required (text what))) else .ok ()

/-- Refuses a document identifier that is empty. -/
def requiredId (id : Text) : Except Error Unit :=
  required id "document identifier"

/-- Refuses a design document identifier that is empty. -/
def requiredDesign (ddoc : Text) : Except Error Unit :=
  required ddoc "design document identifier"

/-- Refuses an option that has the name of an argument of the
    operation. -/
def checkNames (operation : String) (arguments : List String)
    (options : List (Text × Value)) : Except Error Unit :=
  match options.find? fun o => (arguments.map text).contains o.1 with
  | some (name, _) => .error (.argumentTwice (text operation) name)
  | none => .ok ()

end Database

end CouchClient
