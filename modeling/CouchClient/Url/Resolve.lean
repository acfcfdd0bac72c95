import CouchClient.Url.Split

/-! # Resolving references

    A reference is resolved against a base: it may be a URL of its own, or
    give only the last parts of one.  A path that does not start with a
    slash is taken from the place of the base, and dots in it are
    walked. -/

namespace CouchClient.Url

/-- The schemes whose references may be relative. -/
def relativeSchemes : List Text :=
  ["", "ftp", "http", "gopher", "nntp", "imap", "wais", "file", "https",
    "shttp", "mms", "prospero", "rtsp", "rtsps", "rtspu", "sftp", "svn",
    "svn+ssh", "ws", "wss"].map text

/-- The schemes whose paths may end in parameters after a semicolon. -/
def parameterSchemes : List Text :=
  ["", "ftp", "hdl", "prospero", "http", "imap", "https", "shttp", "rtsp",
    "rtsps", "rtspu", "sip", "sips", "mms", "sftp", "tel"].map text

/-- The path before the parameters of its last segment, and those. -/
def splitParameters (path : Text) : Text × Text :=
  let last := (path.reverse.takeWhile (· != .char '/')).reverse
  match Text.cut (.char ';') last with
  | (_, none) => (path, [])
  | (name, some parameters) =>
      (path.take (path.length - last.length) ++ name, parameters)

/-- The parameters of a path, where the scheme has them. -/
def Parts.parameters (p : Parts) : Text × Text :=
  if parameterSchemes.contains p.scheme then splitParameters p.path
  else (p.path, [])

/-- One step of a walk: the segments walked, last first, and the next. -/
def walkStep (walked : List Text) (segment : Text) : List Text :=
  if segment = [.char '.', .char '.'] then walked.drop 1
  else if segment = [.char '.'] then walked
  else segment :: walked

/-- Whether a segment is one of the two that only walk. -/
def isDots (segment : Text) : Bool :=
  segment == [.char '.'] || segment == [.char '.', .char '.']

/-- The segments that are left when the dots are walked; a walk that ends
    in dots ends in a slash. -/
def walk (segments : List Text) : List Text :=
  let walked := (segments.foldl walkStep []).reverse
  match segments.getLast? with
  | some last => if isDots last then walked ++ [[]] else walked
  | none => walked

/-- The list without the empty segments between its first and its last. -/
def dropInnerEmpty (segments : List Text) : List Text :=
  match segments with
  | [] => []
  | first :: rest =>
      match rest.getLast? with
      | none => [first]
      | some last => first :: rest.dropLast.filter (!·.isEmpty) ++ [last]

/-- The segments of a path seen from the place of a base path. -/
def segmentsFrom (base path : Text) : List Text :=
  let own := Text.splitOn (.char '/') path
  if path.head? == some (.char '/') then own
  else
    let place := Text.splitOn (.char '/') base
    let place := if place.getLast? == some [] then place else place.dropLast
    dropInnerEmpty (place ++ own)

/-- The path that a reference with a path has, seen from a base path. -/
def resolvePath (base path : Text) : Text :=
  let resolved := Text.join [.char '/'] (walk (segmentsFrom base path))
  if resolved.isEmpty then [.char '/'] else resolved

/-- Parameters as they stand at the end of a path. -/
def withParameters (path parameters : Text) : Text :=
  path ++ after ';' parameters

/-- The URL that a reference stands for in a document at the base. -/
def resolve (base reference : Text) : Except SplitError Text :=
  if base.isEmpty then return reference
  else if reference.isEmpty then return base
  else do
    let b ← split [] base
    let r ← split b.scheme reference
    -- a URL of its own, or one of a scheme without relative references
    if r.scheme ≠ b.scheme ∨ !relativeSchemes.contains r.scheme then
      return reference
    let (path, parameters) := r.parameters
    if netlocSchemes.contains r.scheme && !r.netloc.isEmpty then
      return Parts.write { r with path := withParameters path parameters }
    let netloc := if netlocSchemes.contains r.scheme then b.netloc else r.netloc
    let (basePath, baseParameters) := b.parameters
    -- without a path the reference stays at the place of the base
    if path.isEmpty && parameters.isEmpty then
      let query := if r.query.isEmpty then b.query else r.query
      return Parts.write
        ⟨r.scheme, netloc, withParameters basePath baseParameters, query,
          r.fragment⟩
    return Parts.write
      ⟨r.scheme, netloc,
        withParameters (resolvePath basePath path) parameters, r.query,
        r.fragment⟩

end CouchClient.Url
