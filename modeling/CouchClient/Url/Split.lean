import CouchClient.Text.Quoted
import CouchClient.Url.Host

/-! # The parts of a URL

    A URL is a scheme, a network location, a path, a query and a fragment.
    `split` takes it apart and `Parts.write` puts the parts together; parts
    that are empty are left out, so a URL that ends in a bare question
    mark loses it. -/

namespace CouchClient.Url

/-- The parts of a URL. -/
structure Parts where
  scheme : Text
  netloc : Text
  path : Text
  query : Text
  fragment : Text
deriving DecidableEq

/-- Why a URL cannot be taken apart. -/
inductive SplitError where
  | unbalancedBrackets
  | badLaterVersion
  | version4InBrackets
  | noAddress (host : Text)
  | netlocNormalization (netloc : Text)
deriving DecidableEq

/-- Says why a URL cannot be taken apart. -/
def SplitError.message : SplitError → Text
  | .unbalancedBrackets => text "Invalid IPv6 URL"
  | .badLaterVersion => text "IPvFuture address is invalid"
  | .version4InBrackets => text "An IPv4 address cannot be in brackets"
  | .noAddress host =>
      Text.quoted host
        ++ text " does not appear to be an IPv4 or IPv6 address"
  | .netlocNormalization netloc =>
      text "netloc '" ++ netloc
        ++ text "' contains invalid characters under NFKC normalization"

/-! ## Taking apart -/

/-- The text without the controls and spaces at its start, and without any
    tab or line break. -/
def clean (url : Text) : Text :=
  (url.dropWhile fun c => decide (c.toNat ≤ 0x20)).filter fun c =>
    c != .char '\t' && c != .char '\r' && c != .char '\n'

/-- Whether the code point may stand in a scheme. -/
def isSchemeSign : CodePoint → Bool
  | .char c => c.isAlphanum || c == '+' || c == '-' || c == '.'
  | .surrogate _ => false

/-- Whether a text is a scheme: a letter, then the signs that may stand in
    one. -/
def isScheme : Text → Bool
  | .char c :: rest => c.isAlpha && rest.all isSchemeSign
  | _ => false

/-- The scheme before the first colon, in lower case, and the rest; the
    whole text and the default if there is no scheme. -/
def splitScheme (fallback url : Text) : Text × Text :=
  match Text.cut (.char ':') url with
  | (scheme, some rest) =>
      if isScheme scheme then (Text.toAsciiLower scheme, rest)
      else (fallback, url)
  | (_, none) => (fallback, url)

/-- Whether the code point ends the network location. -/
def endsNetloc (c : CodePoint) : Bool :=
  c == .char '/' || c == .char '?' || c == .char '#'

/-- The network location after two slashes, and the rest. -/
def splitNetloc : Text → Text × Text
  | .char '/' :: .char '/' :: rest =>
      (rest.takeWhile (!endsNetloc ·), rest.dropWhile (!endsNetloc ·))
  | url => ([], url)

/-- The host and the port of a network location: what stands behind the
    names of a user. -/
def hostAndPort (netloc : Text) : Text :=
  (netloc.reverse.takeWhile (· != .char '@')).reverse

/-- Checks a host that stands in brackets. -/
def checkHost (host : Text) : Except SplitError Unit :=
  if host.head? == some (.char 'v') then
    if isLaterVersion host then .ok () else .error .badLaterVersion
  else if isVersion4 host then .error .version4InBrackets
  else if isVersion6 host then .ok ()
  else .error (.noAddress host)

/-- Checks the host of a network location with brackets in it.  Nothing may
    stand before them, and nothing but a port behind them. -/
def checkBracketed (netloc : Text) : Except SplitError Unit :=
  match Text.cut (.char '[') (hostAndPort netloc) with
  | (before, some inside) =>
      if !before.isEmpty then .error .unbalancedBrackets
      else
        match Text.cut (.char ']') inside with
        | (host, some (c :: _)) =>
            if c == .char ':' then checkHost host
            else .error .unbalancedBrackets
        | (host, _) => checkHost host
  | (whole, none) => checkHost (Text.cut (.char ':') whole).1

/-- Checks the brackets of a network location. -/
def checkBrackets (netloc : Text) : Except SplitError Unit :=
  match netloc.contains (.char '['), netloc.contains (.char ']') with
  | false, false => .ok ()
  | true, true => checkBracketed netloc
  | _, _ => .error .unbalancedBrackets

/-- The code points whose compatibility form holds one of the signs that
    delimit the parts of a URL. -/
def delimiterForms : List Nat := [
  0x2047, 0x2048, 0x2049, 0x2100, 0x2101, 0x2105, 0x2106, 0x2A74, 0xFE13,
  0xFE16, 0xFE55, 0xFE56, 0xFE5F, 0xFE6B, 0xFF03, 0xFF0F, 0xFF1A, 0xFF1F,
  0xFF20]

/-- Refuses a network location in which a delimiter is disguised. -/
def checkNetloc (netloc : Text) : Except SplitError Unit :=
  if netloc.any fun c => delimiterForms.contains c.toNat then
    .error (.netlocNormalization netloc)
  else .ok ()

/-- The parts of a URL; the default is the scheme of a URL that has none. -/
def split (fallback url : Text) : Except SplitError Parts := do
  let (scheme, rest) := splitScheme fallback (clean url)
  let (netloc, rest) := splitNetloc rest
  checkBrackets netloc
  -- a question mark in the fragment opens no query
  let (rest, fragment) := Text.cut (.char '#') rest
  let (path, query) := Text.cut (.char '?') rest
  checkNetloc netloc
  return ⟨scheme, netloc, path, query.getD [], fragment.getD []⟩

/-! ## Putting together -/

/-- The schemes whose URLs have a network location; no scheme is one of
    them. -/
def netlocSchemes : List Text :=
  ["", "ftp", "http", "gopher", "nntp", "telnet", "imap", "wais", "file",
    "mms", "https", "shttp", "snews", "prospero", "rtsp", "rtsps", "rtspu",
    "rsync", "svn", "svn+ssh", "sftp", "nfs", "git", "git+ssh", "ws",
    "wss", "itms-services"].map text

/-- A part with a sign before it, or nothing if the part is empty. -/
def after (sign : Char) (part : Text) : Text :=
  if part.isEmpty then [] else .char sign :: part

/-- The network location and the path.  Without a network location two
    slashes stand before the path if the scheme has one, but not before a
    path that starts with two of its own. -/
def Parts.writeLocation (p : Parts) : Text :=
  let twoSlashes := [.char '/', .char '/']
  if !p.netloc.isEmpty
      || (!p.scheme.isEmpty && netlocSchemes.contains p.scheme
        && p.path.take 2 != twoSlashes) then
    let path :=
      if p.path.isEmpty || p.path.head? == some (.char '/') then p.path
      else .char '/' :: p.path
    twoSlashes ++ p.netloc ++ path
  else p.path

/-- The URL with the given parts. -/
def Parts.write (p : Parts) : Text :=
  (if p.scheme.isEmpty then [] else p.scheme ++ [.char ':'])
    ++ p.writeLocation ++ after '?' p.query ++ after '#' p.fragment

/-- What a server is asked for: the path and the query. -/
def Parts.selector (p : Parts) : Text :=
  Parts.write ⟨[], [], p.path, p.query, []⟩

end CouchClient.Url
