import CouchClient.Entries
import CouchClient.Session.Network

/-! # Sessions — connections that are used again

    A session keeps the connections whose last response was read to its
    end, by where they go, and takes the one that was kept last.  What is
    kept may have been shut by the server, so only an open one is taken;
    without one a connection is made.

    * `Session.acquire` — a connection for an origin;
    * `Session.exchange` — one request and the reply to it;
    * `Session.release` — gives a connection back. -/

namespace CouchClient

/-- The stream of a response: the connection that it comes on, where that
    goes, what arrives, and whether the stream is closed. -/
structure ResponseStream where
  connection : Nat
  origin : Origin
  arrival : Arrival
  closed : Bool
deriving DecidableEq

/-- A session: the network, the greatest number of redirects, the URLs
    that have moved with their new places, if they have one, the
    connections that are kept, the last one first, and the streams that
    were handed out, by their numbers. -/
structure Session where
  network : Network
  maxRedirects : Int
  moved : List (Text × Option Text)
  pool : List (Origin × List Nat)
  streams : List ResponseStream

namespace Session

/-- The number of redirects that a session follows unless it is told
    otherwise. -/
def defaultMaxRedirects : Int := 5

/-- Before any request. -/
def ofNetwork (network : Network) (maxRedirects : Int) : Session :=
  ⟨network, maxRedirects, [], [], []⟩

/-! ## Connections -/

/-- The connections that are kept for an origin. -/
def kept (s : Session) (o : Origin) : List Nat :=
  (Entries.get? o s.pool).getD []

/-- Keeps the given connections for an origin, and no others. -/
def setKept (s : Session) (o : Origin) (connections : List Nat) : Session :=
  { s with pool := Entries.insert o connections s.pool }

/-- The first connection that is open, and those after it. -/
def firstOpen (n : Network) : List Nat → Option Nat × List Nat
  | [] => (none, [])
  | c :: rest =>
      -- one that was shut meanwhile is forgotten
      if n.isOpen c then (some c, rest) else firstOpen n rest

/-- Whether connections of a scheme can be made. -/
def isSupported (scheme : Text) : Bool :=
  scheme == text "http" || scheme == text "https"

/-- Makes a connection. -/
def connect (s : Session) (o : Origin) : Except Fault Nat × Session :=
  if isSupported o.scheme then
    match s.network.connect o with
    | (.error f, network) => (.error (.failure f), { s with network })
    | (.ok c, network) => (.ok c, { s with network })
  else (.error (.unsupportedScheme o.scheme), s)

/-- Takes an open connection that is kept, or makes one. -/
def acquire (s : Session) (o : Origin) : Except Fault Nat × Session :=
  match firstOpen s.network (s.kept o) with
  | (some c, rest) => (.ok c, s.setKept o rest)
  | (none, rest) => (s.setKept o rest).connect o

/-- Keeps a connection for later requests. -/
def keep (s : Session) (o : Origin) (c : Nat) : Session :=
  s.setKept o (c :: s.kept o)

/-- Closes a connection. -/
def discard (s : Session) (c : Nat) : Session :=
  { s with network := s.network.close c }

/-- Gives a connection back: it is kept if it can be used again, and closed
    otherwise. -/
def release (s : Session) (o : Origin) (c : Nat) (reusable : Bool) : Session :=
  if reusable then s.keep o c else s.discard c

/-! ## Exchanges -/

/-- Sends a request on a connection and waits for the reply.  Where this
    fails the connection is closed. -/
def exchangeOn (s : Session) (c : Nat) (r : Request) :
    Except Fault WireReply × Session :=
  match s.network.send c r with
  | (.error f, network) =>
      (.error (.failure f), Session.discard { s with network } c)
  | (.ok (), network) =>
      match network.receive c with
      | (.error f, network) =>
          (.error (.failure f), Session.discard { s with network } c)
      | (.ok reply, network) => (.ok reply, { s with network })

/-- Sends a request and gives the reply with the connection that it comes
    on. -/
def exchange (s : Session) (r : Request) :
    Except Fault (Nat × WireReply) × Session :=
  match s.acquire r.origin with
  | (.error f, s) => (.error f, s)
  | (.ok c, s) =>
      match s.exchangeOn c r with
      | (.error f, s) => (.error f, s)
      | (.ok reply, s) => (.ok (c, reply), s)

end Session

end CouchClient
