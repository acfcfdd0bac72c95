import CouchClient.Error
import CouchClient.Http.Request

/-! # Networks — connections and the servers behind them

    A network is driven by a script: the replies of all servers in the
    order in which they come, with failures among them.  A failure says at
    which point of an exchange it strikes at the earliest.  Connections
    are numbered from zero, and everything that reaches a connection is
    kept as an event. -/

namespace CouchClient

/-! ## Replies on the wire -/

/-- The body of a reply as it arrives: the bytes that are left, whether it
    was read to its end or closed, and a failure that meets every read. -/
structure Arrival where
  left : Bytes
  closed : Bool
  failure : Option Failure
deriving DecidableEq

namespace Arrival

/-- Reads at most so many bytes, or all that are left.  With the last byte
    the body closes itself.  A body that ends before the length that its
    reply announces is left out: what reads from the wire closes such a body
    by itself when it fails. -/
def read (a : Arrival) (size : Option Nat) : Except Failure Bytes × Arrival :=
  if a.closed then (.ok [], a)
  else
    match a.failure with
    | some f => (.error f, a)
    | none =>
        let n := size.getD a.left.length
        (.ok (a.left.take n),
          { a with left := a.left.drop n, closed := (a.left.drop n).isEmpty })

/-- Closes the body. -/
def close (a : Arrival) : Arrival := { a with closed := true }

theorem length_read {a a' : Arrival} {size : Option Nat} {chunk : Bytes}
    (h : a.read size = (.ok chunk, a')) :
    chunk.length + a'.left.length ≤ a.left.length := by
  unfold read at h
  split at h
  · cases h
    simp
  · split at h
    · exact nomatch h
    · cases h
      simp only [List.length_take, List.length_drop]
      omega

end Arrival

/-- A reply as a server sends it. -/
structure WireReply where
  status : Int
  headers : Headers Text
  body : Bytes
  willClose : Bool
  readFailure : Option Failure
deriving DecidableEq

/-- The body of a reply, before anything is read. -/
def WireReply.arrival (r : WireReply) : Arrival :=
  ⟨r.body, false, r.readFailure⟩

/-! ## Scripts -/

/-- The points of an exchange, in their order. -/
inductive ExchangePoint where
  | connect
  | request
  | response
deriving DecidableEq

/-- The place of a point in an exchange. -/
def ExchangePoint.rank : ExchangePoint → Nat
  | .connect => 0
  | .request => 1
  | .response => 2

/-- What comes next: a reply, or a failure that strikes at the first point
    that is reached and is not before the given one. -/
inductive ScriptEntry where
  | reply (r : WireReply)
  | failure (earliest : ExchangePoint) (f : Failure)
deriving DecidableEq

/-- The failure of a server that ends a connection instead of a reply. -/
def Failure.disconnected : Failure :=
  ⟨⟨text "RemoteDisconnected", true⟩,
    text "Remote end closed connection without response"⟩

/-- What comes, one entry after the other, and the failure of a server that
    has nothing more to say. -/
structure Script where
  entries : List ScriptEntry
  silence : Failure := .disconnected
deriving DecidableEq

/-! ## Connections -/

/-- A connection: where it goes, and whether it is open. -/
structure Connection where
  origin : Origin
  isOpen : Bool
deriving DecidableEq

/-- What reaches a connection. -/
inductive Event where
  | connect (connection : Nat) (origin : Origin)
  | request (connection : Nat) (r : Request)
  | close (connection : Nat)
deriving DecidableEq

/-- The script that is left, the failure once nothing is, the connections by
    their numbers, and the events so far, last first. -/
structure Network where
  script : List ScriptEntry
  silence : Failure
  connections : List Connection
  events : List Event

namespace Network

/-- Before any connection. -/
def ofScript (script : Script) : Network :=
  ⟨script.entries, script.silence, [], []⟩

/-- Whether a connection is open. -/
def isOpen (n : Network) (c : Nat) : Bool :=
  ((n.connections[c]?).map Connection.isOpen).getD false

/-- Opens or shuts a connection. -/
def setOpen (n : Network) (c : Nat) (isOpen : Bool) : Network :=
  { n with
    connections := n.connections.modify c fun k => { k with isOpen } }

/-- Keeps an event. -/
def record (n : Network) (e : Event) : Network :=
  { n with events := e :: n.events }

/-- The failure that strikes at a point, if there is one. -/
def strike (n : Network) (p : ExchangePoint) : Option Failure × Network :=
  match n.script with
  | .failure earliest f :: script =>
      if earliest.rank ≤ p.rank then (some f, { n with script })
      else (none, n)
  | _ => (none, n)

/-- Makes a connection, which is given the next number even if it
    fails. -/
def connect (n : Network) (o : Origin) : Except Failure Nat × Network :=
  let c := n.connections.length
  let n :=
    { n with connections := n.connections ++ [Connection.mk o false] }
  match (n.record (.connect c o)).strike .connect with
  | (some f, n) => (.error f, n)
  | (none, n) => (.ok c, n.setOpen c true)

/-- Sends a request on a connection.  What stands between a session and the
    wire is left out: it refuses selectors with blanks or control characters,
    and adds the fields `Host` and `Accept-Encoding` to those of the
    request. -/
def send (n : Network) (c : Nat) (r : Request) :
    Except Failure Unit × Network :=
  match (n.record (.request c r)).strike .request with
  | (some f, n) => (.error f, n)
  | (none, n) => (.ok (), n)

/-- Waits for the reply on a connection.  A reply may shut the connection
    behind it, of which nobody is told. -/
def receive (n : Network) (c : Nat) : Except Failure WireReply × Network :=
  match n.script with
  | [] => (.error n.silence, n)
  -- no point comes after this one, so any failure strikes here
  | .failure _ f :: script => (.error f, { n with script })
  | .reply r :: script =>
      let n := { n with script }
      (.ok r, if r.willClose then n.setOpen c false else n)

/-- Closes a connection. -/
def close (n : Network) (c : Nat) : Network :=
  (n.record (.close c)).setOpen c false

end Network

end CouchClient
