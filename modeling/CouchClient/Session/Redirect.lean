import CouchClient.Http.Response
import CouchClient.Session.Basic
import CouchClient.Url.Resolve

/-! # Redirects — requests that lead on to others

    A reply may name another place.  Requests that only ask are sent on
    with their method; after any other request only a reply that tells to
    look elsewhere leads on, and then with a request that asks, without a
    body.  Redirects are followed up to a limit.  Permanent ones are
    remembered: a URL that has moved is asked for at its new place from
    then on, in one step.

    A redirect that names no place leads back to its URL.  The empty URL
    is no place to lead back to: its redirect leads nowhere, and a
    permanent one moves it there. -/

namespace CouchClient.Session

/-- Whether a reply sends the request to another URL. -/
def redirects (method : Text) (status : Int) : Bool :=
  status == 303
    || ((method == text "GET" || method == text "HEAD")
      && (status == 301 || status == 302 || status == 307))

/-- The place of a URL, as far as the session knows; nothing if it has
    moved nowhere. -/
def locate (s : Session) (url : Text) : Option Text :=
  (Entries.get? url s.moved).getD (some url)

/-- Remembers that a URL has moved. -/
def remember (s : Session) (url : Text) (location : Option Text) : Session :=
  { s with moved := Entries.insert url location s.moved }

/-- Hands out the stream of a reply: the number that it is known by. -/
def handOut (s : Session) (stream : ResponseStream) : Nat × Session :=
  (s.streams.length, { s with streams := s.streams ++ [stream] })

/-- Where a redirect from a URL leads, if it leads anywhere. -/
def destination (url : Text) (headers : Headers Text) :
    Except Url.SplitError (Option Text) :=
  match headers.get? (text "Location") with
  | some reference => (Url.resolve url reference).map some
  | none => .ok (if url.isEmpty then none else some url)

/-! ## One request -/

/-- The request for a URL at the place where the session knows it, with
    that place. -/
def prepare (s : Session) (method url : Text) (body : Option Bytes)
    (fields : List (Text × Text)) : Except Fault (Text × Request) :=
  match s.locate url with
  | none => .error .noLocation
  | some url =>
      match Request.make method url body fields with
      | .error e => .error (.badUrl e)
      | .ok r => .ok (url, r)

/-- Sends a request and gives the reply with the connection that it comes
    on.  The body of a redirect is read to its end, so that the connection
    can be kept. -/
def attempt (s : Session) (r : Request) :
    Except Fault (Nat × WireReply) × Session :=
  match s.exchange r with
  | (.error f, s) => (.error f, s)
  | (.ok (c, reply), s) =>
      if redirects r.method reply.status then
        match (reply.arrival.read none).1 with
        | .error f => (.error (.failure f), s)
        | .ok _ => (.ok (c, reply), s.keep r.origin c)
      else (.ok (c, reply), s)

/-- Takes note of a redirect from a URL and gives the place to go on to. -/
def onward (s : Session) (url : Text) (reply : WireReply) :
    Except Fault Text × Session :=
  match destination url reply.headers with
  | .error e => (.error (.badUrl e), s)
  | .ok location =>
      -- a place is remembered even if nobody can go there
      let s := if reply.status = 301 then s.remember url location else s
      match location with
      | none => (.error .noLocation, s)
      | some location => (.ok location, s)

/-! ## Chains of requests -/

/-- Makes a request and follows so many redirects. -/
def follow (s : Session) (hops : Nat) (method url : Text)
    (body : Option Bytes) (fields : List (Text × Text)) :
    Except Fault (Response Nat) × Session :=
  match s.prepare method url body fields with
  | .error f => (.error f, s)
  | .ok (url, r) =>
      match s.attempt r with
      | (.error f, s) => (.error f, s)
      | (.ok (c, reply), s) =>
          if redirects method reply.status then
            match hops with
            | 0 => (.error .redirectLimit, s)
            | hops + 1 =>
                match s.onward url reply with
                | (.error f, s) => (.error f, s)
                | (.ok location, s) =>
                    if reply.status = 303 then
                      s.follow hops (text "GET") location none fields
                    else s.follow hops method location body fields
          else
            let (n, s) := s.handOut ⟨c, r.origin, reply.arrival, false⟩
            (.ok ⟨reply.status, some reply.headers, n⟩, s)

/-- Makes a request and follows redirects up to the limit. -/
def request (s : Session) (method url : Text) (body : Option Bytes)
    (fields : List (Text × Text)) : Except Fault (Response Nat) × Session :=
  s.follow s.maxRedirects.toNat method url body fields

/-- The fault of a request that has no fields because a name finds none: a
    URL that is not accepted is reported before it. -/
def fieldFault (s : Session) (method url name : Text) (body : Option Bytes) :
    Fault :=
  match s.prepare method url body [] with
  | .error f => f
  | .ok _ => .missingField name

/-- Makes a request with the given headers, which are read by their shown
    names once the URL has been taken apart. -/
def requestWith (s : Session) (method url : Text) (body : Option Bytes)
    (headers : Headers Text) : Except Fault (Response Nat) × Session :=
  match headers.reread with
  | .ok fields => s.request method url body fields
  | .error name => (.error (s.fieldFault method url name body), s)

end CouchClient.Session
