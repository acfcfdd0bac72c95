import CouchClient.Session.Stream

/-! # Traffic — what passes over the connections of a session

    A session knows where its connections are, but not what has passed over
    them.  Traffic is a session with a journal of that: the requests that
    were sent, and how far the responses to them were read.  The journal is
    only written, so the session does what it does without one.

    * `Session.perform`, `Session.run` — the uses of a session;
    * `Happening`, `progress` — the journal, and how far it says that the
      response to the last request on a connection was read;
    * `Traffic.perform`, `Traffic.run` — the same uses with the journal;
    * `session_run` — the journal changes nothing. -/

namespace CouchClient

/-! ## Uses of a session -/

/-- A use of a session, or what happens to it. -/
inductive SessionStep where
  /-- Makes a request with the given fields. -/
  | request (method url : Text) (body : Option Bytes)
      (fields : List (Text × Text))
  /-- Makes a request with the given headers. -/
  | requestWith (method url : Text) (body : Option Bytes)
      (headers : Headers Text)
  /-- Reads from the stream of a response. -/
  | read (n : Nat) (size : Option Nat)
  /-- Closes the stream of a response. -/
  | close (n : Nat)
  /-- A connection is gone, of which nobody is told. -/
  | drop (c : Nat)

namespace Session

/-- The session after a use. -/
def perform (s : Session) : SessionStep → Session
  | .request method url body fields => (s.request method url body fields).2
  | .requestWith method url body headers =>
      (s.requestWith method url body headers).2
  | .read n size => (s.read n size).2
  | .close n => s.close n
  | .drop c => { s with network := s.network.setOpen c false }

/-- The session after several uses, one after the other. -/
def run (s : Session) (steps : List SessionStep) : Session :=
  steps.foldl perform s

end Session

/-! ## Journals -/

/-- What passes over a connection. -/
inductive Happening where
  /-- A request is sent, on a connection in the given state. -/
  | sent (c : Nat) (r : Request) (state : Option Connection)
  /-- The response to the last request was read to its end. -/
  | finished (c : Nat)

/-- The request that is sent, and its connection. -/
def Happening.sent? : Happening → Option (Nat × Request)
  | sent c r _ => some (c, r)
  | _ => none

/-- The request among the events of a network, and its connection. -/
def Event.request? : Event → Option (Nat × Request)
  | request c r => some (c, r)
  | _ => none

/-- What became of the last request on a connection, if there was one: its
    response is not read to the end, be it on its way, lost or read in part,
    or is. -/
inductive Progress where
  | none
  | unread
  | finished
deriving DecidableEq

/-- What became of the last request on a connection by the end of a journal,
    whose last happening comes first. -/
def progress (c : Nat) : List Happening → Progress
  | [] => .none
  | .sent c' _ _ :: earlier => if c' = c then .unread else progress c earlier
  | .finished c' :: earlier =>
      if c' = c then .finished else progress c earlier

/-! ## Uses with a journal -/

/-- A session, and what has passed over its connections, last first. -/
structure Traffic where
  session : Session
  journal : List Happening

namespace Traffic

/-- Before any request. -/
def ofSession (s : Session) : Traffic := ⟨s, []⟩

/-- Sends a request and gives the reply, as `Session.exchange` does. -/
def exchange (t : Traffic) (r : Request) :
    Except Fault (Nat × WireReply) × Traffic :=
  match t.session.acquire r.origin with
  | (.error f, s) => (.error f, ⟨s, t.journal⟩)
  | (.ok c, s) =>
      let journal := .sent c r s.network.connections[c]? :: t.journal
      match s.exchangeOn c r with
      | (.error f, s) => (.error f, ⟨s, journal⟩)
      | (.ok reply, s) => (.ok (c, reply), ⟨s, journal⟩)

/-- Sends a request and reads the body of a redirect, as `Session.attempt`
    does. -/
def attempt (t : Traffic) (r : Request) :
    Except Fault (Nat × WireReply) × Traffic :=
  match t.exchange r with
  | (.error f, t) => (.error f, t)
  | (.ok (c, reply), t) =>
      if Session.redirects r.method reply.status then
        match (reply.arrival.read none).1 with
        | .error f => (.error (.failure f), t)
        | .ok _ =>
            (.ok (c, reply),
              ⟨t.session.keep r.origin c, .finished c :: t.journal⟩)
      else (.ok (c, reply), t)

/-- Makes a request and follows so many redirects, as `Session.follow`
    does. -/
def follow (t : Traffic) (hops : Nat) (method url : Text)
    (body : Option Bytes) (fields : List (Text × Text)) :
    Except Fault (Response Nat) × Traffic :=
  match t.session.prepare method url body fields with
  | .error f => (.error f, t)
  | .ok (url, r) =>
      match t.attempt r with
      | (.error f, t) => (.error f, t)
      | (.ok (c, reply), t) =>
          if Session.redirects method reply.status then
            match hops with
            | 0 => (.error .redirectLimit, t)
            | hops + 1 =>
                match t.session.onward url reply with
                | (.error f, s) => (.error f, ⟨s, t.journal⟩)
                | (.ok location, s) =>
                    if reply.status = 303 then
                      follow ⟨s, t.journal⟩ hops (text "GET") location none
                        fields
                    else follow ⟨s, t.journal⟩ hops method location body fields
          else
            let (n, s) :=
              t.session.handOut ⟨c, r.origin, reply.arrival, false⟩
            (.ok ⟨reply.status, some reply.headers, n⟩, ⟨s, t.journal⟩)

/-- Whether a read from a stream is the one that comes to the end of the
    response. -/
def endsWith (r : ResponseStream) (size : Option Nat) : Bool :=
  !r.arrival.closed && (r.arrival.read size).2.closed

/-- Reads from the stream of a response. -/
def read (t : Traffic) (n : Nat) (size : Option Nat) : Traffic :=
  let journal :=
    match t.session.streams[n]? with
    | none => t.journal
    | some r =>
        if endsWith r size then .finished r.connection :: t.journal
        else t.journal
  ⟨(t.session.read n size).2, journal⟩

/-- The traffic after a use of the session. -/
def perform (t : Traffic) : SessionStep → Traffic
  | .request method url body fields =>
      (t.follow t.session.maxRedirects.toNat method url body fields).2
  | .requestWith method url body headers =>
      match headers.reread with
      | .ok fields =>
          (t.follow t.session.maxRedirects.toNat method url body fields).2
      | .error _ => t
  | .read n size => t.read n size
  | .close n => ⟨t.session.close n, t.journal⟩
  | .drop c =>
      ⟨{ t.session with network := t.session.network.setOpen c false },
        t.journal⟩

/-- The traffic after several uses, one after the other. -/
def run (t : Traffic) (steps : List SessionStep) : Traffic :=
  steps.foldl perform t

/-! ## The journal changes nothing -/

theorem session_exchange (t : Traffic) (r : Request) :
    t.session.exchange r = ((t.exchange r).1, (t.exchange r).2.session) := by
  rw [exchange, Session.exchange]
  rcases t.session.acquire r.origin with ⟨_ | c, s⟩
  · rfl
  · dsimp only
    rcases s.exchangeOn c r with ⟨_ | reply, s'⟩ <;> rfl

theorem session_attempt (t : Traffic) (r : Request) :
    t.session.attempt r = ((t.attempt r).1, (t.attempt r).2.session) := by
  rw [attempt, Session.attempt, session_exchange]
  rcases t.exchange r with ⟨_ | ⟨c, reply⟩, t'⟩
  · rfl
  · dsimp only
    split
    · rcases (reply.arrival.read none).1 with _ | bs <;> rfl
    · rfl

/-- Following redirects does to the session what it does without a journal. -/
theorem session_follow (t : Traffic) (hops : Nat) (method url : Text)
    (body : Option Bytes) (fields : List (Text × Text)) :
    t.session.follow hops method url body fields
      = ((t.follow hops method url body fields).1,
          (t.follow hops method url body fields).2.session) := by
  fun_induction follow t hops method url body fields with
  | case1 _ _ _ _ _ _ hprepare =>
      rw [Session.follow.eq_def]
      simp only [hprepare]
  | case2 _ _ _ _ _ _ _ hprepare _ _ hattempt =>
      rw [Session.follow.eq_def]
      simp only [hprepare, session_attempt, hattempt]
  | case3 _ _ _ _ _ _ hprepare _ _ _ hattempt hredirect =>
      rw [Session.follow.eq_def]
      simp only [hprepare, session_attempt, hattempt, if_pos hredirect]
  | case4 _ _ _ _ _ _ hprepare _ _ _ hattempt hredirect _ _ _ honward =>
      rw [Session.follow.eq_def]
      simp only [hprepare, session_attempt, hattempt, if_pos hredirect,
        honward]
  | case5 _ _ _ _ _ _ hprepare _ _ _ hattempt hredirect _ _ _ honward hsee
      ih =>
      rw [Session.follow.eq_def]
      simp only [hprepare, session_attempt, hattempt, if_pos hredirect,
        honward, if_pos hsee]
      exact ih
  | case6 _ _ _ _ _ _ hprepare _ _ _ hattempt hredirect _ _ _ honward hsee
      ih =>
      rw [Session.follow.eq_def]
      simp only [hprepare, session_attempt, hattempt, if_pos hredirect,
        honward, if_neg hsee]
      exact ih
  | case7 _ _ _ _ _ _ _ hprepare _ _ _ hattempt hredirect _ _ hhand =>
      rw [Session.follow.eq_def]
      simp only [hprepare, session_attempt, hattempt, if_neg hredirect, hhand]

/-- A step does to the session what it does without a journal. -/
theorem session_perform (t : Traffic) (step : SessionStep) :
    (t.perform step).session = t.session.perform step := by
  cases step with
  | request method url body fields =>
      rw [perform, Session.perform, Session.request, session_follow]
  | requestWith method url body headers =>
      rw [perform, Session.perform, Session.requestWith]
      cases headers.reread with
      | ok fields =>
          dsimp only
          rw [Session.request, session_follow]
      | error name => rfl
  | read | close | drop => rfl

/-- The session of some traffic is the session that is used without a
    journal. -/
theorem session_run (t : Traffic) (steps : List SessionStep) :
    (t.run steps).session = t.session.run steps := by
  induction steps generalizing t with
  | nil => rfl
  | cons step steps ih =>
      show ((t.perform step).run steps).session
        = (t.session.perform step).run steps
      rw [ih, session_perform]

end Traffic

end CouchClient
