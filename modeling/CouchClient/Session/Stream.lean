import CouchClient.Http.Transport
import CouchClient.Session.Redirect

/-! # Sessions as transports — the streams of their responses

    A response is read from the stream that its session handed out.  When
    the stream is closed its connection is kept if the response was read
    to its end, and closed otherwise; closing it again does nothing. -/

namespace CouchClient.Session

/-- Reads from the stream of a response. -/
def read (s : Session) (n : Nat) (size : Option Nat) :
    Except Fault Bytes × Session :=
  match s.streams[n]? with
  | none => (.ok [], s)
  | some stream =>
      let (result, arrival) := stream.arrival.read size
      (result.mapError .failure,
        { s with streams := s.streams.set n { stream with arrival } })

/-- Closes the stream of a response, unless that was done, and gives its
    connection back. -/
def close (s : Session) (n : Nat) : Session :=
  match s.streams[n]? with
  | none => s
  | some stream =>
      if stream.closed then s
      else
        let done :=
          { stream with arrival := stream.arrival.close, closed := true }
        Session.release { s with streams := s.streams.set n done }
          stream.origin stream.connection stream.arrival.closed

/-- The number of bytes that are left of a response. -/
def unread (s : Session) (n : Nat) : Nat :=
  ((s.streams[n]?).map fun r => r.arrival.left.length).getD 0

theorem unread_read {s s' : Session} {n : Nat} {size : Option Nat}
    {chunk : Bytes} (h : s.read n size = (.ok chunk, s')) :
    chunk.length + s'.unread n ≤ s.unread n := by
  unfold read at h
  split at h
  · cases h
    simp
  · next stream hs =>
      cases hread : stream.arrival.read size with
      | mk result arrival =>
          obtain ⟨hlt, hget⟩ := List.getElem?_eq_some_iff.mp hs
          rw [hread] at h
          cases result with
          | error f => exact nomatch h
          | ok bs =>
              cases h
              have := Arrival.length_read hread
              simpa [unread, hlt, hget] using this

instance : Transport Nat Session where
  read n size s := ((s.read n size).1, n, (s.read n size).2)
  close n s := (n, s.close n)
  unread n s := s.unread n
  unread_read := by
    intro n size s chunk n' s' h
    cases hread : s.read n size with
    | mk result after =>
        rw [hread] at h
        cases h
        exact unread_read hread
  request method url body headers s :=
    match s.requestWith method url body headers with
    | (.error f, s) => (.error f, s)
    | (.ok r, s) => (.ok ⟨r.status, r.headers, some r.data⟩, s)

end CouchClient.Session
