import CouchClient.Http.Transport

/-! # Replay — a transport with prepared replies

    Each request takes the next of the replies that were prepared, or the
    failure in its place.  The requests are kept, and so are the streams
    that were handed out.  A request is kept with its fields as they are
    read by their shown names; one whose fields cannot be read so is not
    made at all. -/

namespace CouchClient

/-- A request as a transport gets it. -/
structure Call where
  method : Text
  url : Text
  body : Option Bytes
  headers : Headers Text
deriving DecidableEq

/-- What a request meets. -/
inductive Prepared where
  | reply (r : Response (Option StoredStream))
  | failure (f : Failure)

/-- The replies that are left, a failure that meets every request, the
    requests made, last first, and the streams handed out. -/
structure Replay where
  prepared : List Prepared
  broken : Option Failure
  calls : List Call
  streams : List StoredStream

namespace Replay

/-- Before any request. -/
def ofPrepared (prepared : List Prepared) (broken : Option Failure) : Replay :=
  ⟨prepared, broken, [], []⟩

/-- The failure of a request for which nothing was prepared. -/
def noReply : Failure := ⟨⟨text "RuntimeError", false⟩, text "no reply left"⟩

/-- Keeps a request. -/
def record (r : Replay) (call : Call) : Replay :=
  { r with calls := call :: r.calls }

/-- Hands out a stream: the number that it is known by. -/
def handOut (r : Replay) (s : StoredStream) : Nat × Replay :=
  (r.streams.length, { r with streams := r.streams ++ [s] })

/-- Replies to a request with what was prepared. -/
def reply (r : Replay) : Except Fault (Response (Option Nat)) × Replay :=
  match r.broken, r.prepared with
  | some f, _ => (.error (.failure f), r)
  | none, [] => (.error (.failure noReply), r)
  | none, .failure f :: prepared => (.error (.failure f), { r with prepared })
  | none, .reply p :: prepared =>
      let r := { r with prepared }
      match p.data with
      | none => (.ok ⟨p.status, p.headers, none⟩, r)
      | some s =>
          let (n, r) := r.handOut s
          (.ok ⟨p.status, p.headers, some n⟩, r)

/-- Makes a request. -/
def request (r : Replay) (method url : Text) (body : Option Bytes)
    (headers : Headers Text) :
    Except Fault (Response (Option Nat)) × Replay :=
  match headers.reread with
  | .error name => (.error (.missingField name), r)
  | .ok fields => (r.record ⟨method, url, body, .ofList fields⟩).reply

/-- Reads from a stream that was handed out. -/
def read (r : Replay) (n : Nat) (size : Option Nat) :
    Except Fault Bytes × Replay :=
  match r.streams[n]? with
  | none => (.ok [], r)
  | some s =>
      let (result, s) := s.read size
      (result, { r with streams := r.streams.set n s })

/-- Closes a stream that was handed out. -/
def close (r : Replay) (n : Nat) : Replay :=
  { r with streams := r.streams.modify n StoredStream.close }

/-- The number of bytes that no read has taken from a stream. -/
def unread (r : Replay) (n : Nat) : Nat :=
  ((r.streams[n]?).map StoredStream.unread).getD 0

/-- A read of a reply takes what it gives from what is still to come. -/
theorem unread_read {r r' : Replay} {n : Nat} {size : Option Nat}
    {chunk : Bytes} (h : r.read n size = (.ok chunk, r')) :
    chunk.length + r'.unread n ≤ r.unread n := by
  unfold read at h
  split at h
  · cases h
    simp
  · next s hs =>
      cases hread : s.read size with
      | mk result s' =>
          rw [hread] at h
          cases h
          obtain ⟨hlt, hget⟩ := List.getElem?_eq_some_iff.mp hs
          have := StoredStream.unread_read hread
          simpa [unread, hlt, hget] using this

instance : Transport Nat Replay where
  read n size r := ((r.read n size).1, n, (r.read n size).2)
  close n r := (n, r.close n)
  unread n r := r.unread n
  unread_read := by
    intro n size r chunk n' r' h
    cases hread : r.read n size with
    | mk result after =>
        rw [hread] at h
        cases h
        exact unread_read hread
  request method url body headers r := r.request method url body headers

end Replay

end CouchClient
