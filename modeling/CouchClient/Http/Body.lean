import CouchClient.Http.Stream

/-! # Bodies — streams that are closed once

    The body of a reply wraps the stream of its bytes.  A fault of the
    delivery while reading closes the body and is reported with the method
    and the URL of the request.  A closed body gives no bytes, and its
    stream is closed no second time.  A body without a stream is closed
    from the start. -/

namespace CouchClient

/-- The body of a reply. -/
structure Body (β : Type) where
  stream : Option β
  method : Option Text
  url : Option Text
  closed : Bool

namespace Body

variable {β ω : Type} [ByteStream β ω]

/-- The body of a reply to a request. -/
def ofStream (stream : Option β) (method url : Option Text) : Body β :=
  ⟨stream, method, url, stream.isNone⟩

/-- Closes the stream, unless that was done. -/
def close (b : Body β) (w : ω) : Body β × ω :=
  match b.closed, b.stream with
  | false, some s =>
      let (s, w) := ByteStream.close s w
      ({ b with stream := some s, closed := true }, w)
  | _, _ => ({ b with closed := true }, w)

/-- The error of a fault that strikes while the body is read. -/
def errorOf (b : Body β) (f : Fault) : Error :=
  if f.isDelivery then .transport f b.method b.url else .fault f

/-- Reads at most so many bytes, or all that are left. -/
def read (b : Body β) (size : Option Nat) (w : ω) :
    Except Error Bytes × Body β × ω :=
  match b.closed, b.stream with
  | false, some s =>
      match ByteStream.read s size w with
      | (.ok chunk, s, w) => (.ok chunk, { b with stream := some s }, w)
      | (.error f, s, w) =>
          let b := { b with stream := some s }
          if f.isDelivery then
            -- the error names the request of the body, open or closed
            let (b', w) := b.close w
            (.error (b.errorOf f), b', w)
          else (.error (b.errorOf f), b, w)
  | _, _ => (.ok [], b, w)

/-- Reads a number of bytes, all that are left if the number is negative or
    there is none. -/
def readInt (b : Body β) (size : Option Int) (w : ω) :
    Except Error Bytes × Body β × ω :=
  match size with
  | some (.ofNat n) => b.read (some n) w
  | _ => b.read none w

/-- Reads all that is left and closes the body, whether the read succeeds
    or not. -/
def readAll (b : Body β) (w : ω) : Except Error Bytes × Body β × ω :=
  let (result, b, w) := b.read none w
  let (b, w) := b.close w
  (result, b, w)

/-- Reads a number of bytes and closes the body. -/
def readOnce (b : Body β) (size : Option Int) (w : ω) :
    Except Error Bytes × Body β × ω :=
  let (result, b, w) := b.readInt size w
  let (b, w) := b.close w
  (result, b, w)

/-- A bound for the bytes that are still to come. -/
def unread (b : Body β) (w : ω) : Nat :=
  match b.stream with
  | some s => ByteStream.unread s w
  | none => 0

/-- A read of a body takes what it gives from what is still to come. -/
theorem unread_read {b b' : Body β} {size : Option Nat} {w w' : ω}
    {chunk : Bytes} (h : b.read size w = (.ok chunk, b', w')) :
    chunk.length + b'.unread w' ≤ b.unread w := by
  unfold read at h
  split at h
  · next s hclosed hstream =>
      split at h
      · next chunk' s' w'' hread =>
          cases h
          have := ByteStream.unread_read hread
          simp only [unread, hstream]
          exact this
      · split at h
        · cases h
        · cases h
  · cases h
    simp

end Body

end CouchClient
