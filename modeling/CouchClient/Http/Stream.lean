import CouchClient.Error

/-! # Streams — where the bytes of a reply come from

    A stream is read in pieces and closed.  Where its bytes are kept is
    left to the world around it: a stream is a handle `β`, and reading
    gives back the handle and the world as they are afterwards.  The one
    law is that bytes come from a store that only shrinks, so every loop
    that reads until nothing comes ends.

    A `StoredStream` holds its own bytes.  It may give less than it is
    asked for, and fail from some position on. -/

namespace CouchClient

/-- Streams `β` that are read and closed in a world `ω`. -/
class ByteStream (β ω : Type) where
  /-- Reads at most so many bytes, or all that are left. -/
  read : β → Option Nat → ω → Except Fault Bytes × β × ω
  /-- Closes the stream. -/
  close : β → ω → β × ω
  /-- A bound for the bytes that are still to come. -/
  unread : β → ω → Nat
  unread_read : ∀ {s : β} {size : Option Nat} {w : ω} {chunk : Bytes}
    {s' : β} {w' : ω}, read s size w = (.ok chunk, s', w') →
      chunk.length + unread s' w' ≤ unread s w

/-- Bytes that are kept with the stream, a limit for a single read, a fault
    that strikes from a position on, the sizes that were asked for, last
    first, and a count of the closings. -/
structure StoredStream where
  content : Bytes
  position : Nat
  limit : Option Nat
  failure : Option (Fault × Nat)
  asked : List (Option Nat)
  closes : Nat

namespace StoredStream

/-- The stream of some bytes, before anything is read. -/
def ofBytes (content : Bytes) (limit : Option Nat)
    (failure : Option (Fault × Nat)) : StoredStream :=
  ⟨content, 0, limit, failure, [], 0⟩

/-- The lesser of two sizes, where no size is no limit. -/
def least : Option Nat → Option Nat → Option Nat
  | none, size => size
  | some m, none => some m
  | some m, some n => some (min m n)

/-- The bytes that a read of the given size takes, and the stream after
    it. -/
def take (s : StoredStream) (size : Option Nat) : Bytes × StoredStream :=
  let left := s.content.drop s.position
  let chunk :=
    match size with
    | some n => left.take n
    | none => left
  (chunk, { s with position := s.position + chunk.length })

/-- Notes the size that is asked for. -/
def ask (s : StoredStream) (size : Option Nat) : StoredStream :=
  { s with asked := size :: s.asked }

/-- Reads at most so many bytes, up to the position of a fault; from that
    position on the fault strikes. -/
def read (s : StoredStream) (size : Option Nat) :
    Except Fault Bytes × StoredStream :=
  let s := s.ask size
  let size := least s.limit size
  match s.failure with
  | none =>
      let (chunk, s) := s.take size
      (.ok chunk, s)
  | some (fault, after) =>
      if after ≤ s.position then (.error fault, s)
      else
        let (chunk, s) := s.take (least (some (after - s.position)) size)
        (.ok chunk, s)

/-- Counts a closing. -/
def close (s : StoredStream) : StoredStream :=
  { s with closes := s.closes + 1 }

/-- The number of bytes that no read has taken. -/
def unread (s : StoredStream) : Nat := s.content.length - s.position

/-- A stored stream takes what it gives from what is still to come. -/
theorem unread_take (s : StoredStream) (size : Option Nat) :
    (s.take size).1.length + (s.take size).2.unread ≤ s.unread := by
  have hlen : (s.take size).1.length ≤ s.content.length - s.position := by
    rw [← List.length_drop]
    cases size with
    | none => exact Nat.le_refl _
    | some n => exact (List.take_prefix n _).length_le
  show (s.take size).1.length
      + (s.content.length - (s.position + (s.take size).1.length))
    ≤ s.content.length - s.position
  omega

theorem unread_read {s s' : StoredStream} {size : Option Nat} {chunk : Bytes}
    (h : s.read size = (.ok chunk, s')) :
    chunk.length + s'.unread ≤ s.unread := by
  unfold read at h
  dsimp only at h
  split at h
  · cases h
    exact unread_take (s.ask size) _
  · split at h
    · cases h
    · cases h
      exact unread_take (s.ask size) _

/-- A stored stream needs nothing of the world around it. -/
instance : ByteStream StoredStream Unit where
  read s size _ := ((s.read size).1, (s.read size).2, ())
  close s _ := (s.close, ())
  unread s _ := s.unread
  unread_read := by
    intro s size w chunk s' w' h
    cases h' : s.read size with
    | mk result after =>
        rw [h'] at h
        cases h
        exact unread_read h'

end StoredStream

end CouchClient
