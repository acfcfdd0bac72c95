import CouchClient.Http.Body
import CouchClient.Json.Reading

/-! # Buffers — text that arrives in pieces

    A row stream reads from a stream of bytes, or from a body around one.
    What has arrived is kept as text: the part that was taken already,
    which the places in messages are counted from, and the part ahead.
    The bytes of a character that has not arrived as a whole wait. -/

namespace CouchClient

/-! ## Feeds -/

/-- What a row stream reads from: a stream as it is, or a body. -/
inductive Feed (β : Type) where
  | direct (s : β)
  | body (b : Body β)

namespace Feed

variable {β ω : Type} [ByteStream β ω]

/-- Reads at most so many bytes. -/
def read (f : Feed β) (size : Nat) (w : ω) :
    Except Error Bytes × Feed β × ω :=
  match f with
  | .direct s =>
      let (result, s, w) := ByteStream.read s (some size) w
      (result.mapError .fault, .direct s, w)
  | .body b =>
      let (result, b, w) := b.read (some size) w
      (result, .body b, w)

/-- Closes the stream or the body. -/
def close (f : Feed β) (w : ω) : Feed β × ω :=
  match f with
  | .direct s =>
      let (s, w) := ByteStream.close s w
      (.direct s, w)
  | .body b =>
      let (b, w) := b.close w
      (.body b, w)

/-- A bound for the bytes that are still to come. -/
def unread (f : Feed β) (w : ω) : Nat :=
  match f with
  | .direct s => ByteStream.unread s w
  | .body b => b.unread w

/-- A read of a feed takes what it gives from what is still to come. -/
theorem unread_read {f f' : Feed β} {size : Nat} {w w' : ω} {chunk : Bytes}
    (h : f.read size w = (.ok chunk, f', w')) :
    chunk.length + f'.unread w' ≤ f.unread w := by
  cases f with
  | direct s =>
      cases hr : ByteStream.read s (some size) w with
      | mk result rest =>
          obtain ⟨s', w''⟩ := rest
          simp only [read, hr] at h
          cases result with
          | error e => cases h
          | ok c =>
              cases h
              exact ByteStream.unread_read hr
  | body b =>
      cases hr : b.read (some size) w with
      | mk result rest =>
          obtain ⟨b', w''⟩ := rest
          simp only [read, hr] at h
          cases h
          exact Body.unread_read hr

end Feed

/-! ## Buffers -/

/-- Text that was taken, last first, text ahead, bytes that wait for the
    rest of their character, and whether the feed has ended. -/
structure Buffer where
  taken : Text
  ahead : Text
  waiting : Bytes
  ended : Bool

namespace Buffer

/-- Nothing has arrived. -/
def empty : Buffer := ⟨[], [], [], false⟩

/-- The number of code points that were taken. -/
def position (b : Buffer) : Nat := b.taken.length

/-- All the text that is kept. -/
def contents (b : Buffer) : Text := b.taken.reverse ++ b.ahead

/-- The buffer after the next code points were taken. -/
def advance (b : Buffer) (n : Nat) : Buffer :=
  { b with
    taken := (b.ahead.take n).reverse ++ b.taken
    ahead := b.ahead.drop n }

/-- The buffer after the blanks ahead were taken. -/
def skipBlanks (b : Buffer) : Buffer :=
  b.advance (b.ahead.takeWhile Json.isBlank).length

/-- Forgets the text that was taken, once it is no less than the text
    ahead. -/
def compact (b : Buffer) : Buffer :=
  if b.ahead.length ≤ b.taken.length then { b with taken := [] } else b

/-- Forgets all text. -/
def clear (b : Buffer) : Buffer := { b with taken := [], ahead := [] }

/-- Takes in bytes that have arrived; no bytes are the end, where no byte
    may be waiting any more. -/
def receive (b : Buffer) (chunk : Bytes) : Except BadReply Buffer :=
  if chunk.isEmpty then
    -- what is waiting is refused as the bytes of no character
    match Utf8.read b.waiting with
    | .error e => .error (.encoding e)
    | .ok _ => .ok { b with ended := true }
  else
    match Utf8.readPart (b.waiting ++ chunk) with
    | .error e => .error (.encoding e)
    | .ok (t, waiting) => .ok { b with ahead := b.ahead ++ t, waiting }

/-- A bound for the code points ahead and those that wait. -/
def size (b : Buffer) : Nat := b.ahead.length + b.waiting.length

theorem size_advance (b : Buffer) {n : Nat} (h : n ≤ b.ahead.length) :
    (b.advance n).size + n = b.size := by
  simp only [size, advance, List.length_drop]
  omega

theorem size_skipBlanks (b : Buffer) : b.skipBlanks.size ≤ b.size := by
  have := b.size_advance (List.takeWhile_prefix Json.isBlank).length_le
  exact Nat.le_of_add_right_le (Nat.le_of_eq this)

theorem size_compact (b : Buffer) : b.compact.size = b.size := by
  unfold compact
  split <;> rfl

/-- A chunk adds no more to a buffer than its bytes. -/
theorem size_of_receive {b b' : Buffer} {chunk : Bytes}
    (h : b.receive chunk = .ok b') : b'.size ≤ b.size + chunk.length := by
  unfold receive at h
  split at h
  · split at h
    · exact nomatch h
    · cases h
      exact Nat.le_add_right _ _
  · split at h
    · exact nomatch h
    · next hread =>
        cases h
        have := Utf8.length_readPart hread
        simp only [size, List.length_append] at *
        omega

/-- The end of the stream adds nothing that is ahead. -/
theorem ahead_of_receive_nil {b b' : Buffer} {chunk : Bytes}
    (hchunk : chunk.isEmpty) (h : b.receive chunk = .ok b') :
    b'.ahead = b.ahead := by
  rw [receive, if_pos hchunk] at h
  split at h
  · exact nomatch h
  · cases h
    rfl

end Buffer

end CouchClient
