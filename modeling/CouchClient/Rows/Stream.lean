import CouchClient.Rows.Scanner

/-! # Row streams — the rows of a listing, one at a time

    A row stream gives rows until the listing has ended, something goes
    wrong, or it is closed.  Any of these closes it and what it reads
    from; from then on it gives nothing. -/

namespace CouchClient

/-- The rows of a listing that are still to come. -/
structure RowStream (β : Type) where
  scanner : Scanner β
  closed : Bool

namespace RowStream

variable {β ω : Type} [ByteStream β ω]

/-- The rows of a listing, before any is read. -/
def ofFeed (feed : Feed β) (rowsField : Text) : RowStream β :=
  ⟨.ofFeed feed rowsField, false⟩

/-- What the listing says about its rows, as far as it was read. -/
def info (s : RowStream β) : ListingInfo := s.scanner.info

/-- The stream as messages show it. -/
def display (s : RowStream β) : Text :=
  text "<RowStream " ++ s.scanner.rowsField
    ++ (if s.closed then text " (closed)" else []) ++ [.char '>']

/-- Ends the stream and closes what it reads from, unless that was done. -/
def close (s : RowStream β) (w : ω) : RowStream β × ω :=
  if s.closed then (s, w)
  else
    let (feed, w) := s.scanner.feed.close w
    ({ scanner := { s.scanner.clear with feed }, closed := true }, w)

/-- The next row, or nothing at the end. -/
def next [Limits] (s : RowStream β) (w : ω) :
    Except Error (Option Row) × RowStream β × ω :=
  if s.closed then (.ok none, s, w)
  else
    match s.scanner.next w with
    | (.ok (some row), scanner, w) => (.ok (some row), { s with scanner }, w)
    | (result, scanner, w) =>
        let (s, w) := { s with scanner }.close w
        (result, s, w)

/-- The next row, after which the stream is closed. -/
def nextOnly [Limits] (s : RowStream β) (w : ω) :
    Except Error (Option Row) × RowStream β × ω :=
  let (result, s, w) := s.next w
  let (s, w) := s.close w
  (result, s, w)

theorem left_of_next [Limits] {s s' : RowStream β} {w w' : ω} {row : Row}
    (h : s.next w = (.ok (some row), s', w')) :
    s'.scanner.left w' < s.scanner.left w := by
  unfold next at h
  split at h
  · exact nomatch h
  · split at h
    · next hnext =>
        cases h
        exact Scanner.left_of_next hnext
    · next hne hnext =>
        cases h
        exact (hne _ rfl).elim

/-- All rows that are still to come, and how the stream ends. -/
def rest [Limits] (s : RowStream β) (w : ω) :
    (List Row × Except Error Unit) × RowStream β × ω :=
  match _h : s.next w with
  | (.error e, s, w) => (([], .error e), s, w)
  | (.ok none, s, w) => (([], .ok ()), s, w)
  | (.ok (some row), s, w) =>
      let ((rows, ending), s, w) := s.rest w
      ((row :: rows, ending), s, w)
termination_by s.scanner.left w
decreasing_by exact left_of_next _h

end RowStream

end CouchClient
