import CouchClient.Proofs.Rows.Supply
import CouchClient.Rows.Stream

/-! # Steps — what can be seen of a row stream

    A row stream is used step by step, in any order.  What its answers show
    is the reading of the text that it is supplied with, until it is closed.

    * `View` — a reading, or what was known when the stream was closed;
    * `shows_next`, `shows_close`, `shows_rest` — each operation of the
      stream is the one of its view;
    * `observe_eq` — so a whole run shows the run of the view. -/

namespace CouchClient

/-! ## Views -/

/-- What a row stream shows: the reading of a text, at whose end `last`
    strikes, or what the listing said by the time it was closed. -/
inductive View where
  | live (r : Reading) (last : Option Outline)
  | closed (info : ListingInfo)

namespace View

/-- What the listing says about its rows, as far as it was read. -/
def info : View → ListingInfo
  | live r _ => r.info
  | closed info => info

/-- Whether the stream is closed. -/
def isClosed : View → Bool
  | live _ _ => false
  | closed _ => true

/-- Closes the stream. -/
def close (v : View) : View := .closed v.info

/-- The next row; without one the stream is closed. -/
def next [L : Limits] (f : Text) : View → Except Outline (Option Row) × View
  | live r last =>
      match r.next f last with
      | (.ok (some row), r') => (.ok (some row), .live r' last)
      | (result, r') => (result, .closed r'.info)
  | closed info => (.ok none, .closed info)

/-- All rows that are still to come, and how the stream ends. -/
def rest [L : Limits] (f : Text) : View → (List Row × Except Outline Unit) × View
  | live r last =>
      let ((rows, ending), r') := r.run f last
      ((rows.map Prod.fst, ending), .closed r'.info)
  | closed info => (([], .ok ()), .closed info)

end View

namespace RowStream

variable {β ω : Type} [ByteStream β ω] [Delivery β ω]

/-- The stream shows the view, and reads from a stream that was closed so
    many times before it. -/
inductive Shows (s : RowStream β) (w : ω) (n : Nat) : View → Prop
  | live {t : Text} {last : Option Outline} (hopen : s.closed = false)
      (hsupplies : s.scanner.Supplies w n t last) :
      Shows s w n (.live (s.scanner.reading t) last)
  | closed (hclosed : s.closed = true)
      (hclosings : s.scanner.feed.closings w = n + 1) :
      Shows s w n (.closed s.info)

section
variable {s : RowStream β} {w : ω} {n : Nat} {v : View}

omit [Delivery β ω] in
theorem close_of_closed (h : s.closed = true) : s.close w = (s, w) := by
  rw [close, if_pos h]

/-- An open stream is closed by closing what it reads from. -/
theorem shows_close_of_open (hopen : s.closed = false)
    (hclosings : s.scanner.feed.finalClosings w = n + 1) :
    (s.close w).1.Shows (s.close w).2 n (.closed s.info)
      ∧ (s.close w).1.scanner.rowsField = s.scanner.rowsField := by
  rw [close, hopen]
  exact ⟨.closed rfl hclosings, rfl⟩

/-- The next row of a stream is the next row of its view. -/
theorem shows_next [L : Limits] (h : s.Shows w n v) :
    (s.next w).1.mapError Error.outline = (v.next s.scanner.rowsField).1
      ∧ (s.next w).2.1.Shows (s.next w).2.2 n (v.next s.scanner.rowsField).2
      ∧ (s.next w).2.1.scanner.rowsField = s.scanner.rowsField := by
  cases h with
  | closed hclosed hclosings =>
      rw [next, if_pos hclosed]
      exact ⟨rfl, .closed hclosed hclosings, rfl⟩
  | @live t last hopen hsupplies =>
      have hgoes := Scanner.goesTo_next hsupplies
      rw [next, hopen]
      generalize s.scanner.next w = after at hgoes
      obtain ⟨result, scanner, w'⟩ := after
      cases hgoes with
      | row hfield hnext hsupplies' =>
          rw [View.next, hnext]
          exact ⟨rfl, .live rfl hsupplies', hfield⟩
      | nothing hfield hnext hinfo hclosings =>
          have hclose := shows_close_of_open (s := ⟨scanner, false⟩) rfl hclosings
          rw [View.next, hnext]
          dsimp only
          rw [← hinfo]
          exact ⟨rfl, hclose.1, hclose.2.trans hfield⟩
      | error hfield hnext hinfo hclosings =>
          have hclose := shows_close_of_open (s := ⟨scanner, false⟩) rfl hclosings
          rw [View.next, hnext]
          dsimp only
          rw [← hinfo]
          exact ⟨rfl, hclose.1, hclose.2.trans hfield⟩

/-- A row that a view gives comes before the rest. -/
theorem View.rest_of_row [L : Limits] {f : Text} {row : Row} {v v' : View}
    (h : v.next f = (.ok (some row), v')) :
    v.rest f = ((row :: (v'.rest f).1.1, (v'.rest f).1.2), (v'.rest f).2) := by
  cases v with
  | closed info => cases h
  | live r last =>
      rw [View.next] at h
      split at h
      · next row' r' hnext =>
          cases h
          rw [View.rest, View.rest, Reading.run_eq, hnext]
          rfl
      · next result r' hno hnext =>
          cases h
          exact (hno _ rfl).elim

theorem View.rest_of_nothing [L : Limits] {f : Text} {v v' : View}
    (h : v.next f = (.ok none, v')) : v.rest f = (([], .ok ()), v') := by
  cases v with
  | closed info =>
      cases h
      rfl
  | live r last =>
      rw [View.next] at h
      split at h
      · cases h
      · next result r' hno hnext =>
          cases h
          rw [View.rest, Reading.run_eq, hnext]
          rfl

theorem View.rest_of_error [L : Limits] {f : Text} {e : Outline} {v v' : View}
    (h : v.next f = (.error e, v')) : v.rest f = (([], .error e), v') := by
  cases v with
  | closed info => cases h
  | live r last =>
      rw [View.next] at h
      split at h
      · cases h
      · next result r' hno hnext =>
          cases h
          rw [View.rest, Reading.run_eq, hnext]
          rfl

/-- The rows that are still to come are those of the view. -/
theorem shows_rest [L : Limits] (h : s.Shows w n v) :
    ((s.rest w).1.1, (s.rest w).1.2.mapError Error.outline)
        = (v.rest s.scanner.rowsField).1
      ∧ (s.rest w).2.1.Shows (s.rest w).2.2 n (v.rest s.scanner.rowsField).2
      ∧ (s.rest w).2.1.scanner.rowsField = s.scanner.rowsField := by
  fun_induction rest s w generalizing v with
  | case1 s w e s' w' hnext =>
      obtain ⟨hresult, hshows, hfield⟩ := shows_next h
      rw [hnext] at hresult hshows hfield
      have hview : v.next s.scanner.rowsField
          = (.error e.outline, (v.next s.scanner.rowsField).2) :=
        Prod.ext hresult.symm rfl
      rw [View.rest_of_error hview]
      exact ⟨rfl, hshows, hfield⟩
  | case2 s w s' w' hnext =>
      obtain ⟨hresult, hshows, hfield⟩ := shows_next h
      rw [hnext] at hresult hshows hfield
      have hview : v.next s.scanner.rowsField
          = (.ok none, (v.next s.scanner.rowsField).2) :=
        Prod.ext hresult.symm rfl
      rw [View.rest_of_nothing hview]
      exact ⟨rfl, hshows, hfield⟩
  | case3 s w row s' w' hnext rows ending s'' w'' hrest ih =>
      obtain ⟨hresult, hshows, hfield⟩ := shows_next h
      rw [hnext] at hresult hshows hfield
      have hview : v.next s.scanner.rowsField
          = (.ok (some row), (v.next s.scanner.rowsField).2) :=
        Prod.ext hresult.symm rfl
      obtain ⟨hrows, hshows', hfield'⟩ := ih hshows
      rw [hrest, hfield] at hrows hshows' hfield'
      rw [View.rest_of_row hview, ← hrows]
      exact ⟨rfl, hshows', hfield'⟩

end

end RowStream

/-! ## Runs -/

/-- A use of a row stream. -/
inductive StreamStep where
  /-- Asks for the next row. -/
  | next
  /-- Asks for all rows that are still to come. -/
  | rest
  /-- Closes the stream. -/
  | close
  /-- Asks for the next row and closes the stream. -/
  | nextOnly
  /-- Shows the stream. -/
  | display

/-- An answer of a row stream, of its errors the outline. -/
inductive StreamAnswer where
  | next (result : Except Outline (Option Row))
  | rest (rows : List Row) (ending : Except Outline Unit)
  | closed
  | shown (t : Text)

/-- What is seen after a step: the answer, whether the stream is closed, what
    the listing says, and how often what the stream reads from was closed. -/
structure Sight where
  answer : StreamAnswer
  closed : Bool
  info : ListingInfo
  closings : Nat

namespace RowStream

variable {β ω : Type} [ByteStream β ω] [Delivery β ω]

/-- The answer to a step, and the stream after it. -/
def perform [L : Limits] (s : RowStream β) (w : ω) :
    StreamStep → StreamAnswer × RowStream β × ω
  | .next => (.next ((s.next w).1.mapError Error.outline), (s.next w).2)
  | .rest =>
      (.rest (s.rest w).1.1 ((s.rest w).1.2.mapError Error.outline),
        (s.rest w).2)
  | .close => (.closed, s.close w)
  | .nextOnly =>
      (.next ((s.nextOnly w).1.mapError Error.outline), (s.nextOnly w).2)
  | .display => (.shown s.display, s, w)

/-- What is seen of a stream, step by step. -/
def observe [L : Limits] (s : RowStream β) (w : ω) : List StreamStep → List Sight
  | [] => []
  | step :: steps =>
      let (answer, s, w) := s.perform w step
      ⟨answer, s.closed, s.info, s.scanner.feed.closings w⟩ :: s.observe w steps

end RowStream

namespace View

/-- The view as messages show it. -/
def display (f : Text) (v : View) : Text :=
  text "<RowStream " ++ f ++ (if v.isClosed then text " (closed)" else [])
    ++ [.char '>']

/-- The answer to a step, and the view after it. -/
def perform [L : Limits] (f : Text) (v : View) : StreamStep → StreamAnswer × View
  | .next => (.next (v.next f).1, (v.next f).2)
  | .rest => (.rest (v.rest f).1.1 (v.rest f).1.2, (v.rest f).2)
  | .close => (.closed, v.close)
  | .nextOnly => (.next (v.next f).1, (v.next f).2.close)
  | .display => (.shown (v.display f), v)

/-- What is seen of a view, step by step, where what the stream reads from
    was closed so many times before it. -/
def observe [L : Limits] (f : Text) (n : Nat) (v : View) : List StreamStep → List Sight
  | [] => []
  | step :: steps =>
      let (answer, v) := v.perform f step
      ⟨answer, v.isClosed, v.info, if v.isClosed then n + 1 else n⟩
        :: v.observe f n steps

end View

namespace RowStream

variable {β ω : Type} [ByteStream β ω] [Delivery β ω] {s : RowStream β} {w : ω}
  {n : Nat} {v : View}

/-- A stream was closed once more if its view is closed. -/
theorem Shows.closings_eq (h : s.Shows w n v) :
    s.scanner.feed.closings w = if v.isClosed then n + 1 else n := by
  cases h with
  | live hopen hsupplies =>
      cases hsupplies with
      | coming _ _ hclosings => exact hclosings
      | done _ _ hclosings => exact hclosings
  | closed hclosed hclosings => exact hclosings

end RowStream

/-! ## Before anything is read -/

namespace RowStream

variable {β ω : Type} [ByteStream β ω] [Delivery β ω]

/-- Before anything is read, a row stream shows the text that its stream
    holds. -/
theorem shows_ofFeed {s : β} {w : ω} {bs waiting : Bytes} {t : Text}
    {fault : Option Fault} (h : Delivery.holds (s, w) bs fault)
    (hread : Utf8.readPart bs = .ok (t, waiting)) (ch : Channel) (f : Text) :
    (ofFeed (ch.feed s) f).Shows w (Delivery.closings (s, w))
      (.live (.ofText t)
        (strikingAt (fault.map fun f => ch.errorOf f) waiting)) := by
  have hsupplies : (Scanner.ofFeed (ch.feed s) f).Supplies w
      (Delivery.closings (s, w)) t
      (strikingAt (fault.map fun f => ch.errorOf f) waiting) :=
    .coming (s := Scanner.ofFeed (ch.feed s) f) rfl (ch.holds_feed h)
      (ch.closings_feed s w) (Utf8.readPart_eq_ok_iff.mpr ⟨rfl, rfl, .inl rfl⟩)
      hread
  exact .live (s := ofFeed (ch.feed s) f) rfl hsupplies

end RowStream

end CouchClient
