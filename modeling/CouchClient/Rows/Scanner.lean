import CouchClient.Rows.Buffer
import CouchClient.Rows.Phase

/-! # Scanning — a listing, row by row

    A scanner reads from its feed only when the text ahead of it does not
    suffice: to find the next token, or to complete a value.  A value that
    cannot be read, or a number that more digits might follow, is tried
    again with more text, and each time twice as much is asked for, so
    that a value of any size is tried only a few times.  What is too deep
    is not tried again.

    * `Scanner.fill` — takes in the next piece of the feed;
    * `Scanner.peek` — the next code point that is not blank;
    * `Scanner.readValue` — the next value with the text of the listing
      for it;
    * `Scanner.next` — the next row.

    Every piece of the feed becomes text ahead, and every token takes text
    away, so `Scanner.left` bounds what is still to be done. -/

namespace CouchClient

/-- The number of bytes that a read asks for if nothing calls for more. -/
def chunkSize : Nat := 8192

/-- A listing that is being read. -/
structure Scanner (β : Type) where
  feed : Feed β
  rowsField : Text
  buffer : Buffer
  phase : Phase
  info : ListingInfo

namespace Scanner

variable {β ω : Type} [ByteStream β ω]

/-- Before anything is read. -/
def ofFeed (feed : Feed β) (rowsField : Text) : Scanner β :=
  ⟨feed, rowsField, .empty, .start, .initial⟩

/-- A bound for the code points that are still to be scanned. -/
def left (s : Scanner β) (w : ω) : Nat := s.buffer.size + s.feed.unread w

/-! ## Taking in text -/

/-- Takes in the next piece of the feed; false at its end. -/
def fill (s : Scanner β) (size : Nat) (w : ω) :
    Except Error Bool × Scanner β × ω :=
  if s.buffer.ended then (.ok false, s, w)
  else
    match s.feed.read size w with
    | (.error e, feed, w) => (.error e, { s with feed }, w)
    | (.ok chunk, feed, w) =>
        match s.buffer.receive chunk with
        | .error why => (.error (.decode why), { s with feed }, w)
        | .ok buffer => (.ok (!chunk.isEmpty), { s with feed, buffer }, w)

/-- Filling the buffer leaves no more, and less in the feed if something came. -/
theorem left_of_fill {s s' : Scanner β} {size : Nat} {w w' : ω} {more : Bool}
    (h : s.fill size w = (.ok more, s', w')) :
    s'.left w' ≤ s.left w
      ∧ (more = true → s'.feed.unread w' < s.feed.unread w) := by
  unfold fill at h
  split at h
  · cases h
    exact ⟨Nat.le_refl _, nofun⟩
  · split at h
    · exact nomatch h
    · next chunk feed w'' hread =>
        split at h
        · exact nomatch h
        · next buffer hreceive =>
            cases h
            have hsize := Buffer.size_of_receive hreceive
            have hunread := Feed.unread_read hread
            refine ⟨?_, fun hmore => ?_⟩
            · simp only [left]
              omega
            · have : 0 < chunk.length := by
                cases chunk with
                | nil => exact nomatch hmore
                | cons b rest => exact Nat.succ_pos _
              dsimp only
              omega

theorem unread_of_fill {s s' : Scanner β} {size : Nat} {w w' : ω}
    (h : s.fill size w = (.ok true, s', w')) :
    s'.feed.unread w' < s.feed.unread w :=
  (left_of_fill h).2 rfl

/-- The end of the feed brings no text. -/
theorem ahead_of_fill {s s' : Scanner β} {size : Nat} {w w' : ω}
    (h : s.fill size w = (.ok false, s', w')) :
    s'.buffer.ahead = s.buffer.ahead := by
  unfold fill at h
  split at h
  · cases h
    rfl
  · split at h
    · exact nomatch h
    · split at h
      · exact nomatch h
      · next chunk _ _ _ _ _ hreceive =>
          cases hchunk : chunk.isEmpty with
          | true =>
              rw [hchunk] at h
              cases h
              exact Buffer.ahead_of_receive_nil hchunk hreceive
          | false =>
              rw [hchunk] at h
              exact nomatch h

/-- The scanner after the blanks ahead were taken. -/
def skipBlanks (s : Scanner β) : Scanner β :=
  { s with buffer := s.buffer.skipBlanks }

/-- The next code point that is not blank, if there is one. -/
def peek (s : Scanner β) (w : ω) :
    Except Error (Option CodePoint) × Scanner β × ω :=
  match s.skipBlanks.buffer.ahead with
  | c :: _ => (.ok (some c), s.skipBlanks, w)
  | [] =>
      match _h : s.skipBlanks.fill chunkSize w with
      | (.error e, s, w) => (.error e, s, w)
      | (.ok false, s, w) => (.ok none, s, w)
      | (.ok true, s, w) => s.peek w
termination_by s.feed.unread w
decreasing_by
  have := unread_of_fill _h
  exact this

theorem left_skipBlanks (s : Scanner β) (w : ω) :
    s.skipBlanks.left w ≤ s.left w :=
  Nat.add_le_add_right s.buffer.size_skipBlanks _

/-- A code point that was seen is the first one ahead. -/
theorem left_of_peek {s s' : Scanner β} {w w' : ω} {c : Option CodePoint}
    (h : s.peek w = (.ok c, s', w')) :
    s'.left w' ≤ s.left w ∧ (c.isSome → s'.buffer.ahead ≠ []) := by
  fun_induction peek s w
  case case1 hahead =>
      cases h
      exact ⟨left_skipBlanks _ _, fun _ => by rw [hahead]; exact nofun⟩
  case case2 => exact nomatch h
  case case3 hfill =>
      cases h
      exact ⟨Nat.le_trans (left_of_fill hfill).1 (left_skipBlanks _ _), nofun⟩
  case case4 hfill ih =>
      have hle := Nat.le_trans (left_of_fill hfill).1 (left_skipBlanks _ _)
      exact ⟨Nat.le_trans (ih h).1 hle, (ih h).2⟩

/-! ## Values -/

/-- Whether a code point can stand in a number. -/
def standsInNumber (c : CodePoint) : Bool :=
  c.isDigit || c == .char '.' || c == .char 'e' || c == .char 'E'
    || c == .char '+' || c == .char '-'

/-- Whether more text might belong to a value after which only the given
    text is ahead: a number may go on, and truth values are held to the
    same rule. -/
def mayGoOn (v : Json) (rest : Text) : Bool :=
  match v with
  | .int _ => rest.all standsInNumber
  | .float _ => rest.all standsInNumber
  | .bool _ => rest.all standsInNumber
  | _ => false

/-- Takes a value that ends before the given rest of the text ahead, and
    gives the value and its text. -/
def takeValue (s : Scanner β) (v : Json) (rest : Text) (w : ω) :
    Except Error (Json × Text) × Scanner β × ω :=
  let length := s.buffer.ahead.length - rest.length
  (.ok (v, s.buffer.ahead.take length),
    { s with buffer := s.buffer.advance length }, w)

/-- The error of a flaw in the text ahead. -/
def errorOf (s : Scanner β) (flaw : Json.Flaw) : Error :=
  .decode (.json (flaw.locate s.buffer.contents s.buffer.position))

/-- Reads the value ahead and gives it with the text of the listing for
    it.  Where the text ahead does not suffice, a piece of the given size
    is asked for. -/
def readValue [Limits] (s : Scanner β) (size : Nat) (w : ω) :
    Except Error (Json × Text) × Scanner β × ω :=
  match Json.parse s.buffer.ahead with
  | .error flaw =>
      match flaw.wrong.tooDeep? with
      | some what => (.error (.tooDeep what), s, w)
      | none =>
          -- the value may only be cut off: it is flawed if no more text comes
          match _h : s.fill size w with
          | (.error e, s, w) => (.error e, s, w)
          | (.ok true, s, w) => s.readValue (2 * size) w
          | (.ok false, s, w) => (.error (s.errorOf flaw), s, w)
  | .ok (v, rest) =>
      if mayGoOn v rest then
        -- what was read may be the start of a longer number
        match _h : s.fill size w with
        | (.error e, s, w) => (.error e, s, w)
        | (.ok true, s, w) => s.readValue (2 * size) w
        | (.ok false, s, w) => s.takeValue v rest w
      else s.takeValue v rest w
termination_by s.feed.unread w
decreasing_by
  · exact unread_of_fill _h
  · exact unread_of_fill _h

/-- A value that is taken leaves less. -/
theorem left_of_takeValue {s s' : Scanner β} {v : Json} {rest : Text}
    {w w' : ω} {found : Json × Text}
    (hrest : rest.length < s.buffer.ahead.length)
    (h : s.takeValue v rest w = (.ok found, s', w')) :
    s'.left w' < s.left w := by
  have := s.buffer.size_advance
    (Nat.sub_le s.buffer.ahead.length rest.length)
  cases h
  simp only [left]
  omega

/-- Reading a value leaves less. -/
theorem left_of_readValue [Limits] {s s' : Scanner β} {size : Nat} {w w' : ω}
    {found : Json × Text} (h : s.readValue size w = (.ok found, s', w')) :
    s'.left w' < s.left w := by
  fun_induction readValue s size w
  case case3 hfill ih => exact Nat.lt_of_lt_of_le (ih h) (left_of_fill hfill).1
  case case6 hfill ih => exact Nat.lt_of_lt_of_le (ih h) (left_of_fill hfill).1
  case case7 hparse _ _ _ hfill =>
      have hlt := Json.length_rest_of_parse hparse
      rw [← ahead_of_fill hfill] at hlt
      exact Nat.lt_of_lt_of_le (left_of_takeValue hlt h) (left_of_fill hfill).1
  case case8 hparse _ =>
      exact left_of_takeValue (Json.length_rest_of_parse hparse) h
  all_goals exact nomatch h

/-! ## Rows -/

/-- The error of a code point, or of the end, where only others are
    accepted. -/
def refuse (s : Scanner β) (c : Option CodePoint)
    (expected : List CodePoint) : Error :=
  match c with
  | none => .decode (.endOfInput expected)
  | some c => .decode (.unexpected c s.buffer.position expected)

/-- Takes a code point and goes on to another phase. -/
def take (s : Scanner β) (phase : Phase) : Scanner β :=
  { s with buffer := s.buffer.advance 1, phase }

/-- Takes the end of a row and forgets what was read of it. -/
def endRow (s : Scanner β) : Scanner β :=
  { s with buffer := (s.buffer.advance 1).compact, phase := .rowEnd }

/-- Forgets all text. -/
def clear (s : Scanner β) : Scanner β := { s with buffer := s.buffer.clear }

/-- Reads the feed to its end and forgets all of it. -/
def drain (s : Scanner β) (w : ω) : Except Error Unit × Scanner β × ω :=
  match _h : s.clear.fill chunkSize w with
  | (.error e, s, w) => (.error e, s, w)
  | (.ok false, s, w) => (.ok (), s, w)
  | (.ok true, s, w) => s.drain w
termination_by s.feed.unread w
decreasing_by
  have := unread_of_fill _h
  exact this

/-- Reads the value ahead and goes on to the phase after it. -/
def passValue [Limits] (s : Scanner β) (w : ω) : Except Error Unit × Scanner β × ω :=
  match s.readValue chunkSize w with
  | (.error e, s, w) => (.error e, s, w)
  | (.ok (v, raw), s, w) =>
      match s.phase.afterValue s.rowsField s.info v raw with
      | .error why => (.error (.decode why), s, w)
      | .ok (phase, info) => (.ok (), { s with phase, info }, w)

/-- Passing over a value leaves less. -/
theorem left_of_passValue [Limits] {s s' : Scanner β} {w w' : ω}
    (h : s.passValue w = (.ok (), s', w')) : s'.left w' < s.left w := by
  unfold passValue at h
  split at h
  · exact nomatch h
  · next hread =>
      split at h
      · exact nomatch h
      · cases h
        have := left_of_readValue hread
        exact this

/-- Taking the next character leaves less. -/
theorem left_take {s : Scanner β} {phase : Phase} {w : ω}
    (h : s.buffer.ahead ≠ []) : (s.take phase).left w < s.left w := by
  have := s.buffer.size_advance (n := 1) (List.length_pos_iff.mpr h)
  simp only [take, left]
  omega

/-- The next row, or nothing once the listing and its feed have ended. -/
def next [Limits] (s : Scanner β) (w : ω) :
    Except Error (Option Row) × Scanner β × ω :=
  match s.phase with
  | .finish =>
      match s.drain w with
      | (.error e, s, w) => (.error e, s, w)
      | (.ok (), s, w) => (.ok none, s, w)
  | _ =>
      match _hp : s.peek w with
      | (.error e, s, w) => (.error e, s, w)
      | (.ok c, s, w) =>
          match _hm : s.phase.move s.rowsField c with
          | .refuse expected => (.error (s.refuse c expected), s, w)
          | .giveRow members =>
              (.ok (some (Row.ofMembers members)), s.endRow, w)
          | .take phase => (s.take phase).next w
          | .value =>
              match _hv : s.passValue w with
              | (.error e, s, w) => (.error e, s, w)
              | (.ok (), s, w) => s.next w
termination_by s.left w
decreasing_by
  · have hpeek := left_of_peek _hp
    have hahead := hpeek.2 (Phase.isSome_of_take _hm)
    exact Nat.lt_of_lt_of_le (left_take hahead) hpeek.1
  · have := (left_of_peek _hp).1
    have := left_of_passValue _hv
    omega

/-- Ending a row takes its brace. -/
theorem left_endRow {s : Scanner β} {w : ω} (h : s.buffer.ahead ≠ []) :
    s.endRow.left w < s.left w := by
  have := s.buffer.size_advance (n := 1) (List.length_pos_iff.mpr h)
  simp only [endRow, left, Buffer.size_compact]
  omega

/-- A row takes up text. -/
theorem left_of_next [Limits] {s s' : Scanner β} {w w' : ω} {row : Row}
    (h : s.next w = (.ok (some row), s', w')) : s'.left w' < s.left w := by
  fun_induction next s w
  case case5 hp _ hm _ =>
      cases h
      have hpeek := left_of_peek hp
      exact Nat.lt_of_lt_of_le
        (left_endRow (hpeek.2 (Phase.isSome_of_giveRow hm))) hpeek.1
  case case6 hp _ hm _ ih =>
      have hpeek := left_of_peek hp
      exact Nat.lt_of_lt_of_le
        (Nat.lt_trans (ih h) (left_take (hpeek.2 (Phase.isSome_of_take hm))))
        hpeek.1
  case case8 hp _ _ _ hv _ ih =>
      exact Nat.lt_of_lt_of_le
        (Nat.lt_trans (ih h) (left_of_passValue hv)) (left_of_peek hp).1
  all_goals exact nomatch h

end Scanner

end CouchClient
