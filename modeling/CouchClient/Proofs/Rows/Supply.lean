import CouchClient.Proofs.Http.Delivery
import CouchClient.Proofs.Rows.Reading
import CouchClient.Proofs.Text.Utf8

/-! # Supplies — a scanner and the text that is still to come

    What a scanner is supplied with is one text and what strikes at its
    end, however the bytes arrive.  Each operation of the scanner does on
    its buffer what a reading does on the text:

    * `fillsTo_fill` — taking in bytes changes nothing;
    * `peeksTo_peek`, `readsValue_readValue`, `drainsTo_drain` — tokens;
    * `goesTo_next` — so the next row of the scanner is the next row of the
      reading. -/

namespace CouchClient

/-- What strikes after the last byte, where these bytes wait for others. -/
def strikingAt (e : Option Error) (waiting : Bytes) : Option Outline :=
  match e, waiting with
  | some e, _ => some e.outline
  | none, [] => none
  | none, _ :: _ => some .decode

namespace Scanner

variable {β ω : Type} [ByteStream β ω] [Delivery β ω]

/-- The scanner is supplied with the given text, at whose end `last`
    strikes, by a feed that was closed so many times. -/
inductive Supplies (s : Scanner β) (w : ω) (n : Nat) :
    Text → Option Outline → Prop
  | coming {bs waiting : Bytes} {e : Option Error} {t : Text}
      (hended : s.buffer.ended = false) (hfeed : s.feed.Holds w bs e)
      (hclosings : s.feed.closings w = n)
      (hwaiting : Utf8.readPart s.buffer.waiting = .ok ([], s.buffer.waiting))
      (hread : Utf8.readPart (s.buffer.waiting ++ bs) = .ok (t, waiting)) :
      Supplies s w n (s.buffer.ahead ++ t) (strikingAt e waiting)
  | done (hended : s.buffer.ended = true) (hfeed : s.feed.Holds w [] none)
      (hclosings : s.feed.closings w = n) : Supplies s w n s.buffer.ahead none

/-- The scanner reads the same listing, and stands at the same place of
    it. -/
structure Keeps (s s' : Scanner β) : Prop where
  rowsField : s'.rowsField = s.rowsField
  phase : s'.phase = s.phase
  info : s'.info = s.info

theorem Keeps.trans {s s' s'' : Scanner β} (h : s.Keeps s') (h' : s'.Keeps s'') :
    s.Keeps s'' :=
  ⟨h'.rowsField.trans h.rowsField, h'.phase.trans h.phase, h'.info.trans h.info⟩

section
variable {s : Scanner β} {w : ω} {n : Nat} {t : Text} {last : Option Outline}

/-- Closing the feed of a scanner closes its stream once. -/
theorem Supplies.finalClosings_eq (h : s.Supplies w n t last) :
    s.feed.finalClosings w = n + 1 := by
  cases h with
  | coming _ hfeed hclosings => rw [Feed.finalClosings_eq hfeed, hclosings]
  | done _ hfeed hclosings => rw [Feed.finalClosings_eq hfeed, hclosings]

/-- Taking text from the buffer takes it from the text to come. -/
theorem Supplies.drop (h : s.Supplies w n t last) (s' : Scanner β) {k : Nat}
    (hfeed : s'.feed = s.feed) (hwaiting : s'.buffer.waiting = s.buffer.waiting)
    (hended : s'.buffer.ended = s.buffer.ended)
    (hahead : s'.buffer.ahead = s.buffer.ahead.drop k)
    (hk : k ≤ s.buffer.ahead.length) : s'.Supplies w n (t.drop k) last := by
  cases h with
  | @coming bs waiting e u hended' hfeed' hclosings hwaiting' hread =>
      rw [List.drop_append_of_le_length hk, ← hahead]
      rw [← hended] at hended'
      rw [← hfeed] at hfeed' hclosings
      rw [← hwaiting] at hwaiting' hread
      exact .coming hended' hfeed' hclosings hwaiting' hread
  | done hended' hfeed' hclosings =>
      rw [← hahead]
      rw [← hended] at hended'
      rw [← hfeed] at hfeed' hclosings
      exact .done hended' hfeed' hclosings

/-! ## Taking in text -/

/-- What a fill may come to. -/
inductive FillsTo (s : Scanner β) (n : Nat) (t : Text) :
    Option Outline → Except Error Bool → Scanner β → ω → Prop
  | more {s' : Scanner β} {w' : ω} {last : Option Outline} (hkeeps : s.Keeps s')
      (hsupplies : s'.Supplies w' n t last) : FillsTo s n t last (.ok true) s' w'
  | nothing {s' : Scanner β} {w' : ω} (hkeeps : s.Keeps s')
      (hall : t = s.buffer.ahead) (hahead : s'.buffer.ahead = s.buffer.ahead)
      (hsupplies : s'.Supplies w' n t none) : FillsTo s n t none (.ok false) s' w'
  | error {s' : Scanner β} {w' : ω} {e : Error} (hkeeps : s.Keeps s')
      (hall : t = s.buffer.ahead) (hclosings : s'.feed.finalClosings w' = n + 1) :
      FillsTo s n t (some e.outline) (.error e) s' w'

theorem read_of_readPart_nil {waiting : Bytes} {u v : Text} {w' : Bytes}
    (hwaiting : Utf8.readPart waiting = .ok (u, w'))
    (h : Utf8.read waiting = .ok v) : w' = [] := by
  obtain ⟨hwf, hbytes⟩ := Utf8.read_eq_ok_iff.mp h
  have : Utf8.readPart waiting = .ok (v, []) := Utf8.readPart_eq_ok_iff.mpr
    ⟨hwf, by rw [hbytes, List.append_nil], .inl rfl⟩
  cases hwaiting.symm.trans this
  rfl

/-- Bytes that cannot be read strike as a text that cannot be decoded. -/
theorem strikingAt_of_read {waiting : Bytes} {why : Utf8.Undecodable}
    (h : Utf8.read waiting = .error why) :
    strikingAt none waiting = some .decode := by
  cases waiting with
  | nil =>
      have hempty : Utf8.read [] = .ok [] := Utf8.read_eq_ok_iff.mpr ⟨rfl, rfl⟩
      cases h.symm.trans hempty
  | cons b rest => rfl

/-- A fill takes in text, or meets what strikes at the end. -/
theorem fillsTo_fill (h : s.Supplies w n t last) {size : Nat} (hsize : 0 < size) :
    FillsTo s n t last (s.fill size w).1 (s.fill size w).2.1
      (s.fill size w).2.2 := by
  cases h with
  | done hended hfeed hclosings =>
      rw [fill, if_pos hended]
      exact .nothing ⟨rfl, rfl, rfl⟩ rfl rfl (.done hended hfeed hclosings)
  | @coming bs waiting e u hended hfeed hclosings hwaiting hread =>
      have hreads := Feed.readsTo_read hfeed hsize
      rw [fill, if_neg (by rw [hended]; exact Bool.false_ne_true)]
      generalize s.feed.read size w = after at hreads
      obtain ⟨result, feed, w'⟩ := after
      rw [hclosings] at hreads
      cases hreads with
      | @piece chunk rest _ _ _ hchunk hrest hcount =>
          rw [← List.append_assoc] at hread
          obtain ⟨u₁, waiting₁, u₂, hfirst, hsecond, rfl⟩ :=
            Utf8.readPart_of_append hread
          have hempty : chunk.isEmpty = false := by
            rw [← Bool.not_eq_true, List.isEmpty_iff]
            exact hchunk
          have hreceive : s.buffer.receive chunk
              = .ok { s.buffer with
                  ahead := s.buffer.ahead ++ u₁, waiting := waiting₁ } := by
            rw [Buffer.receive, hempty, hfirst]
            rfl
          dsimp only
          rw [hreceive]
          dsimp only
          rw [hempty, ← List.append_assoc]
          refine .more ⟨rfl, rfl, rfl⟩ ?_
          exact .coming hended hrest hcount
            (Utf8.readPart_of_waiting hfirst) hsecond
      | nothing hrest hcount =>
          rw [List.append_nil, hwaiting] at hread
          cases hread
          rw [List.append_nil]
          dsimp only
          rw [Buffer.receive]
          cases hwhole : Utf8.read s.buffer.waiting with
          | ok v =>
              -- the bytes that wait are none
              have hnone : strikingAt none s.buffer.waiting = none := by
                rw [read_of_readPart_nil hwaiting hwhole]
                rfl
              rw [hnone]
              exact .nothing ⟨rfl, rfl, rfl⟩ rfl rfl (.done rfl hrest hcount)
          | error why =>
              rw [strikingAt_of_read hwhole]
              exact .error (e := .decode (.encoding why)) ⟨rfl, rfl, rfl⟩ rfl
                ((Feed.finalClosings_eq hrest).trans (congrArg (· + 1) hcount))
      | error hcount =>
          rw [List.append_nil, hwaiting] at hread
          cases hread
          rw [List.append_nil]
          exact .error ⟨rfl, rfl, rfl⟩ rfl hcount

/-- Filling a buffer takes a part of what is supplied. -/
theorem fillsTo_of_fill (h : s.Supplies w n t last) {size : Nat}
    (hsize : 0 < size) {result : Except Error Bool} {s' : Scanner β} {w' : ω}
    (hfill : s.fill size w = (result, s', w')) :
    FillsTo s n t last result s' w' := by
  have hfills := fillsTo_fill h hsize
  rw [hfill] at hfills
  exact hfills

/-! ## Tokens -/

/-- What a peek may come to. -/
inductive PeeksTo (s : Scanner β) (n : Nat) (t : Text) :
    Option Outline → Except Error (Option CodePoint) → Scanner β → ω → Prop
  | sign {s' : Scanner β} {w' : ω} {last : Option Outline} {c : CodePoint}
      {r : Text} (hkeeps : s.Keeps s') (ht : Json.skipBlanks t = c :: r)
      (hahead : ∃ a, s'.buffer.ahead = c :: a)
      (hsupplies : s'.Supplies w' n (c :: r) last) :
      PeeksTo s n t last (.ok (some c)) s' w'
  | nothing {s' : Scanner β} {w' : ω} (hkeeps : s.Keeps s')
      (ht : Json.skipBlanks t = []) (hclosings : s'.feed.finalClosings w' = n + 1) :
      PeeksTo s n t none (.ok none) s' w'
  | error {s' : Scanner β} {w' : ω} {e : Error} (hkeeps : s.Keeps s')
      (ht : Json.skipBlanks t = []) (hclosings : s'.feed.finalClosings w' = n + 1) :
      PeeksTo s n t (some e.outline) (.error e) s' w'

/-- What is ahead in the buffer is the beginning of what is supplied. -/
theorem Supplies.exists_append (h : s.Supplies w n t last) :
    ∃ u, t = s.buffer.ahead ++ u := by
  cases h with
  | coming => exact ⟨_, rfl⟩
  | done => exact ⟨[], (List.append_nil _).symm⟩

theorem ahead_skipBlanks (s : Scanner β) :
    s.skipBlanks.buffer.ahead = Json.skipBlanks s.buffer.ahead := by
  have hsplit := List.takeWhile_append_dropWhile (p := Json.isBlank)
    (l := s.buffer.ahead)
  have hdrop := @List.drop_left _ (s.buffer.ahead.takeWhile Json.isBlank)
    (s.buffer.ahead.dropWhile Json.isBlank)
  rwa [hsplit] at hdrop

/-- Taking the blanks ahead takes no more than the blanks of the text. -/
theorem Supplies.skipBlanks (h : s.Supplies w n t last) :
    ∃ t', s.skipBlanks.Supplies w n t' last
      ∧ Json.skipBlanks t' = Json.skipBlanks t
      ∧ (s.skipBlanks.buffer.ahead ≠ [] → t' = Json.skipBlanks t)
      ∧ t' <:+ t := by
  obtain ⟨u, rfl⟩ := h.exists_append
  have hk := (List.takeWhile_prefix (l := s.buffer.ahead) Json.isBlank).length_le
  refine ⟨_, h.drop s.skipBlanks rfl rfl rfl rfl hk, ?_⟩
  rw [← and_assoc]
  refine ⟨?_, List.drop_suffix _ _⟩
  have hahead := s.ahead_skipBlanks
  rw [List.drop_append_of_le_length hk]
  show Json.skipBlanks (s.skipBlanks.buffer.ahead ++ u) = _
    ∧ (_ → s.skipBlanks.buffer.ahead ++ u = _)
  rw [hahead]
  constructor
  · have hsplit := List.takeWhile_append_dropWhile (p := Json.isBlank)
      (l := s.buffer.ahead)
    conv => rhs; rw [← hsplit, List.append_assoc]
    refine (List.dropWhile_append_of_pos ?_).symm
    intro c hc
    exact List.all_eq_true.mp List.all_takeWhile c hc
  · intro hne
    exact (Json.skipBlanks_append_of_ne_nil hne u).symm

theorem PeeksTo.of_keeps {s' s'' : Scanner β} {w'' : ω} {t' : Text}
    {result : Except Error (Option CodePoint)} (hkeeps : s.Keeps s')
    (ht : Json.skipBlanks t' = Json.skipBlanks t)
    (h : PeeksTo s' n t' last result s'' w'') :
    PeeksTo s n t last result s'' w'' := by
  cases h with
  | sign hkeeps' ht' hahead hsupplies =>
      exact .sign (hkeeps.trans hkeeps') (ht ▸ ht') hahead hsupplies
  | nothing hkeeps' ht' hclosings =>
      exact .nothing (hkeeps.trans hkeeps') (ht ▸ ht') hclosings
  | error hkeeps' ht' hclosings =>
      exact .error (hkeeps.trans hkeeps') (ht ▸ ht') hclosings

/-- A peek finds the next sign of the text. -/
theorem peeksTo_peek (h : s.Supplies w n t last) :
    PeeksTo s n t last (s.peek w).1 (s.peek w).2.1 (s.peek w).2.2 := by
  have hsize : 0 < chunkSize := by decide
  have hskip (s : Scanner β) : s.Keeps s.skipBlanks := ⟨rfl, rfl, rfl⟩
  fun_induction peek s w generalizing t last with
  | case1 s w c a hahead =>
      obtain ⟨t', hsupplies, hblanks, hsame, -⟩ := h.skipBlanks
      have ht := hsame (hahead ▸ List.cons_ne_nil c a)
      obtain ⟨u, hu⟩ := hsupplies.exists_append
      rw [hahead, List.cons_append] at hu
      rw [hu] at hsupplies ht
      exact .sign (hskip s) ht.symm ⟨a, hahead⟩ hsupplies
  | case2 s w hahead e s' w' hfill =>
      obtain ⟨t', hsupplies, hblanks, -⟩ := h.skipBlanks
      cases fillsTo_of_fill hsupplies hsize hfill with
      | error hkeeps hall hclosings =>
          rw [hall, hahead] at hblanks
          exact .error ((hskip s).trans hkeeps) hblanks.symm hclosings
  | case3 s w hahead s' w' hfill =>
      obtain ⟨t', hsupplies, hblanks, -⟩ := h.skipBlanks
      cases fillsTo_of_fill hsupplies hsize hfill with
      | nothing hkeeps hall _ hsupplies' =>
          rw [hall, hahead] at hblanks
          exact .nothing ((hskip s).trans hkeeps) hblanks.symm
            hsupplies'.finalClosings_eq
  | case4 s w hahead s' w' hfill ih =>
      obtain ⟨t', hsupplies, hblanks, -⟩ := h.skipBlanks
      cases fillsTo_of_fill hsupplies hsize hfill with
      | more hkeeps hsupplies' =>
          exact (ih hsupplies').of_keeps ((hskip s).trans hkeeps) hblanks

/-- Looking at the next character finds that of what is supplied. -/
theorem peeksTo_of_peek (h : s.Supplies w n t last)
    {result : Except Error (Option CodePoint)} {s' : Scanner β} {w' : ω}
    (hpeek : s.peek w = (result, s', w')) : PeeksTo s n t last result s' w' := by
  have hpeeks := peeksTo_peek h
  rw [hpeek] at hpeeks
  exact hpeeks

/-- What the reading of a value may come to. -/
inductive ReadsValue [L : Limits] (s : Scanner β) (n : Nat) (t : Text) :
    Option Outline → Except Error (Json × Text) → Scanner β → ω → Prop
  | value {s' : Scanner β} {w' : ω} {last : Option Outline} {v : Json}
      {raw rest : Text} (hkeeps : s.Keeps s')
      (hvalue : Reading.valueAt last t = .ok (v, raw, rest))
      (hsupplies : s'.Supplies w' n rest last) :
      ReadsValue s n t last (.ok (v, raw)) s' w'
  | error {s' : Scanner β} {w' : ω} {last : Option Outline} {e : Error}
      (hkeeps : s.Keeps s')
      (hvalue : Reading.valueAt last t = .error e.outline)
      (hclosings : s'.feed.finalClosings w' = n + 1) :
      ReadsValue s n t last (.error e) s' w'

theorem ReadsValue.of_keeps [L : Limits] {s' s'' : Scanner β} {w'' : ω}
    {result : Except Error (Json × Text)} (hkeeps : s.Keeps s')
    (h : ReadsValue s' n t last result s'' w'') :
    ReadsValue s n t last result s'' w'' := by
  cases h with
  | value hkeeps' hvalue hsupplies =>
      exact .value (hkeeps.trans hkeeps') hvalue hsupplies
  | error hkeeps' hvalue hclosings =>
      exact .error (hkeeps.trans hkeeps') hvalue hclosings

/-- A value that cannot go on cannot do so with more text. -/
theorem mayGoOn_append {v : Json} {rest : Text} (h : mayGoOn v rest = false)
    (u : Text) : mayGoOn v (rest ++ u) = false := by
  have hall (h : rest.all standsInNumber = false) :
      (rest ++ u).all standsInNumber = false := by
    rw [List.all_append, h, Bool.false_and]
  cases v with
  | int n => exact hall h
  | float x => exact hall h
  | bool b => exact hall h
  | _ => rfl

/-- A value that is taken is the value of the text, if nothing holds it
    back. -/
theorem readsValue_takeValue [L : Limits] (h : s.Supplies w n t last) {v : Json}
    {rest : Text} (hparse : Json.parse s.buffer.ahead = .ok (v, rest))
    (hgo : mayGoOn v rest = false ∨ last = none ∧ t = s.buffer.ahead) :
    ReadsValue s n t last (s.takeValue v rest w).1 (s.takeValue v rest w).2.1
      (s.takeValue v rest w).2.2 := by
  obtain ⟨u, rfl⟩ := h.exists_append
  have hwhole : Json.parse (s.buffer.ahead ++ u) = .ok (v, rest ++ u)
      ∧ Reading.holdingBack last v (rest ++ u) = none := by
    rcases hgo with hgo | ⟨rfl, hu⟩
    · refine ⟨Json.parse_append hparse hgo u, ?_⟩
      rw [Reading.holdingBack, mayGoOn_append hgo]
      rfl
    · obtain rfl : u = [] := List.append_right_eq_self.mp hu
      refine ⟨?_, ite_self none⟩
      rw [List.append_nil, List.append_nil]
      exact hparse
  obtain ⟨raw, hraw⟩ := Json.suffix_of_parse hparse
  have htake := Reading.take_of_split hraw.symm
  have hwholeTake : (s.buffer.ahead ++ u).take
      ((s.buffer.ahead ++ u).length - (rest ++ u).length) = raw :=
    Reading.take_of_split (by rw [← List.append_assoc, hraw])
  have hdrop : s.buffer.ahead.drop (s.buffer.ahead.length - rest.length)
      = rest := by
    have hsplit := List.take_append_drop
      (s.buffer.ahead.length - rest.length) s.buffer.ahead
    rw [htake] at hsplit
    exact List.append_cancel_left (hsplit.trans hraw.symm)
  have hvalue : Reading.valueAt last (s.buffer.ahead ++ u)
      = .ok (v, s.buffer.ahead.take (s.buffer.ahead.length - rest.length),
          rest ++ u) := by
    rw [Reading.valueAt, hwhole.1]
    dsimp only
    rw [hwhole.2, hwholeTake, htake]
  refine .value ⟨rfl, rfl, rfl⟩ hvalue ?_
  have hk := Nat.sub_le s.buffer.ahead.length rest.length
  have hsupplies := h.drop
    { s with buffer := s.buffer.advance (s.buffer.ahead.length - rest.length) }
    rfl rfl rfl rfl hk
  rwa [List.drop_append_of_le_length hk, hdrop] at hsupplies

/-- The value that is read is the value at the start of the text. -/
theorem readsValue_readValue [L : Limits] (h : s.Supplies w n t last) {size : Nat}
    (hsize : 0 < size) :
    ReadsValue s n t last (s.readValue size w).1 (s.readValue size w).2.1
      (s.readValue size w).2.2 := by
  fun_induction readValue s size w generalizing t last with
  | case1 s size w flaw hparse what hdeep =>
      -- no text that follows takes the depth away
      obtain ⟨u, rfl⟩ := h.exists_append
      refine .error ⟨rfl, rfl, rfl⟩ ?_ h.finalClosings_eq
      have hne : flaw.wrong.tooDeep? ≠ none := by
        rw [hdeep]
        exact Option.some_ne_none what
      have hwhole := Json.parse_append_of_tooDeep hparse hne u
      rw [Reading.valueAt, hwhole]
      exact congrArg Except.error (Reading.striking_of_tooDeep hdeep)
  | case2 s size w flaw hparse hdeep e s' w' hfill =>
      cases fillsTo_of_fill h hsize hfill with
      | error hkeeps hall hclosings =>
          refine .error hkeeps ?_ hclosings
          rw [hall, Reading.valueAt, hparse]
          dsimp only
          rw [Reading.striking_of_not_tooDeep hdeep]
          rfl
  | case3 s size w flaw hparse hdeep s' w' hfill ih =>
      cases fillsTo_of_fill h hsize hfill with
      | more hkeeps hsupplies =>
          exact (ih hsupplies (by omega)).of_keeps hkeeps
  | case4 s size w flaw hparse hdeep s' w' hfill =>
      cases fillsTo_of_fill h hsize hfill with
      | nothing hkeeps hall _ hsupplies =>
          refine .error hkeeps ?_ hsupplies.finalClosings_eq
          rw [hall, Reading.valueAt, hparse]
          dsimp only
          rw [Reading.striking_of_not_tooDeep hdeep]
          rfl
  | case5 s size w v rest hparse hgo e s' w' hfill =>
      cases fillsTo_of_fill h hsize hfill with
      | error hkeeps hall hclosings =>
          refine .error hkeeps ?_ hclosings
          rw [hall, Reading.valueAt, hparse]
          dsimp only
          rw [Reading.holdingBack, hgo]
          rfl
  | case6 s size w v rest hparse hgo s' w' hfill ih =>
      cases fillsTo_of_fill h hsize hfill with
      | more hkeeps hsupplies =>
          exact (ih hsupplies (by omega)).of_keeps hkeeps
  | case7 s size w v rest hparse hgo s' w' hfill =>
      cases fillsTo_of_fill h hsize hfill with
      | nothing hkeeps hall hahead hsupplies =>
          rw [← hahead] at hparse hall
          exact (readsValue_takeValue hsupplies hparse
            (.inr ⟨rfl, hall⟩)).of_keeps hkeeps
  | case8 s size w v rest hparse hgo =>
      exact readsValue_takeValue h hparse (.inl (Bool.not_eq_true _ ▸ hgo))

/-- What reading a feed to its end may come to. -/
inductive DrainsTo (s : Scanner β) (n : Nat) :
    Option Outline → Except Error Unit → Scanner β → ω → Prop
  | done {s' : Scanner β} {w' : ω} (hkeeps : s.Keeps s')
      (hclosings : s'.feed.finalClosings w' = n + 1) :
      DrainsTo s n none (.ok ()) s' w'
  | error {s' : Scanner β} {w' : ω} {e : Error} (hkeeps : s.Keeps s')
      (hclosings : s'.feed.finalClosings w' = n + 1) :
      DrainsTo s n (some e.outline) (.error e) s' w'

theorem DrainsTo.of_keeps {s' s'' : Scanner β} {w'' : ω}
    {result : Except Error Unit} (hkeeps : s.Keeps s')
    (h : DrainsTo s' n last result s'' w'') :
    DrainsTo s n last result s'' w'' := by
  cases h with
  | done hkeeps' hclosings => exact .done (hkeeps.trans hkeeps') hclosings
  | error hkeeps' hclosings => exact .error (hkeeps.trans hkeeps') hclosings

/-- A drain meets what strikes at the end, whatever the text is. -/
theorem drainsTo_drain (h : s.Supplies w n t last) :
    DrainsTo s n last (s.drain w).1 (s.drain w).2.1 (s.drain w).2.2 := by
  have hsize : 0 < chunkSize := by decide
  have hclear {s : Scanner β} {w : ω} {t : Text} {last : Option Outline}
      (h : s.Supplies w n t last) : ∃ t', s.clear.Supplies w n t' last :=
    ⟨_, h.drop s.clear rfl rfl rfl
      List.drop_length.symm (Nat.le_refl _)⟩
  have hkeep (s : Scanner β) : s.Keeps s.clear := ⟨rfl, rfl, rfl⟩
  fun_induction drain s w generalizing t last with
  | case1 s w e s' w' hfill =>
      obtain ⟨t', hsupplies⟩ := hclear h
      cases fillsTo_of_fill hsupplies hsize hfill with
      | error hkeeps _ hclosings =>
          exact .error ((hkeep s).trans hkeeps) hclosings
  | case2 s w s' w' hfill =>
      obtain ⟨t', hsupplies⟩ := hclear h
      cases fillsTo_of_fill hsupplies hsize hfill with
      | nothing hkeeps _ _ hsupplies' =>
          exact .done ((hkeep s).trans hkeeps) hsupplies'.finalClosings_eq
  | case3 s w s' w' hfill ih =>
      obtain ⟨t', hsupplies⟩ := hclear h
      cases fillsTo_of_fill hsupplies hsize hfill with
      | more hkeeps hsupplies' =>
          exact (ih hsupplies').of_keeps ((hkeep s).trans hkeeps)

/-! ## Rows -/

/-- The reading that stands where the scanner stands, before the given
    text. -/
def reading (s : Scanner β) (t : Text) : Reading := ⟨s.phase, s.info, t⟩

/-- What the next row may come to. -/
inductive GoesTo [L : Limits] (r : Reading) (f : Text) (n : Nat) (last : Option Outline) :
    Except Error (Option Row) → Scanner β → ω → Prop
  | row {s' : Scanner β} {w' : ω} {row : Row} {t' : Text}
      (hfield : s'.rowsField = f)
      (hnext : r.next f last = (.ok (some row), s'.reading t'))
      (hsupplies : s'.Supplies w' n t' last) :
      GoesTo r f n last (.ok (some row)) s' w'
  | nothing {s' : Scanner β} {w' : ω} {r' : Reading}
      (hfield : s'.rowsField = f) (hnext : r.next f last = (.ok none, r'))
      (hinfo : s'.info = r'.info)
      (hclosings : s'.feed.finalClosings w' = n + 1) :
      GoesTo r f n last (.ok none) s' w'
  | error {s' : Scanner β} {w' : ω} {e : Error} {r' : Reading}
      (hfield : s'.rowsField = f)
      (hnext : r.next f last = (.error e.outline, r'))
      (hinfo : s'.info = r'.info)
      (hclosings : s'.feed.finalClosings w' = n + 1) :
      GoesTo r f n last (.error e) s' w'

/-- Where a reading goes on, the scanner goes to what comes of that. -/
theorem GoesTo.of_step [L : Limits] {r r' : Reading} {f : Text} {s' : Scanner β} {w' : ω}
    {result : Except Error (Option Row)} (hstep : r.step f last = .go r')
    (h : GoesTo r' f n last result s' w') : GoesTo r f n last result s' w' := by
  have hnext := Reading.next_of_go hstep
  cases h with
  | row hfield h hsupplies => exact .row hfield (hnext.trans h) hsupplies
  | nothing hfield h hinfo hclosings =>
      exact .nothing hfield (hnext.trans h) hinfo hclosings
  | error hfield h hinfo hclosings =>
      exact .error hfield (hnext.trans h) hinfo hclosings

theorem ahead_compact (b : Buffer) : b.compact.ahead = b.ahead := by
  rw [Buffer.compact]
  split <;> rfl

theorem waiting_compact (b : Buffer) : b.compact.waiting = b.waiting := by
  rw [Buffer.compact]
  split <;> rfl

theorem ended_compact (b : Buffer) : b.compact.ended = b.ended := by
  rw [Buffer.compact]
  split <;> rfl

/-- What passing a value may come to. -/
inductive PassesTo [L : Limits] (s : Scanner β) (n : Nat) (t : Text)
    (last : Option Outline) : Except Error Unit → Scanner β → ω → Prop
  | value {s' : Scanner β} {w' : ω} {rest : Text}
      (hfield : s'.rowsField = s.rowsField)
      (hstep : (s.reading t).valueStep s.rowsField last t
        = .go (s'.reading rest))
      (hsupplies : s'.Supplies w' n rest last) :
      PassesTo s n t last (.ok ()) s' w'
  | error {s' : Scanner β} {w' : ω} {e : Error}
      (hfield : s'.rowsField = s.rowsField) (hinfo : s'.info = s.info)
      (hstep : (s.reading t).valueStep s.rowsField last t
        = .stop (.error e.outline))
      (hclosings : s'.feed.finalClosings w' = n + 1) :
      PassesTo s n t last (.error e) s' w'

/-- Passing over a value passes over that of what is supplied. -/
theorem passesTo_passValue [L : Limits] (h : s.Supplies w n t last) :
    PassesTo s n t last (s.passValue w).1 (s.passValue w).2.1
      (s.passValue w).2.2 := by
  have hsize : 0 < chunkSize := by decide
  have hreads := readsValue_readValue h hsize
  rw [passValue]
  generalize s.readValue chunkSize w = after at hreads
  obtain ⟨result, s', w'⟩ := after
  cases hreads with
  | @error _ _ _ e hkeeps hvalue hclosings =>
      refine .error hkeeps.rowsField hkeeps.info ?_ hclosings
      rw [Reading.valueStep, hvalue]
  | @value _ _ _ v raw rest hkeeps hvalue hsupplies =>
      dsimp only at hkeeps hsupplies ⊢
      rw [hkeeps.rowsField, hkeeps.phase, hkeeps.info]
      cases hafter : s.phase.afterValue s.rowsField s.info v raw with
      | error why =>
          refine .error (e := .decode why) hkeeps.rowsField hkeeps.info ?_
            hsupplies.finalClosings_eq
          rw [Reading.valueStep, hvalue]
          dsimp only [reading]
          rw [hafter]
          rfl
      | ok next =>
          obtain ⟨phase, info⟩ := next
          have hstep : (s.reading t).valueStep s.rowsField last t
              = .go ⟨phase, info, rest⟩ := by
            rw [Reading.valueStep, hvalue]
            dsimp only [reading]
            rw [hafter]
          exact .value rfl hstep
            (hsupplies.drop _ (k := 0) rfl rfl rfl rfl (Nat.zero_le _))

/-- No value is due at the end of a text. -/
theorem isSome_of_value {f : Text} {phase : Phase} {c : Option CodePoint}
    (h : phase.move f c = .value) : c.isSome := by
  cases c with
  | some c => rfl
  | none => cases phase <;> cases h

/-- A step of a reading is a step of the scanner that has it. -/
theorem step_reading [L : Limits] (hphase : s.phase ≠ .finish) {c : CodePoint} {r : Text}
    (ht : Json.skipBlanks t = c :: r) {m : Move} {s' : Scanner β}
    (hkeeps : s.Keeps s') (hmove : s'.phase.move s'.rowsField (some c) = m)
    (last : Option Outline) :
    (s.reading t).step s.rowsField last
      = (s'.reading (c :: r)).moveTo s'.rowsField last c r m := by
  rw [Reading.step_of_cons hphase ht, ← hmove, reading, reading,
    hkeeps.rowsField, hkeeps.phase, hkeeps.info]
  cases s.phase.move s.rowsField (some c) <;> rfl

/-- A sign that is looked at is the next one of the text, and the reading
    makes the same move at it. -/
theorem exists_sign_of_peek [L : Limits] (h : s.Supplies w n t last)
    (hphase : s.phase ≠ .finish) {c : Option CodePoint} {s' : Scanner β}
    {w' : ω} {m : Move} (hpeek : s.peek w = (.ok c, s', w'))
    (hmove : s'.phase.move s'.rowsField c = m) (hc : c.isSome) :
    ∃ sign r, s.Keeps s' ∧ (∃ a, s'.buffer.ahead = sign :: a)
      ∧ s'.Supplies w' n (sign :: r) last
      ∧ (s.reading t).step s.rowsField last
        = (s'.reading (sign :: r)).moveTo s'.rowsField last sign r m := by
  cases peeksTo_of_peek h hpeek with
  | nothing => cases hc
  | sign hkeeps ht hahead hsupplies =>
      exact ⟨_, _, hkeeps, hahead, hsupplies,
        step_reading hphase ht hkeeps hmove last⟩

/-- The next row of a scanner is the next row of the reading that stands
    where it stands. -/
theorem goesTo_next [L : Limits] (h : s.Supplies w n t last) :
    GoesTo (s.reading t) s.rowsField n last (s.next w).1 (s.next w).2.1
      (s.next w).2.2 := by
  fun_induction next s w generalizing t with
  | case1 s w hphase e s' w' hdrain =>
      have hdrains := drainsTo_drain h
      rw [hdrain] at hdrains
      cases hdrains with
      | error hkeeps hclosings =>
          exact .error hkeeps.rowsField
            (Reading.next_of_error (Reading.step_of_finish hphase))
            hkeeps.info hclosings
  | case2 s w hphase s' w' hdrain =>
      have hdrains := drainsTo_drain h
      rw [hdrain] at hdrains
      cases hdrains with
      | done hkeeps hclosings =>
          exact .nothing hkeeps.rowsField
            (Reading.next_of_end (Reading.step_of_finish hphase))
            hkeeps.info hclosings
  | case3 s w e s' w' hpeek hphase =>
      cases peeksTo_of_peek h hpeek with
      | error hkeeps ht hclosings =>
          exact .error hkeeps.rowsField
            (Reading.next_of_error (Reading.step_of_nil hphase ht))
            hkeeps.info hclosings
  | case4 s w c s' w' hpeek expected hmove hphase =>
      -- the only move that may be made where no sign is
      cases peeksTo_of_peek h hpeek with
      | nothing hkeeps ht hclosings =>
          exact .error hkeeps.rowsField
            (Reading.next_of_error (Reading.step_of_nil hphase ht))
            hkeeps.info hclosings
      | sign hkeeps ht _ hsupplies =>
          exact .error hkeeps.rowsField
            (Reading.next_of_error (step_reading hphase ht hkeeps hmove last))
            hkeeps.info hsupplies.finalClosings_eq
  | case5 s w c s' w' hpeek members hmove hphase =>
      obtain ⟨sign, r, hkeeps, ⟨a, ha⟩, hsupplies, hstep⟩ :=
        exists_sign_of_peek h hphase hpeek hmove (Phase.isSome_of_giveRow hmove)
      refine .row hkeeps.rowsField (Reading.next_of_give hstep)
        (hsupplies.drop s'.endRow (k := 1) rfl (waiting_compact _)
          (ended_compact _) (ahead_compact _) ?_)
      rw [ha]
      exact Nat.le_add_left 1 a.length
  | case6 s w c s' w' hpeek phase hmove hphase ih =>
      obtain ⟨sign, r, hkeeps, ⟨a, ha⟩, hsupplies, hstep⟩ :=
        exists_sign_of_peek h hphase hpeek hmove (Phase.isSome_of_take hmove)
      have hgoes := ih (hsupplies.drop (s'.take phase) (k := 1) rfl rfl rfl
        rfl (by rw [ha]; exact Nat.le_add_left 1 a.length))
      have hfield : (s'.take phase).rowsField = s.rowsField := hkeeps.rowsField
      rw [hfield] at hgoes
      exact hgoes.of_step hstep
  | case7 s w c s' w' hpeek hmove e s'' w'' hpass hphase =>
      obtain ⟨sign, r, hkeeps, -, hsupplies, hstep⟩ :=
        exists_sign_of_peek h hphase hpeek hmove (isSome_of_value hmove)
      have hpasses := passesTo_passValue hsupplies
      rw [hpass] at hpasses
      cases hpasses with
      | error hfield hinfo hvalue hclosings =>
          exact .error (hfield.trans hkeeps.rowsField)
            (Reading.next_of_error (hstep.trans hvalue))
            (hinfo.trans hkeeps.info) hclosings
  | case8 s w c s' w' hpeek hmove s'' w'' hpass hphase ih =>
      obtain ⟨sign, r, hkeeps, -, hsupplies, hstep⟩ :=
        exists_sign_of_peek h hphase hpeek hmove (isSome_of_value hmove)
      have hpasses := passesTo_passValue hsupplies
      rw [hpass] at hpasses
      cases hpasses with
      | value hfield hvalue hsupplies' =>
          have hgoes := ih hsupplies'
          rw [hfield, hkeeps.rowsField] at hgoes
          exact hgoes.of_step (hstep.trans hvalue)

end

end Scanner

end CouchClient
