import CouchClient.Proofs.Rows.Steps

/-! # Endings — when a row stream comes to the end of its listing

    A row stream ends without an error only if all that its stream holds is
    a text, and the reading of that text comes to the end of the listing.

    * `Scanner.Malformed` — the bytes to come are no text, which no step
      mends;
    * `run_ne_ok_of_some` — a reading meets what strikes at the end of its
      text;
    * `observe_rest`, `exists_completes_of_rest` — both directions. -/

namespace CouchClient

namespace Scanner

variable {β ω : Type} [ByteStream β ω] [Delivery β ω]

/-- The bytes that wait and those that are still to come are no text, even
    without a few bytes at their end. -/
structure Malformed (s : Scanner β) (w : ω) : Prop where
  ended : s.buffer.ended = false
  waiting : Utf8.readPart s.buffer.waiting = .ok ([], s.buffer.waiting)
  bytes : ∃ bs e, s.feed.Holds w bs e
    ∧ ∀ t left, Utf8.readPart (s.buffer.waiting ++ bs) ≠ .ok (t, left)

section
variable {s s' : Scanner β} {w w' : ω} {size : Nat}

omit [Delivery β ω] in
/-- What waits after a chunk is the end of a character that is not complete. -/
theorem waiting_of_receive {b b' : Buffer} {chunk : Bytes}
    (hchunk : chunk.isEmpty = false) (h : b.receive chunk = .ok b') :
    ∃ u, Utf8.readPart (b.waiting ++ chunk) = .ok (u, b'.waiting)
      ∧ b'.ended = b.ended := by
  rw [Buffer.receive, hchunk] at h
  cases hread : Utf8.readPart (b.waiting ++ chunk) with
  | error e =>
      rw [hread] at h
      cases h
  | ok found =>
      rw [hread] at h
      cases h
      exact ⟨found.1, rfl, rfl⟩

/-- Malformed bytes remain so under all that does not take them in. -/
theorem Malformed.of_eq (h : s.Malformed w) (hfeed : s'.feed = s.feed)
    (hwaiting : s'.buffer.waiting = s.buffer.waiting)
    (hended : s'.buffer.ended = s.buffer.ended) : s'.Malformed w := by
  obtain ⟨hended', hwaiting', hbytes⟩ := h
  rw [← hfeed, ← hwaiting] at hbytes
  rw [← hended] at hended'
  rw [← hwaiting] at hwaiting'
  exact ⟨hended', hwaiting', hbytes⟩

/-- A fill takes in more malformed bytes, or meets an error. -/
theorem Malformed.of_fill {more : Bool} (h : s.Malformed w) (hsize : 0 < size)
    (hfill : s.fill size w = (.ok more, s', w')) :
    more = true ∧ s'.Malformed w' := by
  obtain ⟨hended, hwaiting, bs, e, hfeed, hbytes⟩ := h
  have hreads := Feed.readsTo_read hfeed hsize
  rw [fill, if_neg (by rw [hended]; exact Bool.false_ne_true)] at hfill
  generalize s.feed.read size w = after at hreads hfill
  obtain ⟨result, feed, w''⟩ := after
  cases hreads with
  | @piece chunk rest _ _ _ hchunk hrest hcount =>
      have hempty : chunk.isEmpty = false := by
        rw [← Bool.not_eq_true, List.isEmpty_iff]
        exact hchunk
      dsimp only at hfill
      cases hreceive : s.buffer.receive chunk with
      | error why =>
          rw [hreceive] at hfill
          cases hfill
      | ok buffer =>
          rw [hreceive, hempty] at hfill
          cases hfill
          obtain ⟨u, hfirst, hkept⟩ := waiting_of_receive hempty hreceive
          refine ⟨rfl, hkept.trans hended, Utf8.readPart_of_waiting hfirst,
            rest, _, hrest, ?_⟩
          intro t left hread
          exact hbytes _ _ ((List.append_assoc ..) ▸
            Utf8.readPart_append hfirst hread)
  | nothing hrest hcount =>
      rw [List.append_nil] at hbytes
      exact (hbytes _ _ hwaiting).elim
  | error hcount => cases hfill

/-- Looking at the next character leaves malformed bytes ahead. -/
theorem Malformed.of_peek {c : Option CodePoint} (h : s.Malformed w)
    (hpeek : s.peek w = (.ok c, s', w')) : s'.Malformed w' := by
  have hsize : 0 < chunkSize := by decide
  have hskip {s : Scanner β} {w : ω} (h : s.Malformed w) :
      s.skipBlanks.Malformed w := h.of_eq rfl rfl rfl
  fun_induction peek s w with
  | case1 s w c a hahead =>
      cases hpeek
      exact hskip h
  | case2 => cases hpeek
  | case3 s w hahead s'' w'' hfill =>
      cases ((hskip h).of_fill hsize hfill).1
  | case4 s w hahead s'' w'' hfill ih =>
      exact ih ((hskip h).of_fill hsize hfill).2 hpeek

/-- Reading a value leaves malformed bytes ahead. -/
theorem Malformed.of_readValue [L : Limits] {found : Json × Text} (h : s.Malformed w)
    (hsize : 0 < size) (hread : s.readValue size w = (.ok found, s', w')) :
    s'.Malformed w' := by
  fun_induction readValue s size w with
  | case3 s size w flaw hparse hdeep s'' w'' hfill ih =>
      exact ih (h.of_fill hsize hfill).2 (by omega) hread
  | case6 s size w v rest hparse hgo s'' w'' hfill ih =>
      exact ih (h.of_fill hsize hfill).2 (by omega) hread
  | case7 s size w v rest hparse hgo s'' w'' hfill =>
      cases (h.of_fill hsize hfill).1
  | case8 s size w v rest hparse hgo =>
      cases hread
      exact h.of_eq rfl rfl rfl
  | _ => cases hread

/-- Passing over a value leaves malformed bytes ahead. -/
theorem Malformed.of_passValue [L : Limits] (h : s.Malformed w)
    (hpass : s.passValue w = (.ok (), s', w')) : s'.Malformed w' := by
  have hsize : 0 < chunkSize := by decide
  rw [passValue] at hpass
  split at hpass
  · cases hpass
  · next hread =>
      split at hpass
      · cases hpass
      · cases hpass
        exact (h.of_readValue hsize hread).of_eq rfl rfl rfl

/-- Malformed bytes are not drained without an error. -/
theorem Malformed.drain_ne_ok (h : s.Malformed w) :
    (s.drain w).1 ≠ .ok () := by
  have hsize : 0 < chunkSize := by decide
  have hclear {s : Scanner β} {w : ω} (h : s.Malformed w) :
      s.clear.Malformed w := h.of_eq rfl rfl rfl
  fun_induction drain s w with
  | case1 => simp
  | case2 s w s' w' hfill => cases ((hclear h).of_fill hsize hfill).1
  | case3 s w s' w' hfill ih => exact ih ((hclear h).of_fill hsize hfill).2

/-- Malformed bytes are still so after a row, and there is no end without a
    row. -/
theorem Malformed.of_next [L : Limits] {row : Option Row} (h : s.Malformed w)
    (hnext : s.next w = (.ok row, s', w')) : row ≠ none ∧ s'.Malformed w' := by
  fun_induction next s w with
  | case1 => cases hnext
  | case2 s w hphase s'' w'' hdrain =>
      exact (h.drain_ne_ok (congrArg Prod.fst hdrain)).elim
  | case3 => cases hnext
  | case4 => cases hnext
  | case5 s w c s'' w'' hpeek members hmove hphase =>
      cases hnext
      exact ⟨by simp, (h.of_peek hpeek).of_eq rfl (waiting_compact _)
        (ended_compact _)⟩
  | case6 s w c s'' w'' hpeek phase hmove hphase ih =>
      exact ih ((h.of_peek hpeek).of_eq rfl rfl rfl) hnext
  | case7 => cases hnext
  | case8 s w c s'' w'' hpeek hmove s₂ w₂ hpass hphase ih =>
      exact ih ((h.of_peek hpeek).of_passValue hpass) hnext

end

end Scanner

namespace Reading

variable {f : Text} {e : Outline}

/-- A step does not end a reading without an error if something strikes at
    the end of its text. -/
theorem step_ne_end_of_some [L : Limits] (r : Reading) :
    r.step f (some e) ≠ .stop (.ok ()) := by
  by_cases hphase : r.phase = .finish
  · rw [step_of_finish hphase]
    simp [endingOf]
  cases ht : Json.skipBlanks r.text with
  | nil =>
      rw [step_of_nil hphase ht]
      simp
  | cons c t =>
      rw [step_of_cons hphase ht]
      cases r.phase.move f (some c) with
      | value =>
          rw [moveTo, valueStep]
          split
          · simp
          · split <;> simp
      | _ => simp [moveTo]

/-- With an error to come, a listing does not end well. -/
theorem next_ne_none_of_some [L : Limits] (r : Reading) :
    (r.next f (some e)).1 ≠ .ok none := by
  fun_induction next f (some e) r with
  | case1 r r' hstep ih => exact ih
  | case2 => simp
  | case3 r hstep => exact (step_ne_end_of_some r hstep).elim
  | case4 => simp

/-- What strikes at the end of a text is met. -/
theorem run_ne_ok_of_some [L : Limits] (r : Reading) :
    (r.run f (some e)).1.2 ≠ .ok () := by
  fun_induction run f (some e) r with
  | case1 => simp
  | case2 r r' hnext =>
      exact (next_ne_none_of_some r (congrArg Prod.fst hnext)).elim
  | case3 r row r' hnext rows ending r'' hrun ih =>
      rw [hrun] at ih
      exact ih

end Reading

namespace RowStream

section
variable {β ω : Type} [ByteStream β ω] [Delivery β ω]

/-- The rest of malformed bytes is not given without an error. -/
theorem rest_ne_ok_of_malformed [L : Limits] {s : RowStream β} {w : ω}
    (hopen : s.closed = false) (h : s.scanner.Malformed w) :
    (s.rest w).1.2 ≠ .ok () := by
  have hgoes {s : RowStream β} {w : ω} (hopen : s.closed = false)
      (h : s.scanner.Malformed w) {row : Option Row} {s' : RowStream β} {w' : ω}
      (hnext : s.next w = (.ok row, s', w')) :
      row ≠ none ∧ s'.closed = false ∧ s'.scanner.Malformed w' := by
    rw [next, if_neg (by rw [hopen]; exact Bool.false_ne_true)] at hnext
    split at hnext
    · next heq =>
        cases hnext
        exact ⟨by simp, hopen, (h.of_next heq).2⟩
    · next hno heq =>
        cases hnext
        cases row with
        | none => exact ((h.of_next heq).1 rfl).elim
        | some row => exact (hno _ rfl).elim
  fun_induction rest s w with
  | case1 => simp
  | case2 s w s' w' hnext => exact ((hgoes hopen h hnext).1 rfl).elim
  | case3 s w row s' w' hnext rows ending s'' w'' hrest ih =>
      obtain ⟨-, hopen', h'⟩ := hgoes hopen h hnext
      have hmore := ih hopen' h'
      rw [hrest] at hmore
      exact hmore

/-- A row stream ends without an error only if its stream holds a text whose
    reading comes to the end of the listing. -/
theorem exists_completes_of_rest [L : Limits] {s : β} {w : ω} {bs : Bytes} {ch : Channel}
    {f : Text} (hholds : Delivery.holds (s, w) bs none)
    (h : ((ofFeed (ch.feed s) f).rest w).1.2 = .ok ()) :
    ∃ t, Utf8.read bs = .ok t
      ∧ ∃ rows final, Reading.Completes f (.ofText t) rows final := by
  cases hread : Utf8.readPart bs with
  | error why =>
      refine (rest_ne_ok_of_malformed rfl ⟨rfl, ?_, bs, _, ch.holds_feed hholds,
        ?_⟩ h).elim
      · exact Utf8.readPart_eq_ok_iff.mpr ⟨rfl, rfl, .inl rfl⟩
      · intro t left heq
        cases hread.symm.trans heq
  | ok found =>
      obtain ⟨t, waiting⟩ := found
      have hshows := (shows_rest (shows_ofFeed hholds hread ch f)).1
      rw [h, View.rest] at hshows
      dsimp only [Option.map] at hshows
      have hending := congrArg Prod.snd hshows
      cases waiting with
      | cons b rest => exact (Reading.run_ne_ok_of_some _ hending.symm).elim
      | nil =>
          obtain ⟨hwf, hbytes, -⟩ := Utf8.readPart_eq_ok_iff.mp hread
          rw [List.append_nil] at hbytes
          exact ⟨t, Utf8.read_eq_ok_iff.mpr ⟨hwf, hbytes⟩, _, _,
            Prod.ext (Prod.ext rfl hending.symm) rfl⟩

end

/-! ## Streams at any pace -/

end RowStream

end CouchClient
