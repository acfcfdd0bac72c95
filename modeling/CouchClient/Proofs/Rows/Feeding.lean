import CouchClient.Proofs.Rows.Steps

/-! # Feeding — what a row stream does to its feed

    A row stream reads from its feed until a read fails or the stream is
    closed, and then it closes the feed.  It does nothing else to it, and
    what it raises is what the last read raised, or that the listing is no
    good or too deep.  This holds in any world, whatever the feed gives.

    * `Feed.Reads` — reads, one after the other;
    * `Scanner.Feeds` — what an operation of a scanner comes to;
    * `RowStream.Moves`, `moves_step` — what a step of a stream comes to;
    * `RowStream.MeetsTooDeep`, `meetsTooDeep_of_step` — a step raises that a
      value is too deep only where it has arrived at one. -/

namespace CouchClient

/-! ## Feeds -/

namespace Feed

variable {β ω : Type} [ByteStream β ω]

/-- A feed is read, time after time, until a read fails at the latest. -/
inductive Reads : Feed β → ω → Option Error → Feed β → ω → Prop
  | nothing {f w} : Reads f w none f w
  | error {f f' w w' size e} (h : f.read size w = (.error e, f', w')) :
      Reads f w (some e) f' w'
  | piece {f f' f'' w w' w'' size chunk e}
      (h : f.read size w = (.ok chunk, f', w'))
      (later : Reads f' w' e f'' w'') : Reads f w e f'' w''

variable {f f' f'' : Feed β} {w w' w'' : ω} {e : Option Error}

/-- Reads that follow reads are reads. -/
theorem Reads.trans (h : f.Reads w none f' w') :
    f'.Reads w' e f'' w'' → f.Reads w e f'' w'' := by
  generalize hnone : (none : Option Error) = before at h
  induction h with
  | nothing =>
      intro h'
      exact h'
  | error => cases hnone
  | piece hread _ ih =>
      intro h'
      exact .piece hread (ih hnone h')

end Feed

/-! ## Scanners -/

namespace Scanner

variable {β ω α γ : Type} [ByteStream β ω]

/-- An operation reads from the feed.  If it raises an error, that is the
    one of the last read, or the listing is no good, or the value ahead in it
    is too deep. -/
inductive Feeds [L : Limits] (s : Scanner β) (w : ω) :
    Except Error α → Scanner β → ω → Prop
  | ok {a s' w'} (h : s.feed.Reads w none s'.feed w') : Feeds s w (.ok a) s' w'
  | refused {why s' w'} (h : s.feed.Reads w none s'.feed w') :
      Feeds s w (.error (.decode why)) s' w'
  | tooDeep {what s' w'} (hdeep : Json.OpensTooDeep s'.buffer.ahead what)
      (h : s.feed.Reads w none s'.feed w') :
      Feeds s w (.error (.tooDeep what)) s' w'
  | failed {e s' w'} (h : s.feed.Reads w (some e) s'.feed w') :
      Feeds s w (.error e) s' w'

variable {s s' s'' : Scanner β} {w w' w'' : ω} {result : Except Error α}

/-- An operation goes on with the reads of another one. -/
theorem Feeds.after [L : Limits] (h : s.feed.Reads w none s'.feed w') :
    Feeds s' w' result s'' w'' → Feeds s w result s'' w'' := by
  intro h'
  cases h' with
  | ok h' => exact .ok (h.trans h')
  | refused h' => exact .refused (h.trans h')
  | tooDeep hdeep h' => exact .tooDeep hdeep (h.trans h')
  | failed h' => exact .failed (h.trans h')

/-- What is done to the text is nothing to the feed. -/
theorem Feeds.of_feed [L : Limits] (h : Feeds s' w result s'' w'')
    (hfeed : s'.feed = s.feed) : Feeds s w result s'' w'' := by
  refine Feeds.after ?_ h
  rw [hfeed]
  exact .nothing

/-- Whatever comes of an operation, it was reads. -/
theorem Feeds.exists_reads [L : Limits] (h : Feeds s w result s' w') :
    ∃ e, s.feed.Reads w e s'.feed w' := by
  cases h with
  | ok h => exact ⟨none, h⟩
  | refused h => exact ⟨none, h⟩
  | tooDeep _ h => exact ⟨none, h⟩
  | failed h => exact ⟨_, h⟩

theorem Feeds.reads [L : Limits] {a : α} (h : Feeds s w (.ok a) s' w') :
    s.feed.Reads w none s'.feed w' := by
  cases h with
  | ok h => exact h

/-- An error is passed on. -/
theorem Feeds.error [L : Limits] {e : Error} (h : Feeds s w (.error e : Except Error α) s' w') :
    Feeds s w (.error e : Except Error γ) s' w' := by
  cases h with
  | refused h => exact .refused h
  | tooDeep hdeep h => exact .tooDeep hdeep h
  | failed h => exact .failed h

/-- Filling the buffer reads the feed at most once. -/
theorem feeds_of_fill [L : Limits] {size : Nat} {result : Except Error Bool}
    (h : s.fill size w = (result, s', w')) : Feeds s w result s' w' := by
  rw [fill] at h
  split at h
  · cases h
    exact .ok .nothing
  · split at h
    · next hread =>
        cases h
        exact .failed (.error hread)
    · next hread =>
        split at h
        · cases h
          exact .refused (.piece hread .nothing)
        · cases h
          exact .ok (.piece hread .nothing)

theorem feeds_peek [L : Limits] (s : Scanner β) (w : ω) :
    Feeds s w (s.peek w).1 (s.peek w).2.1 (s.peek w).2.2 := by
  fun_induction peek s w with
  | case1 => exact .ok .nothing
  | case2 s w _ e s' w' hfill =>
      have hfills : Feeds s.skipBlanks w _ s' w' := feeds_of_fill hfill
      show Feeds s w (.error e) s' w'
      exact hfills.error.of_feed rfl
  | case3 s w _ s' w' hfill =>
      have hfills : Feeds s.skipBlanks w _ s' w' := feeds_of_fill hfill
      exact .ok hfills.reads
  | case4 s w _ s' w' hfill ih =>
      have hfills : Feeds s.skipBlanks w _ s' w' := feeds_of_fill hfill
      exact (ih.after hfills.reads).of_feed rfl

theorem feeds_of_peek [L : Limits] {c : Except Error (Option CodePoint)}
    (h : s.peek w = (c, s', w')) : Feeds s w c s' w' := by
  have hfeeds := s.feeds_peek w
  rw [h] at hfeeds
  exact hfeeds

/-- Reading a value reads the feed as often as the text goes on. -/
theorem feeds_readValue [L : Limits] (s : Scanner β) (size : Nat) (w : ω) :
    Feeds s w (s.readValue size w).1 (s.readValue size w).2.1
      (s.readValue size w).2.2 := by
  fun_induction readValue s size w with
  | case1 s _ w flaw hparse what hdeep =>
      exact .tooDeep
        ⟨flaw, hparse, Json.Wrong.tooDeep?_eq_some_iff.mp hdeep⟩ .nothing
  | case2 s _ w _ _ _ e s' w' hfill =>
      have hfills : Feeds s w _ s' w' := feeds_of_fill hfill
      exact hfills.error
  | case3 s _ w _ _ _ s' w' hfill ih =>
      exact ih.after (feeds_of_fill hfill).reads
  | case4 s _ w _ _ _ s' w' hfill =>
      exact .refused (feeds_of_fill hfill).reads
  | case5 s _ w _ _ _ _ e s' w' hfill =>
      have hfills : Feeds s w _ s' w' := feeds_of_fill hfill
      exact hfills.error
  | case6 s _ w _ _ _ _ s' w' hfill ih =>
      exact ih.after (feeds_of_fill hfill).reads
  | case7 s _ w _ _ _ _ s' w' hfill =>
      exact .ok (feeds_of_fill hfill).reads
  | case8 => exact .ok .nothing

/-- Passing over a value does nothing but read the feed. -/
theorem feeds_of_passValue [L : Limits] {result : Except Error Unit}
    (h : s.passValue w = (result, s', w')) : Feeds s w result s' w' := by
  have hvalue := s.feeds_readValue chunkSize w
  rw [passValue] at h
  split at h
  · next hread =>
      cases h
      rw [hread] at hvalue
      exact hvalue.error
  · next hread =>
      rw [hread] at hvalue
      split at h
      · cases h
        exact .refused hvalue.reads
      · cases h
        exact .ok hvalue.reads

/-- Draining does nothing but read the feed. -/
theorem feeds_drain [L : Limits] (s : Scanner β) (w : ω) :
    Feeds s w (s.drain w).1 (s.drain w).2.1 (s.drain w).2.2 := by
  fun_induction drain s w with
  | case1 s w e s' w' hfill =>
      have hfills : Feeds s.clear w _ s' w' := feeds_of_fill hfill
      show Feeds s w (.error e) s' w'
      exact hfills.error.of_feed rfl
  | case2 s w s' w' hfill =>
      have hfills : Feeds s.clear w _ s' w' := feeds_of_fill hfill
      exact .ok hfills.reads
  | case3 s w s' w' hfill ih =>
      have hfills : Feeds s.clear w _ s' w' := feeds_of_fill hfill
      exact (ih.after hfills.reads).of_feed rfl

/-- The next row is found by reads, be there one or not. -/
theorem feeds_next [L : Limits] (s : Scanner β) (w : ω) :
    Feeds s w (s.next w).1 (s.next w).2.1 (s.next w).2.2 := by
  fun_induction next s w with
  | case1 s w _ e s' w' hdrain =>
      have hdrains := s.feeds_drain w
      rw [hdrain] at hdrains
      exact hdrains.error
  | case2 s w _ s' w' hdrain =>
      have hdrains := s.feeds_drain w
      rw [hdrain] at hdrains
      exact .ok hdrains.reads
  | case3 s w e s' w' hpeek =>
      have hpeeks : Feeds s w _ s' w' := feeds_of_peek hpeek
      exact hpeeks.error
  | case4 s w c s' w' hpeek expected =>
      have hpeeks : Feeds s w _ s' w' := feeds_of_peek hpeek
      cases c with
      | none => exact .refused hpeeks.reads
      | some c => exact .refused hpeeks.reads
  | case5 s w c s' w' hpeek =>
      -- the end of a row is taken from the buffer
      have hpeeks : Feeds s w _ s' w' := feeds_of_peek hpeek
      exact .ok hpeeks.reads
  | case6 s w c s' w' hpeek phase _ _ ih =>
      have hpeeks : Feeds s w _ s' w' := feeds_of_peek hpeek
      exact ih.after (show s.feed.Reads w none (s'.take phase).feed w' from
        hpeeks.reads)
  | case7 s w c s' w' hpeek _ e s'' w'' hpass =>
      have hpasses : Feeds s' w' _ s'' w'' := feeds_of_passValue hpass
      exact hpasses.error.after (feeds_of_peek hpeek).reads
  | case8 s w c s' w' hpeek _ s'' w'' hpass _ ih =>
      have hpasses : Feeds s' w' _ s'' w'' := feeds_of_passValue hpass
      exact (ih.after hpasses.reads).after (feeds_of_peek hpeek).reads

end Scanner

/-! ## Row streams -/

namespace RowStream

variable {β ω : Type} [ByteStream β ω]

/-- What a step raises, if it does, and the stream after it. -/
def step [L : Limits] (s : RowStream β) (w : ω) :
    StreamStep → Except Error Unit × RowStream β × ω
  | .next => ((s.next w).1.map fun _ => (), (s.next w).2)
  | .rest => ((s.rest w).1.2, (s.rest w).2)
  | .close => (.ok (), s.close w)
  | .nextOnly => ((s.nextOnly w).1.map fun _ => (), (s.nextOnly w).2)
  | .display => (.ok (), s, w)

/-- A closed stream does nothing.  An open one reads from its feed, and goes
    on or closes it; it raises an error only in the end. -/
inductive Moves [L : Limits] (s : RowStream β) (w : ω) :
    Except Error Unit → RowStream β → ω → Prop
  | idle (hclosed : s.closed = true) : Moves s w (.ok ()) s w
  | on {s' w'} (hopen : s.closed = false) (hopen' : s'.closed = false)
      (hreads : s.scanner.feed.Reads w none s'.scanner.feed w') :
      Moves s w (.ok ()) s' w'
  | off {result scanner s' w' w''} (hopen : s.closed = false)
      (hclosed : s'.closed = true)
      (hfeeds : s.scanner.Feeds w result scanner w')
      (hclose : scanner.feed.close w' = (s'.scanner.feed, w'')) :
      Moves s w result s' w''

variable {s s' s'' : RowStream β} {w w' w'' : ω} {result : Except Error Unit}

/-- Two moves are one. -/
theorem Moves.trans [L : Limits] (h : Moves s w (.ok ()) s' w') :
    Moves s' w' result s'' w'' → Moves s w result s'' w'' := by
  intro h'
  cases h with
  | idle => exact h'
  | on hopen hopen' hreads =>
      cases h' with
      | idle hclosed => cases hopen'.symm.trans hclosed
      | on _ hopen'' hreads' => exact .on hopen hopen'' (hreads.trans hreads')
      | off _ hclosed hfeeds hclose =>
          exact .off hopen hclosed (hfeeds.after hreads) hclose
  | off hopen hclosed hfeeds hclose =>
      -- a stream that was closed moves no more
      cases h' with
      | idle => exact .off hopen hclosed hfeeds hclose
      | on hopen' => cases hopen'.symm.trans hclosed
      | off hopen' => cases hopen'.symm.trans hclosed

/-- Closing is a move of the stream. -/
theorem moves_close [L : Limits] (s : RowStream β) (w : ω) :
    Moves s w (.ok ()) (s.close w).1 (s.close w).2 := by
  rw [close]
  split
  · next hclosed => exact .idle hclosed
  · next hopen =>
      exact .off (eq_false_of_ne_true hopen) rfl (.ok .nothing) rfl

/-- Asking for the next row is a move of the stream. -/
theorem moves_next [L : Limits] (s : RowStream β) (w : ω) :
    Moves s w ((s.next w).1.map fun _ => ()) (s.next w).2.1 (s.next w).2.2 := by
  have hfeeds := s.scanner.feeds_next w
  rw [next]
  split
  · next hclosed => exact .idle hclosed
  · next hclosed =>
      have hopen : s.closed = false := eq_false_of_ne_true hclosed
      generalize s.scanner.next w = found at hfeeds ⊢
      obtain ⟨e | _ | row, scanner, w'⟩ := found
      · dsimp only
        rw [close, if_neg hclosed]
        exact .off hopen rfl hfeeds.error rfl
      · dsimp only
        rw [close, if_neg hclosed]
        exact .off hopen rfl (.ok hfeeds.reads) rfl
      · exact .on hopen hopen hfeeds.reads

theorem moves_nextOnly [L : Limits] (s : RowStream β) (w : ω) :
    Moves s w ((s.nextOnly w).1.map fun _ => ()) (s.nextOnly w).2.1
      (s.nextOnly w).2.2 := by
  have hnext := s.moves_next w
  rw [nextOnly]
  generalize s.next w = found at hnext ⊢
  obtain ⟨result, s', w'⟩ := found
  dsimp only at hnext ⊢
  generalize (result.map fun _ => ()) = raised at hnext ⊢
  cases hnext with
  | idle hclosed => exact s.moves_close w
  | on hopen hopen' hreads =>
      exact Moves.trans (.on hopen hopen' hreads) (s'.moves_close w')
  | off hopen hclosed hfeeds hclose =>
      -- it is closed already
      rw [close, if_pos hclosed]
      exact .off hopen hclosed hfeeds hclose

/-- Asking for the rest of the rows is one move of the stream. -/
theorem moves_rest [L : Limits] (s : RowStream β) (w : ω) :
    Moves s w (s.rest w).1.2 (s.rest w).2.1 (s.rest w).2.2 := by
  fun_induction rest s w with
  | case1 s w e s' w' hnext =>
      have hmoves := s.moves_next w
      rw [hnext] at hmoves
      exact hmoves
  | case2 s w s' w' hnext =>
      have hmoves := s.moves_next w
      rw [hnext] at hmoves
      exact hmoves
  | case3 s w row s' w' hnext rows ending s'' w'' hrest ih =>
      have hmoves := s.moves_next w
      rw [hnext] at hmoves
      rw [hrest] at ih
      exact hmoves.trans ih

/-- Every step is a move. -/
theorem moves_step [L : Limits] (s : RowStream β) (w : ω) (step : StreamStep) :
    Moves s w (s.step w step).1 (s.step w step).2.1 (s.step w step).2.2 := by
  cases step with
  | next => exact s.moves_next w
  | rest => exact s.moves_rest w
  | close => exact s.moves_close w
  | nextOnly => exact s.moves_nextOnly w
  | display =>
      cases hclosed : s.closed with
      | true => exact .idle hclosed
      | false => exact .on hclosed hclosed .nothing

/-! ## Values that are too deep -/

/-- The scanners at which a stream arrives when it is asked for rows: after
    the next row, and on from there if there was one. -/
inductive ArrivesAt [L : Limits] : RowStream β → ω → Scanner β → Prop
  | next {s : RowStream β} {w w' result scanner}
      (h : s.scanner.next w = (result, scanner, w')) : ArrivesAt s w scanner
  | later {s : RowStream β} {w row s' w' scanner}
      (h : s.next w = (.ok (some row), s', w'))
      (hlater : ArrivesAt s' w' scanner) : ArrivesAt s w scanner

/-- The value ahead, at a scanner at which the stream arrives, is too deep to
    be read. -/
def MeetsTooDeep [L : Limits] (s : RowStream β) (w : ω) (what : TooDeep) :
    Prop :=
  ∃ scanner, s.ArrivesAt w scanner
    ∧ Json.OpensTooDeep scanner.buffer.ahead what

/-- No read of the feed raises that something is too deep. -/
def IsShallow (s : RowStream β) (w : ω) : Prop :=
  ∀ e f w', s.scanner.feed.Reads w (some e) f w' → ∀ what, e ≠ .tooDeep what

/-- A row that a stream gives is the next one of its scanner, and the stream
    stays open. -/
theorem scanner_of_row [L : Limits] {row : Row}
    (h : s.next w = (.ok (some row), s', w')) :
    s.scanner.next w = (.ok (some row), s'.scanner, w') ∧ s'.closed = false := by
  rw [next] at h
  split at h
  · cases h
  · next hopen =>
      rcases hnext : s.scanner.next w with ⟨e | _ | row', scanner, w₁⟩
      all_goals
        rw [hnext] at h
        cases h
      exact ⟨rfl, eq_false_of_ne_true hopen⟩

/-- What is read after a row could be read before it. -/
theorem IsShallow.of_next [L : Limits] (h : s.IsShallow w) {row : Row}
    (hnext : s.next w = (.ok (some row), s', w')) : s'.IsShallow w' := by
  have hfeeds := s.scanner.feeds_next w
  rw [(scanner_of_row hnext).1] at hfeeds
  intro e f w'' hreads
  exact h e f w'' (hfeeds.reads.trans hreads)

/-- Asking for a row raises that a value is too deep only where one is. -/
theorem meetsTooDeep_of_next [L : Limits] (hshallow : s.IsShallow w)
    {what : TooDeep} (h : s.next w = (.error (.tooDeep what), s', w')) :
    s.MeetsTooDeep w what := by
  have hfeeds := s.scanner.feeds_next w
  rw [next] at h
  split at h
  · cases h
  · rcases hnext : s.scanner.next w with ⟨e | _ | row, scanner, w₁⟩
    all_goals
      rw [hnext] at h hfeeds
      cases h
    cases hfeeds with
    | tooDeep hdeep => exact ⟨scanner, .next hnext, hdeep⟩
    | failed hreads => exact absurd rfl (hshallow _ _ _ hreads what)

/-- So does asking for the rest of the rows. -/
theorem meetsTooDeep_of_rest [L : Limits] (s : RowStream β) (w : ω)
    (hshallow : s.IsShallow w) {what : TooDeep}
    (h : (s.rest w).1.2 = .error (.tooDeep what)) : s.MeetsTooDeep w what := by
  fun_induction rest s w with
  | case1 s w e s' w' hnext =>
      cases h
      exact meetsTooDeep_of_next hshallow hnext
  | case2 => cases h
  | case3 s w row s' w' hnext rows ending s'' w'' hrest ih =>
      rw [hrest] at ih
      obtain ⟨scanner, harrives, hdeep⟩ := ih (hshallow.of_next hnext) h
      exact ⟨scanner, .later hnext harrives, hdeep⟩

/-- Every step raises that a value is too deep only where one is. -/
theorem meetsTooDeep_of_step [L : Limits] (hshallow : s.IsShallow w)
    {step : StreamStep} {what : TooDeep}
    (h : (s.step w step).1 = .error (.tooDeep what)) :
    s.MeetsTooDeep w what := by
  cases step with
  | close | display => cases h
  | rest => exact meetsTooDeep_of_rest s w hshallow h
  | next | nextOnly =>
      rcases hnext : s.next w with ⟨e | found, s', w'⟩
      · simp only [step, nextOnly, hnext] at h
        cases h
        exact meetsTooDeep_of_next hshallow hnext
      · simp only [step, nextOnly, hnext] at h
        cases h

end RowStream

end CouchClient
