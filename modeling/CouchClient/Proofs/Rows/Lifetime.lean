import CouchClient.Proofs.Rows.Feeding

/-! # Lifetimes — a row stream ends once and for good

    A row stream is open until it comes to the end of its listing, raises an
    error or is closed.  With that it has closed what it reads from, and from
    then on it does nothing.  This holds of every stream of bytes, whatever
    it gives and wherever it fails.

    * `Feed.IsOpen`, `Reads.closings` — a feed that is open is closed once;
    * `StreamAnswer.Ends` — the answers with which a stream ends;
    * `RowStream.Counts` — how often what is read from was closed;
    * `RowStream.after`, `answers` — a stream after steps, and their answers;
    * `ends_once` — the life of a stream. -/

namespace CouchClient

/-! ## Feeds -/

namespace Feed

variable {β ω : Type} [ByteStream β ω]

/-- What is read from has not been closed. -/
def IsOpen : Feed β → Prop
  | .direct _ => True
  | .body b => b.closed = false ∧ b.stream.isSome

/-- A new feed is open. -/
theorem isOpen_feed {β : Type} (s : β) (ch : Channel) : (ch.feed s).IsOpen := by
  cases ch with
  | direct => trivial
  | body method url => exact ⟨rfl, rfl⟩

variable [Delivery β ω] {f f' : Feed β} {w w' : ω}

/-- Closing an open feed closes its stream once. -/
theorem IsOpen.finalClosings_eq (h : f.IsOpen) :
    f.finalClosings w = f.closings w + 1 := by
  cases f with
  | direct s => exact Delivery.closings_close s w
  | body b =>
      obtain ⟨stream, method, url, closed⟩ := b
      obtain ⟨hclosed, hsome⟩ := h
      cases stream with
      | none => cases hsome
      | some s =>
          cases hclosed
          exact Delivery.closings_close s w

/-- A read leaves an open feed open.  If it fails the body may be closed, and
    then it is not closed again. -/
theorem IsOpen.read {size : Nat} {result : Except Error Bytes} (h : f.IsOpen)
    (hread : f.read size w = (result, f', w')) :
    f'.finalClosings w' = f.closings w + 1
      ∧ ∀ chunk, result = .ok chunk → f'.IsOpen ∧ f'.closings w' = f.closings w := by
  cases f with
  | direct s =>
      have hclosings := Delivery.closings_read s w (some size)
      cases hread
      exact ⟨(Delivery.closings_close _ _).trans (congrArg (· + 1) hclosings),
        fun _ _ => ⟨trivial, hclosings⟩⟩
  | body b =>
      obtain ⟨stream, method, url, closed⟩ := b
      obtain ⟨hclosed, hsome⟩ := h
      cases stream with
      | none => cases hsome
      | some s =>
          cases hclosed
          have hclosings := Delivery.closings_read s w (some size)
          simp only [Feed.read, Body.read] at hread
          generalize ByteStream.read s (some size) w = after at hclosings hread
          obtain ⟨given, s', w''⟩ := after
          show f'.finalClosings w' = Delivery.closings (s, w) + 1 ∧ _
          rw [← hclosings]
          cases given with
          | ok chunk =>
              cases hread
              exact ⟨Delivery.closings_close _ _, fun _ _ => ⟨⟨rfl, rfl⟩, hclosings⟩⟩
          | error fault =>
              -- a fault of the delivery has closed the body already
              cases hdelivery : fault.isDelivery with
              | true =>
                  simp only [hdelivery, if_true] at hread
                  cases hread
                  exact ⟨Delivery.closings_close _ _, by simp⟩
              | false =>
                  simp only [hdelivery, Bool.false_eq_true, if_false] at hread
                  cases hread
                  exact ⟨Delivery.closings_close _ _, by simp⟩

/-- However often an open feed is read, closing it afterwards has closed its
    stream once. -/
theorem Reads.closings {e : Option Error} (h : f.Reads w e f' w') (hopen : f.IsOpen) :
    f'.finalClosings w' = f.closings w + 1
      ∧ (e = none → f'.IsOpen ∧ f'.closings w' = f.closings w) := by
  induction h with
  | nothing => exact ⟨hopen.finalClosings_eq, fun _ => ⟨hopen, rfl⟩⟩
  | error hread => exact ⟨(hopen.read hread).1, by simp⟩
  | piece hread _ ih =>
      obtain ⟨hopen', hclosings⟩ := (hopen.read hread).2 _ rfl
      rw [← hclosings]
      exact ih hopen'

end Feed

/-! ## Answers -/

namespace StreamAnswer

/-- The answers with which a stream ends: there is no next row, an error is
    raised, or the stream is closed by its user.  The rows that are still to
    come end in one of the first two. -/
inductive Ends : StreamStep → StreamAnswer → Prop
  | stop : Ends .next (.next (.ok none))
  | error (e : Outline) : Ends .next (.next (.error e))
  | rest (rows : List Row) (ending : Except Outline Unit) : Ends .rest (.rest rows ending)
  | close (a : StreamAnswer) : Ends .close a
  | exit (a : StreamAnswer) : Ends .nextOnly a

/-- The answers of a stream that has ended: there is no next row. -/
inductive IsIdle : StreamAnswer → Prop
  | next : IsIdle (.next (.ok none))
  | rest : IsIdle (.rest [] (.ok ()))
  | closed : IsIdle .closed
  | shown (t : Text) : IsIdle (.shown t)

/-- Whether an error is raised. -/
def isError : StreamAnswer → Bool
  | .next (.error _) => true
  | .rest _ (.error _) => true
  | _ => false

theorem IsIdle.isError_eq {a : StreamAnswer} (h : a.IsIdle) : a.isError = false := by
  cases h <;> rfl

end StreamAnswer

/-! ## Steps -/

namespace RowStream

variable {β ω : Type} [ByteStream β ω]

section
variable {s s' : RowStream β} {w w' : ω}

theorem next_of_closed [L : Limits] (h : s.closed = true) : s.next w = (.ok none, s, w) := by
  rw [next, if_pos h]

theorem rest_of_closed [L : Limits] (h : s.closed = true) : s.rest w = (([], .ok ()), s, w) := by
  rw [rest]
  split
  · next hnext => cases (next_of_closed h).symm.trans hnext
  · next hnext =>
      cases (next_of_closed h).symm.trans hnext
      rfl
  · next hnext => cases (next_of_closed h).symm.trans hnext

theorem closed_close (s : RowStream β) (w : ω) : (s.close w).1.closed = true := by
  rw [close]
  split
  · assumption
  · rfl

/-- A stream is open after a row, and closed after anything else. -/
theorem closed_next [L : Limits] (s : RowStream β) (w : ω) :
    (s.next w).2.1.closed = false ↔ ∃ row, (s.next w).1 = .ok (some row) := by
  rw [next]
  split
  · next hclosed => simp [hclosed]
  · next hopen =>
      have hopen : s.closed = false := eq_false_of_ne_true hopen
      split
      · simp [hopen]
      · next hno _ =>
          rw [closed_close]
          constructor
          · intro h
            cases h
          · rintro ⟨row, hrow⟩
            exact (hno row hrow).elim

/-- A stream that gives no row is closed. -/
theorem closed_of_next [L : Limits] {result : Except Error (Option Row)}
    (h : s.next w = (result, s', w')) (hno : ∀ row, result ≠ .ok (some row)) :
    s'.closed = true := by
  refine eq_true_of_ne_false fun hopen => ?_
  obtain ⟨row, hrow⟩ := (closed_next s w).mp (by rw [h]; exact hopen)
  rw [h] at hrow
  exact hno row hrow

/-- Asking for the rest closes the stream. -/
theorem closed_rest [L : Limits] (s : RowStream β) (w : ω) : (s.rest w).2.1.closed = true := by
  fun_induction rest s w with
  | case1 s w e s' w' hnext => exact closed_of_next hnext (by simp)
  | case2 s w s' w' hnext => exact closed_of_next hnext (by simp)
  | case3 s w row s' w' hnext rows ending s'' w'' hrest ih =>
      rw [hrest] at ih
      exact ih

end

section
variable {s : RowStream β} {w : ω}

/-- A closed stream does nothing. -/
theorem perform_of_closed [L : Limits] (h : s.closed = true) (step : StreamStep) :
    (s.perform w step).1.IsIdle ∧ (s.perform w step).2 = (s, w) := by
  cases step with
  | next =>
      rw [perform, next_of_closed h]
      exact ⟨.next, rfl⟩
  | rest =>
      rw [perform, rest_of_closed h]
      exact ⟨.rest, rfl⟩
  | close =>
      rw [perform, close_of_closed h]
      exact ⟨.closed, rfl⟩
  | nextOnly =>
      rw [perform, nextOnly, next_of_closed h]
      simp only [close_of_closed h]
      exact ⟨.next, trivial⟩
  | display => exact ⟨.shown _, rfl⟩

/-- An open stream is closed by the steps that end it, and by no other. -/
theorem closed_perform_iff [L : Limits] (h : s.closed = false) (step : StreamStep) :
    (s.perform w step).2.1.closed = true
      ↔ StreamAnswer.Ends step (s.perform w step).1 := by
  cases step with
  | next =>
      have hclosed := closed_next s w
      rw [perform]
      obtain ⟨⟨e | _ | row, s', w'⟩, hnext⟩ : ∃ found, s.next w = found := ⟨_, rfl⟩
      · rw [hnext]
        exact ⟨fun _ => .error _, fun _ => closed_of_next hnext (by simp)⟩
      · rw [hnext]
        exact ⟨fun _ => .stop, fun _ => closed_of_next hnext (by simp)⟩
      · rw [hnext] at hclosed ⊢
        have hopen := hclosed.mpr ⟨row, rfl⟩
        constructor
        · intro hclosed'
          cases hopen.symm.trans hclosed'
        · intro hends
          cases hends
  | rest => exact ⟨fun _ => .rest _ _, fun _ => closed_rest s w⟩
  | close => exact ⟨fun _ => .close _, fun _ => closed_close s w⟩
  | nextOnly => exact ⟨fun _ => .exit _, fun _ => closed_close _ _⟩
  | display =>
      constructor
      · intro hclosed
        cases h.symm.trans hclosed
      · intro hends
        cases hends

/-- A step that raises an error ends the stream. -/
theorem ends_of_isError [L : Limits] {step : StreamStep}
    (h : (s.perform w step).1.isError = true) :
    StreamAnswer.Ends step (s.perform w step).1 := by
  cases step with
  | next =>
      rw [perform] at h ⊢
      generalize (s.next w).1 = result at h ⊢
      cases result with
      | error e => exact .error _
      | ok row => cases h
  | rest => exact .rest _ _
  | close => exact .close _
  | nextOnly => exact .exit _
  | display => cases h

end

/-! ## Runs -/

/-- The stream after steps, and the world. -/
def after [L : Limits] (s : RowStream β) (w : ω) : List StreamStep → RowStream β × ω
  | [] => (s, w)
  | step :: steps => (s.perform w step).2.1.after (s.perform w step).2.2 steps

/-- The answers to steps, each with its step. -/
def answers [L : Limits] (s : RowStream β) (w : ω) :
    List StreamStep → List (StreamStep × StreamAnswer)
  | [] => []
  | step :: steps =>
      (step, (s.perform w step).1)
        :: (s.perform w step).2.1.answers (s.perform w step).2.2 steps

section
variable {s : RowStream β} {w : ω}

/-- A closed stream stays as it is, and so does what it reads from. -/
theorem after_of_closed [L : Limits] (h : s.closed = true) (steps : List StreamStep) :
    s.after w steps = (s, w) ∧ ∀ a ∈ s.answers w steps, a.2.IsIdle := by
  induction steps with
  | nil => exact ⟨rfl, by simp [answers]⟩
  | cons step steps ih =>
      obtain ⟨hidle, hsame⟩ := perform_of_closed (w := w) h step
      rw [after, answers, hsame]
      exact ⟨ih.1, List.forall_mem_cons.mpr ⟨hidle, ih.2⟩⟩

/-- A stream is closed from the first answer on that ends it. -/
theorem closed_after_iff [L : Limits] (h : s.closed = false) (steps : List StreamStep) :
    (s.after w steps).1.closed = true
      ↔ ∃ a ∈ s.answers w steps, StreamAnswer.Ends a.1 a.2 := by
  induction steps generalizing s w with
  | nil => simp [after, answers, h]
  | cons step steps ih =>
      have hstep := closed_perform_iff (w := w) h step
      simp only [after, answers, List.mem_cons, exists_eq_or_imp]
      cases hclosed : (s.perform w step).2.1.closed with
      | true =>
          rw [(after_of_closed hclosed steps).1]
          exact ⟨fun _ => Or.inl (hstep.mp hclosed), fun _ => hclosed⟩
      | false =>
          rw [ih hclosed]
          refine ⟨Or.inr, fun hends => hends.resolve_left fun hends => ?_⟩
          cases hclosed.symm.trans (hstep.mpr hends)

/-- There is no error after the one that ends the stream. -/
theorem countP_isError_le [L : Limits] (s : RowStream β) (w : ω) (steps : List StreamStep) :
    (s.answers w steps).countP (·.2.isError) ≤ 1 := by
  induction steps generalizing s w with
  | nil => exact Nat.zero_le _
  | cons step steps ih =>
      rw [answers, List.countP_cons]
      by_cases herror : (s.perform w step).1.isError = true
      · have hclosed : (s.perform w step).2.1.closed = true := by
          cases hs : s.closed with
          | false => exact (closed_perform_iff hs step).mpr (ends_of_isError herror)
          | true =>
              rw [(perform_of_closed hs step).1.isError_eq] at herror
              cases herror
        have hnone : ((s.perform w step).2.1.answers (s.perform w step).2.2
            steps).countP (·.2.isError) = 0 := by
          refine List.countP_eq_zero.mpr fun a ha => ?_
          rw [((after_of_closed hclosed steps).2 a ha).isError_eq]
          exact Bool.false_ne_true
        rw [hnone, if_pos herror]
      · rw [if_neg herror]
        exact ih _ _

end

/-! ## Closings -/

variable [Delivery β ω]

/-- The stream is open, and what it reads from was closed so many times, or it
    is closed, and that was closed once more. -/
inductive Counts (s : RowStream β) (w : ω) (n : Nat) : Prop
  | running (hopen : s.closed = false) (hfeed : s.scanner.feed.IsOpen)
      (hclosings : s.scanner.feed.closings w = n)
  | finished (hclosed : s.closed = true) (hclosings : s.scanner.feed.closings w = n + 1)

section
variable {s s' : RowStream β} {w w' : ω} {n : Nat}

/-- The closings of a stream are counted from where it began. -/
theorem Counts.closings_eq (h : s.Counts w n) :
    s.scanner.feed.closings w = n + if s.closed then 1 else 0 := by
  cases h with
  | running hopen _ hclosings => rw [hopen, hclosings]; rfl
  | finished hclosed hclosings => rw [hclosed, hclosings]; rfl

/-- A move keeps the count of the closings. -/
theorem Counts.of_moves [L : Limits] {result : Except Error Unit} (h : s.Counts w n)
    (hmoves : s.Moves w result s' w') : s'.Counts w' n := by
  cases hmoves with
  | idle => exact h
  | on hopen hopen' hreads =>
      cases h with
      | finished hclosed => cases hopen.symm.trans hclosed
      | running _ hfeed hclosings =>
          obtain ⟨hfeed', hclosings'⟩ := (hreads.closings hfeed).2 rfl
          exact .running hopen' hfeed' (hclosings'.trans hclosings)
  | @off result scanner s' w₁ w₂ hopen hclosed' hfeeds hclose =>
      cases h with
      | finished hclosed => cases hopen.symm.trans hclosed
      | running _ hfeed hclosings =>
          obtain ⟨e, hreads⟩ := hfeeds.exists_reads
          have hfinal := (hreads.closings hfeed).1
          rw [Feed.finalClosings, hclose, hclosings] at hfinal
          exact .finished hclosed' hfinal

/-- A step keeps the count of the closings. -/
theorem Counts.perform [L : Limits] (h : s.Counts w n) (step : StreamStep) :
    (s.perform w step).2.1.Counts (s.perform w step).2.2 n := by
  have hmoves := s.moves_step w step
  cases step <;> exact h.of_moves hmoves

/-- Any number of steps keep the count of the closings. -/
theorem Counts.after [L : Limits] (h : s.Counts w n) (steps : List StreamStep) :
    (s.after w steps).1.Counts (s.after w steps).2 n := by
  induction steps generalizing s w with
  | nil => exact h
  | cons step steps ih => exact ih (h.perform step)

end

/-- **A row stream ends once and for good**, on every stream of bytes that
    counts its closings, read as it is or through a body: it is closed after
    the first answer that ends it and not before, it closes what it reads
    from once and then, it raises one error at most, and once it is closed
    neither it nor the world changes under any further steps. -/
theorem ends_once [L : Limits] (b : β) (w : ω) (ch : Channel) (f : Text)
    (steps later : List StreamStep) :
    let start := ofFeed (ch.feed b) f
    let ended := start.after w steps
    (ended.1.closed = true ↔ ∃ a ∈ start.answers w steps, StreamAnswer.Ends a.1 a.2)
      ∧ ended.1.scanner.feed.closings ended.2
        = Delivery.closings (b, w) + (if ended.1.closed then 1 else 0)
      ∧ (start.answers w steps).countP (·.2.isError) ≤ 1
      ∧ (ended.1.closed = true → ended.1.after ended.2 later = ended
        ∧ ∀ a ∈ ended.1.answers ended.2 later, a.2.IsIdle) := by
  have hcounts : (ofFeed (ch.feed b) f).Counts w (Delivery.closings (b, w)) :=
    .running rfl (Feed.isOpen_feed b ch) (ch.closings_feed b w)
  exact ⟨closed_after_iff rfl steps, (hcounts.after steps).closings_eq,
    countP_isError_le _ w steps, fun hclosed => after_of_closed hclosed later⟩

/-- The connection is reset within a row. -/
theorem ends_once_of_reset :
    let b := StoredStream.ofBytes (Utf8.bytes (text "\x7b\"rows\":[\x7b\"id\":")) (some 3)
      (some (.failure ⟨⟨text "ConnectionResetError", true⟩, text "reset"⟩, 12))
    let start := ofFeed (Channel.feed b (.body (some (text "GET")) none)) (text "rows")
    let ended := start.after () [.display, .next]
    ended.1.closed = true ∧ ended.1.scanner.feed.closings ended.2 = 1
      ∧ ended.1.after ended.2 [.next, .rest, .close] = ended
      ∧ ∀ a ∈ ended.1.answers ended.2 [.next, .rest, .close], a.2.IsIdle := by
  intro b start ended
  have hclosed : ended.1.closed = true := by decide +kernel
  obtain ⟨-, hclosings, -, hlater⟩ :=
    ends_once b () (.body (some (text "GET")) none) (text "rows") [.display, .next]
      [.next, .rest, .close]
  refine ⟨hclosed, ?_, hlater hclosed⟩
  rw [hclosings, if_pos hclosed]
  rfl

end RowStream

end CouchClient
