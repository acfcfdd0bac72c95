import CouchClient.Proofs.Http.Ledger
import CouchClient.Proofs.Rows.Feeding
import CouchClient.Resource

/-! # Bodies under row streams — what a ledger sees of a stream

    A row stream reads from the body of a reply.  Before a ledger its steps
    ask for nothing, what they raise comes from the request of the body or
    from the listing, and the body is closed once the stream is.

    * `Feed.Reads.quiet`, `Feed.Reads.faults`, `Feed.Reads.kept` — reads;
    * `Feed.Reads.stream?`, `Feed.Reads.eq_of_none` — what reads leave as it
      is;
    * `RowStream.Moves.quiet`, `RowStream.Moves.faults`,
      `RowStream.Moves.kept` — steps of a stream. -/

namespace CouchClient

/-! ## Feeds -/

namespace Feed

/-- The streams that the feed has to close. -/
def held {β : Type} : Feed β → List β
  | direct s => [s]
  | body b => b.held

/-- The stream that the feed reads from, if there is one. -/
def stream? {β : Type} : Feed β → Option β
  | direct s => some s
  | body b => b.stream

/-- The feed is the body of a reply to a request. -/
def IsReplyTo {β : Type} (f : Feed β) (method url : Text) : Prop :=
  ∃ b, f = .body b ∧ b.method = some method ∧ b.url = some url

variable {β ω : Type} [Transport β ω] {f f' : Feed Nat} {L L' : Ledger β ω}
  {others : List Nat} {method url : Text} {e : Option Error}

/-- A read of a feed asks for nothing. -/
theorem quiet_of_read {size : Nat} {result : Except Error Bytes}
    (h : f.read size L = (result, f', L')) : L.Quiet L' := by
  cases f with
  | direct n =>
      cases h
      exact Ledger.quiet_of_read rfl
  | body b =>
      cases h
      exact (b.comesTo_read (some size) L).quiet

/-- A read of a feed holds its body on, or closes it at a fault. -/
theorem kept_of_read {size : Nat} {result : Except Error Bytes}
    (h : f.read size L = (result, f', L'))
    (hkept : L.Kept (f.held ++ others)) : L'.Kept (f'.held ++ others) := by
  cases f with
  | direct n =>
      cases h
      exact hkept.of_read rfl
  | body b =>
      cases h
      exact (b.comesTo_read (some size) L).kept hkept

/-- What a read raises is the error of the request. -/
theorem faults_of_read {size : Nat} {result : Except Error Bytes}
    (h : f.read size L = (result, f', L')) (hf : f.IsReplyTo method url) :
    f'.IsReplyTo method url
      ∧ (∀ bs, result = .ok bs → L'.faults = L.faults)
      ∧ ∀ e, result = .error e → ∃ fault, L'.faults = fault :: L.faults
          ∧ e = Resource.errorOf method url fault := by
  obtain ⟨b, rfl, hmethod, hurl⟩ := hf
  have hcomes := b.comesTo_read (some size) L
  cases h
  obtain ⟨hmethod', hurl', -⟩ := hcomes.names
  obtain ⟨hok, herror⟩ := hcomes.faults
  refine ⟨⟨_, rfl, hmethod'.trans hmethod, hurl'.trans hurl⟩, hok, ?_⟩
  intro e he
  obtain ⟨fault, hfaults, rfl⟩ := herror e he
  refine ⟨fault, hfaults, ?_⟩
  rw [Body.errorOf, hmethod, hurl]
  rfl

/-- A feed keeps its stream through a read. -/
theorem stream?_of_read {size : Nat} {result : Except Error Bytes}
    (h : f.read size L = (result, f', L')) : f'.stream? = f.stream? := by
  cases f with
  | direct n =>
      cases h
      rfl
  | body b =>
      cases h
      exact (b.comesTo_read (some size) L).names.2.2

/-- A read that succeeds leaves a feed as it is. -/
theorem eq_of_read {size : Nat} {bs : Bytes}
    (h : f.read size L = (.ok bs, f', L')) : f' = f := by
  cases f with
  | direct n =>
      have hfeed : f' = .direct n := (congrArg (fun r => r.2.1) h).symm
      exact hfeed
  | body b =>
      have hcomes := b.comesTo_read (some size) L
      have hbody : (b.read (some size) L).1 = .ok bs := congrArg Prod.fst h
      have hfeed : f' = .body (b.read (some size) L).2.1 :=
        (congrArg (fun r => r.2.1) h).symm
      rw [hbody] at hcomes
      rw [hfeed, hcomes.eq_of_ok]

theorem Reads.stream? (h : f.Reads L e f' L') : f'.stream? = f.stream? := by
  induction h with
  | nothing => rfl
  | error hread => exact stream?_of_read hread
  | piece hread _ ih => exact ih.trans (stream?_of_read hread)

/-- Reads that do not fail leave the feed as it is. -/
theorem Reads.eq_of_none (h : f.Reads L e f' L') : e = none → f' = f := by
  induction h with
  | nothing => simp
  | error => simp
  | piece hread _ ih =>
      intro he
      exact (ih he).trans (eq_of_read hread)

/-- A run of reads asks for nothing. -/
theorem Reads.quiet (h : f.Reads L e f' L') : L.Quiet L' := by
  induction h with
  | nothing => exact .refl _
  | error hread => exact quiet_of_read hread
  | piece hread _ ih => exact (quiet_of_read hread).trans ih

/-- A run of reads holds the body on, or closes it at a fault. -/
theorem Reads.kept (h : f.Reads L e f' L') :
    L.Kept (f.held ++ others) → L'.Kept (f'.held ++ others) := by
  induction h with
  | nothing =>
      intro hkept
      exact hkept
  | error hread =>
      intro hkept
      exact kept_of_read hread hkept
  | piece hread _ ih =>
      intro hkept
      exact ih (kept_of_read hread hkept)

/-- There is one fault at most, which is the error that is raised. -/
theorem Reads.faults (h : f.Reads L e f' L') :
    f.IsReplyTo method url →
      f'.IsReplyTo method url
      ∧ (e = none → L'.faults = L.faults)
      ∧ ∀ error, e = some error → ∃ fault, L'.faults = fault :: L.faults
          ∧ error = Resource.errorOf method url fault := by
  induction h with
  | nothing =>
      intro hf
      exact ⟨hf, by simp⟩
  | error hread =>
      intro hf
      obtain ⟨hf', -, herror⟩ := faults_of_read hread hf
      refine ⟨hf', by simp, ?_⟩
      intro error he
      cases he
      exact herror _ rfl
  | piece hread _ ih =>
      intro hf
      obtain ⟨hf', hok, -⟩ := faults_of_read hread hf
      rw [← hok _ rfl]
      exact ih hf'

theorem quiet_close (f : Feed Nat) (L : Ledger β ω) :
    L.Quiet (f.close L).2 := by
  cases f with
  | direct n => exact L.quiet_close n
  | body b => exact b.quiet_close L

theorem faults_close (f : Feed Nat) (L : Ledger β ω) :
    (f.close L).2.faults = L.faults := by
  cases f with
  | direct n => exact L.faults_close n
  | body b => exact b.faults_close L

/-- The body of a feed that was closed is held no longer. -/
theorem kept_close (h : L.Kept (f.held ++ others)) :
    (f.close L).2.Kept others := by
  cases f with
  | direct n => exact h.close
  | body b => exact Body.kept_close h

theorem stream?_close (f : Feed Nat) (L : Ledger β ω) :
    (f.close L).1.stream? = f.stream? := by
  cases f with
  | direct n => rfl
  | body b =>
      show (b.close L).1.stream = b.stream
      obtain hnone | ⟨n, hn⟩ := b.held_cases
      · rw [Body.close_of_not_held hnone]
      · rw [Body.close_of_held hn]

theorem IsReplyTo.close (hf : f.IsReplyTo method url) (L : Ledger β ω) :
    (f.close L).1.IsReplyTo method url := by
  obtain ⟨b, rfl, hmethod, hurl⟩ := hf
  refine ⟨(b.close L).1, rfl, ?_⟩
  obtain hnone | ⟨n, hn⟩ := b.held_cases
  · rw [Body.close_of_not_held hnone]
    exact ⟨hmethod, hurl⟩
  · rw [Body.close_of_held hn]
    exact ⟨hmethod, hurl⟩

end Feed

/-! ## Row streams -/

namespace RowStream

/-- The streams that a row stream has to close. -/
def held {β : Type} (s : RowStream β) : List β :=
  if s.closed then [] else s.scanner.feed.held

/-- A closed stream of rows holds no body. -/
theorem held_of_closed {β : Type} {s : RowStream β} (h : s.closed = true) :
    s.held = [] := by
  rw [held, if_pos h]

/-- An open stream of rows holds the body of its feed. -/
theorem held_of_open {β : Type} {s : RowStream β} (h : s.closed = false) :
    s.held = s.scanner.feed.held := by
  rw [held, h]
  rfl

variable {β ω : Type} [Transport β ω] {s s' : RowStream Nat}
  {L L' : Ledger β ω} {others : List Nat} {result : Except Error Unit}

/-- No step of a stream asks the transport for anything. -/
theorem Moves.quiet [Limits] (h : s.Moves L result s' L') : L.Quiet L' := by
  cases h with
  | idle => exact .refl L
  | on _ _ hreads => exact hreads.quiet
  | @off _ scanner _ L₁ _ _ _ hfeeds hclose =>
      obtain ⟨e, hreads⟩ := hfeeds.exists_reads
      have hfinally := scanner.feed.quiet_close L₁
      rw [hclose] at hfinally
      exact hreads.quiet.trans hfinally

/-- A body is held for as long as the stream is open. -/
theorem Moves.kept [Limits] (h : s.Moves L result s' L')
    (hkept : L.Kept (s.held ++ others)) : L'.Kept (s'.held ++ others) := by
  cases h with
  | idle => exact hkept
  | on hopen hopen' hreads =>
      rw [held_of_open hopen] at hkept
      rw [held_of_open hopen']
      exact hreads.kept hkept
  | @off _ scanner _ L₁ _ hopen hclosed hfeeds hclose =>
      rw [held_of_open hopen] at hkept
      rw [held_of_closed hclosed]
      obtain ⟨e, hreads⟩ := hfeeds.exists_reads
      have hfinally := Feed.kept_close (hreads.kept hkept)
      rw [hclose] at hfinally
      exact hfinally

/-- A stream reads from the same body all along. -/
theorem Moves.stream? [Limits] (h : s.Moves L result s' L') :
    s'.scanner.feed.stream? = s.scanner.feed.stream? := by
  cases h with
  | idle => rfl
  | on _ _ hreads => exact hreads.stream?
  | @off _ scanner _ L₁ _ _ _ hfeeds hclose =>
      obtain ⟨e, hreads⟩ := hfeeds.exists_reads
      have hfinally := scanner.feed.stream?_close L₁
      rw [hclose] at hfinally
      exact hfinally.trans hreads.stream?

/-- As long as it is open, nothing happened to the body. -/
theorem Moves.feed_of_open [Limits] (h : s.Moves L result s' L') :
    s'.closed = false → s.closed = false ∧ s'.scanner.feed = s.scanner.feed := by
  intro hopen'
  cases h with
  | idle => exact ⟨hopen', rfl⟩
  | on hopen _ hreads => exact ⟨hopen, hreads.eq_of_none rfl⟩
  | off _ hclosed => cases hopen'.symm.trans hclosed

/-- What a step raises is the error of the request, or the listing is no
    good or too deep. -/
theorem Moves.faults [Limits] {method url : Text} (h : s.Moves L result s' L')
    (hf : s.scanner.feed.IsReplyTo method url) :
    s'.scanner.feed.IsReplyTo method url
      ∧ ∀ e, result = .error e → (∃ why, e = .decode why)
          ∨ (∃ what, e = .tooDeep what)
          ∨ ∃ fault, L'.faults = fault :: L.faults
              ∧ e = Resource.errorOf method url fault := by
  cases h with
  | idle => exact ⟨hf, by simp⟩
  | on _ _ hreads => exact ⟨(hreads.faults hf).1, by simp⟩
  | @off _ scanner _ L₁ _ _ _ hfeeds hclose =>
      have hfaults := scanner.feed.faults_close L₁
      rw [hclose] at hfaults
      constructor
      · obtain ⟨e, hreads⟩ := hfeeds.exists_reads
        have hfinally := (hreads.faults hf).1.close L₁
        rw [hclose] at hfinally
        exact hfinally
      · intro e he
        cases hfeeds with
        | ok => cases he
        | refused =>
            cases he
            exact .inl ⟨_, rfl⟩
        | tooDeep =>
            cases he
            exact .inr (.inl ⟨_, rfl⟩)
        | failed hreads =>
            cases he
            obtain ⟨fault, hfault, herror⟩ := (hreads.faults hf).2.2 _ rfl
            exact .inr (.inr ⟨fault, hfaults.trans hfault, herror⟩)

/-- The body of a reply raises nothing but the faults that its delivery
    meets. -/
theorem isShallow_of_isReplyTo {method url : Text}
    (h : s.scanner.feed.IsReplyTo method url) (L : Ledger β ω) :
    s.IsShallow L := by
  intro e f L' hreads what
  obtain ⟨fault, -, rfl⟩ := (hreads.faults h).2.2 e rfl
  rw [Resource.errorOf]
  split
  all_goals simp

end RowStream

end CouchClient
