import CouchClient.Proofs.Database.Requests
import CouchClient.Proofs.Rows.Bodies
import Mathlib.Data.List.Perm.Basic

/-! # Closing — every body is closed once

    A program makes operations in any order and keeps the streams of rows
    that it is given, as many as it likes.  Whatever the replies are, and
    wherever their bodies fail, each body is closed once, and that of an open
    stream is not closed before the stream is.

    * `Client`, `Client.run` — a program at work;
    * `Returned.Sound`, `Client.Sound` — what holds of its streams and of
      the bodies;
    * `Sound.operate`, `Sound.move`, `sound_run` — every step keeps it;
    * `closings_run` — how often a body was closed. -/

namespace CouchClient

/-! ## Programs -/

/-- The streams of rows that an operation gave. -/
def Answer.streams {β : Type} : Except Error (Answer β) → List (RowStream β)
  | .ok (.rows s) => [s]
  | _ => []

/-- A stream of rows with the operation that it came from. -/
structure Returned where
  operation : Operation
  stream : RowStream Nat

/-- A program at work: the account of its transport, and the streams of rows
    that it was given, in their order. -/
structure Client (β ω : Type) where
  ledger : Ledger β ω
  returned : List Returned

/-- What a program does: an operation, or a step of a stream that it was
    given. -/
inductive ClientStep where
  | operate (db : Database) (op : Operation)
  | move (k : Nat) (step : StreamStep)

namespace Client

variable {β ω : Type}

/-- A program before its first step. -/
def ofWorld (world : ω) : Client β ω := ⟨.ofWorld world, []⟩

variable [Transport β ω]

/-- One step, whether it returns or raises. -/
def step [Limits] (c : Client β ω) : ClientStep → Client β ω
  | .operate db op =>
      let (result, ledger) := db.perform op c.ledger
      ⟨ledger, c.returned ++ (Answer.streams result).map (⟨op, ·⟩)⟩
  | .move k step =>
      match c.returned[k]? with
      | none => c
      | some s =>
          let (_, stream, ledger) := s.stream.step c.ledger step
          ⟨ledger, c.returned.set k { s with stream }⟩

/-- Several steps, one after the other. -/
def run [Limits] (c : Client β ω) (steps : List ClientStep) : Client β ω :=
  steps.foldl step c

end Client

/-! ## Bodies of an operation -/

namespace Operation

variable {β ω : Type} [Transport β ω] {op : Operation} {L L' : Ledger β ω}
  {result : Except Error (Answer Nat)} {others : List Nat}

/-- An operation that settles from the reply's text hands out no stream. -/
theorem Settles.streams_eq_nil [Limits] {β : Type} {status : Int} {raw : Bytes}
    {result : Except Error (Answer β)} (h : op.Settles status raw result) :
    Answer.streams result = [] := by
  cases h with
  | @answer a hrows =>
      cases a with
      | rows s => exact absurd rfl (hrows s)
      | document | revision | written | stats | done => rfl
  | error => rfl

/-- The body of a reply is closed, unless a stream holds it. -/
theorem Handles.kept [Limits] {r : Response (Body Nat)}
    (h : op.Handles r L result L') (hkept : L.Kept (r.data.held ++ others)) :
    L'.Kept ((Answer.streams result).flatMap RowStream.held ++ others) := by
  have hread := Body.kept_readAll hkept
  cases h with
  | unread h =>
      rw [h] at hread
      exact hread
  | read h hsettles =>
      rw [h] at hread
      rw [hsettles.streams_eq_nil]
      exact hread
  | left =>
      rw [Answer.streams, List.flatMap_singleton]
      exact hkept

/-- Handling a reply asks for no further one. -/
theorem Handles.statuses [Limits] {r : Response (Body Nat)}
    (h : op.Handles r L result L') : L'.statuses = L.statuses := by
  have hquiet := r.data.quiet_readAll L
  cases h with
  | unread h =>
      rw [h] at hquiet
      exact hquiet.statuses
  | read h =>
      rw [h] at hquiet
      exact hquiet.statuses
  | left => rfl

end Operation

/-! ## Streams that were returned -/

/-- What holds of a stream that was returned: it came from a listing whose
    reply was a success, and as long as it is open, so is its body. -/
structure Returned.Sound {β ω : Type} (s : Returned) (L : Ledger β ω) :
    Prop where
  listing : s.operation.isListing
  held : s.stream.closed = false →
    s.stream.scanner.feed.held = s.stream.scanner.feed.stream?.toList
  success : ∀ n, s.stream.scanner.feed.stream? = some n →
    ∃ status, L.statuses[n]? = some status ∧ Status.isSuccess status

/-- What was handed out since does not matter. -/
theorem Returned.Sound.of_statuses {β ω : Type} {s : Returned}
    {L L' : Ledger β ω} (h : s.Sound L)
    (hstatuses : L.statuses <+: L'.statuses) : s.Sound L' := by
  refine ⟨h.listing, h.held, ?_⟩
  intro n hn
  obtain ⟨status, hget, hsuccess⟩ := h.success n hn
  obtain ⟨later, hlater⟩ := hstatuses
  obtain ⟨hlt, -⟩ := List.getElem?_eq_some_iff.mp hget
  rw [← hlater]
  exact ⟨status, (List.getElem?_append_left hlt).trans hget, hsuccess⟩

section

variable {β ω : Type} [Transport β ω] {op : Operation} {L L' : Ledger β ω}
  {result : Except Error (Answer Nat)} {others : List Nat} {s : Returned}

/-- A stream is sound after each of its steps. -/
theorem Returned.Sound.move [Limits] (h : s.Sound L) (step : StreamStep) :
    let after := s.stream.step L step
    Returned.Sound { s with stream := after.2.1 } after.2.2 := by
  intro after
  have hmoves : s.stream.Moves L after.1 after.2.1 after.2.2 :=
    s.stream.moves_step L step
  refine ⟨h.listing, ?_, ?_⟩
  · intro hopen
    obtain ⟨hopen', hfeed⟩ := hmoves.feed_of_open hopen
    show after.2.1.scanner.feed.held = after.2.1.scanner.feed.stream?.toList
    rw [hfeed]
    exact h.held hopen'
  · intro n hn
    rw [hmoves.quiet.statuses]
    exact h.success n (hmoves.stream?.symm.trans hn)

/-- A stream that an operation hands out is sound. -/
theorem Operation.Handles.sound [Limits] {call : Call} {r : Response (Option Nat)}
    (h : op.Handles (call.replyOf r) L result L')
    (hstatus : ∀ n, r.data = some n → L.statuses[n]? = some r.status) :
    ∀ s ∈ Answer.streams result, Returned.Sound ⟨op, s⟩ L' := by
  cases h with
  | unread => simp [Answer.streams]
  | read _ hsettles => simp [hsettles.streams_eq_nil]
  | left hsuccess hlisting =>
      intro s hs
      cases List.mem_singleton.mp hs
      refine ⟨hlisting, ?_, ?_⟩
      · intro _
        exact Body.held_ofStream r.data _ _
      · intro n hn
        exact ⟨r.status, hstatus n hn, hsuccess⟩

/-- What an operation leaves behind: its streams are sound, and all bodies
    but those that they hold, and those that were held before, were closed
    once. -/
theorem Operation.Asks.sound [Limits] (h : op.Asks L result L')
    (hkept : L.Kept others) :
    L'.Kept ((Answer.streams result).flatMap RowStream.held ++ others)
      ∧ L.statuses <+: L'.statuses
      ∧ ∀ s ∈ Answer.streams result, Returned.Sound ⟨op, s⟩ L' := by
  cases h with
  | argumentTwice => exact ⟨hkept, List.prefix_rfl, by simp [Answer.streams]⟩
  | refused => exact ⟨hkept, List.prefix_rfl, by simp [Answer.streams]⟩
  | undelivered call hrequest =>
      obtain ⟨-, -, hbodies⟩ := Ledger.request_error hrequest
      have hstatuses : L'.statuses = L.statuses :=
        congrArg (List.map HandedOut.status) hbodies
      refine ⟨hkept.request_error hrequest, ?_, by simp [Answer.streams]⟩
      exact ⟨[], by rw [hstatuses, List.append_nil]⟩
  | @answered call r L₁ _ _ hrequest hhandles =>
      have hheld : (call.replyOf r).data.held = r.data.toList :=
        Body.held_ofStream r.data _ _
      have hreply := hkept.request_ok hrequest
      rw [← hheld] at hreply
      refine ⟨hhandles.kept hreply, ?_, hhandles.sound ?_⟩
      · rw [hhandles.statuses]
        exact Ledger.statuses_prefix_of_request hrequest
      · exact Ledger.getElem?_statuses_of_request hrequest

end

/-! ## Every run -/

namespace Client

section

variable {β ω : Type} {c : Client β ω} {k : Nat}

/-- The bodies that the streams of a program hold. -/
def held (c : Client β ω) : List Nat := c.returned.flatMap fun s => s.stream.held

/-- The bodies that the streams hold, apart from one of them. -/
def heldApart (c : Client β ω) (k : Nat) : List Nat :=
  (c.returned.eraseIdx k).flatMap fun s => s.stream.held

/-- What holds of a program: its streams are sound, and all bodies but those
    that they hold were closed once. -/
structure Sound (c : Client β ω) : Prop where
  kept : c.ledger.Kept c.held
  returned : ∀ s ∈ c.returned, s.Sound c.ledger

/-- The streams of a client are those of one result and those of the others. -/
theorem held_perm (hk : k < c.returned.length) :
    c.held.Perm (c.returned[k].stream.held ++ c.heldApart k) := by
  have hperm := (List.getElem_cons_eraseIdx_perm hk).symm.flatMap_right
    fun s => s.stream.held
  rw [List.flatMap_cons] at hperm
  exact hperm

/-- Replacing one result exchanges its streams for those of the new one. -/
theorem held_set_perm (hk : k < c.returned.length) (ledger : Ledger β ω)
    (s : Returned) :
    (held ⟨ledger, c.returned.set k s⟩).Perm (s.stream.held ++ c.heldApart k) := by
  have hperm := (List.set_perm_cons_eraseIdx hk s).flatMap_right
    fun s => s.stream.held
  rw [List.flatMap_cons] at hperm
  exact hperm

/-- Further results bring their streams with them. -/
theorem held_append_perm (c : Client β ω) (ledger : Ledger β ω) (later : List Returned) :
    (held ⟨ledger, c.returned ++ later⟩).Perm
      (later.flatMap (fun s => s.stream.held) ++ c.held) := by
  rw [held, List.flatMap_append]
  exact List.perm_append_comm

theorem sound_ofWorld (world : ω) : (ofWorld world : Client β ω).Sound := by
  constructor
  · exact Ledger.kept_ofWorld world
  · simp [ofWorld]

end

variable {β ω : Type} [Transport β ω] {c : Client β ω}

/-- An operation keeps a client sound. -/
theorem Sound.operate [Limits] (h : c.Sound) (db : Database) (op : Operation) :
    (c.step (.operate db op)).Sound := by
  have hasks : op.Asks c.ledger (db.perform op c.ledger).1
      (db.perform op c.ledger).2 := op.isMetBy_perform db c.ledger
  rw [step]
  generalize db.perform op c.ledger = outcome at hasks ⊢
  obtain ⟨result, ledger⟩ := outcome
  obtain ⟨hkept, hstatuses, hsound⟩ := hasks.sound h.kept
  show Sound ⟨ledger, c.returned ++ (Answer.streams result).map (⟨op, ·⟩)⟩
  constructor
  · have hperm := c.held_append_perm ledger
      ((Answer.streams result).map (⟨op, ·⟩))
    rw [List.flatMap_map] at hperm
    exact hkept.perm hperm.symm
  · intro s hs
    rcases List.mem_append.mp hs with hs | hs
    · exact (h.returned s hs).of_statuses hstatuses
    · obtain ⟨stream, hstream, rfl⟩ := List.mem_map.mp hs
      exact hsound stream hstream

/-- A step of a returned stream keeps a client sound. -/
theorem Sound.move [Limits] (h : c.Sound) (k : Nat) (step : StreamStep) :
    (c.step (.move k step)).Sound := by
  rw [Client.step]
  split
  · exact h
  · next s hk =>
      obtain ⟨hlt, rfl⟩ := List.getElem?_eq_some_iff.mp hk
      have hmove := (h.returned _ (List.getElem_mem hlt)).move step
      have hmoves := c.returned[k].stream.moves_step c.ledger step
      generalize c.returned[k].stream.step c.ledger step = after at hmove hmoves ⊢
      obtain ⟨result, stream, ledger⟩ := after
      show Sound ⟨ledger, c.returned.set k { c.returned[k] with stream }⟩
      constructor
      · have hkept := hmoves.kept (h.kept.perm (held_perm hlt))
        have hperm := held_set_perm hlt ledger { c.returned[k] with stream }
        exact hkept.perm hperm.symm
      · intro s hs
        rcases List.mem_or_eq_of_mem_set hs with hs | rfl
        · refine (h.returned s hs).of_statuses ⟨[], ?_⟩
          rw [List.append_nil]
          exact hmoves.quiet.statuses.symm
        · exact hmove

/-- A client stays sound along every run. -/
theorem sound_run [Limits] (h : c.Sound) (steps : List ClientStep) :
    (c.run steps).Sound := by
  induction steps generalizing c with
  | nil => exact h
  | cons step steps ih =>
      cases step with
      | operate db op => exact ih (h.operate db op)
      | move k step => exact ih (h.move k step)

/-- **Every body is closed once**: after any steps, over any transport, a
    body was closed once, unless it is that of a success, a listing returned
    a stream over it, and the stream is still open; then it was not closed. -/
theorem closings_run [Limits] (world : ω) (steps : List ClientStep) :
    let c := (ofWorld world : Client β ω).run steps
    ∀ n b, c.ledger.bodies[n]? = some b →
      (b.closings = 1
        ∧ ∀ s ∈ c.returned, s.stream.scanner.feed.stream? = some n →
            s.stream.closed = true)
      ∨ (b.closings = 0 ∧ Status.isSuccess b.status
        ∧ ∃ s ∈ c.returned, s.operation.isListing ∧ s.stream.closed = false
            ∧ s.stream.scanner.feed.stream? = some n) := by
  intro c n b hb
  have hsound : c.Sound := sound_run (sound_ofWorld world) steps
  have hclosings : c.ledger.closings[n]? = some b.closings := by
    rw [Ledger.closings, List.getElem?_map, hb]
    rfl
  have hcount := hsound.kept.closings n b.closings hclosings
  by_cases hheld : n ∈ c.held
  · rw [if_pos hheld] at hcount
    obtain ⟨s, hs, hn⟩ := List.mem_flatMap.mp hheld
    have hstream := hsound.returned s hs
    cases hopen : s.stream.closed with
    | true =>
        rw [RowStream.held_of_closed hopen] at hn
        cases hn
    | false =>
        rw [RowStream.held_of_open hopen, hstream.held hopen,
          Option.mem_toList] at hn
        obtain ⟨status, hstatus, hsuccess⟩ := hstream.success n hn
        rw [Ledger.statuses, List.getElem?_map, hb] at hstatus
        cases hstatus
        exact Or.inr ⟨hcount, hsuccess, s, hs, hstream.listing, hopen, hn⟩
  · rw [if_neg hheld] at hcount
    refine Or.inl ⟨hcount, ?_⟩
    intro s hs hn
    by_contra hopen
    have hopen : s.stream.closed = false := eq_false_of_ne_true hopen
    refine hheld (List.mem_flatMap.mpr ⟨s, hs, ?_⟩)
    rw [RowStream.held_of_open hopen, (hsound.returned s hs).held hopen, hn]
    exact List.mem_singleton_self n

/-- A listing is opened and a document is read: the body of the document was
    closed, and that of the listing is still read from. -/
theorem closings_run_of_open :
    let empty : StoredStream := .ofBytes [] none none
    let world := Replay.ofPrepared
      [.reply ⟨200, none, some empty⟩, .reply ⟨200, none, some empty⟩] none
    let db : Database := ⟨.ofUrl (text "http://a/db") Database.defaultFields⟩
    let c := (ofWorld world : Client Nat Replay).run
      [.operate db (.allDocs []), .operate db (.get (text "b") [])]
    c.ledger.closings = [0, 1]
      ∧ ∃ s ∈ c.returned, s.operation.isListing ∧ s.stream.closed = false
          ∧ s.stream.scanner.feed.stream? = some 0 := by
  intro empty world db c
  have hclosings : c.ledger.closings = [0, 1] := by decide +kernel
  have hfirst : c.ledger.closings[0]? = some 0 := by
    rw [hclosings]
    rfl
  rw [Ledger.closings, List.getElem?_map] at hfirst
  obtain ⟨b, hb, hzero⟩ := Option.map_eq_some_iff.mp hfirst
  refine ⟨hclosings, ?_⟩
  rcases closings_run world _ 0 b hb with ⟨hone, -⟩ | ⟨-, -, hopen⟩
  · rw [hzero] at hone
    cases hone
  · exact hopen

end Client

end CouchClient
