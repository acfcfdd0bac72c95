import CouchClient.Http.Replay

/-! # Ledgers — what passes through a transport

    A transport does not say how often it was asked, nor how often the
    bodies of its replies were closed.  A ledger stands before a transport
    and keeps account of that.  It passes everything on, so with a ledger
    before it a transport does what it does without one.

    * `Ledger` — a transport with its account, and the transport that this
      is;
    * `Ledger.Quiet` — nothing was asked in between;
    * `Ledger.Kept` — every body is closed once, but for those that are
      held, which are open;
    * `Body.ComesTo` — what a read of a body comes to;
    * `Body.quiet_readAll`, `Body.faults_of_readAll`, `Body.kept_readAll` —
      what is seen of a body that is read to its end. -/

namespace CouchClient

/-- The body of a reply in the account: its stream, the status that it came
    with, and how often it was closed. -/
structure HandedOut (β : Type) where
  stream : β
  status : Int
  closings : Nat

/-- A transport with the requests that it was given, last first, the bodies
    that it handed out, by their numbers, and the faults that it raised, last
    first. -/
structure Ledger (β ω : Type) where
  world : ω
  calls : List Call
  bodies : List (HandedOut β)
  faults : List Fault

namespace Ledger

variable {β ω : Type}

/-- The account before any request. -/
def ofWorld (world : ω) : Ledger β ω := ⟨world, [], [], []⟩

section
variable [Transport β ω]

/-- Reads from a body that was handed out. -/
def read (L : Ledger β ω) (n : Nat) (size : Option Nat) :
    Except Fault Bytes × Ledger β ω :=
  match L.bodies[n]? with
  | none => (.ok [], L)
  | some b =>
      match ByteStream.read b.stream size L.world with
      | (.ok chunk, stream, world) =>
          (.ok chunk,
            { L with world, bodies := L.bodies.set n { b with stream } })
      | (.error f, stream, world) =>
          (.error f,
            { L with
              world, bodies := L.bodies.set n { b with stream }
              faults := f :: L.faults })

/-- Closes a body that was handed out. -/
def close (L : Ledger β ω) (n : Nat) : Ledger β ω :=
  match L.bodies[n]? with
  | none => L
  | some b =>
      let (stream, world) := ByteStream.close b.stream L.world
      { L with
        world
        bodies :=
          L.bodies.set n { b with stream, closings := b.closings + 1 } }

/-- A bound for the bytes of a body that are still to come. -/
def unread (L : Ledger β ω) (n : Nat) : Nat :=
  ((L.bodies[n]?).map fun b => ByteStream.unread b.stream L.world).getD 0

/-- Passes a request on. -/
def request (L : Ledger β ω) (method url : Text) (body : Option Bytes)
    (headers : Headers Text) :
    Except Fault (Response (Option Nat)) × Ledger β ω :=
  let calls := ⟨method, url, body, headers⟩ :: L.calls
  match Transport.request method url body headers L.world with
  | (.error f, world) =>
      (.error f, { L with world, calls, faults := f :: L.faults })
  | (.ok r, world) =>
      match r.data with
      | none => (.ok ⟨r.status, r.headers, none⟩, { L with world, calls })
      | some stream =>
          (.ok ⟨r.status, r.headers, some L.bodies.length⟩,
            { L with
              world, calls
              bodies := L.bodies ++ [⟨stream, r.status, 0⟩] })

/-- A read takes what it gives from what is still to come. -/
theorem unread_read {L L' : Ledger β ω} {n : Nat} {size : Option Nat}
    {chunk : Bytes} (h : L.read n size = (.ok chunk, L')) :
    chunk.length + L'.unread n ≤ L.unread n := by
  rw [read] at h
  cases hb : L.bodies[n]? with
  | none =>
      rw [hb] at h
      cases h
      simp
  | some b =>
      rw [hb] at h
      dsimp only at h
      obtain ⟨hlt, hget⟩ := List.getElem?_eq_some_iff.mp hb
      split at h
      · next hread =>
          cases h
          have hunread := ByteStream.unread_read hread
          simpa [unread, hlt, hget] using hunread
      · cases h

/-- A ledger before a transport is one. -/
instance : Transport Nat (Ledger β ω) where
  read n size L := ((L.read n size).1, n, (L.read n size).2)
  close n L := (n, L.close n)
  unread n L := L.unread n
  unread_read := by
    intro n size L chunk n' L' h
    cases hread : L.read n size with
    | mk result after =>
        rw [hread] at h
        cases h
        exact unread_read hread
  request method url body headers L := L.request method url body headers

end

/-! ## Accounts -/

/-- The statuses of the bodies that were handed out. -/
def statuses (L : Ledger β ω) : List Int := L.bodies.map HandedOut.status

/-- How often the bodies that were handed out were closed. -/
def closings (L : Ledger β ω) : List Nat := L.bodies.map HandedOut.closings

/-- Between two ledgers nothing was asked, so nothing was handed out. -/
structure Quiet (L L' : Ledger β ω) : Prop where
  calls : L'.calls = L.calls
  statuses : L'.statuses = L.statuses

/-- Every body that was handed out was closed once, but for those that are
    held, each of them once, which were not closed. -/
structure Kept (L : Ledger β ω) (held : List Nat) : Prop where
  distinct : held.Nodup
  handed : ∀ n ∈ held, n < L.closings.length
  closings : ∀ n k, L.closings[n]? = some k → k = if n ∈ held then 0 else 1

variable {L L' L'' : Ledger β ω} {n : Nat} {held others : List Nat}

theorem Quiet.refl (L : Ledger β ω) : L.Quiet L := ⟨rfl, rfl⟩

theorem Quiet.trans (h : L.Quiet L') (h' : L'.Quiet L'') : L.Quiet L'' := by
  constructor
  · exact h'.calls.trans h.calls
  · exact h'.statuses.trans h.statuses

/-- In a new account everything is closed. -/
theorem kept_ofWorld (world : ω) : (ofWorld world : Ledger β ω).Kept [] := by
  constructor
  · exact List.nodup_nil
  · intro n hn
    cases hn
  · intro n k hk
    cases hk

/-- The order of the held bodies does not matter. -/
theorem Kept.perm (h : L.Kept held) {held' : List Nat}
    (hperm : held.Perm held') : L.Kept held' := by
  constructor
  · exact hperm.nodup_iff.mp h.distinct
  · intro n hn
    exact h.handed n (hperm.mem_iff.mpr hn)
  · intro n k hk
    rw [h.closings n k hk]
    simp only [hperm.mem_iff]

/-- What was closed so often before is as it was. -/
theorem Kept.of_closings (h : L.Kept held) (hL : L'.closings = L.closings) :
    L'.Kept held := by
  constructor
  · exact h.distinct
  · intro n hn
    rw [hL]
    exact h.handed n hn
  · intro n k hk
    rw [hL] at hk
    exact h.closings n k hk

/-- Replacing an element by one that looks the same changes no view of the list. -/
theorem map_set_of_eq {α γ : Type} {f : α → γ} {l : List α} {a a' : α}
    (hn : l[n]? = some a) (ha : f a' = f a) : (l.set n a').map f = l.map f := by
  rw [List.map_set, ha]
  obtain ⟨hlt, rfl⟩ := List.getElem?_eq_some_iff.mp hn
  rw [← List.getElem_map f (h := by simpa using hlt)]
  exact List.set_getElem_self _

section
variable [Transport β ω]

/-- A read asks for nothing. -/
theorem quiet_of_read {size : Option Nat} {result : Except Fault Bytes}
    (h : L.read n size = (result, L')) : L.Quiet L' := by
  rw [read] at h
  split at h
  · cases h
    exact .refl L
  · next hb =>
      split at h
      · cases h
        exact ⟨rfl, map_set_of_eq hb rfl⟩
      · cases h
        exact ⟨rfl, map_set_of_eq hb rfl⟩

/-- A read closes nothing. -/
theorem closings_of_read {size : Option Nat} {result : Except Fault Bytes}
    (h : L.read n size = (result, L')) : L'.closings = L.closings := by
  rw [read] at h
  split at h
  · cases h
    rfl
  · next hb =>
      split at h
      · cases h
        exact map_set_of_eq hb rfl
      · cases h
        exact map_set_of_eq hb rfl

/-- The fault of a read, and no other, is put down. -/
theorem faults_of_read {size : Option Nat} {result : Except Fault Bytes}
    (h : L.read n size = (result, L')) :
    (∀ chunk, result = .ok chunk → L'.faults = L.faults)
      ∧ ∀ f, result = .error f → L'.faults = f :: L.faults := by
  rw [read] at h
  split at h
  · cases h
    simp
  · split at h
    · cases h
      simp
    · cases h
      simp

theorem quiet_close (L : Ledger β ω) (n : Nat) : L.Quiet (L.close n) := by
  rw [close]
  split
  · exact .refl L
  · next hb => exact ⟨rfl, map_set_of_eq hb rfl⟩

theorem faults_close (L : Ledger β ω) (n : Nat) :
    (L.close n).faults = L.faults := by
  rw [close]
  split
  · rfl
  · rfl

/-- Closing a body counts for that body alone. -/
theorem getElem?_closings_close (L : Ledger β ω) (n m : Nat) :
    (L.close n).closings[m]?
      = (L.closings[m]?).map fun k => if n = m then k + 1 else k := by
  rw [closings, closings, List.getElem?_map, List.getElem?_map, close]
  cases hb : L.bodies[n]? with
  | none =>
      by_cases hnm : n = m
      · rw [← hnm, hb]
        rfl
      · simp [hnm, Function.comp_def]
  | some b =>
      show ((L.bodies.set n _)[m]?).map HandedOut.closings = _
      by_cases hnm : n = m
      · obtain ⟨hlt, -⟩ := List.getElem?_eq_some_iff.mp hb
        subst hnm
        rw [List.getElem?_set_self hlt, hb]
        simp
      · rw [List.getElem?_set_ne hnm]
        simp [hnm, Function.comp_def]

/-- A read closes none of the bodies that are held. -/
theorem Kept.of_read {size : Option Nat} {result : Except Fault Bytes}
    (h : L.Kept held) (hread : L.read n size = (result, L')) : L'.Kept held :=
  h.of_closings (closings_of_read hread)

/-- What is held is closed, once and for all. -/
theorem Kept.close (h : L.Kept (n :: held)) : (L.close n).Kept held := by
  obtain ⟨hn, hdistinct⟩ := List.nodup_cons.mp h.distinct
  have hlength : (L.close n).closings.length = L.closings.length := by
    have hquiet := congrArg List.length (L.quiet_close n).statuses
    simpa [statuses, Ledger.closings] using hquiet
  constructor
  · exact hdistinct
  · intro m hm
    rw [hlength]
    exact h.handed m (List.mem_cons_of_mem n hm)
  · intro m k hk
    rw [getElem?_closings_close] at hk
    obtain ⟨k', hk', rfl⟩ := Option.map_eq_some_iff.mp hk
    have hbefore := h.closings m k' hk'
    by_cases hnm : n = m
    · subst hnm
      rw [if_pos List.mem_cons_self] at hbefore
      rw [if_pos rfl, if_neg hn, hbefore]
    · rw [if_neg hnm, hbefore]
      simp only [List.mem_cons, Ne.symm hnm, false_or]

/-- A request is an entry in the account, and so is a fault that it
    meets. -/
theorem request_error {method url : Text} {body : Option Bytes}
    {headers : Headers Text} {f : Fault}
    (h : L.request method url body headers = (.error f, L')) :
    L'.calls = ⟨method, url, body, headers⟩ :: L.calls
      ∧ L'.faults = f :: L.faults ∧ L'.bodies = L.bodies := by
  rw [request] at h
  split at h
  · cases h
    exact ⟨rfl, rfl, rfl⟩
  · split at h
    · cases h
    · cases h

/-- So is the body of the reply, which is new and not closed. -/
theorem request_ok {method url : Text} {body : Option Bytes}
    {headers : Headers Text} {r : Response (Option Nat)}
    (h : L.request method url body headers = (.ok r, L')) :
    L'.calls = ⟨method, url, body, headers⟩ :: L.calls
      ∧ L'.faults = L.faults
      ∧ ((r.data = none ∧ L'.bodies = L.bodies)
        ∨ ∃ stream, r.data = some L.bodies.length
            ∧ L'.bodies = L.bodies ++ [⟨stream, r.status, 0⟩]) := by
  rw [request] at h
  split at h
  · cases h
  · split at h
    · cases h
      exact ⟨rfl, rfl, Or.inl ⟨rfl, rfl⟩⟩
    · cases h
      exact ⟨rfl, rfl, Or.inr ⟨_, rfl, rfl⟩⟩

/-- A request adds a status, and keeps those before it. -/
theorem statuses_prefix_of_request {method url : Text} {body : Option Bytes}
    {headers : Headers Text} {r : Response (Option Nat)}
    (h : L.request method url body headers = (.ok r, L')) :
    L.statuses <+: L'.statuses := by
  obtain ⟨-, -, ⟨-, hbodies⟩ | ⟨stream, -, hbodies⟩⟩ := request_ok h
  · exact ⟨[], by rw [statuses, statuses, hbodies, List.append_nil]⟩
  · exact ⟨[r.status], by rw [statuses, statuses, hbodies, List.map_append]; rfl⟩

/-- The body of a reply has the number at which its status is put down. -/
theorem getElem?_statuses_of_request {method url : Text} {body : Option Bytes}
    {headers : Headers Text} {r : Response (Option Nat)}
    (h : L.request method url body headers = (.ok r, L')) :
    ∀ n, r.data = some n → L'.statuses[n]? = some r.status := by
  intro n hn
  obtain ⟨-, -, ⟨hnone, -⟩ | ⟨stream, hsome, hbodies⟩⟩ := request_ok h
  · cases hnone.symm.trans hn
  · cases hsome.symm.trans hn
    rw [statuses, hbodies, List.getElem?_map, List.getElem?_concat_length]
    rfl

/-- The body of a reply is one more that is held. -/
theorem Kept.request_ok {method url : Text} {body : Option Bytes}
    {headers : Headers Text} {r : Response (Option Nat)} (h : L.Kept held)
    (hrequest : L.request method url body headers = (.ok r, L')) :
    L'.Kept (r.data.toList ++ held) := by
  obtain ⟨-, -, ⟨hnone, hbodies⟩ | ⟨stream, hsome, hbodies⟩⟩ :=
    Ledger.request_ok hrequest
  · rw [hnone]
    exact h.of_closings (congrArg (List.map HandedOut.closings) hbodies)
  · rw [hsome]
    have hclosings : L'.closings = L.closings ++ [0] := by
      rw [Ledger.closings, hbodies, List.map_append]
      rfl
    have hlength : L.closings.length = L.bodies.length := List.length_map _
    have hnew : L.bodies.length ∉ held := by
      intro hmem
      have hlt := h.handed _ hmem
      omega
    constructor
    · exact List.nodup_cons.mpr ⟨hnew, h.distinct⟩
    · intro m hm
      rw [hclosings, List.length_append]
      rcases List.mem_cons.mp hm with rfl | hm
      · simp [hlength]
      · exact Nat.lt_add_right 1 (h.handed m hm)
    · intro m k hk
      rw [hclosings, ← hlength] at *
      rcases Nat.lt_trichotomy m L.closings.length with hlt | rfl | hgt
      · rw [List.getElem?_append_left hlt] at hk
        rw [h.closings m k hk]
        simp only [Option.toList_some, List.cons_append, List.nil_append,
          List.mem_cons, Nat.ne_of_lt hlt, false_or]
      · rw [List.getElem?_concat_length] at hk
        cases hk
        simp
      · rw [List.getElem?_eq_none (by simp; omega)] at hk
        cases hk

/-- A request that fails hands out no body. -/
theorem Kept.request_error {method url : Text} {body : Option Bytes}
    {headers : Headers Text} {f : Fault} (h : L.Kept held)
    (hrequest : L.request method url body headers = (.error f, L')) :
    L'.Kept held := by
  obtain ⟨-, -, hbodies⟩ := Ledger.request_error hrequest
  exact h.of_closings (congrArg (List.map HandedOut.closings) hbodies)

end

end Ledger

/-! ## Bodies -/

namespace Body

/-- The stream that the body has to close. -/
def held {β : Type} (b : Body β) : List β :=
  if b.closed then [] else b.stream.toList

variable {β ω : Type} [Transport β ω] {b b' : Body Nat} {L L' : Ledger β ω}
  {others : List Nat}

/-- What a read comes to: a body that has no stream, or none any more, gives
    nothing; a fault of the delivery closes the body. -/
inductive ComesTo (b : Body Nat) (L : Ledger β ω) :
    Except Error Bytes → Body Nat → Ledger β ω → Prop
  | nothing : ComesTo b L (.ok []) b L
  | chunk {n size bs L'} (hn : b.held = [n])
      (h : L.read n size = (.ok bs, L')) : ComesTo b L (.ok bs) b L'
  | failed {n size f L'} (hn : b.held = [n])
      (h : L.read n size = (.error f, L')) :
      ComesTo b L (.error (b.errorOf f)) b L'
  | lost {n size f L'} (hn : b.held = [n])
      (h : L.read n size = (.error f, L')) :
      ComesTo b L (.error (b.errorOf f)) { b with closed := true } (L'.close n)

/-- Closing a held body closes its stream. -/
theorem close_of_held {n : Nat} (h : b.held = [n]) :
    b.close L = ({ b with closed := true }, L.close n) := by
  obtain ⟨stream, method, url, closed⟩ := b
  cases closed with
  | true => cases h
  | false =>
      cases stream with
      | none => cases h
      | some m =>
          cases h
          rfl

/-- Closing a body again closes no stream. -/
theorem close_of_not_held (h : b.held = []) :
    b.close L = ({ b with closed := true }, L) := by
  obtain ⟨stream, method, url, closed⟩ := b
  cases closed with
  | true => rfl
  | false =>
      cases stream with
      | none => rfl
      | some m => cases h

/-- A new body holds its stream. -/
theorem held_ofStream {β : Type} (stream : Option β) (method url : Option Text) :
    (ofStream stream method url).held = stream.toList := by
  cases stream with
  | none => rfl
  | some s => rfl

/-- A body has one stream at most. -/
theorem held_cases (b : Body Nat) : b.held = [] ∨ ∃ n, b.held = [n] := by
  obtain ⟨stream, method, url, closed⟩ := b
  cases closed with
  | true => exact Or.inl rfl
  | false =>
      cases stream with
      | none => exact Or.inl rfl
      | some n => exact Or.inr ⟨n, rfl⟩

/-- What every read of a body comes to. -/
theorem comesTo_read (b : Body Nat) (size : Option Nat) (L : Ledger β ω) :
    ComesTo b L (b.read size L).1 (b.read size L).2.1 (b.read size L).2.2 := by
  obtain ⟨stream, method, url, closed⟩ := b
  cases closed with
  | true => exact .nothing
  | false =>
      cases stream with
      | none => exact .nothing
      | some n =>
          have hledger : ByteStream.read n size L
              = ((L.read n size).1, n, (L.read n size).2) := rfl
          rw [read]
          dsimp only
          rw [hledger]
          rcases h : L.read n size with ⟨f | bs, L'⟩
          · dsimp only
            split
            · exact .lost rfl h
            · exact .failed rfl h
          · exact .chunk rfl h

theorem quiet_close (b : Body Nat) (L : Ledger β ω) :
    L.Quiet (b.close L).2 := by
  obtain hnone | ⟨n, hn⟩ := b.held_cases
  · rw [close_of_not_held hnone]
    exact .refl L
  · rw [close_of_held hn]
    exact L.quiet_close n

theorem faults_close (b : Body Nat) (L : Ledger β ω) :
    (b.close L).2.faults = L.faults := by
  obtain hnone | ⟨n, hn⟩ := b.held_cases
  · rw [close_of_not_held hnone]
  · rw [close_of_held hn]
    exact L.faults_close n

/-- A body that was closed is held no longer. -/
theorem kept_close (h : L.Kept (b.held ++ others)) :
    (b.close L).2.Kept others := by
  obtain hnone | ⟨n, hn⟩ := b.held_cases
  · rw [close_of_not_held hnone]
    rw [hnone] at h
    exact h
  · rw [close_of_held hn]
    rw [hn] at h
    exact h.close

variable {result : Except Error Bytes}

/-- A read of a body asks for nothing. -/
theorem ComesTo.quiet (h : ComesTo b L result b' L') : L.Quiet L' := by
  cases h with
  | nothing => exact .refl L
  | chunk _ hread => exact Ledger.quiet_of_read hread
  | failed _ hread => exact Ledger.quiet_of_read hread
  | @lost n _ _ L' _ hread =>
      exact (Ledger.quiet_of_read hread).trans (L'.quiet_close n)

/-- An error is that of the last fault, for the request of the body. -/
theorem ComesTo.faults (h : ComesTo b L result b' L') :
    (∀ bs, result = .ok bs → L'.faults = L.faults)
      ∧ ∀ e, result = .error e →
          ∃ f, L'.faults = f :: L.faults ∧ e = b.errorOf f := by
  cases h with
  | nothing => simp
  | chunk hn hread => simp [(Ledger.faults_of_read hread).1]
  | failed hn hread => simp [(Ledger.faults_of_read hread).2]
  | @lost n size f L' hn hread =>
      simp [L'.faults_close n, (Ledger.faults_of_read hread).2]

/-- A read holds its body on, or closes it at a fault. -/
theorem ComesTo.kept (h : ComesTo b L result b' L')
    (hkept : L.Kept (b.held ++ others)) : L'.Kept (b'.held ++ others) := by
  cases h with
  | nothing => exact hkept
  | chunk _ hread => exact hkept.of_read hread
  | failed _ hread => exact hkept.of_read hread
  | lost hn hread =>
      rw [hn] at hkept
      exact (hkept.of_read hread).close

/-- For which request a body is, and over which stream, stays as it is. -/
theorem ComesTo.names (h : ComesTo b L result b' L') :
    b'.method = b.method ∧ b'.url = b.url ∧ b'.stream = b.stream := by
  cases h with
  | nothing | chunk | failed | lost => exact ⟨rfl, rfl, rfl⟩

/-- Only a fault changes a body. -/
theorem ComesTo.eq_of_ok {bs : Bytes} (h : ComesTo b L (.ok bs) b' L') :
    b' = b := by
  cases h with
  | nothing | chunk => rfl

theorem quiet_readAll (b : Body Nat) (L : Ledger β ω) :
    L.Quiet (b.readAll L).2.2 :=
  (b.comesTo_read none L).quiet.trans (quiet_close _ _)

/-- The fault that a body raises when it is read to its end is put down, and no
    other. -/
theorem faults_of_readAll (h : b.readAll L = (result, b', L')) :
    (∀ bs, result = .ok bs → L'.faults = L.faults)
      ∧ ∀ e, result = .error e →
          ∃ f, L'.faults = f :: L.faults ∧ e = b.errorOf f := by
  have hfaults := (b.comesTo_read none L).faults
  have hclose := (b.read none L).2.1.faults_close (b.read none L).2.2
  cases h
  rw [← hclose] at hfaults
  exact hfaults

/-- Whatever comes of a body that is read to its end, it is closed once. -/
theorem kept_readAll (h : L.Kept (b.held ++ others)) :
    (b.readAll L).2.2.Kept others :=
  kept_close ((b.comesTo_read none L).kept h)

end Body

end CouchClient
