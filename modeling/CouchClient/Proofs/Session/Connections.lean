import CouchClient.Proofs.Entries
import CouchClient.Proofs.Session.Traffic

/-! # Connections — where they go and who has them

    A connection goes where it was made to go, whatever becomes of the
    network.  At any time it is kept for later requests, lent to a stream
    that is not closed, or nobody's.

    * `Network.Follows` — a network after some requests;
    * `Session.owned` — the connections that are kept or lent;
    * `acquire_cases`, `exchangeOn_cases` — all that these can do;
    * `prefix_streams_run`, `closed_run` — streams stay, and stay closed. -/

namespace CouchClient

/-! ## Networks -/

namespace Network

variable {n n' n'' : Network} {c : Nat} {sent sent' : List (Nat × Request)}

/-- Where a connection goes, if it was made. -/
def originOf (n : Network) (c : Nat) : Option Origin :=
  (n.connections[c]?).map Connection.origin

/-- The requests that were sent, last first. -/
def requests (n : Network) : List (Nat × Request) :=
  n.events.filterMap Event.request?

/-- A network comes after another one: connections go where they went, and
    the given requests were sent in between. -/
structure Follows (n n' : Network) (sent : List (Nat × Request)) : Prop where
  origin : ∀ {c o}, n.originOf c = some o → n'.originOf c = some o
  requests : n'.requests = sent ++ n.requests

theorem Follows.refl (n : Network) : n.Follows n [] := ⟨id, rfl⟩

theorem Follows.trans (h : n.Follows n' sent) (h' : n'.Follows n'' sent') :
    n.Follows n'' (sent' ++ sent) := by
  refine ⟨fun ho => h'.origin (h.origin ho), ?_⟩
  rw [h'.requests, h.requests, List.append_assoc]

theorem getElem?_of_isOpen {o : Origin} (ho : n.originOf c = some o)
    (hopen : n.isOpen c = true) : n.connections[c]? = some ⟨o, true⟩ := by
  obtain ⟨⟨origin, isOpen⟩, hk, rfl⟩ := Option.map_eq_some_iff.mp ho
  rw [Network.isOpen, hk] at hopen
  obtain rfl : isOpen = true := hopen
  exact hk

theorem originOf_setOpen (n : Network) (c c' : Nat) (isOpen : Bool) :
    (n.setOpen c isOpen).originOf c' = n.originOf c' := by
  rw [originOf, originOf, setOpen, List.getElem?_modify]
  cases n.connections[c']? with
  | none => rfl
  | some k =>
      show some (if c = c' then { k with isOpen } else k).origin
        = some k.origin
      split <;> rfl

theorem follows_setOpen (n : Network) (c : Nat) (isOpen : Bool) :
    n.Follows (n.setOpen c isOpen) [] :=
  ⟨fun ho => (originOf_setOpen n c _ isOpen).trans ho, rfl⟩

theorem follows_record (n : Network) (e : Event) :
    n.Follows (n.record e) e.request?.toList := by
  refine ⟨id, ?_⟩
  rw [requests, record, List.filterMap_cons]
  cases e with
  | connect | request | close => rfl

theorem follows_strike (n : Network) (p : ExchangePoint) :
    n.Follows (n.strike p).2 [] := by
  rw [strike]
  split
  · split
    · exact ⟨id, rfl⟩
    · exact .refl n
  · exact .refl n

theorem connections_strike (n : Network) (p : ExchangePoint) :
    (n.strike p).2.connections = n.connections := by
  rw [strike]
  split
  · split <;> rfl
  · rfl

/-- A connection that is made is new, open and goes where it should. -/
theorem connect_cases (n : Network) (o : Origin) :
    ∃ n', n.Follows n' []
      ∧ ((∃ f, n.connect o = (.error f, n'))
        ∨ ∃ c, n.connect o = (.ok c, n') ∧ n.originOf c = none
            ∧ n'.connections[c]? = some ⟨o, true⟩) := by
  let c := n.connections.length
  let made : Network :=
    { n with connections := n.connections ++ [Connection.mk o false] }
  have hmade : n.Follows made [] := by
    refine ⟨fun {c' o'} ho => ?_, rfl⟩
    obtain ⟨k, hk, -⟩ := Option.map_eq_some_iff.mp ho
    obtain ⟨hlt, -⟩ := List.getElem?_eq_some_iff.mp hk
    rw [originOf, List.getElem?_append_left hlt]
    exact ho
  have hstrike := (hmade.trans (follows_record made (.connect c o))).trans
    (follows_strike (made.record (.connect c o)) .connect)
  have hconnections : ((made.record (.connect c o)).strike .connect).2.connections
      = n.connections ++ [Connection.mk o false] := connections_strike _ _
  rw [connect]
  generalize (made.record (.connect c o)).strike .connect = struck
    at hstrike hconnections ⊢
  obtain ⟨_ | f, n'⟩ := struck
  · refine ⟨n'.setOpen c true, hstrike.trans (follows_setOpen n' c true),
      Or.inr ⟨c, rfl, ?_, ?_⟩⟩
    · rw [originOf, List.getElem?_eq_none (Nat.le_refl _)]
      rfl
    · rw [setOpen, List.getElem?_modify, hconnections,
        List.getElem?_append_right (Nat.le_refl _), Nat.sub_self]
      exact congrArg some (if_pos rfl)
  · exact ⟨n', hstrike, Or.inl ⟨f, rfl⟩⟩

/-- Sending puts down the request on its connection. -/
theorem follows_send (n : Network) (c : Nat) (r : Request) :
    n.Follows (n.send c r).2 [(c, r)] := by
  have h := (follows_record n (.request c r)).trans
    (follows_strike (n.record (.request c r)) .request)
  rw [send]
  generalize (n.record (.request c r)).strike .request = struck at h ⊢
  obtain ⟨_ | f, n'⟩ := struck
  · exact h
  · exact h

theorem follows_receive (n : Network) (c : Nat) :
    n.Follows (n.receive c).2 [] := by
  rw [receive]
  split
  · exact .refl n
  · exact ⟨id, rfl⟩
  · next r script _ =>
      have h : n.Follows { n with script } [] := ⟨id, rfl⟩
      dsimp only
      split
      · exact h.trans (follows_setOpen _ c false)
      · exact h

theorem follows_close (n : Network) (c : Nat) : n.Follows (n.close c) [] :=
  (follows_record n (.close c)).trans (follows_setOpen _ c false)

end Network

/-! ## Sessions -/

/-- The connections of those streams that are not closed. -/
def lentTo (streams : List ResponseStream) : List Nat :=
  (streams.filter fun r => !r.closed).map ResponseStream.connection

theorem lentTo_append (l l' : List ResponseStream) :
    lentTo (l ++ l') = lentTo l ++ lentTo l' := by
  rw [lentTo, List.filter_append, List.map_append]
  rfl

theorem lentTo_cons_closed {r : ResponseStream} (hr : r.closed = true)
    (l : List ResponseStream) : lentTo (r :: l) = lentTo l := by
  rw [lentTo, List.filter_cons_of_neg (by rw [hr]; decide)]
  rfl

/-- An open stream is lent its connection. -/
theorem lentTo_cons_open {r : ResponseStream} (hr : r.closed = false)
    (l : List ResponseStream) :
    lentTo (r :: l) = r.connection :: lentTo l := by
  rw [lentTo, List.filter_cons_of_pos (by rw [hr]; decide)]
  rfl

theorem mem_lentTo {r : ResponseStream} {l : List ResponseStream}
    (hmem : r ∈ l) (hr : r.closed = false) : r.connection ∈ lentTo l :=
  List.mem_map_of_mem (List.mem_filter.mpr ⟨hmem, by rw [hr]; rfl⟩)

/-- What is lent apart from one stream stays as it is when another takes its
    place. -/
theorem lentTo_set_perm {l : List ResponseStream} {n : Nat}
    {r : ResponseStream} (hn : l[n]? = some r) (r' : ResponseStream) :
    ∃ others, (lentTo l).Perm (lentTo [r] ++ others)
      ∧ (lentTo (l.set n r')).Perm (lentTo [r'] ++ others) := by
  obtain ⟨hlt, hget⟩ := List.getElem?_eq_some_iff.mp hn
  obtain ⟨l₁, l₂, hl, -, hset⟩ := @List.exists_of_set _ n r' l hlt
  have hsplit (x : ResponseStream) :
      (lentTo (l₁ ++ x :: l₂)).Perm (lentTo [x] ++ lentTo (l₁ ++ l₂)) := by
    rw [← lentTo_append]
    exact (List.perm_middle.filter _).map _
  refine ⟨lentTo (l₁ ++ l₂), ?_, ?_⟩
  · rw [hget] at hl
    exact hl ▸ hsplit r
  · rw [hset]
    exact hsplit r'

namespace Session

variable {s s' : Session} {o : Origin} {c : Nat}

/-- A request is made with the given method and body. -/
theorem of_prepare {method url url' : Text} {body : Option Bytes}
    {fields : List (Text × Text)} {r : Request}
    (h : s.prepare method url body fields = .ok (url', r)) :
    r.method = method ∧ r.body = body := by
  rw [prepare] at h
  cases hurl : s.locate url with
  | none =>
      rw [hurl] at h
      cases h
  | some place =>
      rw [hurl] at h
      dsimp only at h
      rw [Request.make] at h
      cases htarget : Url.split (text "http") place with
      | error e =>
          rw [htarget] at h
          cases h
      | ok target =>
          rw [htarget] at h
          cases h
          exact ⟨rfl, rfl⟩

/-- The connections that are kept, for whatever origin. -/
def pooled (s : Session) : List Nat := s.pool.flatMap Prod.snd

/-- The connections that are kept, or lent to a stream that is not
    closed. -/
def owned (s : Session) : List Nat := s.pooled ++ lentTo s.streams

/-- What a session has apart from the connections kept for an origin. -/
def ownedElsewhere (s : Session) (o : Origin) : List Nat :=
  (Entries.erase o s.pool).flatMap Prod.snd ++ lentTo s.streams

theorem owned_perm (s : Session) (o : Origin) :
    s.owned.Perm (s.kept o ++ s.ownedElsewhere o) := by
  rw [owned, ownedElsewhere, ← List.append_assoc]
  exact (Entries.flatMap_perm o s.pool).append_right _

/-- Connections that are kept for an origin replace those that were. -/
theorem owned_setKept_perm (s : Session) (o : Origin) (cs : List Nat) :
    (s.setKept o cs).owned.Perm (cs ++ s.ownedElsewhere o) := by
  rw [owned, ownedElsewhere, ← List.append_assoc]
  exact (Entries.flatMap_insert_perm o cs s.pool).append_right _

/-- A connection that is kept is owned. -/
theorem owned_keep_perm (s : Session) (o : Origin) (c : Nat) :
    (s.keep o c).owned.Perm (c :: s.owned) :=
  (s.owned_setKept_perm o _).trans ((s.owned_perm o).symm.cons c)

/-- A stream that is closed gives its connection up. -/
theorem owned_set_closed_perm {n : Nat} {r done : ResponseStream}
    (hn : s.streams[n]? = some r) (hr : r.closed = false)
    (hdone : done.closed = true) :
    s.owned.Perm (r.connection ::
      Session.owned { s with streams := s.streams.set n done }) := by
  obtain ⟨others, hbefore, hafter⟩ := lentTo_set_perm hn done
  rw [lentTo_cons_open hr] at hbefore
  rw [lentTo_cons_closed hdone] at hafter
  rw [owned, owned]
  refine (hbefore.append_left _).trans (List.perm_middle.trans ?_)
  exact (hafter.symm.append_left _).cons _

/-- A stream in the place of a closed one takes its connection. -/
theorem owned_set_open_perm {n : Nat} {r done : ResponseStream}
    (hn : s.streams[n]? = some done) (hdone : done.closed = true)
    (hr : r.closed = false) :
    (Session.owned { s with streams := s.streams.set n r }).Perm
      (r.connection :: s.owned) := by
  obtain ⟨others, hbefore, hafter⟩ := lentTo_set_perm hn r
  rw [lentTo_cons_closed hdone] at hbefore
  rw [lentTo_cons_open hr] at hafter
  rw [owned, owned]
  refine (hafter.append_left _).trans (List.perm_middle.trans ?_)
  exact (hbefore.symm.append_left _).cons _

/-- A connection that is handed out is owned by the stream. -/
theorem owned_handOut_perm {r : ResponseStream} (hr : r.closed = false) :
    ((s.handOut r).2.owned).Perm (r.connection :: s.owned) := by
  rw [owned, handOut, lentTo_append, lentTo_cons_open hr, ← List.append_assoc]
  exact List.perm_append_singleton _ _

theorem mem_pooled_keep (s : Session) (o : Origin) (c : Nat) :
    c ∈ (s.keep o c).pooled :=
  (Entries.flatMap_insert_perm o _ s.pool).mem_iff.mpr List.mem_cons_self

/-! ## What can become of a connection -/

/-- The search for an open connection drops those before it. -/
theorem firstOpen_cases (n : Network) (l : List Nat) :
    (∃ c shut rest, l = shut ++ c :: rest ∧ n.isOpen c = true
        ∧ firstOpen n l = (some c, rest))
      ∨ firstOpen n l = (none, []) := by
  induction l with
  | nil => exact Or.inr rfl
  | cons c l ih =>
      rw [firstOpen]
      by_cases hc : n.isOpen c = true
      · rw [if_pos hc]
        exact Or.inl ⟨c, [], l, rfl, hc, rfl⟩
      · rw [if_neg hc]
        refine ih.imp_left ?_
        rintro ⟨c', shut, rest, rfl, hopen, h⟩
        exact ⟨c', c :: shut, rest, rfl, hopen, h⟩

/-- Making a connection fails, or gives a new one that is open. -/
theorem connect_cases (s : Session) (o : Origin) :
    ∃ n, s.network.Follows n []
      ∧ ((∃ f, s.connect o = (.error f, { s with network := n }))
        ∨ ∃ c, s.connect o = (.ok c, { s with network := n })
            ∧ s.network.originOf c = none
            ∧ n.connections[c]? = some ⟨o, true⟩) := by
  rw [connect]
  split
  · obtain ⟨n, hn, ⟨f, hf⟩ | ⟨c, hc, hnew⟩⟩ := s.network.connect_cases o
    · rw [hf]
      exact ⟨n, hn, Or.inl ⟨.failure f, rfl⟩⟩
    · rw [hc]
      exact ⟨n, hn, Or.inr ⟨c, rfl, hnew⟩⟩
  · exact ⟨s.network, .refl _, Or.inl ⟨.unsupportedScheme o.scheme, rfl⟩⟩

/-- A connection that is taken was kept and is open; without one a
    connection is made. -/
theorem acquire_cases (s : Session) (o : Origin) :
    (∃ c shut rest, s.kept o = shut ++ c :: rest
        ∧ s.network.isOpen c = true
        ∧ s.acquire o = (.ok c, s.setKept o rest))
      ∨ s.acquire o = (s.setKept o []).connect o := by
  rw [acquire]
  obtain ⟨c, shut, rest, hkept, hopen, h⟩ | h :=
    firstOpen_cases s.network (s.kept o)
  · rw [h]
    exact Or.inl ⟨c, shut, rest, hkept, hopen, rfl⟩
  · rw [h]
    exact Or.inr rfl

/-- An exchange is seen by the network alone, which sends the request. -/
theorem exchangeOn_network (s : Session) (c : Nat) (r : Request) :
    ∃ n, s.network.Follows n [(c, r)]
      ∧ (s.exchangeOn c r).2 = { s with network := n } := by
  have hsend := s.network.follows_send c r
  rw [exchangeOn]
  generalize s.network.send c r = sent at hsend ⊢
  obtain ⟨f | ⟨⟩, n⟩ := sent
  · exact ⟨n.close c, hsend.trans (n.follows_close c), rfl⟩
  · have hreceive := n.follows_receive c
    dsimp only
    generalize n.receive c = received at hreceive ⊢
    obtain ⟨f | reply, n'⟩ := received
    · exact ⟨n'.close c,
        (hsend.trans hreceive).trans (n'.follows_close c), rfl⟩
    · exact ⟨n', hsend.trans hreceive, rfl⟩

/-! ## Streams -/

theorem streams_acquire (s : Session) (o : Origin) :
    (s.acquire o).2.streams = s.streams := by
  obtain ⟨c, shut, rest, -, -, h⟩ | h := s.acquire_cases o
  · rw [h]
    rfl
  · rw [h]
    obtain ⟨n, -, ⟨f, hf⟩ | ⟨c, hc, -⟩⟩ := (s.setKept o []).connect_cases o
    · rw [hf]
      rfl
    · rw [hc]
      rfl

theorem streams_exchangeOn (s : Session) (c : Nat) (r : Request) :
    (s.exchangeOn c r).2.streams = s.streams := by
  obtain ⟨n, -, h⟩ := s.exchangeOn_network c r
  rw [h]

/-- An exchange leaves the streams as they are. -/
theorem streams_exchange (s : Session) (r : Request) :
    (s.exchange r).2.streams = s.streams := by
  have hacquire := s.streams_acquire r.origin
  rw [exchange]
  generalize s.acquire r.origin = acquired at hacquire ⊢
  obtain ⟨f | c, s₁⟩ := acquired
  · exact hacquire
  · have hexchange := s₁.streams_exchangeOn c r
    dsimp only
    generalize s₁.exchangeOn c r = exchanged at hexchange ⊢
    obtain ⟨f | reply, s₂⟩ := exchanged
    · exact hexchange.trans hacquire
    · exact hexchange.trans hacquire

/-- An attempt leaves the streams as they are. -/
theorem streams_attempt (s : Session) (r : Request) :
    (s.attempt r).2.streams = s.streams := by
  have hexchange := s.streams_exchange r
  rw [attempt]
  generalize s.exchange r = exchanged at hexchange ⊢
  obtain ⟨f | ⟨c, reply⟩, s₁⟩ := exchanged
  · exact hexchange
  · dsimp only
    split
    · rcases (reply.arrival.read none).1 with f | bs
      · exact hexchange
      · exact hexchange
    · exact hexchange

/-- A redirect is noted among the URLs that have moved, at most. -/
theorem onward_moved (s : Session) (url : Text) (reply : WireReply) :
    ∃ moved, (s.onward url reply).2 = { s with moved } := by
  rw [onward]
  rcases destination url reply.headers with e | location
  · exact ⟨s.moved, rfl⟩
  · by_cases hmoved : reply.status = 301
    · dsimp only
      rw [if_pos hmoved]
      cases location with
      | none | some => exact ⟨_, rfl⟩
    · dsimp only
      rw [if_neg hmoved]
      cases location with
      | none | some => exact ⟨s.moved, rfl⟩

theorem streams_of_attempt {r : Request}
    {result : Except Fault (Nat × WireReply)}
    (h : s.attempt r = (result, s')) : s'.streams = s.streams := by
  have hattempt := s.streams_attempt r
  rw [h] at hattempt
  exact hattempt

theorem streams_of_onward {url : Text} {reply : WireReply}
    {result : Except Fault Text} (h : s.onward url reply = (result, s')) :
    s'.streams = s.streams := by
  obtain ⟨moved, honward⟩ := s.onward_moved url reply
  rw [h] at honward
  obtain rfl : s' = _ := honward
  rfl

/-- Requests hand out new streams and leave the others as they are. -/
theorem prefix_streams_follow (s : Session) (hops : Nat) (method url : Text)
    (body : Option Bytes) (fields : List (Text × Text)) :
    s.streams <+: (s.follow hops method url body fields).2.streams := by
  fun_induction follow s hops method url body fields with
  | case1 => exact List.prefix_refl _
  | case2 _ s _ _ _ _ r _ _ s₁ hattempt =>
      simp only [← streams_of_attempt hattempt, List.prefix_refl]
  | case3 s _ _ _ _ r _ _ _ s₁ hattempt =>
      simp only [← streams_of_attempt hattempt, List.prefix_refl]
  | case4 s _ _ _ _ r _ _ _ s₁ hattempt _ _ _ s₂ honward =>
      simp only [← streams_of_attempt hattempt, ← streams_of_onward honward,
        List.prefix_refl]
  | case5 s _ _ _ _ r _ _ _ s₁ hattempt _ _ _ s₂ honward _ ih =>
      rw [← streams_of_attempt hattempt, ← streams_of_onward honward]
      exact ih
  | case6 s _ _ _ _ r _ _ _ s₁ hattempt _ _ _ s₂ honward _ ih =>
      rw [← streams_of_attempt hattempt, ← streams_of_onward honward]
      exact ih
  | case7 _ s _ _ _ _ r _ _ _ s₁ hattempt _ n s₂ hhand =>
      rw [← streams_of_attempt hattempt, ← congrArg Prod.snd hhand]
      exact List.prefix_append _ _

/-- The stream of a number was handed out and is closed. -/
def IsClosed (s : Session) (n : Nat) : Prop :=
  ∃ r, s.streams[n]? = some r ∧ r.closed = true

variable {n : Nat}

/-- A closed stream stays so where only streams are added. -/
theorem IsClosed.of_streams (h : s.IsClosed n)
    (hstart : s.streams <+: s'.streams) : s'.IsClosed n := by
  obtain ⟨r, hr, hclosed⟩ := h
  obtain ⟨l, hl⟩ := hstart
  obtain ⟨hlt, -⟩ := List.getElem?_eq_some_iff.mp hr
  refine ⟨r, ?_, hclosed⟩
  rw [← hl, List.getElem?_append_left hlt]
  exact hr

/-- Another stream in a place leaves a closed one closed, if it is as closed
    as the one before it. -/
theorem IsClosed.set {m : Nat} {r r' : ResponseStream} (h : s.IsClosed n)
    (hm : s.streams[m]? = some r) (hr : r.closed = true → r'.closed = true)
    (hs : s'.streams = s.streams.set m r') : s'.IsClosed n := by
  obtain ⟨rn, hn, hclosed⟩ := h
  rw [IsClosed, hs]
  by_cases hmn : m = n
  · subst hmn
    obtain ⟨hlt, -⟩ := List.getElem?_eq_some_iff.mp hm
    cases hm.symm.trans hn
    exact ⟨r', List.getElem?_set_self hlt, hr hclosed⟩
  · exact ⟨rn, (List.getElem?_set_ne hmn).trans hn, hclosed⟩

theorem IsClosed.release (h : s.IsClosed n) (reusable : Bool) :
    (s.release o c reusable).IsClosed n := by
  cases reusable with
  | true | false => exact h

/-- Closed is closed for good. -/
theorem IsClosed.perform (h : s.IsClosed n) (step : SessionStep) :
    (s.perform step).IsClosed n := by
  cases step with
  | request method url body fields =>
      exact h.of_streams (s.prefix_streams_follow _ method url body fields)
  | requestWith method url body headers =>
      rw [Session.perform, requestWith]
      split
      · exact h.of_streams (s.prefix_streams_follow _ method url body _)
      · exact h
  | read m size =>
      rw [Session.perform, read]
      split
      · exact h
      · next r hr =>
          refine h.set hr ?_ rfl
          exact id
  | close m =>
      rw [Session.perform, close]
      split
      · exact h
      · next r hr =>
          split
          · exact h
          · exact IsClosed.release (h.set hr (fun _ => rfl) rfl) _
  | drop c => exact h

/-- A closed stream stays closed along every run. -/
theorem IsClosed.run (h : s.IsClosed n) (steps : List SessionStep) :
    (s.run steps).IsClosed n := by
  induction steps generalizing s with
  | nil => exact h
  | cons step steps ih => exact ih (h.perform step)

/-- To close a stream again is to do nothing. -/
theorem close_of_isClosed (h : s.IsClosed n) : s.close n = s := by
  obtain ⟨r, hr, hclosed⟩ := h
  rw [close, hr]
  exact if_pos hclosed

/-- A stream that is closed is closed then. -/
theorem isClosed_close {r : ResponseStream} (hr : s.streams[n]? = some r) :
    (s.close n).IsClosed n := by
  rw [close, hr]
  dsimp only
  split
  · next hclosed => exact ⟨r, hr, hclosed⟩
  · obtain ⟨hlt, -⟩ := List.getElem?_eq_some_iff.mp hr
    exact IsClosed.release ⟨_, List.getElem?_set_self hlt, rfl⟩ _

end Session

end CouchClient
