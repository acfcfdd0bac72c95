import CouchClient.Proofs.Session.Chain

/-! # Custody — who answers for an open connection

    A connection that is open is kept for later requests, lent to a stream
    that is not closed, or lost.  Connections are lost in one way: the body
    of a redirect cannot be read, which neither closes the connection nor
    gives it back.

    * `Session.lostIn` — the connections that some uses of a session lose;
    * `Network.Shuts` — a network where no connection was made or opened;
    * `Custody` — every open connection is in one place, or lost;
    * `Custody.perform`, `Custody.run` — uses keep custody;
    * `held_or_lost_run` — what that says about a session. -/

namespace CouchClient

/-! ## Lost connections -/

/-- The connection that a request loses when it fails. -/
def Lapse.lost? : Lapse → Option Nat
  | unconnected _ => none
  | unanswered _ _ => none
  | undrained c _ _ => some c

/-- The connection that a request loses. -/
def Link.lost? (l : Link) : Option Nat :=
  match l.outcome with
  | .error lapse => lapse.lost?
  | .ok _ => none

namespace Session

/-- The connections that a use of a session loses. -/
def lostBy (s : Session) (step : SessionStep) : List Nat :=
  (s.linksOf step).filterMap Link.lost?

/-- The connections that several uses of a session lose, the last one
    first. -/
def lostIn (s : Session) : List SessionStep → List Nat
  | [] => []
  | step :: steps => (s.perform step).lostIn steps ++ s.lostBy step

end Session

/-! ## Networks where nothing opens -/

namespace Network

variable {n n' n'' : Network} {c : Nat}

/-- Connections are as many as before, and those that are open were. -/
structure Shuts (n n' : Network) : Prop where
  length : n'.connections.length = n.connections.length
  wasOpen : ∀ c, n'.isOpen c = true → n.isOpen c = true

/-- Where no connection changes, none is shut. -/
theorem Shuts.of_connections (h : n'.connections = n.connections) :
    n.Shuts n' := by
  constructor
  · rw [h]
  · intro c hc
    rw [isOpen, h] at hc
    exact hc

theorem Shuts.refl (n : Network) : n.Shuts n := .of_connections rfl

theorem Shuts.trans (h : n.Shuts n') (h' : n'.Shuts n'') : n.Shuts n'' := by
  constructor
  · exact h'.length.trans h.length
  · intro c hc
    exact h.wasOpen c (h'.wasOpen c hc)

/-- A connection that is shut is not open, and the others are as before. -/
theorem isOpen_setOpen_false (n : Network) (c c' : Nat) :
    (n.setOpen c false).isOpen c' = (n.isOpen c' && !decide (c = c')) := by
  rw [isOpen, isOpen, setOpen, List.getElem?_modify]
  by_cases hc : c = c'
  · cases n.connections[c']? with
    | none => simp
    | some k => simp [hc]
  · cases n.connections[c']? with
    | none => simp
    | some k => simp [hc]

theorem shuts_setOpen (n : Network) (c : Nat) :
    n.Shuts (n.setOpen c false) := by
  constructor
  · exact List.length_modify _ _ _
  · intro c' hc'
    rw [isOpen_setOpen_false] at hc'
    exact (Bool.and_eq_true_iff.mp hc').1

/-- Closing a connection opens none. -/
theorem shuts_close (n : Network) (c : Nat) : n.Shuts (n.close c) := by
  have h : n.Shuts (n.record (.close c)) := .of_connections rfl
  exact h.trans (shuts_setOpen _ c)

theorem isOpen_close_self : (n.close c).isOpen c = false := by
  rw [close, isOpen_setOpen_false]
  simp

theorem shuts_send (n : Network) (c : Nat) (r : Request) :
    n.Shuts (n.send c r).2 := by
  have h : n.Shuts ((n.record (.request c r)).strike .request).2 :=
    .of_connections (connections_strike _ _)
  rw [send]
  generalize (n.record (.request c r)).strike .request = struck at h ⊢
  obtain ⟨_ | f, n'⟩ := struck
  · exact h
  · exact h

theorem shuts_receive (n : Network) (c : Nat) :
    n.Shuts (n.receive c).2 := by
  rw [receive]
  split
  · exact .refl n
  · exact .of_connections rfl
  · next r script _ =>
      have h : n.Shuts { n with script } := .of_connections rfl
      dsimp only
      split
      · exact h.trans (shuts_setOpen _ c)
      · exact h

/-- A connection that is made has the next number, and is open unless it
    failed. -/
theorem connections_connect (n : Network) (o : Origin) :
    (∃ f n', n.connect o = (.error f, n')
        ∧ n'.connections = n.connections ++ [⟨o, false⟩])
      ∨ ∃ n', n.connect o = (.ok n.connections.length, n')
          ∧ n'.connections = n.connections ++ [⟨o, true⟩] := by
  let made : Network :=
    { n with connections := n.connections ++ [Connection.mk o false] }
  have hstrike : ((made.record (.connect n.connections.length o)).strike
      .connect).2.connections = n.connections ++ [Connection.mk o false] :=
    connections_strike _ _
  rw [connect]
  generalize (made.record (.connect n.connections.length o)).strike .connect
    = struck at hstrike ⊢
  obtain ⟨_ | f, n'⟩ := struck
  · refine Or.inr ⟨_, rfl, ?_⟩
    show n'.connections.modify n.connections.length _ = _
    rw [hstrike, List.modify_eq_take_cons_drop (by simp)]
    simp
  · exact Or.inl ⟨f, n', rfl, hstrike⟩

/-- What is open once there is one more connection. -/
theorem isOpen_of_append {k : Connection}
    (h : n'.connections = n.connections ++ [k])
    (hc : n'.isOpen c = true) :
    n.isOpen c = true ∨ (c = n.connections.length ∧ k.isOpen = true) := by
  rw [isOpen, h] at hc
  rcases Nat.lt_trichotomy c n.connections.length with hlt | rfl | hgt
  · rw [List.getElem?_append_left hlt] at hc
    exact Or.inl hc
  · rw [List.getElem?_concat_length] at hc
    exact Or.inr ⟨rfl, hc⟩
  · rw [List.getElem?_eq_none (by simp; omega)] at hc
    cases hc

end Network

/-! ## Custody -/

/-- Connections are kept, lent or lost, each once, and no other one is
    open. -/
structure Custody (s : Session) (lost : List Nat) : Prop where
  distinct : (lost ++ s.owned).Nodup
  made : ∀ c ∈ lost ++ s.owned, c < s.network.connections.length
  held : ∀ c, s.network.isOpen c = true → c ∈ lost ++ s.owned

namespace Custody

variable {s s' : Session} {lost lost' : List Nat} {o : Origin} {c : Nat}
  {r : Request} {n : Nat}

/-- Before any request there is no connection. -/
theorem ofScript (script : Script) (maxRedirects : Int) :
    Custody (.ofNetwork (.ofScript script) maxRedirects) [] := by
  constructor
  · exact List.nodup_nil
  · intro c hc
    cases hc
  · intro c hc
    cases hc

/-- Connections change hands, or are given up once they are shut. -/
theorem giveUp (h : Custody s lost) (hn : s.network.Shuts s'.network)
    {given : List Nat}
    (hperm : (lost ++ s.owned).Perm (given ++ (lost' ++ s'.owned)))
    (hshut : ∀ c ∈ given, s'.network.isOpen c = false) :
    Custody s' lost' := by
  constructor
  · exact (hperm.nodup_iff.mp h.distinct).of_append_right
  · intro c hc
    rw [hn.length]
    exact h.made c (hperm.mem_iff.mpr (List.mem_append_right given hc))
  · intro c hc
    have hbefore := h.held c (hn.wasOpen c hc)
    rcases List.mem_append.mp (hperm.mem_iff.mp hbefore) with hgiven | hheld
    · cases (hshut c hgiven).symm.trans hc
    · exact hheld

/-- Connections change hands. -/
theorem hand (h : Custody s lost) (hn : s.network.Shuts s'.network)
    (hperm : (lost ++ s.owned).Perm (lost' ++ s'.owned)) :
    Custody s' lost' := by
  refine h.giveUp hn (show List.Perm _ ([] ++ _) from hperm) ?_
  intro c hc
  cases hc

/-- Nothing but the network changes, and nothing opens. -/
theorem network (h : Custody s lost) {n : Network} (hn : s.network.Shuts n) :
    Custody { s with network := n } lost :=
  h.hand hn (.refl _)

/-- What is closed need not be answered for. -/
theorem discard (h : Custody s (c :: lost)) : Custody (s.discard c) lost := by
  refine h.giveUp (s.network.shuts_close c)
    (show List.Perm _ ([c] ++ _) from .refl _) ?_
  intro c' hc'
  obtain rfl := List.mem_singleton.mp hc'
  exact Network.isOpen_close_self

/-- A connection at hand that is kept is in custody. -/
theorem keep (h : Custody s (c :: lost)) : Custody (s.keep o c) lost := by
  refine h.hand (.refl _) ?_
  exact List.perm_middle.symm.trans
    ((s.owned_keep_perm o c).symm.append_left lost)

/-- A connection at hand that is released is kept or discarded. -/
theorem release (h : Custody s (c :: lost)) (reusable : Bool) :
    Custody (s.release o c reusable) lost := by
  cases reusable with
  | true => exact h.keep
  | false => exact h.discard

/-- A connection at hand that is lent to an open stream is in custody. -/
theorem handOut (h : Custody s (c :: lost)) {stream : ResponseStream}
    (hopen : stream.closed = false) (hc : stream.connection = c) :
    Custody (s.handOut stream).2 lost := by
  subst hc
  refine h.hand (.refl _) ?_
  exact List.perm_middle.symm.trans
    ((Session.owned_handOut_perm hopen).symm.append_left lost)

/-- What a session remembers of redirects is nothing to its connections. -/
theorem moved (h : Custody s lost) (moved : List (Text × Option Text)) :
    Custody { s with moved } lost :=
  h.hand (.refl _) (.refl _)

/-! ## Connections that are taken -/

/-- A connection that is made is nobody's yet. -/
theorem connect {result : Except Fault Nat} (h : Custody s lost)
    (hs : s.connect o = (result, s')) :
    Custody s' (result.toOption.toList ++ lost) := by
  rw [Session.connect] at hs
  split at hs
  · obtain ⟨f, n, hconnect, hnew⟩ | ⟨n, hconnect, hnew⟩ :=
      s.network.connections_connect o
    · rw [hconnect] at hs
      cases hs
      constructor
      · exact h.distinct
      · intro c hc
        show c < n.connections.length
        rw [hnew, List.length_append]
        exact Nat.lt_add_right 1 (h.made c hc)
      · intro c hc
        rcases Network.isOpen_of_append hnew hc with hopen | ⟨-, hopen⟩
        · exact h.held c hopen
        · cases hopen
    · rw [hconnect] at hs
      cases hs
      constructor
      · refine List.nodup_cons.mpr ⟨?_, h.distinct⟩
        intro hmem
        exact Nat.lt_irrefl _ (h.made _ hmem)
      · intro c hc
        show c < n.connections.length
        rw [hnew, List.length_append]
        rcases List.mem_cons.mp hc with rfl | hc
        · exact Nat.lt_succ_self _
        · exact Nat.lt_add_right 1 (h.made c hc)
      · intro c hc
        rcases Network.isOpen_of_append hnew hc with hopen | ⟨rfl, -⟩
        · exact List.mem_cons_of_mem _ (h.held c hopen)
        · exact List.mem_cons_self
  · cases hs
    exact h

/-- The search for an open connection passes over what is shut. -/
theorem exists_shut_firstOpen (n : Network) (l : List Nat) :
    ∃ shut, (∀ c ∈ shut, n.isOpen c = false)
      ∧ l = shut ++ ((Session.firstOpen n l).1.toList
          ++ (Session.firstOpen n l).2) := by
  induction l with
  | nil => exact ⟨[], by simp, rfl⟩
  | cons c l ih =>
      rw [Session.firstOpen]
      split
      · exact ⟨[], by simp, rfl⟩
      · next hshut =>
          obtain ⟨shut, hall, hl⟩ := ih
          refine ⟨c :: shut, ?_, congrArg (List.cons c) hl⟩
          intro c' hc'
          rcases List.mem_cons.mp hc' with rfl | hc'
          · exact eq_false_of_ne_true hshut
          · exact hall c' hc'

/-- Of what is kept for an origin some is shut and forgotten, and some is
    taken. -/
theorem setKept (h : Custody s lost) {shut taken rest : List Nat}
    (hshut : ∀ c ∈ shut, s.network.isOpen c = false)
    (hkept : s.kept o = shut ++ (taken ++ rest)) :
    Custody (s.setKept o rest) (taken ++ lost) := by
  refine h.giveUp (.refl _) (List.perm_iff_count.mpr ?_) hshut
  intro c
  have hbefore := (s.owned_perm o).count_eq c
  have hafter := (s.owned_setKept_perm o rest).count_eq c
  rw [hkept] at hbefore
  simp only [List.count_append] at hbefore hafter ⊢
  omega

/-- A connection that is taken, or made, is nobody's yet. -/
theorem acquire {result : Except Fault Nat} (h : Custody s lost)
    (hs : s.acquire o = (result, s')) :
    Custody s' (result.toOption.toList ++ lost) := by
  obtain ⟨shut, hshut, hkept⟩ := exists_shut_firstOpen s.network (s.kept o)
  rw [Session.acquire] at hs
  generalize Session.firstOpen s.network (s.kept o) = found at hs hkept
  obtain ⟨_ | c, rest⟩ := found
  · exact connect (h.setKept hshut hkept) hs
  · cases hs
    exact h.setKept hshut hkept

/-! ## Requests -/

/-- A connection on which a request fails is closed. -/
theorem exchangeOn_error {f : Fault} (h : Custody s (c :: lost))
    (hs : s.exchangeOn c r = (.error f, s')) : Custody s' lost := by
  have hsend := s.network.shuts_send c r
  rw [Session.exchangeOn] at hs
  generalize s.network.send c r = sent at hsend hs
  obtain ⟨f | ⟨⟩, n⟩ := sent
  · cases hs
    exact (h.network hsend).discard
  · have hreceive := n.shuts_receive c
    dsimp only at hs
    generalize n.receive c = received at hreceive hs
    obtain ⟨f | reply, n'⟩ := received
    · cases hs
      exact (h.network (hsend.trans hreceive)).discard
    · cases hs

/-- After an exchange the connection is still at hand. -/
theorem exchangeOn_ok {reply : WireReply} (h : Custody s (c :: lost))
    (hs : s.exchangeOn c r = (.ok reply, s')) : Custody s' (c :: lost) := by
  have hsend := s.network.shuts_send c r
  rw [Session.exchangeOn] at hs
  generalize s.network.send c r = sent at hsend hs
  obtain ⟨f | ⟨⟩, n⟩ := sent
  · cases hs
  · have hreceive := n.shuts_receive c
    dsimp only at hs
    generalize n.receive c = received at hreceive hs
    obtain ⟨f | reply, n'⟩ := received
    · cases hs
    · cases hs
      exact h.network (hsend.trans hreceive)

/-- A request that fails leaves its connection closed, unless it is the body
    of a redirect that fails. -/
theorem outcome_error {lapse : Lapse} (h : Custody s lost)
    (hs : s.outcome r = (.error lapse, s')) :
    Custody s' (lapse.lost?.toList ++ lost) := by
  rw [Session.outcome] at hs
  split at hs
  · next hacquire =>
      cases hs
      exact h.acquire hacquire
  · next hacquire =>
      have htaken := h.acquire hacquire
      split at hs
      · next hexchange =>
          cases hs
          exact exchangeOn_error htaken hexchange
      · next hexchange =>
          have hread := exchangeOn_ok htaken hexchange
          split at hs
          · split at hs
            · cases hs
              exact hread
            · cases hs
          · cases hs

/-- After a redirect the connection is kept, after any other reply it is
    nobody's yet. -/
theorem outcome_ok {reply : WireReply} (h : Custody s lost)
    (hs : s.outcome r = (.ok (c, reply), s')) :
    (Session.redirects r.method reply.status = true → Custody s' lost)
      ∧ (Session.redirects r.method reply.status = false →
          Custody s' (c :: lost)) := by
  rw [Session.outcome] at hs
  split at hs
  · cases hs
  · next hacquire =>
      have htaken := h.acquire hacquire
      split at hs
      · cases hs
      · next hexchange =>
          have hread := exchangeOn_ok htaken hexchange
          split at hs
          · next hredirect =>
              split at hs
              · cases hs
              · cases hs
                refine ⟨fun _ => hread.keep, ?_⟩
                intro hno
                cases hredirect.symm.trans hno
          · next hno =>
              cases hs
              exact ⟨fun hredirect => absurd hredirect hno, fun _ => hread⟩

theorem onward {url : Text} {reply : WireReply} {result : Except Fault Text}
    (h : Custody s lost) (hs : s.onward url reply = (result, s')) :
    Custody s' lost := by
  obtain ⟨moved, honward⟩ := s.onward_moved url reply
  rw [hs] at honward
  obtain rfl : s' = _ := honward
  exact h.moved moved

/-- A call loses what its links lose. -/
theorem chain (s : Session) (hops : Nat) (method url : Text)
    (body : Option Bytes) (fields : List (Text × Text)) :
    Custody s lost →
      Custody (s.chain hops method url body fields).2.2
        ((s.chain hops method url body fields).1.filterMap Link.lost?
          ++ lost) := by
  fun_induction Session.chain s hops method url body fields with
  | case1 =>
      intro h
      exact h
  | case2 _ _ _ _ _ _ _ _ lapse _ houtcome =>
      intro h
      have hlapse := h.outcome_error houtcome
      rw [Session.filterMap_cons_toList, List.filterMap_nil, List.append_nil]
      exact hlapse
  | case3 _ _ _ _ _ _ hprepare _ _ _ houtcome hredirect =>
      intro h
      obtain ⟨rfl, -⟩ := Session.of_prepare hprepare
      exact (h.outcome_ok houtcome).1 hredirect
  | case4 _ _ _ _ _ _ hprepare _ _ _ houtcome hredirect _ _ _ honward =>
      intro h
      obtain ⟨rfl, -⟩ := Session.of_prepare hprepare
      exact onward ((h.outcome_ok houtcome).1 hredirect) honward
  | case5 _ _ _ _ _ _ hprepare _ _ _ houtcome hredirect _ _ _ honward _ ih
  | case6 _ _ _ _ _ _ hprepare _ _ _ houtcome hredirect _ _ _ honward _ ih =>
      intro h
      obtain ⟨rfl, -⟩ := Session.of_prepare hprepare
      exact ih (onward ((h.outcome_ok houtcome).1 hredirect) honward)
  | case7 _ _ _ _ _ _ _ hprepare _ _ _ houtcome hredirect _ _ hhand =>
      intro h
      obtain ⟨rfl, -⟩ := Session.of_prepare hprepare
      rw [← congrArg Prod.snd hhand]
      exact handOut ((h.outcome_ok houtcome).2 (eq_false_of_ne_true hredirect))
        rfl rfl

/-! ## Uses of a session -/

/-- A request loses the connections of those links that lose one. -/
theorem request (h : Custody s lost) (method url : Text)
    (body : Option Bytes) (fields : List (Text × Text)) :
    Custody (s.request method url body fields).2
      ((s.links method url body fields).filterMap Link.lost? ++ lost) := by
  rw [Session.request, ← s.chain_snd]
  exact chain s _ method url body fields h

/-- What is left to read is nothing to the connection. -/
theorem owned_set_arrival_perm {stream : ResponseStream}
    (hn : s.streams[n]? = some stream) (arrival : Arrival) :
    s.owned.Perm (Session.owned
      { s with streams := s.streams.set n { stream with arrival } }) := by
  obtain ⟨others, hbefore, hafter⟩ :=
    lentTo_set_perm hn { stream with arrival }
  have hsame : lentTo [{ stream with arrival }] = lentTo [stream] := by
    cases hclosed : stream.closed with
    | true =>
        exact (lentTo_cons_closed rfl []).trans
          (lentTo_cons_closed hclosed []).symm
    | false =>
        exact (lentTo_cons_open rfl []).trans
          (lentTo_cons_open hclosed []).symm
  rw [hsame] at hafter
  exact (hbefore.trans hafter.symm).append_left s.pooled

/-- Reading from a stream loses no connection. -/
theorem read (h : Custody s lost) (n : Nat) (size : Option Nat) :
    Custody (s.read n size).2 lost := by
  rw [Session.read]
  split
  · exact h
  · next stream hn =>
      exact h.hand (.refl _)
        ((owned_set_arrival_perm hn (stream.arrival.read size).2).append_left
          lost)

/-- Closing a stream loses no connection. -/
theorem close (h : Custody s lost) (n : Nat) : Custody (s.close n) lost := by
  rw [Session.close]
  split
  · exact h
  · next stream hn =>
      split
      · exact h
      · next hopen =>
          let done : ResponseStream :=
            { stream with arrival := stream.arrival.close, closed := true }
          have hperm := Session.owned_set_closed_perm hn
            (eq_false_of_ne_true hopen) (show done.closed = true from rfl)
          have hgiven : Custody { s with streams := s.streams.set n done }
              (stream.connection :: lost) :=
            h.hand (.refl _) ((hperm.append_left lost).trans List.perm_middle)
          exact hgiven.release _

/-- Whatever a session is used for, every connection stays in custody but
    for those that the use loses. -/
theorem perform (h : Custody s lost) (step : SessionStep) :
    Custody (s.perform step) (s.lostBy step ++ lost) := by
  cases step with
  | request method url body fields => exact h.request method url body fields
  | requestWith method url body headers =>
      rw [Session.perform, Session.requestWith, Session.lostBy,
        Session.linksOf]
      cases headers.reread with
      | ok fields => exact h.request method url body fields
      | error name => exact h
  | read n size => exact h.read n size
  | close n => exact h.close n
  | drop c => exact h.network (s.network.shuts_setOpen c)

/-- A run loses just the connections of the links that lose one. -/
theorem run (h : Custody s lost) (steps : List SessionStep) :
    Custody (s.run steps) (s.lostIn steps ++ lost) := by
  induction steps generalizing s lost with
  | nil => exact h
  | cons step steps ih =>
      show Custody ((s.perform step).run steps) _
      rw [Session.lostIn, List.append_assoc]
      exact ih (h.perform step)

end Custody

/-! ## What loses a connection -/

/-- Whether a reply is a redirect, to a request of some method, whose body
    cannot be read. -/
def WireReply.IsUnreadable (reply : WireReply) : Prop :=
  (∃ method, Session.redirects method reply.status = true)
    ∧ ∃ f, reply.readFailure = some f

namespace Session

variable {s : Session} {c : Nat}

/-- Behind a connection that a call loses is a reply of the servers. -/
theorem exists_unreadable_of_links (method url : Text) (body : Option Bytes)
    (fields : List (Text × Text))
    (hc : c ∈ (s.links method url body fields).filterMap Link.lost?) :
    ∃ reply ∈ s.network.replies, reply.IsUnreadable := by
  obtain ⟨⟨r, outcome⟩, hl, hlost⟩ := List.mem_filterMap.mp hc
  obtain ⟨struck, hpasses, -⟩ :=
    s.passes_chain s.maxRedirects.toNat method url body fields
  have hleads := s.leads_chain s.maxRedirects.toNat method url body fields
  rcases outcome with (_ | _ | ⟨c', reply, f⟩) | ⟨c', reply⟩
  · cases hlost
  · cases hlost
  · obtain ⟨f', -, hredirect, hf⟩ := hleads.isUndrained _ hl c' reply f rfl
    refine ⟨reply, ?_, ⟨r.method, hredirect⟩, f', hf⟩
    rw [hpasses.replies]
    exact List.mem_append_left _ (List.mem_filterMap.mpr ⟨_, hl, rfl⟩)
  · cases hlost

/-- A request takes replies from the front of the script. -/
theorem replies_suffix_request (s : Session) (method url : Text)
    (body : Option Bytes) (fields : List (Text × Text)) :
    (s.request method url body fields).2.network.replies
      <:+ s.network.replies := by
  obtain ⟨struck, hpasses, -⟩ :=
    s.passes_chain s.maxRedirects.toNat method url body fields
  rw [request, ← s.chain_snd]
  exact ⟨_, hpasses.replies.symm⟩

/-- Replies only ever leave the script. -/
theorem replies_suffix_perform (s : Session) (step : SessionStep) :
    (s.perform step).network.replies <:+ s.network.replies := by
  cases step with
  | request method url body fields =>
      exact s.replies_suffix_request method url body fields
  | requestWith method url body headers =>
      rw [perform, requestWith]
      cases headers.reread with
      | ok fields => exact s.replies_suffix_request method url body fields
      | error name => exact List.suffix_rfl
  | read n size =>
      rw [perform, read]
      split
      · exact List.suffix_rfl
      · exact List.suffix_rfl
  | close n =>
      rw [perform, close]
      split
      · exact List.suffix_rfl
      · next stream hn =>
          split
          · exact List.suffix_rfl
          · cases stream.arrival.closed with
            | true | false => exact List.suffix_rfl
  | drop c => exact List.suffix_rfl

/-- Behind every connection that is lost is a reply of the servers. -/
theorem exists_unreadable_of_lost (steps : List SessionStep) :
    c ∈ s.lostIn steps →
      ∃ reply ∈ s.network.replies, reply.IsUnreadable := by
  induction steps generalizing s with
  | nil =>
      intro hc
      cases hc
  | cons step steps ih =>
      intro hc
      rcases List.mem_append.mp hc with hlater | hnow
      · obtain ⟨reply, hreply, hunreadable⟩ := ih hlater
        exact ⟨reply, (s.replies_suffix_perform step).subset hreply,
          hunreadable⟩
      · cases step with
        | request method url body fields =>
            exact exists_unreadable_of_links _ _ _ _ hnow
        | requestWith method url body headers =>
            rw [lostBy, linksOf] at hnow
            cases hfields : headers.reread with
            | ok fields =>
                rw [hfields] at hnow
                exact exists_unreadable_of_links _ _ _ _ hnow
            | error name =>
                rw [hfields] at hnow
                cases hnow
        | read | close | drop => cases hnow

/-! ## Open connections -/

/-- Whatever a session is used for and whatever fails, a connection that is
    open is kept once or lent to one stream that is not closed, unless it is
    lost.  What is lost is in no such place.  Nothing is lost without a
    redirect whose body cannot be read. -/
theorem held_or_lost_run (script : Script) (maxRedirects : Int)
    (steps : List SessionStep) :
    let start := ofNetwork (.ofScript script) maxRedirects
    let s := start.run steps
    let lost := start.lostIn steps
    (∀ c, s.network.isOpen c = true →
        (c ∉ lost ∧ s.pooled.count c + (lentTo s.streams).count c = 1)
        ∨ (c ∈ lost ∧ c ∉ s.pooled ∧ c ∉ lentTo s.streams))
      ∧ ∀ c ∈ lost, ∃ reply, .reply reply ∈ script.entries ∧ reply.IsUnreadable := by
  intro start s lost
  have h : Custody s lost := by
    have hrun := (Custody.ofScript script maxRedirects).run steps
    rw [List.append_nil] at hrun
    exact hrun
  refine ⟨?_, ?_⟩
  · intro c hopen
    have hheld := h.held c hopen
    obtain ⟨-, howned, hapart⟩ := List.nodup_append.mp h.distinct
    by_cases hlost : c ∈ lost
    · refine Or.inr ⟨hlost, ?_, ?_⟩
      · intro hpooled
        exact hapart c hlost c (List.mem_append_left _ hpooled) rfl
      · intro hlent
        exact hapart c hlost c (List.mem_append_right _ hlent) rfl
    · refine Or.inl ⟨hlost, ?_⟩
      rw [← List.count_append]
      rcases List.mem_append.mp hheld with hlost' | hmem
      · exact absurd hlost' hlost
      · exact List.count_eq_one_of_mem howned hmem
  · intro c hc
    obtain ⟨reply, hreply, hunreadable⟩ := exists_unreadable_of_lost steps hc
    obtain ⟨entry, hentry, hsome⟩ := List.mem_filterMap.mp hreply
    cases entry with
    | reply r =>
        cases hsome
        exact ⟨_, hentry, hunreadable⟩
    | failure earliest f => cases hsome

/-- A reply is handed out: its connection is lent to one stream. -/
theorem held_or_lost_run_of_oneReply :
    let start := ofNetwork
      (.ofScript { entries := [.reply ⟨200, .empty, [1], false, none⟩] }) 5
    let s := start.run [.request (text "GET") (text "//a") none []]
    s.network.isOpen 0 = true
      ∧ s.pooled.count 0 + (lentTo s.streams).count 0 = 1 := by
  intro start s
  obtain ⟨hheld, -⟩ := held_or_lost_run
    { entries := [.reply ⟨200, .empty, [1], false, none⟩] } 5
    [.request (text "GET") (text "//a") none []]
  have hopen : s.network.isOpen 0 = true := by decide +kernel
  refine ⟨hopen, ?_⟩
  rcases hheld 0 hopen with ⟨-, hone⟩ | ⟨-, -, hlent⟩
  · exact hone
  · exact absurd (show 0 ∈ lentTo s.streams by decide +kernel) hlent

/-- The body of a redirect cannot be read: its connection stays open, and
    nobody has it. -/
theorem exists_lost_of_unreadable :
    let cut : Failure := ⟨⟨text "OSError", true⟩, text "cut"⟩
    let start := ofNetwork
      (.ofScript { entries := [.reply ⟨303, .empty, [1], false, some cut⟩] }) 5
    let s := start.run [.request (text "GET") (text "//a") none []]
    s.network.isOpen 0 = true ∧ s.pooled = [] ∧ s.streams = [] := by
  decide +kernel

end Session

end CouchClient
