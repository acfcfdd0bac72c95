import CouchClient.Proofs.Session.Connections

/-! # Chains — the requests of one call, and what became of each

    A call makes a request, and further ones as long as redirects lead on.
    The session that it leaves does not say how often that happened.  A
    chain is the call with its links: every request that was made or tried,
    and what became of it.

    * `Lapse`, `Link` — a request and its outcome;
    * `Session.outcome`, `Session.chain` — requests and calls with their
      links; `chain_snd` — the links change nothing;
    * `requests_chain`, `replies_chain`, `failures_chain` — the links are
      what passed over the network;
    * `Leads` — the shapes of a chain: all that a call can do. -/

namespace CouchClient

/-! ## Links -/

/-- How a request fails. -/
inductive Lapse where
  /-- No connection could be made, so nothing was sent. -/
  | unconnected (f : Fault)
  /-- It could not be sent, or no reply came. -/
  | unanswered (c : Nat) (f : Fault)
  /-- The body of the redirect that answered it could not be read. -/
  | undrained (c : Nat) (reply : WireReply) (f : Failure)

/-- The fault of a request that fails. -/
def Lapse.fault : Lapse → Fault
  | unconnected f => f
  | unanswered _ f => f
  | undrained _ _ f => .failure f

/-- A request, and the reply to it with its connection, unless it failed.
    The body of a redirect is read before the request counts as answered. -/
structure Link where
  request : Request
  outcome : Except Lapse (Nat × WireReply)

namespace Link

/-- The request with its connection, if it got as far as that. -/
def sent? (l : Link) : Option (Nat × Request) :=
  match l.outcome with
  | .error (.unconnected _) => none
  | .error (.unanswered c _) => some (c, l.request)
  | .error (.undrained c _ _) => some (c, l.request)
  | .ok (c, _) => some (c, l.request)

/-- The reply that came, be its body read or not. -/
def reply? (l : Link) : Option WireReply :=
  match l.outcome with
  | .error (.unconnected _) => none
  | .error (.unanswered _ _) => none
  | .error (.undrained _ reply _) => some reply
  | .ok (_, reply) => some reply

/-- The link, and what comes after it. -/
def before {α : Type} (l : Link) (later : List Link × α) : List Link × α :=
  (l :: later.1, later.2)

/-- Whether the request was answered by a redirect, whose body was read. -/
def IsRedirected (l : Link) : Prop :=
  ∃ c reply, l.outcome = .ok (c, reply)
    ∧ Session.redirects l.request.method reply.status = true
    ∧ reply.readFailure = none

/-- Whether the request was answered by a redirect, whose body could not be
    read. -/
def IsUndrained (l : Link) (c : Nat) (reply : WireReply) : Prop :=
  ∃ f, l.outcome = .error (.undrained c reply f)
    ∧ Session.redirects l.request.method reply.status = true
    ∧ reply.readFailure = some f

/-- Whether the request was answered by something else than a redirect. -/
def IsAnswered (l : Link) : Prop :=
  ∃ c reply, l.outcome = .ok (c, reply)
    ∧ Session.redirects l.request.method reply.status = false

end Link

namespace Session

/-- Sends a request and reads the body of a redirect, as `attempt` does. -/
def outcome (s : Session) (r : Request) :
    Except Lapse (Nat × WireReply) × Session :=
  match s.acquire r.origin with
  | (.error f, s) => (.error (.unconnected f), s)
  | (.ok c, s) =>
      match s.exchangeOn c r with
      | (.error f, s) => (.error (.unanswered c f), s)
      | (.ok reply, s) =>
          if redirects r.method reply.status then
            match (reply.arrival.read none).1 with
            | .error f => (.error (.undrained c reply f), s)
            | .ok _ => (.ok (c, reply), s.keep r.origin c)
          else (.ok (c, reply), s)

/-- Makes a request and follows so many redirects, as `follow` does. -/
def chain (s : Session) (hops : Nat) (method url : Text)
    (body : Option Bytes) (fields : List (Text × Text)) :
    List Link × Except Fault (Response Nat) × Session :=
  match s.prepare method url body fields with
  | .error f => ([], .error f, s)
  | .ok (url, r) =>
      match s.outcome r with
      | (.error lapse, s) => ([⟨r, .error lapse⟩], .error lapse.fault, s)
      | (.ok (c, reply), s) =>
          if redirects method reply.status then
            match hops with
            | 0 => ([⟨r, .ok (c, reply)⟩], .error .redirectLimit, s)
            | hops + 1 =>
                match s.onward url reply with
                | (.error f, s) => ([⟨r, .ok (c, reply)⟩], .error f, s)
                | (.ok location, s) =>
                    if reply.status = 303 then
                      Link.before ⟨r, .ok (c, reply)⟩
                        (s.chain hops (text "GET") location none fields)
                    else
                      Link.before ⟨r, .ok (c, reply)⟩
                        (s.chain hops method location body fields)
          else
            let (n, s) := s.handOut ⟨c, r.origin, reply.arrival, false⟩
            ([⟨r, .ok (c, reply)⟩],
              .ok ⟨reply.status, some reply.headers, n⟩, s)

/-- The links of a call. -/
def links (s : Session) (method url : Text) (body : Option Bytes)
    (fields : List (Text × Text)) : List Link :=
  (s.chain s.maxRedirects.toNat method url body fields).1

/-- The links of a use of a session: only a call has any. -/
def linksOf (s : Session) : SessionStep → List Link
  | .request method url body fields => s.links method url body fields
  | .requestWith method url body headers =>
      match headers.reread with
      | .ok fields => s.links method url body fields
      | .error _ => []
  | .read _ _ => []
  | .close _ => []
  | .drop _ => []

/-! ## Links change nothing -/

/-- An attempt is an outcome without the place at which it lapsed. -/
theorem attempt_eq_outcome (s : Session) (r : Request) :
    s.attempt r = ((s.outcome r).1.mapError Lapse.fault, (s.outcome r).2) := by
  rw [attempt, exchange, outcome]
  rcases s.acquire r.origin with ⟨f | c, s₁⟩
  · rfl
  · dsimp only
    rcases s₁.exchangeOn c r with ⟨f | reply, s₂⟩
    · rfl
    · dsimp only
      split
      · rcases (reply.arrival.read none).1 with f | bs
        · rfl
        · rfl
      · rfl

/-- A call without its links. -/
theorem chain_snd (s : Session) (hops : Nat) (method url : Text)
    (body : Option Bytes) (fields : List (Text × Text)) :
    (s.chain hops method url body fields).2
      = s.follow hops method url body fields := by
  fun_induction chain s hops method url body fields with
  | case1 _ _ _ _ _ _ hprepare =>
      rw [follow.eq_def]
      simp only [hprepare]
  | case2 _ _ _ _ _ _ _ hprepare _ _ houtcome =>
      rw [follow.eq_def]
      simp only [hprepare, attempt_eq_outcome, houtcome, Except.mapError]
  | case3 _ _ _ _ _ _ hprepare _ _ _ houtcome hredirect =>
      rw [follow.eq_def]
      simp only [hprepare, attempt_eq_outcome, houtcome, Except.mapError,
        if_pos hredirect]
  | case4 _ _ _ _ _ _ hprepare _ _ _ houtcome hredirect _ _ _ honward =>
      rw [follow.eq_def]
      simp only [hprepare, attempt_eq_outcome, houtcome, Except.mapError,
        if_pos hredirect, honward]
  | case5 _ _ _ _ _ _ hprepare _ _ _ houtcome hredirect _ _ _ honward hsee
      ih =>
      rw [follow.eq_def]
      simp only [hprepare, attempt_eq_outcome, houtcome, Except.mapError,
        if_pos hredirect, honward, if_pos hsee]
      exact ih
  | case6 _ _ _ _ _ _ hprepare _ _ _ houtcome hredirect _ _ _ honward hsee
      ih =>
      rw [follow.eq_def]
      simp only [hprepare, attempt_eq_outcome, houtcome, Except.mapError,
        if_pos hredirect, honward, if_neg hsee]
      exact ih
  | case7 _ _ _ _ _ _ _ hprepare _ _ _ houtcome hredirect _ _ hhand =>
      rw [follow.eq_def]
      simp only [hprepare, attempt_eq_outcome, houtcome, Except.mapError,
        if_neg hredirect, hhand]

end Session

/-! ## What passes over the network -/

/-- The reply among the entries of a script. -/
def ScriptEntry.reply? : ScriptEntry → Option WireReply
  | reply r => some r
  | failure _ _ => none

/-- The failure among the entries of a script. -/
def ScriptEntry.failure? : ScriptEntry → Option Failure
  | reply _ => none
  | failure _ f => some f

namespace Network

/-- The replies that are still to come, whoever asks. -/
def replies (n : Network) : List WireReply :=
  n.script.filterMap ScriptEntry.reply?

/-- The failures that are still to strike. -/
def failures (n : Network) : List Failure :=
  n.script.filterMap ScriptEntry.failure?

/-- Between two networks the given requests were sent, last first, and the
    given replies came and failures struck, in their order.  What comes once
    nothing is left stays the same. -/
structure Passes (n n' : Network) (sent : List (Nat × Request))
    (came : List WireReply) (struck : List Failure) : Prop where
  requests : n'.requests = sent ++ n.requests
  replies : n.replies = came ++ n'.replies
  failures : n.failures = struck ++ n'.failures
  silence : n'.silence = n.silence

variable {n n' n'' : Network} {sent sent' : List (Nat × Request)}
  {came came' : List WireReply} {struck struck' : List Failure}

theorem Passes.refl (n : Network) : n.Passes n [] [] [] :=
  ⟨rfl, rfl, rfl, rfl⟩

theorem Passes.trans (h : n.Passes n' sent came struck)
    (h' : n'.Passes n'' sent' came' struck') :
    n.Passes n'' (sent' ++ sent) (came ++ came') (struck ++ struck') := by
  constructor
  · rw [h'.requests, h.requests, List.append_assoc]
  · rw [h.replies, h'.replies, List.append_assoc]
  · rw [h.failures, h'.failures, List.append_assoc]
  · exact h'.silence.trans h.silence

/-- Where nothing passes afterwards, nothing else has passed. -/
theorem Passes.quiet (h : n.Passes n' sent came struck)
    (h' : n'.Passes n'' [] [] []) : n.Passes n'' sent came struck := by
  have hboth := h.trans h'
  rw [List.append_nil, List.append_nil] at hboth
  exact hboth

/-- What takes nothing from the script brings no reply and no failure. -/
theorem Follows.passes (h : n.Follows n' sent) (hs : n'.script = n.script)
    (hsilence : n'.silence = n.silence) : n.Passes n' sent [] [] := by
  refine ⟨h.requests, ?_, ?_, hsilence⟩
  · simp [Network.replies, hs]
  · simp [Network.failures, hs]

/-- A failure that is taken from the script has struck. -/
theorem passes_of_failure {earliest : ExchangePoint} {f : Failure}
    {script : List ScriptEntry} (h : n.script = .failure earliest f :: script) :
    n.Passes { n with script } [] [] [f] := by
  refine ⟨rfl, ?_, ?_, rfl⟩
  · show n.script.filterMap ScriptEntry.reply? = _
    rw [h]
    rfl
  · show n.script.filterMap ScriptEntry.failure? = _
    rw [h]
    rfl

/-- A reply that is taken from the script has come. -/
theorem passes_of_reply {r : WireReply} {script : List ScriptEntry}
    (h : n.script = .reply r :: script) :
    n.Passes { n with script } [] [r] [] := by
  refine ⟨rfl, ?_, ?_, rfl⟩
  · show n.script.filterMap ScriptEntry.reply? = _
    rw [h]
    rfl
  · show n.script.filterMap ScriptEntry.failure? = _
    rw [h]
    rfl

/-- A point of an exchange sends nothing and receives nothing. -/
theorem passes_strike (n : Network) (p : ExchangePoint) :
    n.Passes (n.strike p).2 [] [] (n.strike p).1.toList := by
  rw [strike]
  split
  · next earliest f script hscript =>
      split
      · exact passes_of_failure hscript
      · exact .refl n
  · exact .refl n

/-- Connecting sends nothing, and fails by what strikes. -/
theorem passes_connect (n : Network) (o : Origin) :
    ∃ struck, n.Passes (n.connect o).2 [] [] struck
      ∧ ∀ f ∈ struck, (n.connect o).1 = .error f := by
  let made : Network :=
    { n with connections := n.connections ++ [Connection.mk o false] }
  have hmade : n.Passes (made.record (.connect n.connections.length o))
      [] [] [] := ⟨rfl, rfl, rfl, rfl⟩
  have hstrike := hmade.trans (passes_strike _ .connect)
  rw [connect]
  generalize (made.record (.connect n.connections.length o)).strike .connect
    = result at hstrike ⊢
  obtain ⟨_ | f, n'⟩ := result
  · exact ⟨[], hstrike.trans ((follows_setOpen n' _ true).passes rfl rfl),
      by simp⟩
  · exact ⟨[f], hstrike, by simp⟩

/-- Sending sends one request, and fails by what strikes. -/
theorem passes_send (n : Network) (c : Nat) (r : Request) :
    ∃ struck, n.Passes (n.send c r).2 [(c, r)] [] struck
      ∧ ∀ f ∈ struck, (n.send c r).1 = .error f := by
  have hstrike := ((follows_record n (.request c r)).passes rfl rfl).trans
    (passes_strike (n.record (.request c r)) .request)
  rw [send]
  generalize (n.record (.request c r)).strike .request = result
    at hstrike ⊢
  obtain ⟨_ | f, n'⟩ := result
  · exact ⟨[], hstrike, by simp⟩
  · exact ⟨[f], hstrike, by simp⟩

/-- Receiving gives one reply, or fails by what strikes. -/
theorem passes_receive (n : Network) (c : Nat) :
    ∃ struck, n.Passes (n.receive c).2 [] (n.receive c).1.toOption.toList
        struck
      ∧ ∀ f ∈ struck, (n.receive c).1 = .error f := by
  rw [receive]
  split
  · -- a server that has nothing to say takes nothing from the script
    exact ⟨[], .refl n, by simp⟩
  · next earliest f script hscript =>
      exact ⟨[f], passes_of_failure hscript, by simp⟩
  · next r script hscript =>
      have hreply := passes_of_reply hscript
      refine ⟨[], ?_, by simp⟩
      dsimp only
      split
      · exact hreply.trans ((follows_setOpen _ c false).passes rfl rfl)
      · exact hreply

end Network

namespace Session

variable {s : Session}

/-- Where there is a result no failure has struck. -/
theorem eq_nil_of_struck {α ε : Type} {a : α} {raised : Failure → ε}
    {struck : List Failure}
    (h : ∀ f ∈ struck, (.ok a : Except ε α) = .error (raised f)) :
    struck = [] := by
  refine List.eq_nil_iff_forall_not_mem.mpr ?_
  intro f hf
  cases h f hf

theorem passes_connect (s : Session) (o : Origin) :
    ∃ struck, s.network.Passes (s.connect o).2.network [] [] struck
      ∧ ∀ f ∈ struck, (s.connect o).1 = .error (.failure f) := by
  rw [connect]
  split
  · obtain ⟨struck, hpasses, hstruck⟩ := s.network.passes_connect o
    generalize s.network.connect o = connected at hpasses hstruck ⊢
    obtain ⟨f | c, n⟩ := connected
    · refine ⟨struck, hpasses, ?_⟩
      intro f' hf'
      cases hstruck f' hf'
      rfl
    · refine ⟨struck, hpasses, ?_⟩
      intro f' hf'
      cases hstruck f' hf'
  · exact ⟨[], .refl s.network, by simp⟩

/-- Acquiring a connection sends nothing, and fails by what strikes. -/
theorem passes_acquire (s : Session) (o : Origin) :
    ∃ struck, s.network.Passes (s.acquire o).2.network [] [] struck
      ∧ ∀ f ∈ struck, (s.acquire o).1 = .error (.failure f) := by
  obtain ⟨c, shut, rest, -, -, h⟩ | h := s.acquire_cases o
  · rw [h]
    exact ⟨[], .refl s.network, by simp⟩
  · rw [h]
    exact (s.setKept o []).passes_connect o

/-- An exchange sends one request and receives one reply, or fails by what
    strikes. -/
theorem passes_exchangeOn (s : Session) (c : Nat) (r : Request) :
    ∃ struck, s.network.Passes (s.exchangeOn c r).2.network [(c, r)]
        (s.exchangeOn c r).1.toOption.toList struck
      ∧ ∀ f ∈ struck, (s.exchangeOn c r).1 = .error (.failure f) := by
  have hclose (n : Network) : n.Passes (n.close c) [] [] [] :=
    (n.follows_close c).passes rfl rfl
  obtain ⟨struck, hsend, hstruck⟩ := s.network.passes_send c r
  rw [exchangeOn]
  generalize s.network.send c r = sent at hsend hstruck ⊢
  obtain ⟨f | ⟨⟩, n⟩ := sent
  · refine ⟨struck, hsend.quiet (hclose n), ?_⟩
    intro f' hf'
    cases hstruck f' hf'
    rfl
  · obtain ⟨struck', hreceive, hstruck'⟩ := n.passes_receive c
    obtain rfl := eq_nil_of_struck hstruck
    dsimp only
    generalize n.receive c = received at hreceive hstruck' ⊢
    obtain ⟨f | reply, n'⟩ := received
    · refine ⟨struck', (hsend.trans hreceive).quiet (hclose n'), ?_⟩
      intro f' hf'
      cases hstruck' f' hf'
      rfl
    · refine ⟨struck', hsend.trans hreceive, ?_⟩
      intro f' hf'
      cases hstruck' f' hf'

/-- What passes for one request: the request, if it got as far as that, the
    reply, if one came, and the failure, if one struck. -/
theorem passes_outcome (s : Session) (r : Request) :
    ∃ struck, s.network.Passes (s.outcome r).2.network
        (Link.sent? ⟨r, (s.outcome r).1⟩).toList
        (Link.reply? ⟨r, (s.outcome r).1⟩).toList struck
      ∧ ∀ f ∈ struck, ∃ lapse, (s.outcome r).1 = .error lapse
          ∧ lapse.fault = .failure f := by
  obtain ⟨struck, hacquire, hstruck⟩ := s.passes_acquire r.origin
  rw [outcome]
  generalize s.acquire r.origin = acquired at hacquire hstruck ⊢
  obtain ⟨f | c, s₁⟩ := acquired
  · refine ⟨struck, hacquire, ?_⟩
    intro f' hf'
    cases hstruck f' hf'
    exact ⟨_, rfl, rfl⟩
  · obtain ⟨struck', hexchange, hstruck'⟩ := s₁.passes_exchangeOn c r
    obtain rfl := eq_nil_of_struck hstruck
    dsimp only
    generalize s₁.exchangeOn c r = exchanged at hexchange hstruck' ⊢
    obtain ⟨f | reply, s₂⟩ := exchanged
    · refine ⟨struck', hacquire.trans hexchange, ?_⟩
      intro f' hf'
      cases hstruck' f' hf'
      exact ⟨_, rfl, rfl⟩
    · obtain rfl := eq_nil_of_struck hstruck'
      have hpasses := hacquire.trans hexchange
      dsimp only
      -- to read the body of a redirect and to keep the connection are
      -- nothing to the network
      split
      · rcases (reply.arrival.read none).1 with f | bs
        · exact ⟨[], hpasses, by simp⟩
        · exact ⟨[], hpasses, by simp⟩
      · exact ⟨[], hpasses, by simp⟩

/-- Finding the next URL does not touch the network. -/
theorem network_of_onward {s' : Session} {url : Text} {reply : WireReply}
    {result : Except Fault Text} (h : s.onward url reply = (result, s')) :
    s'.network = s.network := by
  obtain ⟨moved, honward⟩ := s.onward_moved url reply
  rw [h] at honward
  obtain rfl : s' = _ := honward
  rfl

theorem filterMap_cons_toList {α β : Type} (f : α → Option β) (a : α)
    (l : List α) :
    (a :: l).filterMap f = (f a).toList ++ l.filterMap f := by
  cases h : f a with
  | none => simp [h]
  | some b => simp [h]

/-- What passes for a request that is answered. -/
theorem passes_of_outcome {s' : Session} {r : Request} {c : Nat}
    {reply : WireReply} (h : s.outcome r = (.ok (c, reply), s')) :
    s.network.Passes s'.network [(c, r)] [reply] [] := by
  obtain ⟨struck, hpasses, hstruck⟩ := s.passes_outcome r
  rw [h] at hpasses hstruck
  obtain rfl : struck = [] := by
    refine List.eq_nil_iff_forall_not_mem.mpr ?_
    intro f hf
    obtain ⟨lapse, hlapse, -⟩ := hstruck f hf
    cases hlapse
  exact hpasses

/-- What passes for a link that is the last one. -/
theorem passes_last {n n' : Network} {l : Link} {struck : List Failure}
    (h : n.Passes n' l.sent?.toList l.reply?.toList struck) :
    n.Passes n' ([l].filterMap Link.sent?).reverse
      ([l].filterMap Link.reply?) struck := by
  have hsent : ([l].filterMap Link.sent?).reverse = l.sent?.toList := by
    cases hs : l.sent? with
    | none => simp [hs]
    | some sent => simp [hs]
  rw [hsent, filterMap_cons_toList, List.filterMap_nil, List.append_nil]
  exact h

/-- What passes for a request that is answered and the links after it. -/
theorem passes_answered {s' : Session} {n : Network} {r : Request} {c : Nat}
    {reply : WireReply} {links : List Link} {struck : List Failure}
    (h : s.outcome r = (.ok (c, reply), s'))
    (hlater : s'.network.Passes n (links.filterMap Link.sent?).reverse
      (links.filterMap Link.reply?) struck) :
    s.network.Passes n
      ((⟨r, .ok (c, reply)⟩ :: links).filterMap Link.sent?).reverse
      ((⟨r, .ok (c, reply)⟩ :: links).filterMap Link.reply?) struck := by
  rw [filterMap_cons_toList, filterMap_cons_toList, List.reverse_append]
  exact (passes_of_outcome h).trans hlater

/-- What passes for a call: the requests of its links and the replies to
    them.  Every failure that strikes is raised. -/
theorem passes_chain (s : Session) (hops : Nat) (method url : Text)
    (body : Option Bytes) (fields : List (Text × Text)) :
    ∃ struck, s.network.Passes (s.chain hops method url body fields).2.2.network
        ((s.chain hops method url body fields).1.filterMap Link.sent?).reverse
        ((s.chain hops method url body fields).1.filterMap Link.reply?) struck
      ∧ ∀ f ∈ struck, (s.chain hops method url body fields).2.1
          = .error (.failure f) := by
  fun_induction chain s hops method url body fields with
  | case1 => exact ⟨[], .refl _, by simp⟩
  | case2 _ s _ _ _ _ r _ lapse s₁ houtcome =>
      obtain ⟨struck, hpasses, hstruck⟩ := s.passes_outcome r
      rw [houtcome] at hpasses hstruck
      refine ⟨struck, passes_last hpasses, ?_⟩
      intro f hf
      obtain ⟨_, hlapse, hfault⟩ := hstruck f hf
      cases hlapse
      exact congrArg _ hfault
  | case3 s _ _ _ _ r _ c reply s₁ houtcome =>
      exact ⟨[], passes_answered houtcome (.refl _), by simp⟩
  | case4 s _ _ _ _ r _ c reply s₁ houtcome _ hops f s₂ honward =>
      refine ⟨[], passes_answered houtcome ?_, by simp⟩
      rw [network_of_onward honward]
      exact .refl _
  | case5 s _ _ _ _ r _ c reply s₁ houtcome _ hops _ s₂ honward _ ih =>
      obtain ⟨struck, hlater, hstruck⟩ := ih
      rw [network_of_onward honward] at hlater
      exact ⟨struck, passes_answered houtcome hlater, hstruck⟩
  | case6 s _ _ _ _ r _ c reply s₁ houtcome _ hops _ s₂ honward _ ih =>
      obtain ⟨struck, hlater, hstruck⟩ := ih
      rw [network_of_onward honward] at hlater
      exact ⟨struck, passes_answered houtcome hlater, hstruck⟩
  | case7 _ s _ _ _ _ r _ c reply s₁ houtcome _ n s₂ hhand =>
      refine ⟨[], passes_answered houtcome ?_, by simp⟩
      rw [← congrArg Prod.snd hhand]
      exact .refl _

/-! ## Shapes of a chain -/

/-- All that a call can do with so many redirects left: its links, and what
    it raises or returns. -/
inductive Leads :
    Nat → Text → Option Bytes → List Link → Except Fault (Response Nat) → Prop
  /-- There is no request to make. -/
  | unmade {hops method body f} (hf : f ≠ .redirectLimit) :
      Leads hops method body [] (.error f)
  /-- The request fails. -/
  | lapsed {hops r lapse} (hf : lapse.fault ≠ .redirectLimit)
      (hundrained : ∀ c reply f, lapse = .undrained c reply f →
        Link.IsUndrained ⟨r, .error lapse⟩ c reply) :
      Leads hops r.method r.body [⟨r, .error lapse⟩] (.error lapse.fault)
  /-- A redirect is one too many. -/
  | limit {r c reply} (hredirect : Link.IsRedirected ⟨r, .ok (c, reply)⟩) :
      Leads 0 r.method r.body [⟨r, .ok (c, reply)⟩] (.error .redirectLimit)
  /-- A redirect leads nowhere. -/
  | astray {hops r c reply f}
      (hredirect : Link.IsRedirected ⟨r, .ok (c, reply)⟩)
      (hf : f ≠ .redirectLimit) :
      Leads (hops + 1) r.method r.body [⟨r, .ok (c, reply)⟩] (.error f)
  /-- A reply tells to look elsewhere. -/
  | elsewhere {hops r c reply links result}
      (hredirect : Link.IsRedirected ⟨r, .ok (c, reply)⟩)
      (hsee : reply.status = 303)
      (later : Leads hops (text "GET") none links result) :
      Leads (hops + 1) r.method r.body (⟨r, .ok (c, reply)⟩ :: links) result
  /-- A redirect leads on with the same request. -/
  | again {hops r c reply links result}
      (hredirect : Link.IsRedirected ⟨r, .ok (c, reply)⟩)
      (hsee : reply.status ≠ 303)
      (later : Leads hops r.method r.body links result) :
      Leads (hops + 1) r.method r.body (⟨r, .ok (c, reply)⟩ :: links) result
  /-- A reply is handed out. -/
  | answered {hops r c reply n}
      (hanswered : redirects r.method reply.status = false) :
      Leads hops r.method r.body [⟨r, .ok (c, reply)⟩]
        (.ok ⟨reply.status, some reply.headers, n⟩)

/-- The redirects whose bodies could not be read are those that the links
    say so of. -/
theorem Leads.isUndrained {hops : Nat} {method : Text} {body : Option Bytes}
    {links : List Link} {result : Except Fault (Response Nat)}
    (h : Leads hops method body links result) :
    ∀ l ∈ links, ∀ c reply f, l.outcome = .error (.undrained c reply f) →
      l.IsUndrained c reply := by
  induction h with
  | unmade => simp
  | lapsed _ hundrained =>
      intro l hl c reply f hf
      obtain rfl := List.mem_singleton.mp hl
      cases hf
      exact hundrained c reply f rfl
  | limit | astray | answered =>
      intro l hl c reply f hf
      obtain rfl := List.mem_singleton.mp hl
      cases hf
  | elsewhere _ _ _ ih | again _ _ _ ih =>
      intro l hl c reply f hf
      rcases List.mem_cons.mp hl with rfl | hl
      · cases hf
      · exact ih l hl c reply f hf

/-! ## Every chain has one of the shapes -/

/-- Preparing a request does not fail by the number of redirects. -/
theorem ne_redirectLimit_of_prepare {s : Session} {method url : Text}
    {body : Option Bytes} {fields : List (Text × Text)} {f : Fault}
    (h : s.prepare method url body fields = .error f) :
    f ≠ .redirectLimit := by
  rw [prepare] at h
  split at h
  · cases h
    simp
  · split at h
    · cases h
      simp
    · cases h

theorem ne_redirectLimit_of_onward {s s' : Session} {url : Text}
    {reply : WireReply} {f : Fault}
    (h : s.onward url reply = (.error f, s')) : f ≠ .redirectLimit := by
  rw [onward] at h
  split at h
  · cases h
    simp
  · dsimp only at h
    split at h
    · cases h
      simp
    · cases h

theorem ne_redirectLimit_of_acquire {s s' : Session} {o : Origin} {f : Fault}
    (h : s.acquire o = (.error f, s')) : f ≠ .redirectLimit := by
  obtain ⟨c, shut, rest, -, -, hacquire⟩ | hacquire := s.acquire_cases o
  · cases h.symm.trans hacquire
  · have hconnect := hacquire.symm.trans h
    rw [connect] at hconnect
    split at hconnect
    · split at hconnect
      · cases hconnect
        simp
      · cases hconnect
    · cases hconnect
      simp

theorem ne_redirectLimit_of_exchangeOn {s s' : Session} {c : Nat}
    {r : Request} {f : Fault}
    (h : s.exchangeOn c r = (.error f, s')) : f ≠ .redirectLimit := by
  rw [exchangeOn] at h
  split at h
  · cases h
    simp
  · split at h
    · cases h
      simp
    · cases h

theorem ne_redirectLimit_of_outcome {s s' : Session} {r : Request}
    {lapse : Lapse} (h : s.outcome r = (.error lapse, s')) :
    lapse.fault ≠ .redirectLimit := by
  rw [outcome] at h
  split at h
  · next hacquire =>
      cases h
      exact ne_redirectLimit_of_acquire hacquire
  · split at h
    · next hexchange =>
        cases h
        exact ne_redirectLimit_of_exchangeOn hexchange
    · split at h
      · split at h
        · cases h
          simp [Lapse.fault]
        · cases h
      · cases h

/-- A body that has not been read is read to its end, unless it fails. -/
theorem read_arrival (reply : WireReply) :
    (reply.arrival.read none).1
      = match reply.readFailure with
        | some f => .error f
        | none => .ok reply.body := by
  show (if false = true then _ else _ : Except Failure Bytes × Arrival).1 = _
  rw [if_neg Bool.false_ne_true]
  show (match reply.readFailure with
    | some f => (.error f, reply.arrival)
    | none => _ : Except Failure Bytes × Arrival).1 = _
  cases reply.readFailure with
  | some f => rfl
  | none => exact congrArg Except.ok List.take_length

/-- Where the body of a redirect could not be read, it has a failure. -/
theorem isUndrained_of_outcome {s s' : Session} {r : Request}
    {lapse : Lapse} (h : s.outcome r = (.error lapse, s')) :
    ∀ c reply f, lapse = .undrained c reply f →
      Link.IsUndrained ⟨r, .error lapse⟩ c reply := by
  intro c reply f hlapse
  subst hlapse
  rw [outcome] at h
  split at h
  · cases h
  · split at h
    · cases h
    · split at h
      · next hredirect =>
          split at h
          · next hread =>
              cases h
              rw [read_arrival] at hread
              refine ⟨f, rfl, hredirect, ?_⟩
              cases hf : reply.readFailure with
              | some f' =>
                  rw [hf] at hread
                  cases hread
                  rfl
              | none =>
                  rw [hf] at hread
                  cases hread
          · cases h
      · cases h

/-- Where a redirect counts as an answer, its body was read. -/
theorem isRedirected_of_outcome {s s' : Session} {r : Request} {c : Nat}
    {reply : WireReply} (h : s.outcome r = (.ok (c, reply), s'))
    (hredirect : redirects r.method reply.status = true) :
    Link.IsRedirected ⟨r, .ok (c, reply)⟩ := by
  refine ⟨c, reply, rfl, hredirect, ?_⟩
  rw [outcome] at h
  split at h
  · cases h
  · split at h
    · cases h
    · split at h
      · split at h
        · cases h
        · next hread =>
            cases h
            rw [read_arrival] at hread
            cases hf : reply.readFailure with
            | some f =>
                rw [hf] at hread
                cases hread
            | none => rfl
      · next hno =>
          cases h
          exact absurd hredirect hno

theorem leads_chain (s : Session) (hops : Nat) (method url : Text)
    (body : Option Bytes) (fields : List (Text × Text)) :
    Leads hops method body (s.chain hops method url body fields).1
      (s.chain hops method url body fields).2.1 := by
  fun_induction chain s hops method url body fields with
  | case1 _ _ _ _ _ _ hprepare =>
      exact .unmade (ne_redirectLimit_of_prepare hprepare)
  | case2 _ _ _ _ _ _ _ hprepare _ _ houtcome =>
      obtain ⟨rfl, rfl⟩ := of_prepare hprepare
      exact .lapsed (ne_redirectLimit_of_outcome houtcome)
        (isUndrained_of_outcome houtcome)
  | case3 _ _ _ _ _ _ hprepare _ _ _ houtcome hredirect =>
      obtain ⟨rfl, rfl⟩ := of_prepare hprepare
      exact .limit (isRedirected_of_outcome houtcome hredirect)
  | case4 _ _ _ _ _ _ hprepare _ _ _ houtcome hredirect _ _ _ honward =>
      obtain ⟨rfl, rfl⟩ := of_prepare hprepare
      exact .astray (isRedirected_of_outcome houtcome hredirect)
        (ne_redirectLimit_of_onward honward)
  | case5 _ _ _ _ _ _ hprepare _ _ _ houtcome hredirect _ _ _ _ hsee ih =>
      obtain ⟨rfl, rfl⟩ := of_prepare hprepare
      exact .elsewhere (isRedirected_of_outcome houtcome hredirect) hsee ih
  | case6 _ _ _ _ _ _ hprepare _ _ _ houtcome hredirect _ _ _ _ hsee ih =>
      obtain ⟨rfl, rfl⟩ := of_prepare hprepare
      exact .again (isRedirected_of_outcome houtcome hredirect) hsee ih
  | case7 _ _ _ _ _ _ _ hprepare _ _ _ _ hredirect =>
      obtain ⟨rfl, rfl⟩ := of_prepare hprepare
      exact .answered (eq_false_of_ne_true hredirect)

end Session

end CouchClient
