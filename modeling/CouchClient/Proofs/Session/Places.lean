import CouchClient.Proofs.Session.Chain
import CouchClient.Proofs.Url.Web

/-! # Places — where redirects lead, and what is raised there

    A session is asked for web URLs.  Any other place that it tries is one
    that a redirect has led to, at once or because it was remembered.  So what
    a session raises is a failure of the delivery, unless the redirects that it
    got have led it astray.

    * `WireReply.LeadsTo`, `WireReply.Misleads` — where a redirect leads to,
      and the faults of those that lead nowhere;
    * `Session.Reaches`, `Session.Settled` — the places that a session may try,
      and what holds of it at any time;
    * `Session.Explains` — the faults that a session raises;
    * `Settled.chain`, `Settled.requestWith`, `Settled.read`, `Settled.close` —
      every use of a session keeps to this. -/

namespace CouchClient

/-! ## Failures that strike -/

namespace Network

variable {n n' : Network} {f : Failure}

/-- What strikes was among the failures to come. -/
theorem mem_failures_of_strike {p : ExchangePoint}
    (h : n.strike p = (some f, n')) : f ∈ n.failures := by
  have hstruck := (n.passes_strike p).failures
  rw [h] at hstruck
  rw [hstruck]
  exact List.mem_cons_self

/-- A connection fails by a failure of the script. -/
theorem mem_failures_of_connect {o : Origin}
    (h : n.connect o = (.error f, n')) : f ∈ n.failures := by
  rw [connect] at h
  split at h
  · next hstrike =>
      cases h
      have hstruck := mem_failures_of_strike hstrike
      exact hstruck
  · cases h

/-- A request is not sent because of a failure of the script. -/
theorem mem_failures_of_send {c : Nat} {r : Request}
    (h : n.send c r = (.error f, n')) : f ∈ n.failures := by
  rw [send] at h
  split at h
  · next hstrike =>
      cases h
      have hstruck := mem_failures_of_strike hstrike
      exact hstruck
  · cases h

/-- Without a failure in the script there is no reply only when nothing is
    left of it. -/
theorem failure_of_receive {c : Nat} (h : n.receive c = (.error f, n')) :
    f ∈ n.failures ∨ f = n.silence := by
  rw [receive] at h
  split at h
  · cases h
    exact Or.inr rfl
  · next hscript =>
      cases h
      rw [failures, hscript]
      exact Or.inl List.mem_cons_self
  · cases h

end Network

/-! ## Redirects that lead astray -/

/-- A redirect from a web URL leads back to it, or its location is resolved,
    which gives a URL that names a scheme if it gives any. -/
theorem Session.destination_cases {base : Text} (h : Url.IsWeb base)
    (headers : Headers Text) :
    Session.destination base headers = .ok (some base)
      ∨ ∃ reference, headers.get? (text "Location") = some reference
          ∧ ((∃ e, Session.destination base headers = .error e)
            ∨ ∃ url, Session.destination base headers = .ok (some url)
                ∧ Url.schemeOf url ≠ []) := by
  rw [destination]
  cases headers.get? (text "Location") with
  | none =>
      have hne := Url.ne_nil_of_schemeOf_ne_nil h.schemeOf_ne_nil
      exact Or.inl (congrArg Except.ok (if_neg (by simpa using hne)))
  | some reference =>
      refine Or.inr ⟨reference, rfl, ?_⟩
      dsimp only
      cases hresolve : Url.resolve base reference with
      | error e => exact Or.inl ⟨e, rfl⟩
      | ok url => exact Or.inr ⟨url, rfl, Url.schemeOf_ne_nil_of_resolve h hresolve⟩

/-- A read that fails meets the failure of the body. -/
theorem Arrival.failure_of_read {a : Arrival} {size : Option Nat} {f : Failure}
    (h : (a.read size).1 = .error f) : a.failure = some f := by
  rw [read] at h
  split at h
  · cases h
  · split at h
    · next hfailure =>
        cases h
        exact hfailure
    · cases h

theorem Arrival.failure_read (a : Arrival) (size : Option Nat) :
    (a.read size).2.failure = a.failure := by
  rw [read]
  split
  · rfl
  · split
    · rfl
    · rfl

namespace WireReply

/-- The reply sends some request to another URL. -/
def IsRedirect (reply : WireReply) : Prop :=
  ∃ method, Session.redirects method reply.status = true

/-- The fields of the reply lead from some web URL to the given one. -/
def LeadsTo (reply : WireReply) (url : Text) : Prop :=
  ∃ base, Url.IsWeb base
    ∧ Session.destination base reply.headers = .ok (some url)

/-- The fault of a reply whose fields lead from some web URL to none: the
    location cannot be resolved, or taken apart, or there are no connections
    for its scheme. -/
inductive Misleads (reply : WireReply) : Fault → Prop
  | unresolved {base e} (hbase : Url.IsWeb base)
      (h : Session.destination base reply.headers = .error e) :
      Misleads reply (.badUrl e)
  | unreadable {url e} (hleads : reply.LeadsTo url)
      (h : Url.split [] url = .error e) : Misleads reply (.badUrl e)
  | unsupported {url parts} (hleads : reply.LeadsTo url)
      (h : Url.split [] url = .ok parts)
      (hscheme : Session.isSupported parts.scheme = false) :
      Misleads reply (.unsupportedScheme parts.scheme)

variable {reply : WireReply} {url : Text} {f : Fault}

/-- A redirect leads to a URL with a scheme. -/
theorem LeadsTo.schemeOf_ne_nil (h : reply.LeadsTo url) :
    Url.schemeOf url ≠ [] := by
  obtain ⟨base, hbase, hurl⟩ := h
  obtain hback | ⟨_, -, ⟨e, herror⟩ | ⟨url', hok, hscheme⟩⟩ :=
    Session.destination_cases hbase reply.headers
  · cases hback.symm.trans hurl
    exact hbase.schemeOf_ne_nil
  · cases herror.symm.trans hurl
  · cases hok.symm.trans hurl
    exact hscheme

end WireReply

/-! ## Sessions at any time -/

namespace Session

variable {all : List WireReply} {s s' : Session} {n : Network} {url : Text}
  {reply : WireReply} {f : Fault}

/-- Of all replies, the session got this one. -/
def HasGot (all : List WireReply) (s : Session) (reply : WireReply) : Prop :=
  ∃ came, all = came ++ s.network.replies ∧ reply ∈ came

/-- A place that the session may try: a web URL, or one that a redirect led
    to. -/
def Reaches (all : List WireReply) (s : Session) (url : Text) : Prop :=
  Url.IsWeb url
    ∨ ∃ reply, s.HasGot all reply ∧ reply.IsRedirect ∧ reply.LeadsTo url

/-- What a session raises: a fault of the delivery, or the fault of a redirect
    that leads astray. -/
inductive Explains (all : List WireReply) (s : Session) : Fault → Prop
  | delivery {fault : Fault} (h : fault.isDelivery = true) :
      Explains all s fault
  | misled {r fault} (hgot : s.HasGot all r) (hredirect : r.IsRedirect)
      (h : r.Misleads fault) : Explains all s fault

/-- What holds of a session at any time, of all replies that there are: its
    connections are for the schemes that it makes them for, and the URLs that
    have moved have moved to places that it may try. -/
structure Settled (all : List WireReply) (s : Session) : Prop where
  readable : ∀ r ∈ all, ∀ f, r.readFailure = some f → f.kind.isDelivery = true
  failures : ∀ f ∈ s.network.failures, f.kind.isDelivery = true
  silence : s.network.silence.kind.isDelivery = true
  replies : s.network.replies <:+ all
  pool : ∀ o cs, (o, cs) ∈ s.pool → cs = [] ∨ isSupported o.scheme = true
  streams : ∀ r ∈ s.streams, isSupported r.origin.scheme = true
    ∧ ∀ f, r.arrival.failure = some f → f.kind.isDelivery = true
  moved : ∀ url place, (url, place) ∈ s.moved →
    ∃ location, place = some location ∧ s.Reaches all location

/-- The result of a use is explained, and the session is settled after it. -/
structure Ends {α : Type} (all : List WireReply) (result : Except Fault α)
    (s : Session) : Prop where
  settled : s.Settled all
  explained : ∀ f, result = .error f → s.Explains all f

/-! ## What comes later -/

variable {sent : List (Nat × Request)} {came : List WireReply}
  {struck : List Failure}

theorem HasGot.mem (h : s.HasGot all reply) : reply ∈ all := by
  obtain ⟨came, rfl, hreply⟩ := h
  exact List.mem_append_left _ hreply

/-- A reply that came has come later, too. -/
theorem HasGot.later (h : s.HasGot all reply)
    (hpasses : s.network.Passes s'.network sent came struck) :
    s'.HasGot all reply := by
  obtain ⟨before, hall, hreply⟩ := h
  refine ⟨before ++ came, ?_, List.mem_append_left came hreply⟩
  rw [hall, hpasses.replies, List.append_assoc]

/-- A reply that comes to a settled session is one of all. -/
theorem Settled.hasGot (h : s.Settled all)
    (hpasses : s.network.Passes s'.network sent came struck)
    (hreply : reply ∈ came) : s'.HasGot all reply := by
  obtain ⟨before, hall⟩ := h.replies
  refine ⟨before ++ came, ?_, List.mem_append_right before hreply⟩
  rw [← hall, hpasses.replies, List.append_assoc]

/-- A URL that was reached is reached later, too. -/
theorem Reaches.later (h : s.Reaches all url)
    (hpasses : s.network.Passes s'.network sent came struck) :
    s'.Reaches all url := by
  obtain hweb | ⟨reply, hgot, hredirect, hleads⟩ := h
  · exact Or.inl hweb
  · exact Or.inr ⟨reply, hgot.later hpasses, hredirect, hleads⟩

/-- A fault that was explained is explained later, too. -/
theorem Explains.later (h : s.Explains all f)
    (hpasses : s.network.Passes s'.network sent came struck) :
    s'.Explains all f := by
  cases h with
  | delivery h => exact .delivery h
  | misled hgot hredirect h => exact .misled (hgot.later hpasses) hredirect h

/-- What passes over the network leaves a session settled. -/
theorem Settled.network (h : s.Settled all)
    (hpasses : s.network.Passes n sent came struck) :
    Settled all { s with network := n } where
  readable := h.readable
  failures f hf := by
    refine h.failures f ?_
    rw [hpasses.failures]
    exact List.mem_append_right struck hf
  silence := by
    rw [hpasses.silence]
    exact h.silence
  replies := by
    refine List.IsSuffix.trans ?_ h.replies
    rw [hpasses.replies]
    exact List.suffix_append came n.replies
  pool := h.pool
  streams := h.streams
  moved url place hmem := by
    obtain ⟨location, hplace, hreaches⟩ := h.moved url place hmem
    exact ⟨location, hplace, hreaches.later hpasses⟩

/-! ## Connections -/

theorem Settled.setKept {cs : List Nat} {o : Origin} (h : s.Settled all)
    (hcs : cs = [] ∨ isSupported o.scheme = true) :
    (s.setKept o cs).Settled all where
  readable := h.readable
  failures := h.failures
  silence := h.silence
  replies := h.replies
  pool o' cs' hmem := by
    rcases Entries.mem_insert hmem with ⟨rfl, rfl⟩ | hmem
    · exact hcs
    · exact h.pool o' cs' hmem
  streams := h.streams
  moved := h.moved

theorem Settled.isSupported_of_kept {c : Nat} {o : Origin} (h : s.Settled all)
    (hc : c ∈ s.kept o) : isSupported o.scheme = true := by
  rw [kept] at hc
  cases hget : Entries.get? o s.pool with
  | none =>
      rw [hget] at hc
      cases hc
  | some cs =>
      rw [hget] at hc
      obtain rfl | hsupported := h.pool o cs (Entries.mem_of_get? hget)
      · cases hc
      · exact hsupported

/-- A connection is made for a scheme that has connections, unless a failure
    strikes. -/
theorem Settled.connect {o : Origin} (h : s.Settled all)
    (ho : isSupported o.scheme = false →
      s.Explains all (.unsupportedScheme o.scheme)) :
    Ends all (s.connect o).1 (s.connect o).2
      ∧ ∀ c, (s.connect o).1 = .ok c → isSupported o.scheme = true := by
  rw [Session.connect]
  split
  · next hsupported =>
      obtain ⟨struck, hpasses, -⟩ := s.network.passes_connect o
      rcases hconnect : s.network.connect o with ⟨f | c, n⟩
      · rw [hconnect] at hpasses
        have hf := h.failures f (Network.mem_failures_of_connect hconnect)
        refine ⟨⟨h.network hpasses, ?_⟩, fun _ _ => hsupported⟩
        rintro _ ⟨⟩
        exact .delivery hf
      · rw [hconnect] at hpasses
        refine ⟨⟨h.network hpasses, ?_⟩, fun _ _ => hsupported⟩
        rintro _ ⟨⟩
  · next hnot =>
      refine ⟨⟨h, ?_⟩, ?_⟩
      · rintro _ ⟨⟩
        exact ho (eq_false_of_ne_true hnot)
      · rintro _ ⟨⟩

/-- Acquiring a connection ends with one to a supported scheme, or by an
    explained fault. -/
theorem Settled.acquire {o : Origin} (h : s.Settled all)
    (ho : isSupported o.scheme = false →
      s.Explains all (.unsupportedScheme o.scheme)) :
    Ends all (s.acquire o).1 (s.acquire o).2
      ∧ ∀ c, (s.acquire o).1 = .ok c → isSupported o.scheme = true := by
  obtain ⟨c, shut, rest, hkept, -, hacquire⟩ | hacquire := s.acquire_cases o
  · have hc : c ∈ s.kept o := by simp [hkept]
    have hsupported := h.isSupported_of_kept hc
    rw [hacquire]
    refine ⟨⟨h.setKept (Or.inr hsupported), ?_⟩, fun _ _ => hsupported⟩
    rintro _ ⟨⟩
  · rw [hacquire]
    exact (h.setKept (Or.inl rfl)).connect fun hno =>
      (ho hno).later (.refl _)

/-- An exchange fails by a failure that was to come, or as nothing is left. -/
theorem failure_of_exchangeOn {c : Nat} {r : Request}
    (h : (s.exchangeOn c r).1 = .error f) :
    ∃ cause, f = .failure cause
      ∧ (cause ∈ s.network.failures ∨ cause = s.network.silence) := by
  rw [Session.exchangeOn] at h
  obtain ⟨struck, hpasses, -⟩ := s.network.passes_send c r
  rcases hsend : s.network.send c r with ⟨cause | ⟨⟩, n⟩
  · rw [hsend] at h
    cases h
    exact ⟨cause, rfl, Or.inl (Network.mem_failures_of_send hsend)⟩
  · rw [hsend] at h hpasses
    dsimp only at h
    rcases hreceive : n.receive c with ⟨cause | reply, n'⟩
    · rw [hreceive] at h
      cases h
      refine ⟨cause, rfl, ?_⟩
      rw [hpasses.failures, ← hpasses.silence]
      exact (Network.failure_of_receive hreceive).imp_left
        (List.mem_append_right struck)
    · rw [hreceive] at h
      cases h

/-- An exchange of a settled session ends with a reply that came, or by an
    explained fault. -/
theorem Settled.exchangeOn (h : s.Settled all) (c : Nat) (r : Request) :
    Ends all (s.exchangeOn c r).1 (s.exchangeOn c r).2 := by
  obtain ⟨n, -, hafter⟩ := s.exchangeOn_network c r
  obtain ⟨struck, hpasses, -⟩ := s.passes_exchangeOn c r
  constructor
  · rw [hafter] at hpasses ⊢
    exact h.network hpasses
  · intro f hf
    obtain ⟨cause, rfl, hcause | rfl⟩ := failure_of_exchangeOn hf
    · exact .delivery (h.failures cause hcause)
    · exact .delivery h.silence

/-- A request is answered on a connection of its scheme, or its failure is
    explained. -/
theorem Settled.outcome {r : Request} (h : s.Settled all)
    (hplace : isSupported r.target.scheme = false →
      s.Explains all (.unsupportedScheme r.target.scheme)) :
    Ends all ((s.outcome r).1.mapError Lapse.fault) (s.outcome r).2
      ∧ ∀ c reply, (s.outcome r).1 = .ok (c, reply) →
          isSupported r.target.scheme = true := by
  obtain ⟨hacquire, hsupported⟩ := h.acquire (o := r.origin) hplace
  rw [Session.outcome]
  generalize s.acquire r.origin = acquired at hacquire hsupported ⊢
  obtain ⟨f | c, s₁⟩ := acquired
  · refine ⟨⟨hacquire.settled, ?_⟩, ?_⟩
    · rintro _ ⟨⟩
      exact hacquire.explained f rfl
    · rintro _ _ ⟨⟩
  · have hexchange := hacquire.settled.exchangeOn c r
    obtain ⟨struck, hpasses, -⟩ := s₁.passes_exchangeOn c r
    dsimp only at hsupported ⊢
    generalize s₁.exchangeOn c r = exchanged at hexchange hpasses ⊢
    obtain ⟨f | reply, s₂⟩ := exchanged
    · refine ⟨⟨hexchange.settled, ?_⟩, ?_⟩
      · rintro _ ⟨⟩
        exact hexchange.explained f rfl
      · rintro _ _ ⟨⟩
    · have hgot : s₂.HasGot all reply :=
        hacquire.settled.hasGot hpasses List.mem_cons_self
      refine ⟨?_, fun _ _ _ => hsupported c rfl⟩
      dsimp only
      split
      · -- a redirect is read to its end, which can fail as well
        cases hread : (reply.arrival.read none).1 with
        | error f =>
            refine ⟨hexchange.settled, ?_⟩
            rintro _ ⟨⟩
            have hfailure : reply.readFailure = some f := Arrival.failure_of_read hread
            exact .delivery (h.readable reply hgot.mem f hfailure)
        | ok bs =>
            refine ⟨hexchange.settled.setKept (Or.inr (hsupported c rfl)), ?_⟩
            rintro _ ⟨⟩
      · refine ⟨hexchange.settled, ?_⟩
        rintro _ ⟨⟩

/-! ## Chains of requests -/

/-- A place that the session may try names its scheme. -/
theorem Reaches.schemeOf_ne_nil (h : s.Reaches all url) : Url.schemeOf url ≠ [] := by
  obtain hweb | ⟨reply, -, -, hleads⟩ := h
  · exact hweb.schemeOf_ne_nil
  · exact hleads.schemeOf_ne_nil

/-- A place that cannot be taken apart is one that a redirect led to. -/
theorem Reaches.unreadable {e : Url.SplitError} (h : s.Reaches all url)
    (hsplit : Url.split [] url = .error e) : s.Explains all (.badUrl e) := by
  obtain ⟨parts, hok, -⟩ | ⟨reply, hgot, hredirect, hleads⟩ := h
  · cases hok.symm.trans hsplit
  · exact .misled hgot hredirect (.unreadable hleads hsplit)

/-- So is one whose scheme has no connections. -/
theorem Reaches.unsupported {parts : Url.Parts} (h : s.Reaches all url)
    (hsplit : Url.split [] url = .ok parts)
    (hno : isSupported parts.scheme = false) :
    s.Explains all (.unsupportedScheme parts.scheme) := by
  obtain ⟨parts', hok, hsupported⟩ | ⟨reply, hgot, hredirect, hleads⟩ := h
  · cases hok.symm.trans hsplit
    cases hno.symm.trans hsupported
  · exact .misled hgot hredirect (.unsupported hleads hsplit hno)

/-- A request is made for a place that the session may try, or the place is
    none. -/
theorem Settled.of_prepare {body : Option Bytes} {method : Text}
    {fields : List (Text × Text)} {result : Except Fault (Text × Request)}
    (h : s.Settled all) (hurl : s.Reaches all url)
    (hprepare : s.prepare method url body fields = result) :
    (∀ f, result = .error f → s.Explains all f)
      ∧ ∀ place r, result = .ok (place, r) →
          s.Reaches all place ∧ Url.split [] place = .ok r.target := by
  obtain ⟨place, hlocate, hplace⟩ : ∃ place, s.locate url = some place
      ∧ s.Reaches all place := by
    rw [locate]
    cases hmoved : Entries.get? url s.moved with
    | none => exact ⟨url, rfl, hurl⟩
    | some moved =>
        obtain ⟨location, rfl, hreaches⟩ :=
          h.moved url moved (Entries.mem_of_get? hmoved)
        exact ⟨location, rfl, hreaches⟩
  have hsplit := Url.split_of_schemeOf_ne_nil hplace.schemeOf_ne_nil (text "http")
  rw [prepare, hlocate] at hprepare
  dsimp only at hprepare
  rw [Request.make, hsplit] at hprepare
  cases htarget : Url.split [] place with
  | error e =>
      rw [htarget] at hprepare
      subst hprepare
      constructor
      · rintro _ ⟨⟩
        exact hplace.unreadable htarget
      · rintro _ _ ⟨⟩
  | ok target =>
      rw [htarget] at hprepare
      subst hprepare
      constructor
      · rintro _ ⟨⟩
      · rintro _ _ ⟨⟩
        exact ⟨hplace, htarget⟩

section

variable {r : Request} {method place : Text} {body : Option Bytes}
  {fields : List (Text × Text)}

/-- A lapse of a settled session is explained. -/
theorem Settled.of_lapse {lapse : Lapse} (h : s.Settled all)
    (hurl : s.Reaches all url)
    (hprepare : s.prepare method url body fields = .ok (place, r))
    (houtcome : s.outcome r = (.error lapse, s')) :
    s'.Settled all ∧ s'.Explains all lapse.fault := by
  obtain ⟨hplace, htarget⟩ := (h.of_prepare hurl hprepare).2 place r rfl
  obtain ⟨hends, -⟩ := h.outcome fun hno => hplace.unsupported htarget hno
  rw [houtcome] at hends
  exact ⟨hends.settled, hends.explained lapse.fault rfl⟩

/-- Who was answered has asked for a web URL. -/
theorem Settled.of_reply {c : Nat} (h : s.Settled all)
    (hurl : s.Reaches all url)
    (hprepare : s.prepare method url body fields = .ok (place, r))
    (houtcome : s.outcome r = (.ok (c, reply), s')) :
    s'.Settled all ∧ s'.HasGot all reply ∧ Url.IsWeb place
      ∧ isSupported r.origin.scheme = true := by
  obtain ⟨hplace, htarget⟩ := (h.of_prepare hurl hprepare).2 place r rfl
  obtain ⟨hends, hsupported⟩ := h.outcome fun hno => hplace.unsupported htarget hno
  have hgot := h.hasGot (passes_of_outcome houtcome) List.mem_cons_self
  rw [houtcome] at hends hsupported
  have hscheme := hsupported c reply rfl
  exact ⟨hends.settled, hgot, ⟨r.target, htarget, hscheme⟩, hscheme⟩

end

/-- A location that is reached may be remembered. -/
theorem Settled.remember {location : Text} (h : s.Settled all)
    (hlocation : s.Reaches all location) :
    (s.remember url (some location)).Settled all where
  readable := h.readable
  failures := h.failures
  silence := h.silence
  replies := h.replies
  pool := h.pool
  streams := h.streams
  moved url' place hmem := by
    rcases Entries.mem_insert hmem with ⟨-, rfl⟩ | hmem
    · exact ⟨location, rfl, hlocation⟩
    · exact h.moved url' place hmem

/-- A redirect from a web URL leads on to a place that the session may try, or
    it misleads. -/
theorem Settled.onward (h : s.Settled all) (hurl : Url.IsWeb url)
    (hgot : s.HasGot all reply) (hredirect : reply.IsRedirect) :
    Ends all (s.onward url reply).1 (s.onward url reply).2
      ∧ ∀ location, (s.onward url reply).1 = .ok location →
          (s.onward url reply).2.Reaches all location := by
  have hon {location : Text} (hlocation : s.Reaches all location)
      (hdestination : destination url reply.headers = .ok (some location)) :
      Ends all (s.onward url reply).1 (s.onward url reply).2
        ∧ ∀ location, (s.onward url reply).1 = .ok location →
            (s.onward url reply).2.Reaches all location := by
    rw [Session.onward, hdestination]
    dsimp only
    refine ⟨⟨?_, by rintro _ ⟨⟩⟩, ?_⟩
    · split
      · exact h.remember hlocation
      · exact h
    · rintro _ ⟨⟩
      split
      · exact hlocation
      · exact hlocation
  obtain hback | ⟨-, -, ⟨e, herror⟩ | ⟨location, hok, -⟩⟩ :=
    destination_cases hurl reply.headers
  · exact hon (Or.inl hurl) hback
  · -- only this fault is raised before the place is tried
    rw [Session.onward, herror]
    refine ⟨⟨h, ?_⟩, by rintro _ ⟨⟩⟩
    rintro _ ⟨⟩
    exact .misled hgot hredirect (.unresolved hurl herror)
  · exact hon (Or.inr ⟨reply, hgot, hredirect, url, hurl, hok⟩) hok

/-- What a session hands out comes on a connection of a scheme that has
    them. -/
theorem Settled.handOut {c : Nat} {o : Origin} (h : s.Settled all)
    (hgot : s.HasGot all reply) (ho : isSupported o.scheme = true) :
    (s.handOut ⟨c, o, reply.arrival, false⟩).2.Settled all where
  readable := h.readable
  failures := h.failures
  silence := h.silence
  replies := h.replies
  pool := h.pool
  streams r hr := by
    rcases List.mem_append.mp hr with hr | hr
    · exact h.streams r hr
    · rw [List.mem_singleton.mp hr]
      exact ⟨ho, h.readable reply hgot.mem⟩
  moved := h.moved

/-- However far the redirects lead, what is raised in the end is explained. -/
theorem Settled.chain {hops : Nat} {method : Text} {body : Option Bytes}
    {fields : List (Text × Text)} :
    s.Settled all → s.Reaches all url →
      Ends all (Session.chain s hops method url body fields).2.1
        (Session.chain s hops method url body fields).2.2 := by
  -- the session stays settled along the chain, and each URL is one it may try
  fun_induction Session.chain s hops method url body fields with
  | case1 s _ _ _ _ _ hprepare =>
      intro h hurl
      refine ⟨h, ?_⟩
      rintro _ ⟨⟩
      exact (h.of_prepare hurl hprepare).1 _ rfl
  | case2 _ s _ _ _ _ r hprepare lapse s₁ houtcome =>
      intro h hurl
      obtain ⟨hsettled, hlapse⟩ := h.of_lapse hurl hprepare houtcome
      refine ⟨hsettled, ?_⟩
      rintro _ ⟨⟩
      exact hlapse
  | case3 s _ _ _ _ r hprepare c reply s₁ houtcome =>
      intro h hurl
      obtain ⟨hsettled, -⟩ := h.of_reply hurl hprepare houtcome
      refine ⟨hsettled, ?_⟩
      rintro _ ⟨⟩
      exact .delivery rfl
  | case4 s _ _ _ _ r hprepare c reply s₁ houtcome hredirect hops f s₂ honward =>
      intro h hurl
      obtain ⟨hsettled, hgot, hweb, -⟩ := h.of_reply hurl hprepare houtcome
      have hon := (hsettled.onward hweb hgot ⟨_, hredirect⟩).1
      rw [honward] at hon
      refine ⟨hon.settled, ?_⟩
      rintro _ ⟨⟩
      exact hon.explained f rfl
  | case5 s _ _ _ _ r hprepare c reply s₁ houtcome hredirect hops location s₂
      honward _ ih
  | case6 s _ _ _ _ r hprepare c reply s₁ houtcome hredirect hops location s₂
      honward _ ih =>
      intro h hurl
      obtain ⟨hsettled, hgot, hweb, -⟩ := h.of_reply hurl hprepare houtcome
      obtain ⟨hon, hlocation⟩ := hsettled.onward hweb hgot ⟨_, hredirect⟩
      rw [honward] at hon hlocation
      exact ih hon.settled (hlocation location rfl)
  | case7 _ s _ _ _ _ r hprepare c reply s₁ houtcome _ n s₂ hhand =>
      intro h hurl
      obtain ⟨hsettled, hgot, -, ho⟩ := h.of_reply hurl hprepare houtcome
      have hhanded := hsettled.handOut (c := c) hgot ho
      rw [hhand] at hhanded
      refine ⟨hhanded, ?_⟩
      rintro _ ⟨⟩

/-! ## Uses of a session -/

/-- A call for a web URL, with headers that can be read. -/
theorem Settled.requestWith {headers : Headers Text} {fields : List (Text × Text)}
    (h : s.Settled all) (hurl : Url.IsWeb url) (hheaders : headers.reread = .ok fields)
    (method : Text) (body : Option Bytes) :
    Ends all (s.requestWith method url body headers).1
      (s.requestWith method url body headers).2 := by
  rw [Session.requestWith, hheaders]
  dsimp only
  rw [request, ← chain_snd]
  exact h.chain (Or.inl hurl)

/-- A stream in the place of another one goes where that one goes, and fails
    as it does. -/
theorem Settled.setStream {m : Nat} {r r' : ResponseStream} (h : s.Settled all)
    (hm : s.streams[m]? = some r) (horigin : r'.origin = r.origin)
    (hfailure : r'.arrival.failure = r.arrival.failure) :
    Settled all { s with streams := s.streams.set m r' } where
  readable := h.readable
  failures := h.failures
  silence := h.silence
  replies := h.replies
  pool := h.pool
  streams r'' hr := by
    rcases List.mem_or_eq_of_mem_set hr with hr | rfl
    · exact h.streams r'' hr
    · rw [horigin, hfailure]
      exact h.streams r (List.mem_of_getElem? hm)
  moved := h.moved

/-- A read that fails meets the failure of the reply. -/
theorem Settled.read (h : s.Settled all) (m : Nat) (size : Option Nat) :
    Ends all (s.read m size).1 (s.read m size).2 := by
  rw [Session.read]
  cases hm : s.streams[m]? with
  | none =>
      refine ⟨h, ?_⟩
      rintro _ ⟨⟩
  | some r =>
      dsimp only
      refine ⟨h.setStream hm rfl (Arrival.failure_read _ _), ?_⟩
      intro f hf
      cases hread : (r.arrival.read size).1 with
      | error cause =>
          rw [hread] at hf
          cases hf
          have hcause := (h.streams r (List.mem_of_getElem? hm)).2
          exact .delivery (hcause cause (Arrival.failure_of_read hread))
      | ok bs =>
          rw [hread] at hf
          cases hf

theorem Settled.close (h : s.Settled all) (m : Nat) : (s.close m).Settled all := by
  rw [Session.close]
  cases hm : s.streams[m]? with
  | none => exact h
  | some r =>
      dsimp only
      split
      · exact h
      · let done := { r with arrival := r.arrival.close, closed := true }
        have hdone : Settled all { s with streams := s.streams.set m done } :=
          h.setStream hm rfl rfl
        rw [release]
        split
        · exact hdone.setKept (Or.inr (h.streams r (List.mem_of_getElem? hm)).1)
        · exact hdone.network ((Network.follows_close _ _).passes rfl rfl)

/-! ## Faults of the past -/

/-- What was explained stays explained, whatever the session is used for. -/
theorem Explains.requestWith (h : s.Explains all f) (method url : Text)
    (body : Option Bytes) (headers : Headers Text) :
    (s.requestWith method url body headers).2.Explains all f := by
  rw [Session.requestWith]
  cases headers.reread with
  | error name => exact h
  | ok fields =>
      obtain ⟨struck, hpasses, -⟩ :=
        s.passes_chain s.maxRedirects.toNat method url body fields
      dsimp only
      rw [request, ← chain_snd]
      exact h.later hpasses

theorem Explains.read (h : s.Explains all f) (m : Nat) (size : Option Nat) :
    (s.read m size).2.Explains all f := by
  rw [Session.read]
  cases s.streams[m]? with
  | none => exact h
  | some r => exact h.later (.refl s.network)

theorem Explains.close (h : s.Explains all f) (m : Nat) :
    (s.close m).Explains all f := by
  rw [Session.close]
  cases s.streams[m]? with
  | none => exact h
  | some r =>
      dsimp only
      split
      · exact h
      · rw [release]
        split
        · exact h.later (.refl s.network)
        · exact h.later ((s.network.follows_close r.connection).passes rfl rfl)

end Session

end CouchClient
