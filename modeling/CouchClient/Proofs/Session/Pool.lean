import CouchClient.Proofs.Session.Connections

/-! # Pools — connections that are exclusive and clean

    Whatever a session is used for, and whatever fails, a connection has
    one owner: it is kept for its origin, with nothing left to read on it,
    or lent to one open stream, or nobody's.

    The route:

    * `Traffic.Sound` — what holds of the traffic of a session at any time;
    * `Traffic.Apart` — a connection that was taken and is nobody's yet;
    * `Sound.happen`, `Sound.setKept`, `Sound.retire`, `Sound.restore` — the
      changes that all uses are made of keep traffic sound;
    * `Sound.run` — so every use does, and any number of them;
    * `exclusive_clean_run` — what that says about a session. -/

namespace CouchClient

/-- The connection that something happens on. -/
def Happening.connection : Happening → Nat
  | sent c _ _ => c
  | finished c => c

theorem progress_cons_of_ne {c : Nat} {e : Happening}
    (h : e.connection ≠ c) (journal : List Happening) :
    progress c (e :: journal) = progress c journal := by
  cases e with
  | sent c' r state => exact if_neg h
  | finished c' => exact if_neg h

/-- The progress of a response that arrives like this. -/
def Arrival.progress (a : Arrival) : Progress :=
  if a.closed then .finished else .unread

/-- A body that is closed by a read has nothing left. -/
theorem Arrival.left_eq_nil_of_read {a a' : Arrival} {size : Option Nat}
    {result : Except Failure Bytes} (h : a.read size = (result, a'))
    (ha : a.closed = false) (ha' : a'.closed = true) : a'.left = [] := by
  rw [read, ha, if_neg Bool.false_ne_true] at h
  cases hf : a.failure with
  | some f =>
      rw [hf] at h
      cases h
      rw [ha] at ha'
      cases ha'
  | none =>
      rw [hf] at h
      cases h
      exact List.isEmpty_iff.mp ha'

/-- A closed body stays as it is. -/
theorem Arrival.read_of_closed {a : Arrival} (h : a.closed = true)
    (size : Option Nat) : a.read size = (.ok [], a) := by
  rw [read, if_pos h]

namespace Traffic

/-- A connection to an origin that neither is kept nor belongs to an open
    stream, and what became of the last request on it. -/
structure Apart (t : Traffic) (c : Nat) (o : Origin) (p : Progress) :
    Prop where
  apart : c ∉ t.session.owned
  origin : t.session.network.originOf c = some o
  progress : progress c t.journal = p

/-- An open stream has a connection to where it says, and the response to
    the last request on it. -/
structure Carries (t : Traffic) (r : ResponseStream) : Prop where
  origin : t.session.network.originOf r.connection = some r.origin
  progress : progress r.connection t.journal = r.arrival.progress
  left : r.arrival.closed = true → r.arrival.left = []

/-- What holds of a session and the journal of its traffic at any time. -/
structure Sound (t : Traffic) : Prop where
  exclusive : t.session.owned.Nodup
  clean : ∀ o cs, (o, cs) ∈ t.session.pool → ∀ c ∈ cs,
    t.session.network.originOf c = some o ∧ progress c t.journal = .finished
  carries : ∀ r ∈ t.session.streams, r.closed = false → t.Carries r
  ended : ∀ r ∈ t.session.streams, r.closed = true → r.arrival.closed = true
  known : ∀ c, progress c t.journal ≠ .none →
    ∃ o, t.session.network.originOf c = some o
  sent : ∀ c r state earlier, .sent c r state :: earlier <:+ t.journal →
    state = some ⟨r.origin, true⟩ ∧ progress c earlier ≠ .unread
  requests : t.journal.filterMap Happening.sent? = t.session.network.requests

variable {s s' : Session} {j : List Happening} {t t' : Traffic} {c n : Nat}
  {o : Origin} {r : Request} {p : Progress}

/-! ## Parts of a session -/

/-- A kept connection is one to its origin, with nothing left to read. -/
theorem Sound.kept (h : Sound ⟨s, j⟩) (hc : c ∈ s.kept o) :
    s.network.originOf c = some o ∧ progress c j = .finished := by
  rw [Session.kept] at hc
  cases hget : Entries.get? o s.pool with
  | none =>
      rw [hget] at hc
      cases hc
  | some cs =>
      rw [hget] at hc
      exact h.clean o cs (Entries.mem_of_get? hget) c hc

/-- A pooled connection has nothing left to read. -/
theorem Sound.pooled (h : Sound ⟨s, j⟩) (hc : c ∈ s.pooled) :
    ∃ o, s.network.originOf c = some o ∧ progress c j = .finished := by
  obtain ⟨⟨o, cs⟩, hmem, hc⟩ := List.mem_flatMap.mp hc
  exact ⟨o, h.clean o cs hmem c hc⟩

/-- What a session has was made. -/
theorem Sound.exists_originOf (h : Sound ⟨s, j⟩) (hc : c ∈ s.owned) :
    ∃ o, s.network.originOf c = some o := by
  rcases List.mem_append.mp hc with hc | hc
  · obtain ⟨o, ho, -⟩ := h.pooled hc
    exact ⟨o, ho⟩
  · obtain ⟨r, hr, rfl⟩ := List.mem_map.mp hc
    obtain ⟨hmem, hopen⟩ := List.mem_filter.mp hr
    have hcarries := h.carries r hmem ((Bool.not_eq_true' _).mp hopen)
    exact ⟨r.origin, hcarries.origin⟩

/-! ## Changes to a network -/

/-- What a network does apart from requests leaves traffic sound. -/
theorem Sound.network (h : Sound ⟨s, j⟩) {n : Network}
    (hn : s.network.Follows n []) :
    Sound ⟨{ s with network := n }, j⟩ where
  exclusive := h.exclusive
  clean o cs hmem c hc :=
    ⟨hn.origin (h.clean o cs hmem c hc).1, (h.clean o cs hmem c hc).2⟩
  carries r hmem hopen :=
    have hr := h.carries r hmem hopen
    ⟨hn.origin hr.origin, hr.progress, hr.left⟩
  ended := h.ended
  known c hc := by
    obtain ⟨o, ho⟩ := h.known c hc
    exact ⟨o, hn.origin ho⟩
  sent := h.sent
  requests := h.requests.trans hn.requests.symm

/-- What happens on a connection that the session does not have leaves
    traffic sound, if requests are sent on open connections where nothing is
    left to read. -/
theorem Sound.happen (h : Sound ⟨s, j⟩) (e : Happening) {n : Network}
    (hapart : e.connection ∉ s.owned)
    (hknown : s.network.originOf e.connection = some o)
    (hn : s.network.Follows n e.sent?.toList)
    (hsent : ∀ c r state, e = .sent c r state →
      state = some ⟨r.origin, true⟩ ∧ progress c j ≠ .unread) :
    Sound ⟨{ s with network := n }, e :: j⟩ where
  exclusive := h.exclusive
  clean o cs hmem c hc := by
    -- it happens on none of the connections that are kept
    have hne : e.connection ≠ c := by
      rintro rfl
      exact hapart (List.mem_append_left _
        (List.mem_flatMap.mpr ⟨(o, cs), hmem, hc⟩))
    rw [progress_cons_of_ne hne]
    exact ⟨hn.origin (h.clean o cs hmem c hc).1, (h.clean o cs hmem c hc).2⟩
  carries r hmem hopen := by
    have hr := h.carries r hmem hopen
    have hne : e.connection ≠ r.connection := by
      intro hc
      exact hapart (hc ▸ List.mem_append_right _ (mem_lentTo hmem hopen))
    exact ⟨hn.origin hr.origin,
      (progress_cons_of_ne hne j).trans hr.progress, hr.left⟩
  ended := h.ended
  known c hc := by
    by_cases hne : e.connection = c
    · exact ⟨o, hne ▸ hn.origin hknown⟩
    · rw [progress_cons_of_ne hne] at hc
      obtain ⟨o', ho⟩ := h.known c hc
      exact ⟨o', hn.origin ho⟩
  sent c r state earlier hsuffix := by
    rcases List.suffix_cons_iff.mp hsuffix with heq | hsuffix
    · cases heq
      exact hsent c r state rfl
    · exact h.sent c r state earlier hsuffix
  requests := by
    rw [hn.requests, List.filterMap_cons]
    cases hs : e.sent? with
    | none => exact h.requests
    | some sent => exact congrArg (List.cons sent) h.requests

/-! ## Changes to a pool -/

/-- Connections with nothing left to read may be kept for their origin. -/
theorem Sound.setKept (h : Sound ⟨s, j⟩) {cs : List Nat}
    (hcs : ∀ c ∈ cs,
      s.network.originOf c = some o ∧ progress c j = .finished)
    (hnodup : (s.setKept o cs).owned.Nodup) :
    Sound ⟨s.setKept o cs, j⟩ where
  exclusive := hnodup
  clean o' cs' hmem c hc := by
    rcases Entries.mem_insert hmem with ⟨rfl, rfl⟩ | hmem
    · exact hcs c hc
    · exact h.clean o' cs' hmem c hc
  carries r hmem hopen :=
    have hr := h.carries r hmem hopen
    ⟨hr.origin, hr.progress, hr.left⟩
  ended := h.ended
  known := h.known
  sent := h.sent
  requests := h.requests

/-- A connection can be kept once its response is read to the end. -/
theorem Sound.keep (h : Sound ⟨s, j⟩) (hc : Apart ⟨s, j⟩ c o .finished) :
    Sound ⟨s.keep o c, j⟩ := by
  refine h.setKept ?_ ?_
  · intro c' hc'
    rcases List.mem_cons.mp hc' with rfl | hc'
    · exact ⟨hc.origin, hc.progress⟩
    · exact h.kept hc'
  · exact (s.owned_keep_perm o c).nodup_iff.mpr
      (List.nodup_cons.mpr ⟨hc.apart, h.exclusive⟩)

/-- The connections before the one that is taken are forgotten. -/
theorem nodup_of_kept {shut rest : List Nat} (h : s.owned.Nodup)
    (hkept : s.kept o = shut ++ c :: rest) :
    c ∉ (s.setKept o rest).owned ∧ (s.setKept o rest).owned.Nodup := by
  have hnodup := (s.owned_perm o).nodup_iff.mp h
  rw [hkept, List.append_assoc] at hnodup
  have hrest := hnodup.of_append_right
  rw [List.cons_append, List.nodup_cons] at hrest
  exact ⟨fun hc => hrest.1 ((s.owned_setKept_perm o rest).mem_iff.mp hc),
    (s.owned_setKept_perm o rest).nodup_iff.mpr hrest.2⟩

/-- A connection that a session takes for a request goes where the request
    goes, is open and has nothing left to read. -/
theorem Sound.acquire (h : Sound ⟨s, j⟩) {result : Except Fault Nat}
    (hs : s.acquire o = (result, s')) :
    Sound ⟨s', j⟩ ∧ ∀ c, result = .ok c → c ∉ s'.owned
      ∧ s'.network.connections[c]? = some ⟨o, true⟩
      ∧ progress c j ≠ .unread := by
  obtain ⟨c, shut, rest, hkept, hopen, hacquire⟩ | hconnect :=
    s.acquire_cases o
  · -- the connection was kept, for where it goes
    cases hs.symm.trans hacquire
    obtain ⟨hapart, hnodup⟩ := nodup_of_kept h.exclusive hkept
    have hmem {c'} (hc' : c' ∈ c :: rest) : c' ∈ s.kept o :=
      hkept ▸ List.mem_append_right shut hc'
    refine ⟨h.setKept (fun c' hc' => h.kept (hmem (List.mem_cons_of_mem c hc')))
      hnodup, ?_⟩
    intro c' hc'
    cases hc'
    obtain ⟨ho, hp⟩ := h.kept (hmem List.mem_cons_self)
    refine ⟨hapart, Network.getElem?_of_isOpen ho hopen, ?_⟩
    intro hunread
    cases hp.symm.trans hunread
  · -- nothing that was kept is open: what is made is new, so nobody has it
    have hempty : (s.setKept o []).owned.Nodup := by
      refine (s.owned_setKept_perm o []).nodup_iff.mpr ?_
      exact ((s.owned_perm o).nodup_iff.mp h.exclusive).of_append_right
    have h := h.setKept (fun _ hc => (List.not_mem_nil hc).elim) hempty
    obtain ⟨n, hn, ⟨f, hf⟩ | ⟨c, hc, hnew, hstate⟩⟩ :=
      (s.setKept o []).connect_cases o
    · cases (hs.symm.trans hconnect).trans hf
      exact ⟨h.network hn, by simp⟩
    · cases (hs.symm.trans hconnect).trans hc
      refine ⟨h.network hn, ?_⟩
      intro c' hc'
      cases hc'
      refine ⟨?_, hstate, ?_⟩
      · intro hmem
        obtain ⟨o', ho⟩ := h.exists_originOf hmem
        cases hnew.symm.trans ho
      · intro hp
        obtain ⟨o', ho⟩ := h.known c (by rw [hp]; simp)
        cases hnew.symm.trans ho

/-! ## Requests -/

/-- A request on a connection that is nobody's leaves it nobody's, with the
    response still to be read. -/
theorem Sound.exchangeOn (h : Sound ⟨s, j⟩) (hapart : c ∉ s.owned)
    (hstate : s.network.connections[c]? = some ⟨r.origin, true⟩)
    (hread : progress c j ≠ .unread) :
    Sound ⟨(s.exchangeOn c r).2, .sent c r s.network.connections[c]? :: j⟩
      ∧ Apart ⟨(s.exchangeOn c r).2,
          .sent c r s.network.connections[c]? :: j⟩ c r.origin .unread := by
  have horigin : s.network.originOf c = some r.origin :=
    congrArg (Option.map Connection.origin) hstate
  obtain ⟨n, hn, hs⟩ := s.exchangeOn_network c r
  rw [hs]
  refine ⟨h.happen _ hapart horigin hn ?_,
    hapart, hn.origin horigin, if_pos rfl⟩
  intro c' r' state he
  cases he
  exact ⟨hstate, hread⟩

/-- After an exchange the connection is nobody's, and the response on it is
    still to be read. -/
theorem Sound.exchange (h : Sound t)
    {result : Except Fault (Nat × WireReply)}
    (he : t.exchange r = (result, t')) :
    Sound t' ∧ ∀ c reply, result = .ok (c, reply) →
      Apart t' c r.origin .unread := by
  rw [Traffic.exchange] at he
  rcases hacquire : t.session.acquire r.origin with ⟨f | c, s⟩
  · rw [hacquire] at he
    cases he
    exact ⟨(h.acquire hacquire).1, by simp⟩
  · rw [hacquire] at he
    dsimp only at he
    obtain ⟨hsound, htaken⟩ := h.acquire hacquire
    obtain ⟨hapart, hstate, hread⟩ := htaken c rfl
    obtain ⟨hsent, hleft⟩ := hsound.exchangeOn hapart hstate hread
    rcases hexchange : s.exchangeOn c r with ⟨f | reply, s'⟩
    · rw [hexchange] at he hsent
      cases he
      exact ⟨hsent, by simp⟩
    · rw [hexchange] at he hsent hleft
      cases he
      refine ⟨hsent, ?_⟩
      intro c' reply' hc
      cases hc
      exact hleft

/-- The response was read to its end on a connection that is nobody's. -/
theorem Sound.finished (h : Sound ⟨s, j⟩) (hc : Apart ⟨s, j⟩ c o p) :
    Sound ⟨s, .finished c :: j⟩
      ∧ Apart ⟨s, .finished c :: j⟩ c o .finished := by
  refine ⟨?_, hc.apart, hc.origin, if_pos rfl⟩
  exact h.happen (.finished c) hc.apart hc.origin (.refl _) (by simp)

/-- A connection that brought a redirect is kept or lost; any other is
    nobody's yet. -/
theorem Sound.attempt (h : Sound t)
    {result : Except Fault (Nat × WireReply)}
    (ha : t.attempt r = (result, t')) :
    Sound t' ∧ ∀ c reply, result = .ok (c, reply) →
      Session.redirects r.method reply.status = false →
      Apart t' c r.origin .unread := by
  rw [Traffic.attempt] at ha
  rcases hexchange : t.exchange r with ⟨f | ⟨c, reply⟩, t₁⟩
  · rw [hexchange] at ha
    cases ha
    exact ⟨(h.exchange hexchange).1, by simp⟩
  · rw [hexchange] at ha
    dsimp only at ha
    obtain ⟨h₁, hanswered⟩ := h.exchange hexchange
    have hapart := hanswered c reply rfl
    by_cases hredirect : Session.redirects r.method reply.status = true
    · rw [if_pos hredirect] at ha
      generalize (reply.arrival.read none).1 = body at ha
      cases body with
      | error f =>
          cases ha
          exact ⟨h₁, by simp⟩
      | ok bs =>
          cases ha
          obtain ⟨h₂, hfinished⟩ := h₁.finished hapart
          refine ⟨h₂.keep hfinished, ?_⟩
          intro c' reply' hc hno
          cases hc
          cases hredirect.symm.trans hno
    · rw [if_neg hredirect] at ha
      cases ha
      refine ⟨h₁, ?_⟩
      intro c' reply' hc hno
      cases hc
      exact hapart

/-- What a session remembers of redirects is nothing to its connections. -/
theorem Sound.moved (h : Sound ⟨s, j⟩) (moved : List (Text × Option Text)) :
    Sound ⟨{ s with moved }, j⟩ where
  exclusive := h.exclusive
  clean := h.clean
  carries r hmem hopen :=
    have hr := h.carries r hmem hopen
    ⟨hr.origin, hr.progress, hr.left⟩
  ended := h.ended
  known := h.known
  sent := h.sent
  requests := h.requests

theorem Sound.onward (h : Sound ⟨s, j⟩) {url : Text} {reply : WireReply}
    {result : Except Fault Text} (ho : s.onward url reply = (result, s')) :
    Sound ⟨s', j⟩ := by
  obtain ⟨moved, honward⟩ := s.onward_moved url reply
  rw [ho] at honward
  obtain rfl : s' = _ := honward
  exact h.moved moved

/-! ## Streams -/

/-- Other streams leave traffic sound if each has a connection of its
    own. -/
theorem Sound.withStreams (h : Sound ⟨s, j⟩) {streams : List ResponseStream}
    (hnodup : (Session.owned { s with streams }).Nodup)
    (hopen : ∀ r ∈ streams, r.closed = false → Carries ⟨s, j⟩ r)
    (hclosed : ∀ r ∈ streams, r.closed = true → r.arrival.closed = true) :
    Sound ⟨{ s with streams }, j⟩ where
  exclusive := hnodup
  clean := h.clean
  carries r hmem hr :=
    have hr := hopen r hmem hr
    ⟨hr.origin, hr.progress, hr.left⟩
  ended := hclosed
  known := h.known
  sent := h.sent
  requests := h.requests

variable {stream : ResponseStream}

/-- A connection that nobody else owns may be handed out. -/
theorem Sound.handOut (h : Sound ⟨s, j⟩) (hopen : stream.closed = false)
    (hapart : stream.connection ∉ s.owned)
    (hcarries : Carries ⟨s, j⟩ stream) :
    Sound ⟨(s.handOut stream).2, j⟩ := by
  refine h.withStreams ?_ ?_ ?_
  · exact (Session.owned_handOut_perm hopen).nodup_iff.mpr
      (List.nodup_cons.mpr ⟨hapart, h.exclusive⟩)
  · intro x hx hxopen
    rcases List.mem_append.mp hx with hx | hx
    · exact h.carries x hx hxopen
    · rw [List.mem_singleton.mp hx]
      exact hcarries
  · intro x hx hxclosed
    rcases List.mem_append.mp hx with hx | hx
    · exact h.ended x hx hxclosed
    · rw [List.mem_singleton.mp hx, hopen] at hxclosed
      cases hxclosed

/-- An open stream that is closed leaves its connection to nobody. -/
theorem Sound.retire (h : Sound ⟨s, j⟩) (hn : s.streams[n]? = some stream)
    (hopen : stream.closed = false) (done : ResponseStream)
    (hdone : done.closed = true) (hover : done.arrival.closed = true) :
    Sound ⟨{ s with streams := s.streams.set n done }, j⟩
      ∧ Apart ⟨{ s with streams := s.streams.set n done }, j⟩
          stream.connection stream.origin stream.arrival.progress := by
  have hperm := Session.owned_set_closed_perm hn hopen hdone
  have hnodup := List.nodup_cons.mp (hperm.nodup_iff.mp h.exclusive)
  have hcarries := h.carries stream (List.mem_of_getElem? hn) hopen
  refine ⟨h.withStreams hnodup.2 ?_ ?_,
    hnodup.1, hcarries.origin, hcarries.progress⟩
  · intro x hx hxopen
    rcases List.mem_or_eq_of_mem_set hx with hx | rfl
    · exact h.carries x hx hxopen
    · cases hdone.symm.trans hxopen
  · intro x hx hxclosed
    rcases List.mem_or_eq_of_mem_set hx with hx | rfl
    · exact h.ended x hx hxclosed
    · exact hover

/-- A stream takes the place of a closed one. -/
theorem Sound.restore {done : ResponseStream} (h : Sound ⟨s, j⟩)
    (hn : s.streams[n]? = some done) (hdone : done.closed = true)
    (stream : ResponseStream) (hopen : stream.closed = false)
    (hapart : stream.connection ∉ s.owned)
    (hcarries : Carries ⟨s, j⟩ stream) :
    Sound ⟨{ s with streams := s.streams.set n stream }, j⟩ := by
  have hperm := Session.owned_set_open_perm hn hdone hopen
  refine h.withStreams ?_ ?_ ?_
  · exact hperm.nodup_iff.mpr (List.nodup_cons.mpr ⟨hapart, h.exclusive⟩)
  · intro x hx hxopen
    rcases List.mem_or_eq_of_mem_set hx with hx | rfl
    · exact h.carries x hx hxopen
    · exact hcarries
  · intro x hx hxclosed
    rcases List.mem_or_eq_of_mem_set hx with hx | rfl
    · exact h.ended x hx hxclosed
    · cases hopen.symm.trans hxclosed

/-- An open stream may be read on, if the journal says when that comes to
    the end of the response. -/
theorem Sound.readOn (h : Sound ⟨s, j⟩) (hn : s.streams[n]? = some stream)
    (hopen : stream.closed = false) (hunread : stream.arrival.closed = false)
    (arrival : Arrival)
    (hleft : arrival.closed = true → arrival.left = []) :
    Sound ⟨{ s with streams := s.streams.set n { stream with arrival } },
      if arrival.closed then .finished stream.connection :: j else j⟩ := by
  -- the stream is put away, read, and put back
  let done : ResponseStream :=
    { stream with arrival := stream.arrival.close, closed := true }
  obtain ⟨haway, hapart⟩ := h.retire hn hopen done rfl rfl
  have hdone : (s.streams.set n done)[n]? = some done :=
    List.getElem?_set_self (List.getElem?_eq_some_iff.mp hn).1
  rw [← List.set_set]
  by_cases hend : arrival.closed = true
  · rw [if_pos hend]
    obtain ⟨hsound, hfinished⟩ := haway.finished hapart
    refine hsound.restore hdone rfl { stream with arrival } hopen
      hfinished.apart ⟨hfinished.origin, ?_, hleft⟩
    exact hfinished.progress.trans (if_pos hend).symm
  · rw [if_neg hend]
    refine haway.restore hdone rfl { stream with arrival } hopen
      hapart.apart ⟨hapart.origin, ?_, hleft⟩
    have hprogress := hapart.progress
    rw [Arrival.progress, hunread] at hprogress
    exact hprogress.trans (if_neg hend).symm

/-- A read that comes to the end of a response is the last thing that
    happens on its connection. -/
theorem Sound.read (h : Sound t) (n : Nat) (size : Option Nat) :
    Sound (t.read n size) := by
  obtain ⟨s, j⟩ := t
  rw [Traffic.read, Session.read]
  dsimp only
  cases hn : s.streams[n]? with
  | none => exact h
  | some stream =>
      obtain ⟨hlt, hget⟩ := List.getElem?_eq_some_iff.mp hn
      dsimp only
      rw [endsWith]
      by_cases hover : stream.arrival.closed = true
      · -- what is closed stays as it is
        rw [Arrival.read_of_closed hover, hover]
        have hset : s.streams.set n stream = s.streams :=
          hget ▸ List.set_getElem_self hlt
        exact hset.symm ▸ h
      · have hunread := eq_false_of_ne_true hover
        have hopen : stream.closed = false := by
          by_contra hclosed
          exact hover (h.ended stream (List.mem_of_getElem? hn)
            (eq_true_of_ne_false hclosed))
        rcases hread : stream.arrival.read size with ⟨result, arrival⟩
        rw [hunread]
        exact h.readOn hn hopen hunread arrival fun hend =>
          Arrival.left_eq_nil_of_read hread hunread hend

/-- A connection of which a stream lets go is kept or closed. -/
theorem Sound.release (h : Sound ⟨s, j⟩) (hc : Apart ⟨s, j⟩ c o p)
    {reusable : Bool} (hp : reusable = true → p = .finished) :
    Sound ⟨s.release o c reusable, j⟩ := by
  cases reusable with
  | true => exact h.keep (hp rfl ▸ hc)
  | false => exact h.network (s.network.follows_close c)

theorem Sound.close (h : Sound ⟨s, j⟩) (n : Nat) : Sound ⟨s.close n, j⟩ := by
  rw [Session.close]
  cases hn : s.streams[n]? with
  | none => exact h
  | some stream =>
      dsimp only
      by_cases hclosed : stream.closed = true
      · rw [if_pos hclosed]
        exact h
      · rw [if_neg hclosed]
        obtain ⟨haway, hapart⟩ :=
          h.retire hn (eq_false_of_ne_true hclosed)
            { stream with arrival := stream.arrival.close, closed := true }
            rfl rfl
        exact haway.release hapart fun hover => if_pos hover

/-! ## Uses -/

/-- Following redirects keeps the traffic sound. -/
theorem Sound.follow (h : Sound t) (hops : Nat) (method url : Text)
    (body : Option Bytes) (fields : List (Text × Text)) :
    Sound (t.follow hops method url body fields).2 := by
  fun_induction Traffic.follow t hops method url body fields with
  | case1 => exact h
  | case2 _ _ _ _ _ _ _ _ _ _ hattempt => exact (h.attempt hattempt).1
  | case3 _ _ _ _ _ _ _ _ _ _ hattempt => exact (h.attempt hattempt).1
  | case4 _ _ _ _ _ _ _ _ _ _ hattempt _ _ _ _ honward =>
      exact (h.attempt hattempt).1.onward honward
  | case5 _ _ _ _ _ _ _ _ _ _ hattempt _ _ _ _ honward _ ih =>
      exact ih ((h.attempt hattempt).1.onward honward)
  | case6 _ _ _ _ _ _ _ _ _ _ hattempt _ _ _ _ honward _ ih =>
      exact ih ((h.attempt hattempt).1.onward honward)
  | case7 _ _ _ _ _ _ _ hprepare c reply _ hattempt hredirect _ s hhand =>
      obtain ⟨hsound, hanswered⟩ := h.attempt hattempt
      -- the request has the method that decides what is a redirect
      obtain ⟨hmethod, -⟩ := Session.of_prepare hprepare
      rw [← hmethod] at hredirect
      have hapart := hanswered c reply rfl (eq_false_of_ne_true hredirect)
      obtain rfl : _ = s := congrArg Prod.snd hhand
      exact hsound.handOut rfl hapart.apart
        ⟨hapart.origin, hapart.progress, fun hclosed => by cases hclosed⟩

/-- Every use of a session leaves its traffic sound. -/
theorem Sound.perform (h : Sound t) (step : SessionStep) :
    Sound (t.perform step) := by
  cases step with
  | request method url body fields => exact h.follow _ method url body fields
  | requestWith method url body headers =>
      rw [Traffic.perform]
      cases headers.reread with
      | ok fields => exact h.follow _ method url body fields
      | error name => exact h
  | read n size => exact h.read n size
  | close n => exact h.close n
  | drop c => exact h.network (t.session.network.follows_setOpen c false)

/-- Traffic stays sound along every run. -/
theorem Sound.run (h : Sound t) (steps : List SessionStep) :
    Sound (t.run steps) := by
  induction steps generalizing t with
  | nil => exact h
  | cons step steps ih => exact ih (h.perform step)

/-- Before any request there is nothing to be unsound. -/
theorem Sound.ofScript (script : Script) (maxRedirects : Int) :
    Sound (.ofSession (.ofNetwork (.ofScript script) maxRedirects)) where
  exclusive := List.nodup_nil
  clean _ _ hmem := (List.not_mem_nil hmem).elim
  carries _ hmem := (List.not_mem_nil hmem).elim
  ended _ hmem := (List.not_mem_nil hmem).elim
  known _ hc := (hc rfl).elim
  sent _ _ _ _ hsuffix := (List.cons_ne_nil _ _ (List.suffix_nil.mp hsuffix)).elim
  requests := rfl

/-! ## What sound traffic says -/

/-- The connection of an open stream is not in the pool. -/
theorem Sound.not_mem_pooled (h : Sound ⟨s, j⟩) (hmem : stream ∈ s.streams)
    (hopen : stream.closed = false) : stream.connection ∉ s.pooled := by
  intro hpooled
  exact (List.nodup_append.mp h.exclusive).2.2 _ hpooled _
    (mem_lentTo hmem hopen) rfl

/-- An open stream was read to the end if the journal says so. -/
theorem Sound.finished_iff (h : Sound ⟨s, j⟩) (hmem : stream ∈ s.streams)
    (hopen : stream.closed = false) :
    progress stream.connection j = .finished
      ↔ stream.arrival.closed = true := by
  have hprogress : progress stream.connection j = stream.arrival.progress :=
    (h.carries stream hmem hopen).progress
  rw [hprogress, Arrival.progress]
  by_cases hover : stream.arrival.closed = true
  · rw [if_pos hover]
    exact iff_of_true rfl hover
  · rw [if_neg hover]
    exact iff_of_false (by simp) hover

/-- An open stream that is closed puts its connection into the pool if the
    response was read to its end. -/
theorem Sound.close_finished (h : Sound ⟨s, j⟩)
    (hn : s.streams[n]? = some stream) (hopen : stream.closed = false)
    (hfinished : progress stream.connection j = .finished) :
    stream.arrival.left = []
      ∧ (s.close n).pool = Entries.insert stream.origin
          (stream.connection :: s.kept stream.origin) s.pool
      ∧ stream.connection ∈ (s.close n).pooled
      ∧ (s.close n).network = s.network := by
  have hmem := List.mem_of_getElem? hn
  have hover := (h.finished_iff hmem hopen).mp hfinished
  rw [Session.close, hn]
  dsimp only
  rw [if_neg (ne_true_of_eq_false hopen), hover]
  exact ⟨(h.carries stream hmem hopen).left hover, rfl,
    Session.mem_pooled_keep _ _ _, rfl⟩

/-- Otherwise its connection is closed, and is in no pool. -/
theorem Sound.close_unread (h : Sound ⟨s, j⟩)
    (hn : s.streams[n]? = some stream) (hopen : stream.closed = false)
    (hunread : progress stream.connection j ≠ .finished) :
    (s.close n).pool = s.pool
      ∧ stream.connection ∉ (s.close n).pooled
      ∧ (s.close n).network = s.network.close stream.connection := by
  have hmem := List.mem_of_getElem? hn
  have hover := fun hover => hunread ((h.finished_iff hmem hopen).mpr hover)
  rw [Session.close, hn]
  dsimp only
  rw [if_neg (ne_true_of_eq_false hopen), eq_false_of_ne_true hover]
  exact ⟨rfl, h.not_mem_pooled hmem hopen, rfl⟩

/-- Connections are exclusive and clean, whatever a session is used for and
    whatever becomes of its network: each is kept at most once, where it
    goes to and with nothing left to read, and not while a stream on it is
    open; so requests are sent on open connections to where they go, with
    nothing left to read.  An open stream that is closed gives its
    connection back if that was read to the end, and closes it otherwise,
    and closing it ever again does nothing. -/
theorem exclusive_clean_run (script : Script) (maxRedirects : Int)
    (steps : List SessionStep) :
    let start := Session.ofNetwork (.ofScript script) maxRedirects
    let s := start.run steps
    let journal := ((ofSession start).run steps).journal
    ((ofSession start).run steps).session = s
      ∧ journal.filterMap Happening.sent? = s.network.requests
      ∧ s.pooled.Nodup
      ∧ (∀ o cs, (o, cs) ∈ s.pool → ∀ c ∈ cs,
          s.network.originOf c = some o ∧ progress c journal = .finished)
      ∧ (∀ stream ∈ s.streams, stream.closed = false →
          stream.connection ∉ s.pooled)
      ∧ (∀ c r state earlier, .sent c r state :: earlier <:+ journal →
          state = some ⟨r.origin, true⟩ ∧ progress c earlier ≠ .unread)
      ∧ ∀ n stream, s.streams[n]? = some stream → stream.closed = false →
          (progress stream.connection journal = .finished →
            stream.arrival.left = []
              ∧ (s.close n).pool = Entries.insert stream.origin
                  (stream.connection :: s.kept stream.origin) s.pool
              ∧ stream.connection ∈ (s.close n).pooled
              ∧ (s.close n).network = s.network)
          ∧ (progress stream.connection journal ≠ .finished →
            (s.close n).pool = s.pool
              ∧ stream.connection ∉ (s.close n).pooled
              ∧ (s.close n).network = s.network.close stream.connection)
          ∧ ∀ more, ((s.close n).run more).close n = (s.close n).run more := by
  intro start s journal
  have hsession : ((ofSession start).run steps).session = s :=
    session_run (ofSession start) steps
  have h : Sound ⟨s, journal⟩ := by
    have hrun := (Sound.ofScript script maxRedirects).run steps
    rw [← hsession]
    exact hrun
  refine ⟨hsession, h.requests, h.exclusive.of_append_left, h.clean,
    fun stream hmem hopen => h.not_mem_pooled hmem hopen, h.sent, ?_⟩
  intro n stream hn hopen
  refine ⟨fun hfinished => h.close_finished hn hopen hfinished,
    fun hunread => h.close_unread hn hopen hunread, ?_⟩
  intro more
  exact Session.close_of_isClosed ((Session.isClosed_close hn).run more)

/-- Three replies, each with a body of one byte. -/
def threeReplies : Script where
  entries := List.replicate 3 (.reply ⟨200, .empty, [1], false, none⟩)

/-- A response is read and closed, then two are held open, of which one is
    read. -/
def threeRequests : List SessionStep :=
  let ask := SessionStep.request (text "GET") (text "//a") none []
  [ask, .read 0 none, .close 0, ask, ask, .read 1 none]

/-- The second request is sent on the connection of the first one, which can
    be kept again; that of the third one cannot. -/
theorem exclusive_clean_run_of_threeRequests :
    let s := (Session.ofNetwork (.ofScript threeReplies) 5).run threeRequests
    s.streams.map ResponseStream.connection = [0, 0, 1] ∧ s.pooled = []
      ∧ 0 ∈ (s.close 1).pooled ∧ 1 ∉ (s.close 2).pooled := by
  intro s
  obtain ⟨-, -, -, -, -, -, hclose⟩ :=
    exclusive_clean_run threeReplies 5 threeRequests
  obtain ⟨hkept, -, -⟩ := hclose 1 _ rfl rfl
  obtain ⟨-, hshut, -⟩ := hclose 2 _ rfl rfl
  exact ⟨rfl, rfl, (hkept rfl).2.2.1, (hshut (by decide)).2.1⟩

end Traffic

end CouchClient
