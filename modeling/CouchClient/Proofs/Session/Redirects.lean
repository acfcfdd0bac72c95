import CouchClient.Proofs.Session.Chain

/-! # Redirects — how often a call sends a request, and which ones

    Requests are not tried again: a call goes on only after a redirect,
    up to the limit, and whatever fails ends it.  What writes is sent once,
    because after it only a reply that tells to look elsewhere leads on.

    * `Leads.length_le`, `Leads.of_suffix` — chains are bounded, and a
      request that fails is the last one;
    * `Leads.of_write` — what follows a request that writes;
    * `Leads.redirectLimit_iff`, `Leads.ok_iff` — how a chain ends;
    * `links_of_request` — what that says about a call. -/

namespace CouchClient

namespace Link

variable {l : Link} {lapse : Lapse}

theorem not_isRedirected_of_error (h : l.outcome = .error lapse) :
    ¬ l.IsRedirected := by
  rintro ⟨c, reply, hok, -⟩
  cases h.symm.trans hok

theorem not_isAnswered_of_error (h : l.outcome = .error lapse) :
    ¬ l.IsAnswered := by
  rintro ⟨c, reply, hok, -⟩
  cases h.symm.trans hok

/-- No reply both redirects and is handed out. -/
theorem IsRedirected.not_isAnswered (h : l.IsRedirected) :
    ¬ l.IsAnswered := by
  obtain ⟨c, reply, houtcome, hredirect, -⟩ := h
  rintro ⟨c', reply', houtcome', hno⟩
  cases houtcome.symm.trans houtcome'
  cases hredirect.symm.trans hno

theorem IsRedirected.isSome_sent (h : l.IsRedirected) :
    l.sent?.isSome = true := by
  obtain ⟨c, reply, houtcome, -⟩ := h
  rw [sent?, houtcome]
  rfl

end Link

namespace Session

variable {hops : Nat} {method : Text} {body : Option Bytes}
  {links : List Link} {result : Except Fault (Response Nat)}

/-! ## Which replies redirect -/

/-- Who does not ask is only told to look elsewhere. -/
theorem status_of_redirects {status : Int}
    (h : redirects method status = true) (hget : method ≠ text "GET")
    (hhead : method ≠ text "HEAD") : status = 303 := by
  rw [redirects, beq_eq_false_iff_ne.mpr hget,
    beq_eq_false_iff_ne.mpr hhead] at h
  simpa using h

/-! ## Lengths -/

/-- Each link but the first is paid for by a redirect. -/
theorem Leads.length_le (h : Leads hops method body links result) :
    links.length ≤ hops + 1 := by
  induction h with
  | unmade => exact Nat.zero_le _
  | lapsed | limit | astray | answered => simp
  | elsewhere _ _ _ ih => exact Nat.succ_le_succ ih
  | again _ _ _ ih => exact Nat.succ_le_succ ih

theorem of_suffix_singleton {l l' : Link} {later : List Link}
    (h : l :: later <:+ [l']) : l = l' ∧ later = [] := by
  rcases List.suffix_cons_iff.mp h with heq | hnil
  · cases heq
    exact ⟨rfl, rfl⟩
  · cases List.suffix_nil.mp hnil

/-- A request that fails is the last one, and its fault is raised. -/
theorem Leads.of_suffix (h : Leads hops method body links result) :
    ∀ l later, l :: later <:+ links → ∀ lapse, l.outcome = .error lapse →
      later = [] ∧ result = .error lapse.fault := by
  induction h with
  | unmade =>
      intro l later hsuffix
      cases List.suffix_nil.mp hsuffix
  | lapsed =>
      intro l later hsuffix lapse hlapse
      obtain ⟨rfl, rfl⟩ := of_suffix_singleton hsuffix
      cases hlapse
      exact ⟨rfl, rfl⟩
  | limit | astray | answered =>
      -- the one request of these has not failed
      intro l later hsuffix lapse hlapse
      obtain ⟨rfl, rfl⟩ := of_suffix_singleton hsuffix
      cases hlapse
  | elsewhere _ _ _ ih | again _ _ _ ih =>
      intro l later hsuffix lapse hlapse
      rcases List.suffix_cons_iff.mp hsuffix with heq | hsuffix
      · cases heq
        cases hlapse
      · exact ih l later hsuffix lapse hlapse

/-! ## Requests that write -/

/-- Who asks without a body goes on so. -/
theorem Leads.of_get (h : Leads hops method body links result)
    (hmethod : method = text "GET") (hbody : body = none) :
    ∀ l ∈ links, l.request.method = text "GET" ∧ l.request.body = none := by
  induction h with
  | unmade => simp
  | lapsed | limit | astray | answered =>
      intro l hl
      obtain rfl := List.mem_singleton.mp hl
      exact ⟨hmethod, hbody⟩
  | elsewhere _ _ _ ih =>
      intro l hl
      rcases List.mem_cons.mp hl with rfl | hl
      · exact ⟨hmethod, hbody⟩
      · exact ih rfl rfl l hl
  | again _ _ _ ih =>
      intro l hl
      rcases List.mem_cons.mp hl with rfl | hl
      · exact ⟨hmethod, hbody⟩
      · exact ih hmethod hbody l hl

/-- The first request has the method and the body that were asked for. -/
theorem Leads.first (h : Leads hops method body links result) :
    ∀ first later, links = first :: later →
      first.request.method = method ∧ first.request.body = body := by
  cases h with
  | unmade =>
      intro first later hlinks
      cases hlinks
  | lapsed | limit | astray | answered | elsewhere | again =>
      intro first later hlinks
      cases hlinks
      exact ⟨rfl, rfl⟩

/-- After a request that writes a reply that tells to look elsewhere comes
    first, and then only requests that ask. -/
theorem Leads.of_write (h : Leads hops method body links result)
    (hget : method ≠ text "GET") (hhead : method ≠ text "HEAD") :
    ∀ first later, links = first :: later →
      (∀ l ∈ later,
        l.request.method = text "GET" ∧ l.request.body = none)
      ∧ (later ≠ [] →
          ∃ c reply, first.outcome = .ok (c, reply)
            ∧ reply.status = 303) := by
  cases h with
  | unmade =>
      intro first later hlinks
      cases hlinks
  | lapsed | limit | astray | answered =>
      intro first later hlinks
      cases hlinks
      simp
  | elsewhere _ hsee later =>
      intro first later' hlinks
      cases hlinks
      refine ⟨later.of_get rfl rfl, ?_⟩
      intro _
      exact ⟨_, _, rfl, hsee⟩
  | again hredirect hsee =>
      obtain ⟨_, _, houtcome, hredirect, -⟩ := hredirect
      cases houtcome
      exact absurd (status_of_redirects hredirect hget hhead) hsee

/-! ## Endings -/

/-- The limit is exceeded by a redirect in answer to every request that may
    be made. -/
theorem Leads.redirectLimit_iff (h : Leads hops method body links result) :
    result = .error .redirectLimit
      ↔ links.length = hops + 1 ∧ ∀ l ∈ links, l.IsRedirected := by
  induction h with
  | unmade hf => simp [hf]
  | lapsed hf =>
      refine iff_of_false (by simp [hf]) ?_
      rintro ⟨-, hall⟩
      exact Link.not_isRedirected_of_error rfl (hall _ List.mem_cons_self)
  | limit hredirect =>
      refine iff_of_true rfl ⟨rfl, ?_⟩
      intro l hl
      obtain rfl := List.mem_singleton.mp hl
      exact hredirect
  | astray _ hf => simp [hf]
  | elsewhere hredirect _ _ ih | again hredirect _ _ ih =>
      rw [ih, List.length_cons, List.forall_mem_cons]
      simp [hredirect]
  | answered hanswered =>
      refine iff_of_false (by simp) ?_
      rintro ⟨-, hall⟩
      exact (hall _ List.mem_cons_self).not_isAnswered
        ⟨_, _, rfl, hanswered⟩

/-- A response is returned if some reply is no redirect. -/
theorem Leads.ok_iff (h : Leads hops method body links result) :
    (∃ response, result = .ok response) ↔ ∃ l ∈ links, l.IsAnswered := by
  induction h with
  | unmade => simp
  | lapsed =>
      refine iff_of_false (by simp) ?_
      rintro ⟨l, hl, hanswered⟩
      obtain rfl := List.mem_singleton.mp hl
      exact Link.not_isAnswered_of_error rfl hanswered
  | limit hredirect | astray hredirect =>
      refine iff_of_false (by simp) ?_
      rintro ⟨l, hl, hanswered⟩
      obtain rfl := List.mem_singleton.mp hl
      exact hredirect.not_isAnswered hanswered
  | elsewhere hredirect _ _ ih | again hredirect _ _ ih =>
      rw [ih, List.exists_mem_cons_iff]
      simp [hredirect.not_isAnswered]
  | answered hanswered =>
      exact iff_of_true ⟨_, rfl⟩
        ⟨_, List.mem_cons_self, _, _, rfl, hanswered⟩

/-! ## Calls -/

/-- A call with headers is a call with their fields, unless they have none:
    then nothing is done. -/
theorem requestWith_cases (s : Session) (method url : Text)
    (body : Option Bytes) (headers : Headers Text) :
    (∃ fields, s.requestWith method url body headers
        = s.request method url body fields)
      ∨ ∃ f, f ≠ .redirectLimit
          ∧ s.requestWith method url body headers = (.error f, s) := by
  rw [requestWith]
  cases headers.reread with
  | ok fields => exact Or.inl ⟨fields, rfl⟩
  | error name =>
      refine Or.inr ⟨_, ?_, rfl⟩
      rw [fieldFault]
      cases hprepare : s.prepare method url body [] with
      | error f => exact ne_redirectLimit_of_prepare hprepare
      | ok prepared => simp

/-- Where every request was answered, every request was sent. -/
theorem length_sent_of_isRedirected (h : ∀ l ∈ links, l.IsRedirected) :
    (links.filterMap Link.sent?).length = links.length := by
  rw [List.filterMap_length_eq_length]
  intro l hl
  exact (h l hl).isSome_sent

/-- Requests are never sent again, writes are never repeated, and redirects
    are bounded, whatever a session has been used for and whatever its
    network does.  The links of a call are what it sends and what becomes of
    that.  A call sends at most one request more than the limit.  A request
    that fails is its last one, and that failure is raised.  What writes is
    sent once: only requests that ask come after it, and only if a reply
    told to look elsewhere.  The limit is exceeded by redirects alone, as
    many as there may be requests, and a response is returned whenever a
    reply is no redirect. -/
theorem links_of_request (s : Session) (method url : Text)
    (body : Option Bytes) :
    (∀ fields,
      let result := (s.request method url body fields).1
      let after := (s.request method url body fields).2
      let links := s.links method url body fields
      let sent := links.filterMap Link.sent?
      after.network.requests = sent.reverse ++ s.network.requests
        ∧ s.network.replies
            = links.filterMap Link.reply? ++ after.network.replies
        ∧ (∃ struck, s.network.failures = struck ++ after.network.failures
            ∧ ∀ f ∈ struck, result = .error (.failure f))
        ∧ (∀ l ∈ links, ∀ c reply f,
            l.outcome = .error (.undrained c reply f) →
            l.IsUndrained c reply)
        ∧ (sent.length : Int) ≤ max 0 s.maxRedirects + 1
        ∧ (∀ l later, l :: later <:+ links → ∀ lapse,
            l.outcome = .error lapse →
            later = [] ∧ result = .error lapse.fault)
        ∧ (method ≠ text "GET" → method ≠ text "HEAD" →
            ∀ first later, links = first :: later →
              first.request.method = method ∧ first.request.body = body
              ∧ (∀ l ∈ later,
                  l.request.method = text "GET" ∧ l.request.body = none)
              ∧ (later ≠ [] → ∃ c reply,
                  first.outcome = .ok (c, reply) ∧ reply.status = 303))
        ∧ (result = .error .redirectLimit
            ↔ (sent.length : Int) = max 0 s.maxRedirects + 1
              ∧ ∀ l ∈ links, l.IsRedirected)
        ∧ ((∃ response, result = .ok response)
            ↔ ∃ l ∈ links, l.IsAnswered))
      ∧ ∀ headers,
          (∃ fields, s.requestWith method url body headers
              = s.request method url body fields)
          ∨ ∃ f, f ≠ .redirectLimit
              ∧ s.requestWith method url body headers = (.error f, s) := by
  refine ⟨?_, s.requestWith_cases method url body⟩
  intro fields result after links sent
  have hcall : (s.chain s.maxRedirects.toNat method url body fields).2
      = s.request method url body fields := s.chain_snd _ method url body fields
  have hleads : Leads s.maxRedirects.toNat method body links result := by
    show Leads _ _ _ _ (s.request method url body fields).1
    rw [← hcall]
    exact s.leads_chain _ method url body fields
  obtain ⟨struck, hpasses, hstruck⟩ :=
    s.passes_chain s.maxRedirects.toNat method url body fields
  rw [hcall] at hpasses hstruck
  have hlength := hleads.length_le
  have hsent : sent.length ≤ links.length := List.length_filterMap_le _ _
  refine ⟨hpasses.requests, hpasses.replies, ⟨struck, hpasses.failures, hstruck⟩,
    hleads.isUndrained, by omega, hleads.of_suffix, ?_, ?_, hleads.ok_iff⟩
  · intro hget hhead first later hlinks
    obtain ⟨hmethod, hbody⟩ := hleads.first first later hlinks
    exact ⟨hmethod, hbody, hleads.of_write hget hhead first later hlinks⟩
  · rw [hleads.redirectLimit_iff]
    refine and_congr_left ?_
    intro hall
    have hall : sent.length = links.length := length_sent_of_isRedirected hall
    omega

/-- A document is put where a reply tells to look elsewhere: a second
    request asks there, and its reply is returned. -/
theorem links_of_request_of_put :
    let seeOther : WireReply := ⟨303, .empty, [1], false, none⟩
    let found : WireReply := ⟨200, .empty, [2], false, none⟩
    let s := ofNetwork (.ofScript { entries := [.reply seeOther, .reply found] }) 5
    let links := s.links (text "PUT") (text "//a") (some [3]) []
    links.map (fun l => (l.request.method, l.request.body))
        = [(text "PUT", some [3]), (text "GET", none)]
      ∧ ∃ l ∈ links, l.IsAnswered := by
  intro seeOther found s links
  obtain ⟨hcalls, -⟩ := links_of_request s (text "PUT") (text "//a") (some [3])
  obtain ⟨-, -, -, -, -, -, hwrite, -, hok⟩ := hcalls []
  constructor
  · have htwo : links.length = 2 := by decide +kernel
    obtain ⟨put, get, hlinks⟩ := List.length_eq_two.mp htwo
    obtain ⟨hmethod, hbody, hlater, -⟩ :=
      hwrite (by decide) (by decide) put [get] hlinks
    obtain ⟨hget, hnone⟩ := hlater get List.mem_cons_self
    rw [hlinks, List.map_cons, List.map_cons, hmethod, hbody, hget, hnone]
    rfl
  · have hreturned :
        (s.request (text "PUT") (text "//a") (some [3]) []).1.isOk = true := by
      decide +kernel
    cases hresult : (s.request (text "PUT") (text "//a") (some [3]) []).1 with
    | ok response => exact hok.mp ⟨response, hresult⟩
    | error f =>
        rw [hresult] at hreturned
        cases hreturned

end Session

end CouchClient
