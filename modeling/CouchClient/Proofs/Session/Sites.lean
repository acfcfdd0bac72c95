import CouchClient.Proofs.Session.Places

/-! # Sites — redirects that are remembered change no answer

    A site has a page for each target.  Some pages are redirects, and
    without anything remembered they are followed one by one.  A session
    remembers the permanent ones and skips them.  As long as the replies are
    the pages of one site, what it remembers is what the site says, so the
    page that it comes to in the end is the same.

    * `Site.Shows` — the page that a site shows at a URL, with the number of
      redirects on the way;
    * `Link.IsFrom`, `Link.IsUnbroken` — replies that are pages of a site, and
      requests that meet no failure;
    * `Session.Remembers` — what is remembered is what the site says;
    * `Remembers.chain`, `Remembers.run` — it stays so;
    * `Remembers.locate`, `Remembers.answers` — a remembered redirect is one
      hop less, and the page at the end is answered;
    * `request_of_shows` — after any uses of a session. -/

namespace CouchClient

/-! ## Sites -/

/-- What a server is asked for, and where it is. -/
structure Target where
  origin : Origin
  selector : Text
deriving DecidableEq

/-- What a server has at a target. -/
structure Page where
  status : Int
  headers : Headers Text
  body : Bytes
deriving DecidableEq

/-- A page for each target. -/
abbrev Site := Target → Page

/-- What the request asks for. -/
def Request.place (r : Request) : Target := ⟨r.origin, r.selector⟩

/-- The page that a reply gives. -/
def WireReply.page (reply : WireReply) : Page :=
  ⟨reply.status, reply.headers, reply.body⟩

namespace Site

/-- The page at a URL that was taken apart. -/
def pageAt (site : Site) (parts : Url.Parts) : Page :=
  site ⟨⟨parts.scheme, parts.netloc⟩, parts.selector⟩

/-- The status codes that lead a request that asks on to another URL. -/
def leading : List Int := [301, 302, 303, 307]

/-- From a web URL, so many redirects lead over web URLs to a page that is
    none. -/
inductive Shows (site : Site) : Nat → Text → Page → Prop
  | page {url parts} (hsplit : Url.split [] url = .ok parts)
      (hweb : Session.isSupported parts.scheme = true)
      (hstatus : (site.pageAt parts).status ∉ leading) :
      Shows site 0 url (site.pageAt parts)
  | hop {n url parts location page} (hsplit : Url.split [] url = .ok parts)
      (hweb : Session.isSupported parts.scheme = true)
      (hstatus : (site.pageAt parts).status ∈ leading)
      (hlocation : Session.destination url (site.pageAt parts).headers
        = .ok (some location))
      (later : Shows site n location page) : Shows site (n + 1) url page

variable {site : Site} {n : Nat} {url : Text} {page : Page}

/-- A web URL is taken apart in the same way where a scheme is left to a
    default. -/
theorem split_of_isSupported {parts : Url.Parts} (hsplit : Url.split [] url = .ok parts)
    (hweb : Session.isSupported parts.scheme = true) :
    Url.split (text "http") url = .ok parts := by
  have hscheme := Url.IsWeb.schemeOf_ne_nil ⟨parts, hsplit, hweb⟩
  rw [Url.split_of_schemeOf_ne_nil hscheme, hsplit]

/-- A URL at which a site shows something splits, with a supported scheme. -/
theorem Shows.exists_split (h : site.Shows n url page) :
    ∃ parts, Url.split (text "http") url = .ok parts
      ∧ Session.isSupported parts.scheme = true := by
  cases h with
  | page hsplit hweb _ => exact ⟨_, split_of_isSupported hsplit hweb, hweb⟩
  | hop hsplit hweb _ _ _ => exact ⟨_, split_of_isSupported hsplit hweb, hweb⟩

/-- What is shown at a URL is its page, or what is shown where that leads. -/
theorem Shows.page_or_hop {parts : Url.Parts} (h : site.Shows n url page)
    (hparts : Url.split (text "http") url = .ok parts) :
    (page = site.pageAt parts ∧ (site.pageAt parts).status ∉ leading)
      ∨ ∃ m location, n = m + 1 ∧ (site.pageAt parts).status ∈ leading
        ∧ Session.destination url (site.pageAt parts).headers = .ok (some location)
        ∧ site.Shows m location page := by
  cases h with
  | page hsplit hweb hstatus =>
      cases hparts.symm.trans (split_of_isSupported hsplit hweb)
      exact Or.inl ⟨rfl, hstatus⟩
  | hop hsplit hweb hstatus hlocation later =>
      cases hparts.symm.trans (split_of_isSupported hsplit hweb)
      exact Or.inr ⟨_, _, rfl, hstatus, hlocation, later⟩

end Site

/-! ## Links -/

namespace Link

/-- The reply to the request, if one came, is the page of its target. -/
def IsFrom (site : Site) (l : Link) : Prop :=
  ∀ reply ∈ l.reply?, reply.page = site l.request.place

instance (site : Site) (l : Link) : Decidable (l.IsFrom site) :=
  inferInstanceAs (Decidable (∀ reply ∈ l.reply?, reply.page = site l.request.place))

/-- The failure that the request met. -/
def failure? (l : Link) : Option Failure :=
  match l.outcome with
  | .error (.unconnected (.failure f)) => some f
  | .error (.unanswered _ (.failure f)) => some f
  | .error (.undrained _ _ f) => some f
  | _ => none

theorem failure?_of_error {l : Link} {lapse : Lapse} {f : Failure}
    (h : l.outcome = .error lapse) (hf : lapse.fault = .failure f) :
    l.failure? = some f := by
  rw [failure?, h]
  cases lapse with
  | unconnected => cases hf; rfl
  | unanswered => cases hf; rfl
  | undrained => cases hf; rfl

end Link

namespace Session

variable {site : Site} {s s' : Session} {url : Text}

/-- The links of several uses, one after the other. -/
def linksIn (s : Session) : List SessionStep → List Link
  | [] => []
  | step :: steps => s.linksOf step ++ (s.perform step).linksIn steps

/-- A request that asks is led on by these codes. -/
theorem redirects_get_iff (status : Int) :
    redirects (text "GET") status = true ↔ status ∈ Site.leading := by
  simp [redirects, Site.leading]
  omega

/-- A request that meets no failure fails only for want of connections for
    its scheme. -/
theorem fault_of_outcome {r : Request} {lapse : Lapse}
    (h : s.outcome r = (.error lapse, s')) :
    (∃ f, lapse.fault = .failure f) ∨ isSupported r.origin.scheme = false := by
  rw [outcome] at h
  split at h
  · next f s₁ hacquire =>
      cases h
      obtain ⟨c, shut, rest, -, -, hkept⟩ | hconnect := s.acquire_cases r.origin
      · cases hkept.symm.trans hacquire
      · have hconnect := hconnect.symm.trans hacquire
        rw [connect] at hconnect
        split at hconnect
        · split at hconnect
          · cases hconnect
            exact Or.inl ⟨_, rfl⟩
          · cases hconnect
        · next hscheme => exact Or.inr (eq_false_of_ne_true hscheme)
  · next c s₁ hacquire =>
      split at h
      · next f s₂ hexchange =>
          cases h
          obtain ⟨cause, rfl, -⟩ :=
            failure_of_exchangeOn (s := s₁) (c := c) (r := r) (f := f)
              (by rw [hexchange])
          exact Or.inl ⟨cause, rfl⟩
      · split at h
        · split at h
          · cases h
            exact Or.inl ⟨_, rfl⟩
          · cases h
        · cases h

/-! ## What is remembered -/

/-- The limit of redirects is the given one, and the URLs that have moved are
    those of which the site says so. -/
structure Remembers (site : Site) (limit : Int) (s : Session) : Prop where
  limit : s.maxRedirects = limit
  moved : ∀ url place, (url, place) ∈ s.moved →
    ∃ parts, Url.split (text "http") url = .ok parts
      ∧ (site.pageAt parts).status = 301
      ∧ destination url (site.pageAt parts).headers = .ok place

/-- Before any request nothing has moved. -/
theorem Remembers.ofScript (site : Site) (script : Script)
    (maxRedirects : Int) :
    (ofNetwork (.ofScript script) maxRedirects).Remembers site maxRedirects where
  limit := rfl
  moved _ _ hmem := absurd hmem List.not_mem_nil

theorem Remembers.of_same {limit : Int} (h : s.Remembers site limit)
    (hlimit : s'.maxRedirects = s.maxRedirects) (hmoved : s'.moved = s.moved) :
    s'.Remembers site limit where
  limit := hlimit.trans h.limit
  moved url place hmem := h.moved url place (hmoved ▸ hmem)

/-- To take a connection changes the network and what is kept. -/
theorem acquire_network_pool (s : Session) (o : Origin) :
    ∃ network pool, (s.acquire o).2 = { s with network, pool } := by
  obtain ⟨c, shut, rest, -, -, h⟩ | h := s.acquire_cases o
  · rw [h]
    exact ⟨_, _, rfl⟩
  · rw [h]
    obtain ⟨n, -, ⟨f, hf⟩ | ⟨c, hc, -⟩⟩ := (s.setKept o []).connect_cases o
    · rw [hf]
      exact ⟨_, _, rfl⟩
    · rw [hc]
      exact ⟨_, _, rfl⟩

/-- A request changes the network and what is kept. -/
theorem outcome_network_pool (s : Session) (r : Request) :
    ∃ network pool, (s.outcome r).2 = { s with network, pool } := by
  obtain ⟨n, pool, hacquire⟩ := s.acquire_network_pool r.origin
  rw [outcome]
  generalize s.acquire r.origin = acquired at hacquire ⊢
  obtain ⟨f | c, s₁⟩ := acquired
  · exact ⟨n, pool, hacquire⟩
  · subst hacquire
    obtain ⟨n', -, hexchange⟩ :=
      exchangeOn_network { s with network := n, pool := pool } c r
    dsimp only
    generalize exchangeOn { s with network := n, pool := pool } c r = exchanged
      at hexchange ⊢
    obtain ⟨f | reply, s₂⟩ := exchanged
    · exact ⟨n', pool, hexchange⟩
    · subst hexchange
      dsimp only
      split
      · rcases (reply.arrival.read none).1 with f | bs
        · exact ⟨n', pool, rfl⟩
        · exact ⟨_, _, rfl⟩
      · exact ⟨n', pool, rfl⟩

section Limit

variable {limit : Int}

/-- An exchange changes nothing of what a session remembers. -/
theorem Remembers.outcome (h : s.Remembers site limit) {r : Request}
    {result : Except Lapse (Nat × WireReply)} (houtcome : s.outcome r = (result, s')) :
    s'.Remembers site limit := by
  obtain ⟨n, pool, hafter⟩ := s.outcome_network_pool r
  rw [houtcome] at hafter
  subst hafter
  exact h.of_same rfl rfl

/-- The request that is made for a URL is for the place where it is known. -/
theorem target_of_prepare {method url' : Text} {body : Option Bytes}
    {fields : List (Text × Text)} {r : Request}
    (h : s.prepare method url body fields = .ok (url', r)) :
    s.locate url = some url' ∧ Url.split (text "http") url' = .ok r.target := by
  rw [prepare] at h
  cases hlocate : s.locate url with
  | none =>
      rw [hlocate] at h
      cases h
  | some place =>
      rw [hlocate] at h
      dsimp only at h
      rw [Request.make] at h
      cases htarget : Url.split (text "http") place with
      | error e =>
          rw [htarget] at h
          cases h
      | ok target =>
          rw [htarget] at h
          cases h
          exact ⟨rfl, htarget⟩

/-- A redirect of the site may be taken note of. -/
theorem Remembers.onward {parts : Url.Parts} {reply : WireReply}
    {result : Except Fault Text} (h : s.Remembers site limit)
    (hsplit : Url.split (text "http") url = .ok parts)
    (hpage : reply.page = site.pageAt parts)
    (honward : s.onward url reply = (result, s')) : s'.Remembers site limit := by
  have hnoted : ∀ {location}, destination url reply.headers = .ok location →
      Remembers site limit
        (if reply.status = 301 then s.remember url location else s) := by
    intro location hlocation
    split
    · next hmoved =>
        refine ⟨h.limit, ?_⟩
        intro url' place hmem
        rcases Entries.mem_insert hmem with ⟨rfl, rfl⟩ | hmem
        · refine ⟨parts, hsplit, ?_, ?_⟩
          · rw [← hpage]
            exact hmoved
          · rw [← hpage]
            exact hlocation
        · exact h.moved url' place hmem
    · exact h
  rw [Session.onward] at honward
  split at honward
  · cases honward
    exact h
  · next hlocation =>
      dsimp only at honward
      split at honward
      · cases honward
        exact hnoted hlocation
      · cases honward
        exact hnoted hlocation

/-- The reply to a request is the page of the URL that it was made for. -/
theorem page_of_isFrom {r : Request} {c : Nat} {reply : WireReply}
    (h : Link.IsFrom site ⟨r, .ok (c, reply)⟩) : reply.page = site.pageAt r.target :=
  h reply rfl

/-- What a session is led on by is what the site says. -/
theorem Remembers.led {s₁ : Session} {method url' : Text} {body : Option Bytes}
    {fields : List (Text × Text)} {r : Request} {c : Nat} {reply : WireReply}
    {result : Except Fault Text} (h : s.Remembers site limit)
    (hprepare : s.prepare method url body fields = .ok (url', r))
    (houtcome : s.outcome r = (.ok (c, reply), s₁))
    (hfrom : Link.IsFrom site ⟨r, .ok (c, reply)⟩)
    (honward : s₁.onward url' reply = (result, s')) : s'.Remembers site limit :=
  (h.outcome houtcome).onward (target_of_prepare hprepare).2 (page_of_isFrom hfrom)
    honward

/-- Links to a site let the session remember nothing but that site. -/
theorem Remembers.chain (h : s.Remembers site limit) (hops : Nat) (method url : Text)
    (body : Option Bytes) (fields : List (Text × Text))
    (hlinks : ∀ l ∈ (s.chain hops method url body fields).1, l.IsFrom site) :
    (s.chain hops method url body fields).2.2.Remembers site limit := by
  fun_induction Session.chain s hops method url body fields with
  | case1 => exact h
  | case2 _ _ _ _ _ _ _ _ _ _ houtcome => exact h.outcome houtcome
  | case3 _ _ _ _ _ _ _ _ _ _ houtcome => exact h.outcome houtcome
  | case4 _ _ _ _ _ _ hprepare _ _ _ houtcome _ _ _ _ honward =>
      exact h.led hprepare houtcome (hlinks _ List.mem_cons_self) honward
  | case5 _ _ _ _ _ _ hprepare _ _ _ houtcome _ _ _ _ honward _ ih =>
      obtain ⟨hfrom, hlater⟩ := List.forall_mem_cons.mp hlinks
      exact ih (h.led hprepare houtcome hfrom honward) hlater
  | case6 _ _ _ _ _ _ hprepare _ _ _ houtcome _ _ _ _ honward _ ih =>
      obtain ⟨hfrom, hlater⟩ := List.forall_mem_cons.mp hlinks
      exact ih (h.led hprepare houtcome hfrom honward) hlater
  | case7 _ _ _ _ _ _ _ _ _ _ _ houtcome _ _ _ hhand =>
      cases hhand
      exact (h.outcome houtcome).of_same rfl rfl

/-- A step with links to a site lets the session remember nothing but that site. -/
theorem Remembers.perform (h : s.Remembers site limit) (step : SessionStep)
    (hlinks : ∀ l ∈ s.linksOf step, l.IsFrom site) :
    (s.perform step).Remembers site limit := by
  have hcall : ∀ method url body fields,
      (∀ l ∈ s.links method url body fields, l.IsFrom site) →
      (s.request method url body fields).2.Remembers site limit := by
    intro method url body fields hlinks
    have hchain := h.chain _ method url body fields hlinks
    rw [request, ← chain_snd]
    exact hchain
  cases step with
  | request method url body fields => exact hcall method url body fields hlinks
  | requestWith method url body headers =>
      rw [linksOf] at hlinks
      rw [Session.perform, requestWith]
      cases hreread : headers.reread with
      | ok fields =>
          rw [hreread] at hlinks
          exact hcall method url body fields hlinks
      | error name => exact h
  | read n size =>
      rw [Session.perform, Session.read]
      split
      · exact h
      · exact h.of_same rfl rfl
  | close n =>
      rw [Session.perform, Session.close]
      split
      · exact h
      · split
        · exact h
        · rw [release]
          split
          · exact h.of_same rfl rfl
          · exact h.of_same rfl rfl
  | drop c => exact h.of_same rfl rfl

/-- Whatever a session was used for, it remembers what the site says. -/
theorem Remembers.run (h : s.Remembers site limit) (steps : List SessionStep)
    (hlinks : ∀ l ∈ s.linksIn steps, l.IsFrom site) :
    (s.run steps).Remembers site limit := by
  induction steps generalizing s with
  | nil => exact h
  | cons step steps ih =>
      rw [linksIn] at hlinks
      exact ih (h.perform step fun l hl => hlinks l (List.mem_append_left _ hl))
        fun l hl => hlinks l (List.mem_append_right _ hl)

/-! ## What is answered -/

variable {n : Nat} {page : Page}

/-- A URL that has moved is known at a place that shows the same page, with no
    more redirects on the way. -/
theorem Remembers.locate (h : s.Remembers site limit)
    (hshows : site.Shows n url page) :
    ∃ url' n', s.locate url = some url' ∧ n' ≤ n ∧ site.Shows n' url' page := by
  rw [Session.locate]
  cases hget : Entries.get? url s.moved with
  | none => exact ⟨url, n, rfl, Nat.le_refl n, hshows⟩
  | some place =>
      obtain ⟨parts, hsplit, hstatus, hplace⟩ :=
        h.moved url place (Entries.mem_of_get? hget)
      obtain ⟨-, hnot⟩ | ⟨m, location, rfl, -, hlocation, hlater⟩ :=
        hshows.page_or_hop hsplit
      · rw [hstatus] at hnot
        exact absurd (by decide) hnot
      · obtain rfl := Except.ok.inj (hplace.symm.trans hlocation)
        exact ⟨location, m, rfl, Nat.le_succ m, hlater⟩

/-- The request that is made for a URL is for one that shows the same page. -/
theorem Remembers.shows_of_prepare (h : s.Remembers site limit)
    {method url' : Text} {body : Option Bytes} {fields : List (Text × Text)}
    {r : Request} (hshows : site.Shows n url page)
    (hprepare : s.prepare method url body fields = .ok (url', r)) :
    ∃ n' ≤ n, site.Shows n' url' page := by
  obtain ⟨place, n', hlocate, hn', hshows'⟩ := h.locate hshows
  obtain rfl := Option.some.inj (hlocate.symm.trans (target_of_prepare hprepare).1)
  exact ⟨n', hn', hshows'⟩

/-- There is a request to make for a URL that shows a page. -/
theorem Remembers.prepare_ne_error (h : s.Remembers site limit)
    (hshows : site.Shows n url page) (method : Text) (body : Option Bytes)
    (fields : List (Text × Text)) (f : Fault) :
    s.prepare method url body fields ≠ .error f := by
  obtain ⟨place, n', hlocate, -, hshows'⟩ := h.locate hshows
  obtain ⟨parts, hsplit, -⟩ := hshows'.exists_split
  rw [prepare, hlocate]
  simp only [Request.make, hsplit]
  simp [bind, Except.bind, pure, Except.pure]

/-- The reply to a request for a URL that shows a page may lead on: then to a
    URL that shows the page with fewer redirects on the way. -/
theorem Remembers.onward_of_shows {s₁ : Session} {url' : Text} {body : Option Bytes}
    {fields : List (Text × Text)} {r : Request} {c : Nat} {reply : WireReply}
    (h : s.Remembers site limit) (hshows : site.Shows n url page)
    (hprepare : s.prepare (text "GET") url body fields = .ok (url', r))
    (houtcome : s.outcome r = (.ok (c, reply), s₁))
    (hfrom : Link.IsFrom site ⟨r, .ok (c, reply)⟩)
    (hredirect : redirects (text "GET") reply.status = true) :
    ∃ m location s₂, m < n ∧ s₁.onward url' reply = (.ok location, s₂)
      ∧ s₂.Remembers site limit ∧ site.Shows m location page := by
  have hpage := page_of_isFrom hfrom
  have hstatus : (site.pageAt r.target).status ∈ Site.leading := by
    rw [← hpage]
    exact (redirects_get_iff _).mp hredirect
  obtain ⟨n', hn', hshows'⟩ := h.shows_of_prepare hshows hprepare
  obtain ⟨-, hnot⟩ | ⟨m, location, rfl, -, hlocation, hlater⟩ :=
    hshows'.page_or_hop (target_of_prepare hprepare).2
  · exact absurd hstatus hnot
  · have honward : (s₁.onward url' reply).1 = .ok location := by
      rw [← hpage] at hlocation
      have hlocation : destination url' reply.headers = .ok (some location) :=
        hlocation
      rw [Session.onward, hlocation]
    have honward : s₁.onward url' reply = (.ok location, (s₁.onward url' reply).2) :=
      Prod.ext honward rfl
    exact ⟨m, location, _, hn', honward, h.led hprepare houtcome hfrom honward, hlater⟩

/-- The stream of the number was handed out with the body of a page, of which
    nothing was read. -/
def HandsOut (s : Session) (k : Nat) (page : Page) : Prop :=
  ∃ r, s.streams[k]? = some r ∧ r.arrival.left = page.body
    ∧ r.arrival.closed = false ∧ r.closed = false

theorem handsOut_handOut {r : ResponseStream} {k : Nat}
    (hhand : s.handOut r = (k, s')) (hleft : r.arrival.left = page.body)
    (hopen : r.arrival.closed = false ∧ r.closed = false) : s'.HandsOut k page := by
  cases hhand
  exact ⟨r, List.getElem?_concat_length, hleft, hopen⟩

/-- What a site shows within so many redirects is what a session comes to that
    remembers what the site says. -/
theorem Remembers.answers (h : s.Remembers site limit) {hops : Nat}
    (hshows : site.Shows n url page) (hn : n ≤ hops) (body : Option Bytes)
    (fields : List (Text × Text))
    (hlinks : ∀ l ∈ (s.chain hops (text "GET") url body fields).1,
      l.IsFrom site ∧ l.failure? = none) :
    ∃ k, (s.chain hops (text "GET") url body fields).2.1
        = .ok ⟨page.status, some page.headers, k⟩
      ∧ (s.chain hops (text "GET") url body fields).2.2.HandsOut k page := by
  generalize hmethod : text "GET" = method at hlinks ⊢
  -- the number of redirects to the page falls with every hop, or faster
  fun_induction Session.chain s hops method url body fields generalizing n with
  | case1 _ _ _ _ _ f hprepare => exact (h.prepare_ne_error hshows _ _ _ f hprepare).elim
  | case2 _ _ _ _ _ _ r hprepare lapse _ houtcome =>
      obtain ⟨n', -, hshows'⟩ := h.shows_of_prepare hshows hprepare
      obtain ⟨parts, hsplit, hweb⟩ := hshows'.exists_split
      have hnone := (hlinks _ List.mem_cons_self).2
      obtain ⟨f, hf⟩ | hscheme := fault_of_outcome houtcome
      · cases hnone.symm.trans (Link.failure?_of_error rfl hf)
      · cases hsplit.symm.trans (target_of_prepare hprepare).2
        cases hscheme.symm.trans hweb
  | case3 _ _ _ _ _ _ hprepare _ _ _ houtcome hredirect =>
      subst hmethod
      obtain ⟨m, _, _, hm, -⟩ := h.onward_of_shows hshows hprepare houtcome
        (hlinks _ List.mem_cons_self).1 hredirect
      omega
  | case4 _ _ _ _ _ _ hprepare _ _ _ houtcome hredirect _ _ _ honward =>
      subst hmethod
      obtain ⟨m, _, _, -, hok, -⟩ := h.onward_of_shows hshows hprepare houtcome
        (hlinks _ List.mem_cons_self).1 hredirect
      cases honward.symm.trans hok
  | case5 _ _ _ _ _ _ hprepare _ _ _ houtcome hredirect _ _ _ honward _ ih =>
      subst hmethod
      obtain ⟨hfrom, hlater⟩ := List.forall_mem_cons.mp hlinks
      obtain ⟨m, _, _, hm, hok, hremembers, hshows'⟩ :=
        h.onward_of_shows hshows hprepare houtcome hfrom.1 hredirect
      cases honward.symm.trans hok
      exact ih hremembers hshows' (by omega) rfl hlater
  | case6 _ _ _ _ _ _ hprepare _ _ _ houtcome hredirect _ _ _ honward _ ih =>
      subst hmethod
      obtain ⟨hfrom, hlater⟩ := List.forall_mem_cons.mp hlinks
      obtain ⟨m, _, _, hm, hok, hremembers, hshows'⟩ :=
        h.onward_of_shows hshows hprepare houtcome hfrom.1 hredirect
      cases honward.symm.trans hok
      exact ih hremembers hshows' (by omega) rfl hlater
  | case7 _ _ _ _ _ _ r hprepare c reply s₁ houtcome hredirect k s₂ hhand =>
      subst hmethod
      have hpage := page_of_isFrom (hlinks _ List.mem_cons_self).1
      obtain ⟨n', hn', hshows'⟩ := h.shows_of_prepare hshows hprepare
      obtain ⟨rfl, -⟩ | ⟨m, location, -, hstatus, -⟩ :=
        hshows'.page_or_hop (target_of_prepare hprepare).2
      · rw [← hpage]
        exact ⟨k, rfl, handsOut_handOut hhand rfl ⟨rfl, rfl⟩⟩
      · rw [← hpage] at hstatus
        exact absurd ((redirects_get_iff _).mpr hstatus) hredirect

end Limit

/-- **Redirects that are remembered change no answer**: after any uses of a
    session to which the replies were the pages of a site, a request for a URL
    that shows a page within the limit of redirects is answered with that page,
    of whose body nothing was read, if the replies are still those of the site
    and no failure strikes. -/
theorem request_of_shows (script : Script) (maxRedirects : Int)
    (steps : List SessionStep) (body : Option Bytes) (fields : List (Text × Text))
    {n : Nat} {page : Page}
    (hearlier : ∀ l ∈ (ofNetwork (.ofScript script) maxRedirects).linksIn steps,
      l.IsFrom site)
    (hlinks : ∀ l ∈ ((ofNetwork (.ofScript script) maxRedirects).run steps).links
      (text "GET") url body fields, l.IsFrom site ∧ l.failure? = none)
    (hshows : site.Shows n url page) (hn : n ≤ maxRedirects.toNat) :
    ∃ k s', ((ofNetwork (.ofScript script) maxRedirects).run steps).request
        (text "GET") url body fields = (.ok ⟨page.status, some page.headers, k⟩, s')
      ∧ s'.HandsOut k page := by
  have h := (Remembers.ofScript site script maxRedirects).run steps hearlier
  rw [← h.limit] at hn
  obtain ⟨k, hok, hands⟩ := h.answers hshows hn body fields hlinks
  rw [chain_snd] at hok hands
  exact ⟨k, _, Prod.ext hok rfl, hands⟩

/-- A site whose page `/a` has moved to `/b`, which leads on to `/c`. -/
def threePages : Site := fun target =>
  if target.selector = text "/a" then
    ⟨301, .ofList [(text "Location", text "/b")], []⟩
  else if target.selector = text "/b" then
    ⟨302, .ofList [(text "Location", text "/c")], []⟩
  else ⟨200, .empty, [1]⟩

/-- The pages of the site for two calls, the second of which skips one. -/
def fivePages : Script where
  entries := ["/a", "/b", "/c", "/b", "/c"].map fun selector =>
    let page := threePages ⟨⟨text "http", text "h"⟩, text selector⟩
    .reply ⟨page.status, page.headers, page.body, false, none⟩

/-- A URL is asked for again once it is known to have moved: the request is for
    its new place, and the same page is answered. -/
theorem request_of_shows_of_moved :
    let url := text "http://h/a"
    let s := (ofNetwork (.ofScript fivePages) 2).run
      [.request (text "GET") url none []]
    s.locate url = some (text "http://h/b")
      ∧ threePages.Shows 2 url ⟨200, .empty, [1]⟩
      ∧ ∃ k s', s.request (text "GET") url none [] = (.ok ⟨200, some .empty, k⟩, s')
        ∧ s'.HandsOut k ⟨200, .empty, [1]⟩ := by
  intro url s
  have hsplit : ∀ path ∈ ["/a", "/b", "/c"],
      Url.split [] (text ("http://h" ++ path))
        = .ok ⟨text "http", text "h", text path, [], []⟩ := by
    decide +kernel
  have hc : threePages.Shows 0 (text "http://h/c") ⟨200, .empty, [1]⟩ :=
    Site.Shows.page (hsplit "/c" (by decide)) (by decide) (by decide)
  have hb : threePages.Shows 1 (text "http://h/b") ⟨200, .empty, [1]⟩ :=
    .hop (hsplit "/b" (by decide)) (by decide) (by decide) (by decide +kernel) hc
  have ha : threePages.Shows 2 url ⟨200, .empty, [1]⟩ :=
    .hop (hsplit "/a" (by decide)) (by decide) (by decide) (by decide +kernel) hb
  refine ⟨by decide +kernel, ha, ?_⟩
  exact request_of_shows fivePages 2 [.request (text "GET") url none []] none []
    (by decide +kernel) (by decide +kernel) ha (by decide)

end Session

end CouchClient
