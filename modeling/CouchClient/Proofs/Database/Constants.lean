import CouchClient.Proofs.Database.Children
import CouchClient.Proofs.Database.Sending
import CouchClient.Proofs.Http.Precedence
import CouchClient.Proofs.Session.Redirects

/-! # Constants — the fields that a resource gives to its requests

    A resource has fields that all of its requests carry.  Those of a request
    win over them, and between the two stand the types of JSON.  Nothing that
    is asked of a resource, and nothing that comes of it, changes the
    constants, neither of the resource nor of the resources below it.

    * `Asking`, `Asking.run` — what can be asked of a resource;
    * `Asking.value?`, `mirrors_received` — the fields that the transport gets;
    * `Asking.run_eq`, `view_run` — what is asked is one request, apart from
      reads and closings;
    * `Session.requests_request` — what a session sends for it;
    * `Resource.Use`, `headers_use` — a resource and those below it, in use;
    * `carries_use` — whatever they were used for, their requests carry the
      constants. -/

namespace CouchClient

/-! ## What is asked of a resource -/

/-- The methods of a resource, with what they send. -/
inductive Verb where
  | get
  | delete
  | post (body : Option Bytes)
  | put (body : Option Bytes)
  | getJson
  | deleteJson
  | postJson (document : Value)
  | putJson (document : Value)

namespace Verb

/-- Whether the request and its answer are JSON. -/
def isJson : Verb → Bool
  | getJson | deleteJson | postJson _ | putJson _ => true
  | _ => false

/-- The method of the request. -/
def method : Verb → Text
  | get | getJson => text "GET"
  | delete | deleteJson => text "DELETE"
  | post _ | postJson _ => text "POST"
  | put _ | putJson _ => text "PUT"

/-- The body of the request, unless its document cannot be written. -/
def body [Limits] : Verb → Except Error (Option Bytes)
  | post body | put body => .ok body
  | postJson document | putJson document => Resource.documentBody document
  | _ => .ok none

/-- The document, if there is one, can be written within the limits. -/
def IsEncodable [L : Limits] : Verb → Prop
  | postJson document | putJson document =>
      document ≠ .null → document.IsEncodable ∧ document.IsWithin 0
  | _ => True

/-- A document has a body just when it is nothing, or can be encoded within the
    limits. -/
theorem exists_documentBody_iff [L : Limits] {v : Value} :
    (∃ body, Resource.documentBody v = .ok body)
      ↔ (v ≠ .null → v.IsEncodable ∧ v.IsWithin 0) := by
  rw [← Value.exists_encode_iff]
  constructor
  · rintro ⟨body, hbody⟩ hnull
    cases hencode : v.encode with
    | ok t => exact ⟨t, rfl⟩
    | error e =>
        obtain ⟨e', herror⟩ := Resource.exists_error_of_encode hencode
        cases hbody.symm.trans herror
  · intro h
    by_cases hnull : v = .null
    · subst hnull
      exact ⟨none, rfl⟩
    · obtain ⟨t, hencode⟩ := h hnull
      exact ⟨_, Resource.documentBody_of_encode hnull hencode⟩

/-- A verb has a body just when what it sends can be encoded. -/
theorem exists_body_iff [L : Limits] (v : Verb) :
    (∃ body, v.body = .ok body) ↔ v.IsEncodable := by
  cases v with
  | get | delete | getJson | deleteJson => exact iff_of_true ⟨none, rfl⟩ trivial
  | post body | put body => exact iff_of_true ⟨body, rfl⟩ trivial
  | postJson document | putJson document => exact exists_documentBody_iff

end Verb

/-- A method with its arguments: a path, fields and query pairs. -/
structure Asking where
  verb : Verb
  path : List Text
  fields : List (Text × Text)
  pairs : List (Text × Text)

namespace Asking

/-- The fields that are given to the request: those for JSON are read by the
    names that they show. -/
def given (a : Asking) : Except Error (List (Text × Text)) :=
  if a.verb.isJson then Resource.jsonFields a.fields else .ok a.fields

/-- The URL and the document can be written. -/
structure IsSendable [L : Limits] (a : Asking) : Prop where
  url : Url.AreWritable a.path a.pairs
  document : a.verb.IsEncodable

/-- What can be sent has a body and a URL. -/
theorem IsSendable.exists_parts [L : Limits] {a : Asking} (h : a.IsSendable) (r : Resource) :
    ∃ body url, a.verb.body = .ok body ∧ r.urlOf a.path a.pairs = .ok url := by
  obtain ⟨body, hbody⟩ := a.verb.exists_body_iff.mpr h.document
  exact ⟨body, _, hbody, r.urlOf_of_areWritable h.url⟩

section

variable {β ω : Type} [Transport β ω]

/-- Asks it of a resource; what the answer says is left aside. -/
def run [Limits] (a : Asking) (r : Resource) : Action ω Unit :=
  match a.verb with
  | .get => do
      let _ ← r.get a.path a.fields a.pairs
      return ()
  | .delete => do
      let _ ← r.delete a.path a.fields a.pairs
      return ()
  | .post body => do
      let _ ← r.post a.path body a.fields a.pairs
      return ()
  | .put body => do
      let _ ← r.put a.path body a.fields a.pairs
      return ()
  | .getJson => do
      let _ ← r.getJson a.path a.fields a.pairs
      return ()
  | .deleteJson => do
      let _ ← r.deleteJson a.path a.fields a.pairs
      return ()
  | .postJson document => do
      let _ ← r.postJson a.path document a.fields a.pairs
      return ()
  | .putJson document => do
      let _ ← r.putJson a.path document a.fields a.pairs
      return ()

/-- An answer in JSON is read, any other is left as it is. -/
def finish [Limits] (json : Bool) (response : Response (Body β)) : Action ω Unit :=
  if json then do
    let _ ← Resource.readJson response
    return ()
  else return ()

/-- **Every method is one request**: its document is written, its fields are
    read, the request is made, and an answer in JSON is read. -/
theorem run_eq [Limits] (a : Asking) (r : Resource) :
    (a.run r : Action ω Unit) = (do
      let body ← .ofExcept a.verb.body
      let fields ← .ofExcept a.given
      finish a.verb.isJson (← r.request a.verb.method a.path body fields a.pairs)) := by
  obtain ⟨verb, path, fields, pairs⟩ := a
  cases verb with
  | get | delete | post body | put body => rfl
  | getJson =>
      show (r.getJson path fields pairs >>= fun _ => pure () : Action ω Unit) = _
      simp only [Resource.getJson, bind_assoc]
      rfl
  | deleteJson =>
      show (r.deleteJson path fields pairs >>= fun _ => pure () : Action ω Unit) = _
      simp only [Resource.deleteJson, bind_assoc]
      rfl
  | postJson document =>
      show (r.postJson path document fields pairs >>= fun _ => pure () : Action ω Unit) = _
      simp only [Resource.postJson, bind_assoc]
      rfl
  | putJson document =>
      show (r.putJson path document fields pairs >>= fun _ => pure () : Action ω Unit) = _
      simp only [Resource.putJson, bind_assoc]
      rfl

/-! ## One request, apart from reads and closings -/

section

variable {κ : Type} {view : ω → κ}

/-- What reads and closings leave as it is, is left so where an answer is
    read. -/
theorem keeps_finish [Limits] {I : ω → Prop} {P : Call → Prop} (h : Transport.Keeps P I)
    (json : Bool) (response : Response (Body β)) : (finish json response : Action ω Unit).Keeps I := by
  rw [finish]
  split
  · exact (Resource.keeps_readJson h response).bind fun _ => Action.keeps_pure _
  · exact Action.keeps_pure _

/-- What comes after a request reads and closes. -/
theorem view_request [Limits]
    (hview : ∀ k, Transport.Keeps (fun _ => False) fun w : ω => view w = k)
    {r : Resource} {method url : Text} {path : List Text} {body : Option Bytes}
    {fields pairs : List (Text × Text)} (hurl : r.urlOf path pairs = .ok url) (json : Bool)
    (w : ω) :
    view ((do finish json (← r.request method path body fields pairs) : Action ω Unit) w).2
      = view (Transport.request method url body (r.headers.copy.update fields) w).2 := by
  rw [Resource.request, hurl, Action.check_bind rfl, bind_assoc, Action.bind_apply,
    Resource.deliver]
  rcases Transport.request method url body (r.headers.copy.update fields) w with ⟨f | reply, w'⟩
  · rfl
  · refine ((Resource.keeps_succeed (hview _) _).bind fun response => ?_) w' rfl
    exact keeps_finish (hview _) json response

/-- **What is asked is seen once**: by what reads and closings leave as it is,
    a method is the one request that it makes, or it makes none. -/
theorem view_run [Limits]
    (hview : ∀ k, Transport.Keeps (fun _ => False) fun w : ω => view w = k)
    {a : Asking} {r : Resource} {body : Option Bytes} {url : Text}
    {fields : List (Text × Text)} (hbody : a.verb.body = .ok body)
    (hfields : a.given = .ok fields) (hurl : r.urlOf a.path a.pairs = .ok url) (w : ω) :
    view (a.run r w).2
      = view (Transport.request a.verb.method url body (r.headers.copy.update fields) w).2 := by
  rw [run_eq, Action.check_bind hbody, Action.check_bind hfields]
  exact view_request hview hurl _ w

/-- A method whose request fails gives nothing. -/
theorem run_of_fault [Limits] {a : Asking} {r : Resource} {body : Option Bytes} {url : Text}
    {fields : List (Text × Text)} (hbody : a.verb.body = .ok body)
    (hfields : a.given = .ok fields) (hurl : r.urlOf a.path a.pairs = .ok url) {w : ω} {f : Fault}
    (hfault : (Transport.request a.verb.method url body (r.headers.copy.update fields) w).1
      = .error f) : ∃ e, (a.run r w).1 = .error e := by
  refine ⟨Resource.errorOf a.verb.method url f, ?_⟩
  rw [run_eq, Action.check_bind hbody, Action.check_bind hfields, Resource.request, hurl,
    Action.check_bind rfl, bind_assoc, Action.bind_apply, Resource.deliver]
  generalize Transport.request a.verb.method url body (r.headers.copy.update fields) w
    = outcome at hfault ⊢
  obtain ⟨result, w'⟩ := outcome
  obtain rfl : result = .error f := hfault
  rfl

/-- Where the URL or the document cannot be written nothing is done. -/
theorem run_of_not_isSendable [L : Limits] {a : Asking} (h : ¬ a.IsSendable) (r : Resource)
    (w : ω) : ∃ e, a.run r w = (.error e, w) := by
  rw [run_eq]
  cases hbody : a.verb.body with
  | error e => exact ⟨e, rfl⟩
  | ok body =>
      rw [Action.check_bind rfl]
      cases hfields : a.given with
      | error e => exact ⟨e, rfl⟩
      | ok fields =>
          rw [Action.check_bind rfl, Resource.request]
          cases hurl : r.urlOf a.path a.pairs with
          | error e => exact ⟨e, rfl⟩
          | ok url =>
              have hextend : (∃ url, Url.extend r.url a.path a.pairs = .ok url) →
                  Url.AreWritable a.path a.pairs :=
                (Url.exists_extend_iff_areWritable r.url).mp
              refine absurd ⟨hextend ?_, a.verb.exists_body_iff.mp ⟨body, hbody⟩⟩ h
              rw [Resource.urlOf] at hurl
              cases hsame : Url.extend r.url a.path a.pairs with
              | ok url' => exact ⟨url', rfl⟩
              | error e =>
                  rw [hsame] at hurl
                  cases hurl

end

end

/-! ## The fields that the transport gets -/

/-- The types that a request for JSON has unless its fields say otherwise. -/
def jsonDefaults : List (Text × Text) :=
  [(text "content-type", jsonType), (text "accept", jsonType)]

/-- The value that a name has in what is asked, by precedence: the last of
    the fields that are given, the type of JSON, the last of the constants. -/
def value? (constants : List (Text × Text)) (a : Asking) (name : Text) : Option Text :=
  (lastSpelled? name a.fields).or
    ((if a.verb.isJson then Entries.get? (Text.toAsciiLower name) jsonDefaults else none).or
      (lastSpelled? name constants))

variable {constants fields : List (Text × Text)} {a : Asking}

/-- Headers made of constants mirror the map that was set to them. -/
theorem mirrors_constants (h : IsMapping constants) :
    (Headers.ofList constants).Mirrors (OrderedMap.empty.setAll (lowered constants)) :=
  Headers.mirrors_empty.update_of_isMapping h

/-- The fields of a request for JSON, with the types where they have none. -/
theorem exists_mirrors_jsonHeaders (h : IsMapping fields) :
    ∃ m, (Resource.jsonHeaders fields).Mirrors m
      ∧ ∀ name, m.value (Text.toAsciiLower name) = (lastSpelled? name fields).or
        (Entries.get? (Text.toAsciiLower name) jsonDefaults) := by
  have htype := (mirrors_constants h).insertIfNew (show (text "Content-Type").isAscii by decide)
    jsonType
  have haccept := htype.insertIfNew (show (text "Accept").isAscii by decide) jsonType
  refine ⟨_, haccept, ?_⟩
  intro name
  rw [OrderedMap.value_setIfNew, OrderedMap.value_setIfNew, OrderedMap.value_setAll,
    Option.or_assoc, Option.or_assoc]
  refine congrArg (lastSpelled? name fields).or ?_
  show Option.or (if text "content-type" = Text.toAsciiLower name then _ else none)
      (if text "accept" = Text.toAsciiLower name then _ else none)
    = if text "content-type" = Text.toAsciiLower name then _
      else if text "accept" = Text.toAsciiLower name then _ else none
  by_cases hname : text "content-type" = Text.toAsciiLower name
  · rw [if_pos hname, if_pos hname, Option.some_or]
  · rw [if_neg hname, if_neg hname, Option.none_or]

/-- **What the transport gets**: the constants, with the fields of the request
    set in, and those with the types of JSON. -/
theorem mirrors_received (hconstants : IsMapping constants) (hfields : IsMapping a.fields) :
    ∃ given m, a.given = .ok given
      ∧ ((Headers.ofList constants).copy.update given).Mirrors m
      ∧ ∀ name, m.value (Text.toAsciiLower name) = a.value? constants name := by
  have hmirrors := mirrors_constants hconstants
  rw [hmirrors.copy_eq, given]
  unfold value?
  have hconstant (name : Text) : (OrderedMap.empty.setAll (lowered constants)).value
      (Text.toAsciiLower name) = lastSpelled? name constants := by
    rw [OrderedMap.value_setAll]
    exact Option.or_none
  cases a.verb.isJson with
  | false =>
      refine ⟨_, _, rfl, hmirrors.update_of_isMapping hfields, ?_⟩
      intro name
      rw [OrderedMap.value_setAll, hconstant]
      rfl
  | true =>
      obtain ⟨m, hm, hvalue⟩ := exists_mirrors_jsonHeaders hfields
      have hread : Resource.jsonFields a.fields = .ok (Resource.jsonHeaders a.fields).toList := by
        rw [Resource.jsonFields, Resource.reread, hm.reread]
        rfl
      refine ⟨_, _, hread, hmirrors.update_of_spells hm hm.spells_toList, ?_⟩
      intro name
      rw [OrderedMap.value_setAll, hm.holds.last?_items, hvalue, hconstant, Option.or_assoc]
      rfl

end Asking

/-! ## What a session sends -/

namespace Link

variable {l : Link}

/-- What is sent for a link is its request. -/
theorem request_of_sent? {e : Nat × Request} (h : l.sent? = some e) : e.2 = l.request := by
  rw [sent?] at h
  split at h
  · cases h
  all_goals
    cases h
    rfl

/-- A link that was answered had been sent. -/
theorem IsAnswered.isSome_sent (h : l.IsAnswered) : l.sent?.isSome = true := by
  obtain ⟨c, reply, houtcome, -⟩ := h
  rw [sent?, houtcome]
  rfl

end Link

namespace Session

variable {s : Session} {method url url' : Text} {body : Option Bytes}
  {fields : List (Text × Text)} {r : Request} {h : Headers Text} {m : OrderedMap Text Text}

/-- Reads and closings send nothing. -/
theorem keeps_requests (requests : List (Nat × Request)) :
    Transport.Keeps (fun _ => False) fun s : Session => s.network.requests = requests where
  request _ _ hcall _ := hcall.elim
  read n size s hs := by
    show (s.read n size).2.network.requests = requests
    rw [Session.read]
    split
    · exact hs
    · exact hs
  close n s hs := by
    show (s.close n).network.requests = requests
    rw [Session.close]
    split
    · exact hs
    · split
      · exact hs
      · dsimp only
        rw [release]
        split
        · exact hs
        · exact (s.network.follows_close _).requests.trans hs

/-- A request is made with the given fields. -/
theorem headers_of_prepare (hprepare : s.prepare method url body fields = .ok (url', r)) :
    r.headers = Request.fieldsFor r.body fields := by
  rw [prepare] at hprepare
  split at hprepare
  · cases hprepare
  · next place _ =>
      rw [Request.make] at hprepare
      cases htarget : Url.split (text "http") place with
      | error e =>
          rw [htarget] at hprepare
          cases hprepare
      | ok target =>
          rw [htarget] at hprepare
          cases hprepare
          rfl

/-- So is every request that a redirect leads on to. -/
theorem headers_of_chain (s : Session) (hops : Nat) (method url : Text) (body : Option Bytes)
    (fields : List (Text × Text)) :
    ∀ l ∈ (s.chain hops method url body fields).1,
      l.request.headers = Request.fieldsFor l.request.body fields := by
  fun_induction chain s hops method url body fields with
  | case1 => simp
  | case2 _ _ _ _ _ _ _ hprepare | case3 _ _ _ _ _ _ hprepare
  | case4 _ _ _ _ _ _ hprepare | case7 _ _ _ _ _ _ _ hprepare =>
      intro l hl
      obtain rfl := List.mem_singleton.mp hl
      exact headers_of_prepare hprepare
  | case5 _ _ _ _ _ _ hprepare _ _ _ _ _ _ _ _ _ _ ih
  | case6 _ _ _ _ _ _ hprepare _ _ _ _ _ _ _ _ _ _ ih =>
      intro l hl
      rcases List.mem_cons.mp hl with rfl | hl
      · exact headers_of_prepare hprepare
      · exact ih l hl

/-- A session is left by a call as it is left by the request. -/
theorem snd_request (s : Session) (method url : Text) (body : Option Bytes)
    (h : Headers Text) : (Transport.request method url body h s).2
      = (s.requestWith method url body h).2 := by
  simp only [Transport.request]
  rcases s.requestWith method url body h with ⟨f | r, s'⟩
  · rfl
  · rfl

/-- A request fails with the fault that the session gives. -/
theorem fst_request {f : Fault} (hf : (s.requestWith method url body h).1 = .error f) :
    (Transport.request method url body h s).1 = .error f := by
  simp only [Transport.request]
  generalize s.requestWith method url body h = outcome at hf ⊢
  obtain ⟨result, s'⟩ := outcome
  obtain rfl : result = .error f := hf
  rfl

/-- **What a session sends for a call**: requests that hold the fields of the
    call, and at least one unless the call fails. -/
theorem requests_request (hm : h.Mirrors m) (s : Session) (method url : Text)
    (body : Option Bytes) :
    ∃ sent, (Transport.request method url body h s).2.network.requests
        = sent ++ s.network.requests
      ∧ (∀ e ∈ sent, HoldsJust e.2.sentFields
        (Request.wireValue? e.2.body fun name => m.value (Text.toAsciiLower name)))
      ∧ (sent = [] → ∃ f, (Transport.request method url body h s).1 = .error f) := by
  have hchain : (s.chain s.maxRedirects.toNat method url body h.toList).2
      = s.requestWith method url body h := by
    rw [requestWith, hm.reread]
    exact s.chain_snd _ method url body h.toList
  have hheaders := s.headers_of_chain s.maxRedirects.toNat method url body h.toList
  have hleads := s.leads_chain s.maxRedirects.toNat method url body h.toList
  obtain ⟨struck, hpasses, -⟩ := s.passes_chain s.maxRedirects.toNat method url body h.toList
  rw [hchain] at hpasses hleads
  refine ⟨((s.chain s.maxRedirects.toNat method url body h.toList).1.filterMap
    Link.sent?).reverse, ?_, ?_, ?_⟩
  · rw [← hpasses.requests]
    exact congrArg (fun s : Session => s.network.requests) (snd_request s method url body h)
  · intro e he
    obtain ⟨l, hl, hsent⟩ := List.mem_filterMap.mp (List.mem_reverse.mp he)
    rw [Link.request_of_sent? hsent]
    exact Request.holdsJust_sentFields hm (hheaders l hl)
  · intro hnil
    rw [List.reverse_eq_nil_iff, List.filterMap_eq_nil_iff] at hnil
    rcases hresult : (s.requestWith method url body h).1 with f | response
    · exact ⟨f, fst_request hresult⟩
    · -- a response answers a request, which was sent
      obtain ⟨l, hl, hanswered⟩ := hleads.ok_iff.mp ⟨response, hresult⟩
      have hsent := hanswered.isSome_sent
      rw [hnil l hl] at hsent
      cases hsent

end Session

/-- A request is an entry in the account, whatever comes of it. -/
theorem Ledger.calls_request {β ω : Type} [Transport β ω] (L : Ledger β ω)
    (method url : Text) (body : Option Bytes) (headers : Headers Text) :
    (L.request method url body headers).2.calls = ⟨method, url, body, headers⟩ :: L.calls := by
  rcases h : L.request method url body headers with ⟨f | r, L'⟩
  · exact (request_error h).1
  · exact (request_ok h).1

/-! ## A resource in use -/

namespace Resource

variable {r c : Resource} {path : List Text}

/-- A resource below another has its fields, if they are found again. -/
theorem headers_of_child (hnames : r.headers.IsFaithful) (h : r.child path = .ok c) :
    c.headers = r.headers := by
  have hfields : reread r.headers = .ok r.headers.toList := by
    rw [reread, hnames.reread]
    rfl
  rw [child, hfields] at h
  cases hurl : r.urlOf path [] with
  | error e =>
      rw [hurl] at h
      cases h
  | ok url =>
      rw [hurl] at h
      cases h
      exact hnames.ofList_toList

/-- What is done with resources that are known by their numbers: one of them
    is asked for something, or a resource below it is made. -/
inductive Use where
  | ask (n : Nat) (a : Asking)
  | child (n : Nat) (path : List Text)

variable {β ω : Type} [Transport β ω]

/-- Does it, with the resources that there are so far.  What an error leaves is
    left. -/
def Use.perform [Limits] : Use → List Resource × ω → List Resource × ω
  | ask n a, (family, w) =>
      match family[n]? with
      | some r => (family, (a.run r w).2)
      | none => (family, w)
  | child n path, (family, w) =>
      match family[n]? with
      | some r =>
          match r.child path with
          | .ok c => (family ++ [c], w)
          | .error _ => (family, w)
      | none => (family, w)

/-- Uses a resource and those below it, one after the other. -/
def use [Limits] (r : Resource) (uses : List Use) (w : ω) : List Resource × ω :=
  uses.foldl (fun s u => u.perform s) ([r], w)

variable {h : Headers Text}

/-- Whatever is asked, there are the same resources afterwards. -/
theorem Use.family_ask [Limits] (n : Nat) (a : Asking) (s : List Resource × ω) :
    ((Use.ask n a).perform s).1 = s.1 := by
  obtain ⟨family, w⟩ := s
  rw [perform]
  split
  · rfl
  · rfl

/-- One use leaves all fields as they are. -/
theorem Use.headers_perform [Limits] (hnames : h.IsFaithful) (u : Use) (s : List Resource × ω)
    (hs : ∀ c ∈ s.1, c.headers = h) : ∀ c ∈ (u.perform s).1, c.headers = h := by
  cases u with
  | ask n a =>
      rw [family_ask]
      exact hs
  | child n path =>
      obtain ⟨family, w⟩ := s
      rw [perform]
      split
      · next r hr =>
          have hheaders := hs r (List.mem_of_getElem? hr)
          split
          · next c hc =>
              intro c' hc'
              rcases List.mem_append.mp hc' with hc' | hc'
              · exact hs c' hc'
              · rw [List.mem_singleton.mp hc', headers_of_child (hheaders ▸ hnames) hc, hheaders]
          · exact hs
      · exact hs

/-- **So does any number of uses**, whatever comes of them. -/
theorem headers_use [Limits] (hnames : r.headers.IsFaithful) (uses : List Use) (w : ω) :
    ∀ c ∈ (r.use uses w).1, c.headers = r.headers := by
  have hrun : ∀ s : List Resource × ω, (∀ c ∈ s.1, c.headers = r.headers) →
      ∀ c ∈ (uses.foldl (fun s u => u.perform s) s).1, c.headers = r.headers := by
    induction uses with
    | nil =>
        intro s hs
        exact hs
    | cons u uses ih =>
        intro s hs
        exact ih _ (u.headers_perform hnames s hs)
  refine hrun ([r], w) ?_
  intro c hc
  rw [List.mem_singleton.mp hc]

/-! ## Requests that carry the constants -/

/-- What is asked of a resource carries fields by precedence.  It makes one
    call if its URL and its document can be written, and none otherwise; the
    fields of the call are just those that have a value, each of them once;
    and what a session sends for it, on all ways that redirects lead, holds
    just these and what goes without saying. -/
structure Carries [Limits] (β ω : Type) [Transport β ω] (c : Resource)
    (constants : List (Text × Text)) (a : Asking) : Prop where
  made : a.IsSendable → ∃ call : Call,
    (a.run c : Action (Ledger β ω) Unit).Makes call
      ∧ call.method = a.verb.method ∧ c.urlOf a.path a.pairs = .ok call.url
      ∧ a.verb.body = .ok call.body
      ∧ HoldsJust call.headers.toList (a.value? constants)
      ∧ ∀ name, name.isAscii → call.headers.get? name = a.value? constants name
  unmade : ¬ a.IsSendable → (a.run c : Action (Ledger β ω) Unit).IsQuiet
  sent : ∀ s : Session, ∃ sent,
    (a.run c s).2.network.requests = sent ++ s.network.requests
      ∧ (∀ e ∈ sent, HoldsJust e.2.sentFields
        (Request.wireValue? e.2.body (a.value? constants)))
      ∧ ((a.run c s).1 = .ok () → sent ≠ [])

variable {constants : List (Text × Text)} {a : Asking}

/-- A resource whose headers are the constants sends the right fields with every
    asking. -/
theorem carries_of_headers [Limits] (hconstants : IsMapping constants)
    (hfields : IsMapping a.fields) (hc : c.headers = .ofList constants) :
    c.Carries β ω constants a := by
  obtain ⟨given, m, hgiven, hm, hvalue⟩ := Asking.mirrors_received hconstants hfields
  rw [← hc] at hm
  have hvalues : (fun name => m.value (Text.toAsciiLower name)) = a.value? constants :=
    funext hvalue
  constructor
  · intro hsendable
    obtain ⟨body, url, hbody, hurl⟩ := hsendable.exists_parts c
    refine ⟨c.callOf a.verb.method url body given, ?_, rfl, hurl, hbody, ?_, ?_⟩
    · intro L
      rw [Asking.view_run Ledger.keeps_calls hbody hgiven hurl L]
      exact L.calls_request _ _ _ _
    · rw [← hvalues]
      exact hm.holdsJust
    · intro name hname
      exact (hm.get? hname).trans (hvalue name)
  · intro hno L
    obtain ⟨e, hrun⟩ := Asking.run_of_not_isSendable hno c L
    rw [hrun]
  · intro s
    by_cases hsendable : a.IsSendable
    · obtain ⟨body, url, hbody, hurl⟩ := hsendable.exists_parts c
      obtain ⟨sent, hrequests, hholds, hsent⟩ :=
        Session.requests_request hm s a.verb.method url body
      rw [hvalues] at hholds
      refine ⟨sent, ?_, hholds, ?_⟩
      · have hview : (a.run c s).2.network.requests = _ :=
          Asking.view_run Session.keeps_requests hbody hgiven hurl s
        rw [hview]
        exact hrequests
      · intro hok hnil
        obtain ⟨f, hfault⟩ := hsent hnil
        obtain ⟨e, he⟩ := Asking.run_of_fault hbody hgiven hurl hfault
        cases hok.symm.trans he
    · obtain ⟨e, hrun⟩ := Asking.run_of_not_isSendable hsendable c s
      rw [hrun]
      exact ⟨[], rfl, by simp, by simp⟩

/-- **The constants are carried**: whatever a resource and those below it were
    used for, and whatever came of it, they still have the fields that the
    resource was made with, and whatever is asked of one of them next carries
    its own fields, then the types of JSON, then these. -/
theorem carries_use [Limits] (url : Text) (hconstants : IsMapping constants) (uses : List Use)
    (w : ω) :
    ∀ c ∈ ((ofUrl url constants).use uses w).1,
      c.headers = .ofList constants
        ∧ ∀ a : Asking, IsMapping a.fields → c.Carries β ω constants a := by
  intro c hc
  have hnames : (ofUrl url constants).headers.IsFaithful :=
    Headers.isFaithful_ofList hconstants.ascii
  have hheaders := headers_use hnames uses w c hc
  refine ⟨hheaders, ?_⟩
  intro a hfields
  exact carries_of_headers hconstants hfields hheaders

/-- Names in several cases, a request that fails and one whose answer is an
    error, and a resource below another that was made in between. -/
theorem carries_use_of_mixed :
    let constants := [(text "ACCEPT", text "a"), (text "x-te", text "1"), (text "X-TE", text "2")]
    let a : Asking := ⟨.getJson, [text "b"],
      [(text "Content-LENGTH", text "7"), (text "ETag", text "3")], []⟩
    let gone : WireReply := ⟨410, .empty, [1], false, none⟩
    let entries := [.failure .request .disconnected, .reply gone]
    let s := Session.ofNetwork (.ofScript { entries }) 5
    let uses := [Use.ask 0 a, .child 0 [text "a/b"], .ask 1 a]
    let value := Request.wireValue? none (a.value? constants)
    IsMapping constants ∧ IsMapping a.fields
      ∧ (∃ c ∈ ((ofUrl (text "http://h/") constants).use uses s).1,
        c.url = text "http://h/a%2Fb" ∧ c.Carries Nat Session constants a)
      ∧ ["accept", "Content-Type", "x-Te", "etag", "user-agent", "content-length", "b"].map
          (fun name => value (text name))
        = [some jsonType, some jsonType, some (text "2"), some (text "3"), some userAgent,
          some (text "0"), none] := by
  intro constants a gone entries s uses value
  have hconstants : IsMapping constants := ⟨by decide, by decide⟩
  have hfields : IsMapping a.fields := ⟨by decide, by decide⟩
  refine ⟨hconstants, hfields, ?_, by decide⟩
  have hcarries := carries_use (text "http://h/") hconstants uses s
  have hnames : (ofUrl (text "http://h/") constants).headers.IsFaithful :=
    Headers.isFaithful_ofList hconstants.ascii
  have hchild := child_of_isFaithful hnames (p := [text "a/b"]) (by decide)
  have hmem : ⟨text "http://h/a%2Fb", .ofList constants⟩
      ∈ ((ofUrl (text "http://h/") constants).use uses s).1 := by
    show _ ∈ (Use.perform (.ask 1 a) (Use.perform (.child 0 [text "a/b"])
      (Use.perform (.ask 0 a) ([ofUrl (text "http://h/") constants], s)))).1
    have hasked := Use.family_ask 0 a ([ofUrl (text "http://h/") constants], s)
    rw [Use.family_ask]
    generalize Use.perform (.ask 0 a) ([ofUrl (text "http://h/") constants], s) = after
      at hasked ⊢
    obtain ⟨family, s'⟩ := after
    obtain rfl : family = [ofUrl (text "http://h/") constants] := hasked
    rw [Use.perform]
    dsimp only [List.getElem?_cons_zero]
    rw [hchild]
    exact List.mem_append_right _ (List.mem_singleton.mpr rfl)
  exact ⟨_, hmem, rfl, (hcarries _ hmem).2 a hfields⟩

end Resource

end CouchClient
