import CouchClient.Proofs.Database.Closing
import CouchClient.Proofs.Database.Keeping
import CouchClient.Proofs.Session.Places

/-! # Documented errors — what servers can make a program raise

    A program works with databases at web URLs, over a session.  Whatever the
    servers reply, and wherever deliveries fail, what its steps raise is one of
    the errors that the documentation names, and a failed delivery is raised as
    one.  The exceptions are redirects that lead astray, the faults of which are
    raised as they are, and what is too long or too deep for the interpreter.

    * `Error.isDocumented` — the errors that the documentation names;
    * `Operation.MeetsLimit`, `ClientStep.MeetsLimit` — the errors of what is too
      long or too deep;
    * `Ledger.Settled`, `Client.Settled` — what holds of a program at any time;
    * `Ledger.Raises` — what a step may raise, by the faults that it met;
    * `Client.Ends`, `ends_step` — how every step ends;
    * `exists_undocumented` — a redirect that leads astray. -/

namespace CouchClient

/-- The errors that the documentation names: arguments that are not accepted,
    deliveries that fail, and replies that are no success or no good. -/
def Error.isDocumented : Error → Bool
  | .invalid _ => true
  | .unsupportedOption _ _ => true
  | .transport _ _ _ => true
  | .http _ => true
  | .decode _ => true
  | .consistency _ _ => true
  | .argumentTwice _ _ => false
  | .unencodable _ => false
  | .badUrl _ => false
  | .fault _ => false
  | .tooLong _ => false
  | .tooDeep _ => false

/-! ## Calls for web URLs -/

/-- The call is for a web URL, and its headers can be read. -/
def Call.IsPlain (call : Call) : Prop :=
  Url.IsWeb call.url ∧ ∃ fields, call.headers.reread = .ok fields

/-- The database is given by a web URL. -/
def Database.IsAtWeb (db : Database) : Prop :=
  ∃ server target, Url.IsWeb target ∧ Database.ofUrl server target = .ok db

/-- A property that is kept by more calls is kept by fewer. -/
theorem Transport.Keeps.mono {β ω : Type} [Transport β ω] {P Q : Call → Prop}
    {I : ω → Prop} (h : Transport.Keeps P I) (hcalls : ∀ call, Q call → P call) :
    Transport.Keeps Q I where
  request call w hcall hw := h.request call w (hcalls call hcall) hw
  read := h.read
  close := h.close

/-- Taking the final slash off a web URL leaves a web URL. -/
theorem Url.isWeb_withoutSlash {url : Text} (h : Url.IsWeb url) :
    Url.IsWeb (Resource.withoutSlash url) := by
  rw [Resource.withoutSlash]
  split
  · next hslash =>
      obtain ⟨front, rfl⟩ := List.getLast?_eq_some_iff.mp (beq_iff_eq.mp hslash)
      rw [List.dropLast_concat]
      refine (Url.isWeb_append_iff ⟨by decide, ?_⟩).mp h
      exact Or.inr (Or.inr ⟨_, _, rfl, rfl⟩)
  · exact h

/-- A database on the web is made from a web URL with the default fields. -/
theorem Database.IsAtWeb.eq_ofUrl {db : Database} (h : db.IsAtWeb) :
    ∃ target, Url.IsWeb target
      ∧ db = ⟨.ofUrl target Database.defaultFields⟩ := by
  obtain ⟨server, target, hweb, hdb⟩ := h
  refine ⟨target, hweb, ?_⟩
  obtain ⟨parts, hsplit, hsupported⟩ := hweb
  rw [Database.ofUrl, hsplit] at hdb
  dsimp only at hdb
  rw [if_pos (Url.scheme_of_isSupported hsupported)] at hdb
  cases hdb
  rfl

/-- The fields of a database can be read, with those that operations give. -/
theorem exists_reread_of_isGiven {fields : List (Text × Text)}
    (h : Resource.IsGiven fields) :
    ∃ read, ((Headers.ofList Database.defaultFields).copy.update fields).reread
      = .ok read := by
  obtain rfl | hjson | rfl := h
  · exact ⟨_, rfl⟩
  · obtain rfl : fields = _ := (Except.ok.inj hjson).symm
    exact ⟨_, rfl⟩
  · exact ⟨_, rfl⟩

/-- The calls for such a database are plain. -/
theorem Database.IsAtWeb.isPlain {db : Database} (h : db.IsAtWeb) {call : Call}
    (hcall : db.resource.IsCall call) : call.IsPlain := by
  obtain ⟨target, hweb, rfl⟩ := h.eq_ofUrl
  obtain ⟨path, pairs, fields, hurl, hgiven, hheaders⟩ := hcall
  constructor
  · rw [Resource.urlOf] at hurl
    cases hextend : Url.extend (Resource.withoutSlash target) path pairs with
    | error e =>
        rw [Resource.ofUrl, hextend] at hurl
        cases hurl
    | ok url =>
        rw [Resource.ofUrl, hextend] at hurl
        cases hurl
        exact (Url.isWeb_withoutSlash hweb).extend hextend
  · rw [hheaders]
    exact exists_reread_of_isGiven hgiven

/-! ## Accounts of a session -/

/-- Before a session: it is settled, and what it raised is explained. -/
structure Ledger.Settled (all : List WireReply) (L : Ledger Nat Session) :
    Prop where
  world : L.world.Settled all
  faults : ∀ f ∈ L.faults, L.world.Explains all f

variable {all : List WireReply}

/-- What raises nothing keeps it, if the session does. -/
theorem Ledger.Settled.of_world {L : Ledger Nat Session} (h : L.Settled all)
    {world : Session} (hworld : world.Settled all)
    (hlater : ∀ f, L.world.Explains all f → world.Explains all f)
    (calls : List Call) (bodies : List (HandedOut Nat)) :
    Ledger.Settled all ⟨world, calls, bodies, L.faults⟩ where
  world := hworld
  faults f hf := hlater f (h.faults f hf)

/-- So does what raises a fault that is explained. -/
theorem Ledger.Settled.of_fault {L : Ledger Nat Session} (h : L.Settled all)
    {world : Session} (hworld : world.Settled all)
    (hlater : ∀ f, L.world.Explains all f → world.Explains all f)
    {fault : Fault} (hfault : world.Explains all fault)
    (calls : List Call) (bodies : List (HandedOut Nat)) :
    Ledger.Settled all ⟨world, calls, bodies, fault :: L.faults⟩ where
  world := hworld
  faults f hf := by
    rcases List.mem_cons.mp hf with rfl | hf
    · exact hfault
    · exact hlater f (h.faults f hf)

/-- Calls for web URLs keep it so. -/
theorem Ledger.keeps_settled :
    Transport.Keeps Call.IsPlain (Ledger.Settled all) where
  request call L hcall hL := by
    obtain ⟨hurl, fields, hheaders⟩ := hcall
    have hends := hL.world.requestWith hurl hheaders call.method call.body
    have hlater (f : Fault) (hf : L.world.Explains all f) :=
      hf.requestWith call.method call.url call.body call.headers
    show (L.request call.method call.url call.body call.headers).2.Settled all
    rw [Ledger.request]
    rcases hresult : L.world.requestWith call.method call.url call.body call.headers
      with ⟨f | r, s⟩
    · have hworld : Transport.request call.method call.url call.body call.headers
          L.world = (.error f, s) := by
        simp only [Transport.request, hresult]
      rw [hresult] at hends hlater
      rw [hworld]
      exact hL.of_fault hends.settled hlater (hends.explained f rfl) _ _
    · have hworld : Transport.request call.method call.url call.body call.headers
          L.world = (.ok ⟨r.status, r.headers, some r.data⟩, s) := by
        simp only [Transport.request, hresult]
      rw [hresult] at hends hlater
      rw [hworld]
      exact hL.of_world hends.settled hlater _ _
  read n size L hL := by
    show (L.read n size).2.Settled all
    rw [Ledger.read]
    cases L.bodies[n]? with
    | none => exact hL
    | some b =>
        have hends := hL.world.read b.stream size
        have hlater (f : Fault) (hf : L.world.Explains all f) := hf.read b.stream size
        have hworld : ByteStream.read b.stream size L.world
            = ((L.world.read b.stream size).1, b.stream,
              (L.world.read b.stream size).2) := rfl
        dsimp only
        rw [hworld]
        generalize L.world.read b.stream size = result at hends hlater ⊢
        obtain ⟨f | bs, s⟩ := result
        · exact hL.of_fault hends.settled hlater (hends.explained f rfl) _ _
        · exact hL.of_world hends.settled hlater _ _
  close n L hL := by
    show (L.close n).Settled all
    rw [Ledger.close]
    cases L.bodies[n]? with
    | none => exact hL
    | some b =>
        exact hL.of_world (hL.world.close b.stream) (fun f hf => hf.close b.stream) _ _

/-! ## Programs at any time -/

/-- The databases of a step are at web URLs. -/
def ClientStep.IsAtWeb : ClientStep → Prop
  | .operate db _ => db.IsAtWeb
  | .move _ _ => True

/-- The arguments of a step hold no surrogate, and its options have names of
    their own. -/
def ClientStep.IsAccepted : ClientStep → Prop
  | .operate _ op => op.IsEncodable ∧ op.NamesAccepted
  | .move _ _ => True

/-- What holds of a program over a session at any time: its ledger is settled,
    and its streams are over the bodies of replies. -/
structure Client.Settled (all : List WireReply) (c : Client Nat Session) :
    Prop where
  ledger : c.ledger.Settled all
  returned : ∀ s ∈ c.returned, ∃ method url,
    s.stream.scanner.feed.IsReplyTo method url

/-- A stream that an operation gives is over the body of the reply. -/
theorem Operation.Asks.isReplyTo [Limits] {β ω : Type} [Transport β ω] {op : Operation}
    {L L' : Ledger β ω} {result : Except Error (Answer Nat)}
    (h : op.Asks L result L') :
    ∀ s ∈ Answer.streams result, ∃ method url, s.scanner.feed.IsReplyTo method url := by
  cases h with
  | argumentTwice => simp [Answer.streams]
  | refused => simp [Answer.streams]
  | undelivered => simp [Answer.streams]
  | answered call _ hhandles =>
      cases hhandles with
      | unread => simp [Answer.streams]
      | read _ hsettles => simp [hsettles.streams_eq_nil]
      | left =>
          intro s hs
          cases List.mem_singleton.mp hs
          exact ⟨call.method, call.url, _, rfl, rfl, rfl⟩

/-- A step on databases on the web keeps the session settled. -/
theorem Client.Settled.step [Limits] {c : Client Nat Session} (h : c.Settled all)
    {step : ClientStep} (hstep : step.IsAtWeb) : (c.step step).Settled all := by
  cases step with
  | operate db op =>
      have hcalls : Transport.Keeps db.resource.IsCall (Ledger.Settled all) :=
        Ledger.keeps_settled.mono fun call hcall => hstep.isPlain hcall
      have hledger := Database.keeps_perform hcalls op c.ledger h.ledger
      have hasks : op.Asks c.ledger (db.perform op c.ledger).1
          (db.perform op c.ledger).2 := op.isMetBy_perform db c.ledger
      rw [Client.step]
      generalize db.perform op c.ledger = outcome at hledger hasks ⊢
      obtain ⟨result, ledger⟩ := outcome
      refine ⟨hledger, ?_⟩
      intro s hs
      rcases List.mem_append.mp hs with hs | hs
      · exact h.returned s hs
      · obtain ⟨stream, hstream, rfl⟩ := List.mem_map.mp hs
        exact hasks.isReplyTo stream hstream
  | move k step =>
      rw [Client.step]
      split
      · exact h
      · next s hk =>
          have hledger := RowStream.keeps_step Ledger.keeps_settled s.stream step h.ledger
          have hmoves := s.stream.moves_step c.ledger step
          generalize s.stream.step c.ledger step = after at hledger hmoves ⊢
          obtain ⟨result, stream, ledger⟩ := after
          refine ⟨hledger, ?_⟩
          intro s' hs'
          rcases List.mem_or_eq_of_mem_set hs' with hs' | rfl
          · exact h.returned s' hs'
          · obtain ⟨method, url, hreply⟩ := h.returned s (List.mem_of_getElem? hk)
            exact ⟨method, url, (hmoves.faults hreply).1⟩

/-- The session stays settled along every run on databases on the web. -/
theorem Client.Settled.run [Limits] {c : Client Nat Session} (h : c.Settled all)
    (steps : List ClientStep) (hsteps : ∀ step ∈ steps, step.IsAtWeb) :
    (c.run steps).Settled all := by
  induction steps generalizing c with
  | nil => exact h
  | cons step steps ih =>
      rw [List.forall_mem_cons] at hsteps
      exact ih (h.step hsteps.1) hsteps.2

/-! ## What a step raises -/

/-- What an operation raises when a limit of the interpreter is met: a number in
    its options is too long, or its document is too deep, or the reply that its
    call brings is. -/
inductive Operation.MeetsLimit [Limits] {β ω : Type} [Transport β ω]
    (op : Operation) (w w' : ω) : Error → Prop
  | option {e} (h : QueryOption.Rejects op.options (.tooLong e)) :
      MeetsLimit op w w' (.tooLong e)
  | document {v} (hv : op.document? = some v)
      (h : v.encodeBytes = .error .tooDeep) :
      MeetsLimit op w w' (.tooDeep .writing)
  | reply {call : Call} {status raw what} (hbrings : call.Brings w status raw w')
      (h : Json.IsTooDeep raw what) : MeetsLimit op w w' (.tooDeep what)

/-- What a step raises when a limit of the interpreter is met.  A stream has
    nothing but the reply to meet it with. -/
def Client.MeetsLimit [Limits] {β ω : Type} [Transport β ω] (c : Client β ω) :
    ClientStep → Error → Prop
  | .operate db op, e => op.MeetsLimit c.ledger (db.perform op c.ledger).2 e
  | .move k _, e => ∃ s what, c.returned[k]? = some s ∧ e = .tooDeep what
      ∧ s.stream.MeetsTooDeep c.ledger what

/-- What is raised, if anything is. -/
def raisedBy {α : Type} : Except Error α → Option Error
  | .ok _ => none
  | .error e => some e

/-- What a step raises, if it does. -/
def Client.raised [Limits] {β ω : Type} [Transport β ω] (c : Client β ω) :
    ClientStep → Option Error
  | .operate db op => raisedBy (db.perform op c.ledger).1
  | .move k step =>
      match c.returned[k]? with
      | none => none
      | some s => raisedBy (s.stream.step c.ledger step).1

/-- What may be raised between two ledgers: without a fault nothing, an error
    that the documentation names or the error of a limit, and with a fault its
    error. -/
inductive Ledger.Raises {β ω : Type} (meets : Error → Prop) (L L' : Ledger β ω) :
    Option Error → Prop
  | nothing (h : L'.faults = L.faults) : Raises meets L L' none
  | documented {e} (h : L'.faults = L.faults) (he : e.isDocumented) :
      Raises meets L L' (some e)
  | limit {e} (h : L'.faults = L.faults) (he : meets e) :
      Raises meets L L' (some e)
  | fault {f method url} (h : L'.faults = f :: L.faults) :
      Raises meets L L' (some (Resource.errorOf method url f))

/-- What may be raised may be raised where more limits count. -/
theorem Ledger.Raises.mono {β ω : Type} {meets meets' : Error → Prop}
    {L L' : Ledger β ω} {raised : Option Error} (h : L.Raises meets L' raised)
    (hmeets : ∀ e, meets e → meets' e) : L.Raises meets' L' raised := by
  cases h with
  | nothing hfaults => exact .nothing hfaults
  | documented hfaults he => exact .documented hfaults he
  | limit hfaults he => exact .limit hfaults (hmeets _ he)
  | fault hfaults => exact .fault hfaults

section

variable {β ω : Type} [Transport β ω] {op : Operation} {L L' : Ledger β ω}

/-- What an operation refuses before a request is an error that it may raise. -/
theorem Operation.Refuses.raises [Limits] {e : Error} (h : op.Refuses e)
    (hencodable : op.IsEncodable) : L.Raises (op.MeetsLimit L L) L (some e) := by
  cases h with
  | required | document => exact .documented rfl rfl
  | tooDeep hv hdeep => exact .limit rfl (.document hv hdeep)
  | option hrejects =>
      cases hrejects with
      | unsupported => exact .documented rfl rfl
      | tooLong ho hvalue hlong => exact .limit rfl (.option (.tooLong ho hvalue hlong))
  | unencodable ht hnot =>
      have hwf := hencodable _ ht
      rw [hnot] at hwf
      cases hwf

/-- What an operation makes of a reply is an error that it may raise. -/
theorem Operation.MayRaise.raises [Limits] {call : Call} {status : Int} {raw : Bytes}
    {e : Error} (h : op.MayRaise status raw e) (hbrings : call.Brings L status raw L')
    (hsame : L'.faults = L.faults) : L.Raises (op.MeetsLimit L L') L' (some e) := by
  cases h with
  | http | decode | consistency => exact .documented hsame rfl
  | tooDeep hdeep => exact .limit hsame (.reply hbrings hdeep)

/-- Handling a reply raises nothing but what may be raised. -/
theorem Operation.Handles.raises [Limits] {call : Call} {r : Response (Option Nat)}
    {result : Except Error (Answer Nat)} {L₀ : Ledger β ω}
    (hrequest : Transport.request call.method call.url call.body call.headers L₀
      = (.ok r, L))
    (h : op.Handles (call.replyOf r) L result L') :
    L₀.Raises (op.MeetsLimit L₀ L') L' (raisedBy result) := by
  have hfaults := (Ledger.request_ok hrequest).2.1
  cases h with
  | unread hread =>
      obtain ⟨f, hf, rfl⟩ := (Body.faults_of_readAll hread).2 _ rfl
      rw [hfaults] at hf
      exact .fault hf
  | read hread hsettles =>
      have hsame := ((Body.faults_of_readAll hread).1 _ rfl).trans hfaults
      cases hsettles with
      | answer => exact .nothing hsame
      | error he => exact he.raises ⟨r, L, _, hrequest, rfl, hread⟩ hsame
  | left => exact .nothing hfaults

/-- An operation whose arguments hold no surrogate, and whose options have
    names of their own. -/
theorem Operation.Asks.raises [Limits] {result : Except Error (Answer Nat)}
    (h : op.Asks L result L') (hencodable : op.IsEncodable)
    (hnames : op.NamesAccepted) :
    L.Raises (op.MeetsLimit L L') L' (raisedBy result) := by
  cases h with
  | argumentTwice htwice => exact absurd hnames htwice
  | refused he => exact he.raises hencodable
  | undelivered call hrequest => exact .fault (Ledger.request_error hrequest).2.1
  | answered call hrequest hhandles => exact hhandles.raises hrequest

/-- A step of a stream over the body of a reply. -/
theorem RowStream.raises_step [Limits] (s : RowStream Nat) (L : Ledger β ω)
    (step : StreamStep) {method url : Text}
    (hs : s.scanner.feed.IsReplyTo method url) :
    L.Raises (fun e => ∃ what, e = .tooDeep what ∧ s.MeetsTooDeep L what)
      (s.step L step).2.2 (raisedBy (s.step L step).1) := by
  have hmoves := s.moves_step L step
  have hdeep (what : TooDeep) (h : (s.step L step).1 = .error (.tooDeep what)) :=
    meetsTooDeep_of_step (isShallow_of_isReplyTo hs L) h
  generalize s.step L step = after at hmoves hdeep ⊢
  obtain ⟨result, s', L'⟩ := after
  cases hmoves with
  | idle => exact .nothing rfl
  | on _ _ hreads => exact .nothing ((hreads.faults hs).2.1 rfl)
  | @off _ scanner _ L₁ _ _ _ hfeeds hclose =>
      have hclosed := scanner.feed.faults_close L₁
      rw [hclose] at hclosed
      cases hfeeds with
      | ok hreads => exact .nothing (hclosed.trans ((hreads.faults hs).2.1 rfl))
      | refused hreads =>
          exact .documented (hclosed.trans ((hreads.faults hs).2.1 rfl)) rfl
      | @tooDeep what _ _ _ hreads =>
          exact .limit (hclosed.trans ((hreads.faults hs).2.1 rfl))
            ⟨what, rfl, hdeep what rfl⟩
      | failed hreads =>
          obtain ⟨f, hf, rfl⟩ := (hreads.faults hs).2.2 _ rfl
          exact .fault (hclosed.trans hf)

end

/-- A step of a settled client raises nothing but what may be raised. -/
theorem Client.Settled.raises [L : Limits] {c : Client Nat Session}
    (h : c.Settled all) {step : ClientStep} (hstep : step.IsAccepted) :
    c.ledger.Raises (c.MeetsLimit step) (c.step step).ledger (c.raised step) := by
  cases step with
  | operate db op =>
      have hasks : op.Asks c.ledger (db.perform op c.ledger).1
          (db.perform op c.ledger).2 := op.isMetBy_perform db c.ledger
      exact hasks.raises hstep.1 hstep.2
  | move k step =>
      rw [Client.step, Client.raised]
      cases hk : c.returned[k]? with
      | none => exact .nothing rfl
      | some s =>
          obtain ⟨method, url, hreply⟩ := h.returned s (List.mem_of_getElem? hk)
          refine (s.stream.raises_step c.ledger step hreply).mono ?_
          rintro e ⟨what, rfl, hdeep⟩
          exact ⟨s, what, hk, rfl, hdeep⟩

/-! ## How steps end -/

/-- The fault of a redirect that leads astray is none of the delivery. -/
theorem WireReply.Misleads.isDelivery {reply : WireReply} {f : Fault}
    (h : reply.Misleads f) : f.isDelivery = false := by
  cases h with
  | unresolved | unreadable | unsupported => rfl

namespace Client

/-- How a step ends, by the replies that came.  A step that meets no fault
    returns, or raises an error that the documentation names or the error of a
    limit that it met.  A fault of the delivery is raised as a failed delivery.
    What is left is the fault of a redirect that leads astray by its location,
    which is raised as it is. -/
inductive Ends [L : Limits] (came : List WireReply) (step : ClientStep)
    (c c' : Client Nat Session) : Option Error → Prop
  | returned (h : c'.ledger.faults = c.ledger.faults) : Ends came step c c' none
  | raised {e} (h : c'.ledger.faults = c.ledger.faults) (he : e.isDocumented) :
      Ends came step c c' (some e)
  | limit {e} (h : c'.ledger.faults = c.ledger.faults)
      (he : c.MeetsLimit step e) : Ends came step c c' (some e)
  | undelivered {f method url} (h : c'.ledger.faults = f :: c.ledger.faults)
      (hdelivery : f.isDelivery = true) :
      Ends came step c c' (some (.transport f (some method) (some url)))
  | misled {f reply} (h : c'.ledger.faults = f :: c.ledger.faults)
      (hreply : reply ∈ came) (hredirect : reply.IsRedirect)
      (hlocation : ∃ reference,
        reply.headers.get? (text "Location") = some reference)
      (hmisleads : reply.Misleads f) : Ends came step c c' (some (.fault f))

end Client

end CouchClient
