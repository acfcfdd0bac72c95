import CouchClient.Proofs.Database.Operations
import CouchClient.Proofs.Rows.Feeding

/-! # Keeping — what a transport keeps, a program keeps

    Everything that a program does to the world is made of requests, reads and
    closings.  So a property that these keep is kept by every operation and by
    every step of a stream, if the requests are those of the database.

    * `Transport.Keeps` — a property that a transport keeps;
    * `Resource.IsCall` — the calls that are made for a resource;
    * `keeps_perform`, `keeps_step` — operations and streams keep it. -/

namespace CouchClient

/-- A property of the world that reads and closings keep, and requests of one
    kind. -/
structure Transport.Keeps {β ω : Type} [Transport β ω] (P : Call → Prop)
    (I : ω → Prop) : Prop where
  request : ∀ call w, P call → I w →
    I (Transport.request call.method call.url call.body call.headers w).2
  read : ∀ (stream : β) size w, I w → I (ByteStream.read stream size w).2.2
  close : ∀ (stream : β) w, I w → I (ByteStream.close stream w).2

section

variable {β ω : Type} [Transport β ω] {P : Call → Prop} {I : ω → Prop} {w w' : ω}

/-! ## Bodies and streams of rows -/

/-- Closing a body keeps what the transport keeps. -/
theorem Body.keeps_close (h : Transport.Keeps P I) (b : Body β) (hw : I w) :
    I (b.close w).2 := by
  rw [close]
  split
  · exact h.close _ _ hw
  · exact hw

/-- Reading from a body keeps what the transport keeps, also where a fault
    closes it. -/
theorem Body.keeps_read (h : Transport.Keeps P I) (b : Body β)
    (size : Option Nat) (hw : I w) : I (b.read size w).2.2 := by
  rw [read]
  split
  · next stream _ _ =>
      have hread := h.read stream size w hw
      generalize ByteStream.read stream size w = result at hread ⊢
      obtain ⟨f | chunk, stream', w'⟩ := result
      · dsimp only
        split
        · exact Body.keeps_close h _ hread
        · exact hread
      · exact hread
  · exact hw

theorem Body.keeps_readAll (h : Transport.Keeps P I) (b : Body β) (hw : I w) :
    I (b.readAll w).2.2 :=
  Body.keeps_close h _ (Body.keeps_read h b none hw)

theorem Feed.keeps_read (h : Transport.Keeps P I) (f : Feed β) (size : Nat)
    (hw : I w) : I (f.read size w).2.2 := by
  cases f with
  | direct stream => exact h.read stream (some size) w hw
  | body b => exact Body.keeps_read h b (some size) hw

theorem Feed.keeps_close (h : Transport.Keeps P I) (f : Feed β) (hw : I w) :
    I (f.close w).2 := by
  cases f with
  | direct stream => exact h.close stream w hw
  | body b => exact Body.keeps_close h b hw

/-- A run of reads keeps what the transport keeps. -/
theorem Feed.Reads.keeps {f f' : Feed β} {e : Option Error}
    (hreads : f.Reads w e f' w') (h : Transport.Keeps P I) : I w → I w' := by
  induction hreads with
  | nothing =>
      intro hw
      exact hw
  | @error f _ w _ size _ hread =>
      intro hw
      have hkept := Feed.keeps_read h f size hw
      rw [hread] at hkept
      exact hkept
  | @piece f _ _ w _ _ size _ _ hread _ ih =>
      intro hw
      have hkept := Feed.keeps_read h f size hw
      rw [hread] at hkept
      exact ih hkept

/-- A step of a stream of rows keeps what the transport keeps. -/
theorem RowStream.keeps_step [Limits] (h : Transport.Keeps P I) (s : RowStream β)
    (step : StreamStep) (hw : I w) : I (s.step w step).2.2 := by
  have hmoves := s.moves_step w step
  generalize s.step w step = after at hmoves ⊢
  obtain ⟨result, s', w'⟩ := after
  cases hmoves with
  | idle => exact hw
  | on _ _ hreads => exact hreads.keeps h hw
  | @off _ scanner _ w₁ _ _ _ hfeeds hclose =>
      obtain ⟨e, hreads⟩ := hfeeds.exists_reads
      have hkept := Feed.keeps_close h scanner.feed (hreads.keeps h hw)
      rw [hclose] at hkept
      exact hkept

end

/-! ## Actions -/

namespace Action

variable {ω α γ : Type} {I : ω → Prop} {act : Action ω α} {next : α → Action ω γ}

/-- The world has the property after the action if it had it before. -/
def Keeps (I : ω → Prop) (act : Action ω α) : Prop := ∀ w, I w → I (act w).2

theorem keeps_ofExcept (result : Except Error α) :
    (ofExcept result : Action ω α).Keeps I := by
  intro w hw
  exact hw

theorem keeps_pure (a : α) : (pure a : Action ω α).Keeps I := by
  intro w hw
  exact hw

/-- Two steps that keep a property keep it together. -/
theorem Keeps.bind (h : act.Keeps I) (hnext : ∀ a, (next a).Keeps I) :
    (act >>= next).Keeps I := by
  intro w hw
  have hact := h w hw
  rw [bind_apply]
  generalize act w = outcome at hact ⊢
  obtain ⟨e | a, w'⟩ := outcome
  · exact hact
  · exact hnext a w' hact

/-- What a check gives is known to come from it. -/
theorem keeps_check {check : Except Error α}
    (hnext : ∀ a, check = .ok a → (next a).Keeps I) :
    (ofExcept check >>= next).Keeps I := by
  intro w hw
  cases check with
  | error e => exact hw
  | ok a => exact hnext a rfl w hw

end Action

/-! ## Requests of a resource -/

namespace Resource

/-- The fields that operations give to their requests: none, those of JSON, or
    the type of an empty object. -/
def IsGiven (fields : List (Text × Text)) : Prop :=
  fields = [] ∨ jsonFields [] = .ok fields
    ∨ fields = [(text "Content-Type", jsonType)]

/-- The call is made for a path below the resource, with its fields and those
    that operations give. -/
def IsCall (r : Resource) (call : Call) : Prop :=
  ∃ path pairs fields, r.urlOf path pairs = .ok call.url ∧ IsGiven fields
    ∧ call.headers = r.headers.copy.update fields

variable {β ω : Type} [Transport β ω] {I : ω → Prop} {r : Resource}

theorem keeps_readBody {P : Call → Prop} (h : Transport.Keeps P I) (b : Body β) :
    (readBody b : Action ω Bytes).Keeps I := by
  intro w hw
  exact Body.keeps_readAll h b hw

/-- Reading a reply as JSON keeps what the transport keeps. -/
theorem keeps_readJson [Limits] {P : Call → Prop} (h : Transport.Keeps P I)
    (response : Response (Body β)) :
    (readJson response : Action ω (Response Json)).Keeps I := by
  intro w hw
  have hread := Body.keeps_readAll h response.data hw
  rw [readJson, Body.readJson]
  generalize response.data.readAll w = outcome at hread ⊢
  obtain ⟨e | raw, b, w'⟩ := outcome
  · exact hread
  · dsimp only
    cases decodeBytes raw with
    | error why => exact hread
    | ok v => exact hread

/-- Checking a reply keeps what the transport keeps, also where its body is read
    for the error. -/
theorem keeps_succeed [Limits] {P : Call → Prop} (h : Transport.Keeps P I)
    (response : Response (Body β)) :
    (succeed response : Action ω (Response (Body β))).Keeps I := by
  intro w hw
  have hread := Body.keeps_readAll h response.data hw
  rw [succeed, Response.check]
  dsimp only
  cases Status.isSuccess response.status with
  | true => exact hw
  | false =>
      generalize response.data.readAll w = outcome at hread ⊢
      obtain ⟨e | raw, b, w'⟩ := outcome
      · exact hread
      · exact hread

/-- A request of a resource keeps what the transport keeps of that resource's
    calls. -/
theorem keeps_request [Limits] (h : Transport.Keeps r.IsCall I) {fields : List (Text × Text)}
    (hfields : IsGiven fields) (method : Text) (path : List Text)
    (body : Option Bytes) (pairs : List (Text × Text)) :
    (r.request method path body fields pairs
      : Action ω (Response (Body β))).Keeps I := by
  refine Action.keeps_check fun url hurl => ?_
  refine Action.Keeps.bind ?_ (keeps_succeed h)
  intro w hw
  have hkept := h.request ⟨method, url, body, r.headers.copy.update fields⟩ w
    ⟨path, pairs, fields, hurl, hfields, rfl⟩ hw
  rw [deliver]
  generalize Transport.request method url body (r.headers.copy.update fields) w
    = outcome at hkept ⊢
  obtain ⟨f | response, w'⟩ := outcome
  · exact hkept
  · exact hkept

theorem keeps_readBody_of_request [Limits] (h : Transport.Keeps r.IsCall I)
    {fields : List (Text × Text)} (hfields : IsGiven fields) (method : Text)
    (path : List Text) (body : Option Bytes) (pairs : List (Text × Text)) :
    (do readBody (← r.request method path body fields pairs).data
      : Action ω Bytes).Keeps I :=
  (keeps_request h hfields method path body pairs).bind fun response =>
    keeps_readBody h response.data

/-- A request for JSON, whose answer is read. -/
theorem keeps_readJson_of_request [Limits] (h : Transport.Keeps r.IsCall I) (method : Text)
    (path : List Text) (body : Option Bytes) (pairs : List (Text × Text)) :
    (do
      let fields ← .ofExcept (jsonFields [])
      readJson (← r.request method path body fields pairs)
      : Action ω (Response Json)).Keeps I := by
  refine Action.keeps_check fun fields hfields => ?_
  have hgiven : IsGiven fields := Or.inr (Or.inl hfields)
  exact (keeps_request h hgiven method path body pairs).bind fun response =>
    keeps_readJson h response

end Resource

/-! ## Operations -/

namespace Database

variable {β ω : Type} [Transport β ω] {I : ω → Prop} {db : Database}

theorem keeps_get [Limits] (h : Transport.Keeps db.resource.IsCall I) (id : Text)
    (options : List (Text × Value)) : (db.get id options : Action ω Bytes).Keeps I := by
  refine (Action.keeps_ofExcept _).bind fun _ => ?_
  refine (Action.keeps_ofExcept _).bind fun _ => ?_
  refine (Action.keeps_ofExcept _).bind fun pairs => ?_
  exact Resource.keeps_readBody_of_request h (Or.inl rfl) _ _ _ pairs

/-- Putting a document keeps what the transport keeps. -/
theorem keeps_put [Limits] (h : Transport.Keeps db.resource.IsCall I) (id : Text)
    (document : Value) (options : List (Text × Value)) :
    (db.put id document options : Action ω (Option Text)).Keeps I := by
  refine (Action.keeps_ofExcept _).bind fun _ => ?_
  refine (Action.keeps_ofExcept _).bind fun _ => ?_
  refine (Action.keeps_ofExcept _).bind fun pairs => ?_
  refine Action.Keeps.bind ?_ fun response => ?_
  · refine (Action.keeps_ofExcept _).bind fun body => ?_
    exact Resource.keeps_readJson_of_request h _ _ body pairs
  · refine (Action.keeps_ofExcept _).bind fun result => ?_
    split
    · exact Action.keeps_pure _
    · exact Action.keeps_ofExcept _

theorem keeps_create [Limits] (h : Transport.Keeps db.resource.IsCall I) (document : Value)
    (options : List (Text × Value)) :
    (db.create document options : Action ω WriteResult).Keeps I := by
  refine (Action.keeps_ofExcept _).bind fun _ => ?_
  refine (Action.keeps_ofExcept _).bind fun pairs => ?_
  refine Action.Keeps.bind ?_ fun response => Action.keeps_ofExcept _
  refine (Action.keeps_ofExcept _).bind fun body => ?_
  exact Resource.keeps_readJson_of_request h _ _ body pairs

theorem keeps_delete [Limits] (h : Transport.Keeps db.resource.IsCall I) (id : Text)
    (rev : Option Text) : (db.delete id rev : Action ω (Option Text)).Keeps I := by
  refine (Action.keeps_ofExcept _).bind fun _ => ?_
  refine (Resource.keeps_request h (Or.inl rfl) _ _ _ _).bind fun response => ?_
  split
  · exact (Resource.keeps_readBody h response.data).bind fun _ => Action.keeps_pure _
  · refine (Resource.keeps_readJson h response).bind fun answer => ?_
    exact (Action.keeps_ofExcept _).bind fun result => Action.keeps_pure _

theorem keeps_stats [Limits] (h : Transport.Keeps db.resource.IsCall I) :
    (db.stats : Action ω Stats).Keeps I :=
  (Resource.keeps_readJson_of_request h _ _ _ _).bind fun _ => Action.keeps_ofExcept _

theorem keeps_command [Limits] (h : Transport.Keeps db.resource.IsCall I) (path : List Text) :
    (db.command path : Action ω Unit).Keeps I := by
  refine (Resource.keeps_request h (Or.inr (Or.inr rfl)) _ _ _ _).bind fun response => ?_
  exact (Resource.keeps_readBody h response.data).bind fun _ => Action.keeps_pure _

theorem keeps_listing [Limits] (h : Transport.Keeps db.resource.IsCall I) (path : List Text)
    (pairs : List (Text × Text)) :
    (db.listing path pairs : Action ω (RowStream β)).Keeps I :=
  (Resource.keeps_request h (Or.inl rfl) _ path none pairs).bind fun _ =>
    Action.keeps_pure _

theorem keeps_rowsAt [Limits] (h : Transport.Keeps db.resource.IsCall I) (path : List Text)
    (options : List (Text × Value)) :
    (db.rowsAt path options : Action ω (RowStream β)).Keeps I := by
  refine (Action.keeps_ofExcept _).bind fun _ => ?_
  refine (Action.keeps_ofExcept _).bind fun pairs => ?_
  exact keeps_listing h path pairs

/-- Listing what is at a written path keeps what the transport keeps. -/
theorem keeps_rowsAtWritten [Limits] (h : Transport.Keeps db.resource.IsCall I) (target : Text)
    (options : List (Text × Value)) :
    (db.rowsAtWritten target options : Action ω (RowStream β)).Keeps I := by
  refine (Action.keeps_ofExcept _).bind fun _ => ?_
  refine (Action.keeps_ofExcept _).bind fun pairs => ?_
  exact keeps_listing h _ _

theorem keeps_allDocs [Limits] (h : Transport.Keeps db.resource.IsCall I)
    (options : List (Text × Value)) :
    (db.allDocs options : Action ω (RowStream β)).Keeps I :=
  (Action.keeps_ofExcept _).bind fun _ => keeps_rowsAt h _ options

theorem keeps_query [Limits] (h : Transport.Keeps db.resource.IsCall I) (ddoc view : Text)
    (options : List (Text × Value)) :
    (db.query ddoc view options : Action ω (RowStream β)).Keeps I := by
  refine (Action.keeps_ofExcept _).bind fun _ => ?_
  refine (Action.keeps_ofExcept _).bind fun _ => ?_
  refine (Action.keeps_ofExcept _).bind fun _ => ?_
  refine (Action.keeps_ofExcept _).bind fun _ => ?_
  exact keeps_rowsAt h _ options

/-- An operation keeps what the requests below its database keep. -/
theorem keeps_perform [Limits] (h : Transport.Keeps db.resource.IsCall I) (op : Operation) :
    (db.perform op : Action ω (Answer β)).Keeps I := by
  have hanswer {α : Type} {act : Action ω α} (hact : act.Keeps I)
      (answer : α → Answer β) : (do return answer (← act)).Keeps I :=
    hact.bind fun _ => Action.keeps_pure _
  cases op with
  | get id options => exact hanswer (keeps_get h id options) _
  | put id document options => exact hanswer (keeps_put h id document options) _
  | create document options => exact hanswer (keeps_create h document options) _
  | delete id rev => exact hanswer (keeps_delete h id rev) _
  | stats => exact hanswer (keeps_stats h) _
  | compact => exact hanswer (keeps_command h _) _
  | compactView ddoc =>
      refine hanswer ?_ _
      exact (Action.keeps_ofExcept _).bind fun _ => keeps_command h _
  | viewCleanup => exact hanswer (keeps_command h _) _
  | rowsAt path options => exact hanswer (keeps_rowsAt h path options) _
  | rowsAtWritten target options => exact hanswer (keeps_rowsAtWritten h target options) _
  | allDocs options => exact hanswer (keeps_allDocs h options) _
  | query ddoc view options => exact hanswer (keeps_query h ddoc view options) _

end Database

end CouchClient
