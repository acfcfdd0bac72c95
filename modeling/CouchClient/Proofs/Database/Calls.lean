import CouchClient.Proofs.Database.Keeping
import CouchClient.Proofs.Http.Ledger
import CouchClient.Proofs.Url.Quoting

/-! # Calls — the request that an operation makes

    Before a ledger it is seen which request an action makes.  Checks and the
    reading of bodies make none, so the request of an operation on a document
    is the one that stands in its middle, whatever the transport does.

    * `Action.IsQuiet`, `Action.Makes` — no call, and just the given one;
    * `Resource.makes_request` — a request for a path;
    * `makes_get`, `makes_put`, `makes_delete` — operations on documents. -/

namespace CouchClient

/-! ## Actions before a ledger -/

namespace Action

variable {β ω α γ : Type}

/-- An action makes no call. -/
def IsQuiet (act : Action (Ledger β ω) α) : Prop :=
  ∀ L, (act L).2.calls = L.calls

/-- An action makes the given call and no other, whatever comes of it. -/
def Makes (act : Action (Ledger β ω) α) (call : Call) : Prop :=
  ∀ L, (act L).2.calls = call :: L.calls

variable {act : Action (Ledger β ω) α} {next : α → Action (Ledger β ω) γ}
  {call : Call}

/-- It keeps the calls, whichever they are. -/
theorem isQuiet_iff_keeps :
    act.IsQuiet ↔ ∀ calls, act.Keeps fun L => L.calls = calls := by
  constructor
  · intro h calls L hL
    exact (h L).trans hL
  · intro h L
    exact h L.calls L rfl

theorem isQuiet_ofExcept (result : Except Error α) :
    (ofExcept result : Action (Ledger β ω) α).IsQuiet :=
  isQuiet_iff_keeps.mpr fun _ => keeps_ofExcept result

theorem isQuiet_pure (a : α) : (pure a : Action (Ledger β ω) α).IsQuiet :=
  isQuiet_ofExcept (.ok a)

/-- Two steps that make no call make none together. -/
theorem IsQuiet.bind (h : act.IsQuiet) (hnext : ∀ a, (next a).IsQuiet) :
    (act >>= next).IsQuiet := by
  rw [isQuiet_iff_keeps] at h ⊢
  intro calls
  exact (h calls).bind fun a => isQuiet_iff_keeps.mp (hnext a) calls

/-- What comes after the call is quiet. -/
theorem Makes.bind (h : act.Makes call) (hnext : ∀ a, (next a).IsQuiet) :
    (act >>= next).Makes call := by
  intro L
  have hact := h L
  rw [bind_apply]
  generalize act L = outcome at hact ⊢
  obtain ⟨e | a, L'⟩ := outcome
  · exact hact
  · exact (hnext a L').trans hact

/-- A check that passes comes before the call. -/
theorem Makes.check {check : Except Error α} {a : α} (hcheck : check = .ok a)
    (h : (next a).Makes call) : (ofExcept check >>= next).Makes call := by
  intro L
  rw [hcheck]
  exact h L

/-- A check that does not pass is the end. -/
theorem isQuiet_check {check : Except Error α} {e : Error}
    (hcheck : check = .error e) : (ofExcept check >>= next).IsQuiet := by
  intro L
  rw [hcheck]
  rfl

end Action

/-! ## Requests for a path -/

/-- Reads and closings make no call. -/
theorem Ledger.keeps_calls {β ω : Type} [Transport β ω] (calls : List Call) :
    Transport.Keeps (fun _ => False) fun L : Ledger β ω => L.calls = calls where
  request _ _ hcall _ := hcall.elim
  read _ _ _ hL := (quiet_of_read rfl).calls.trans hL
  close n L hL := (L.quiet_close n).calls.trans hL

namespace Resource

variable {β ω : Type} [Transport β ω]

/-- Reading a body makes no call. -/
theorem isQuiet_readBody (b : Body Nat) :
    (readBody b : Action (Ledger β ω) Bytes).IsQuiet :=
  Action.isQuiet_iff_keeps.mpr fun calls => keeps_readBody (Ledger.keeps_calls calls) b

/-- Reading a body as JSON makes no call. -/
theorem isQuiet_readJson [Limits] (r : Response (Body Nat)) :
    (readJson r : Action (Ledger β ω) (Response Json)).IsQuiet :=
  Action.isQuiet_iff_keeps.mpr fun calls => keeps_readJson (Ledger.keeps_calls calls) r

/-- Checking the status of a reply makes no call. -/
theorem isQuiet_succeed [Limits] (r : Response (Body Nat)) :
    (succeed r : Action (Ledger β ω) (Response (Body Nat))).IsQuiet :=
  Action.isQuiet_iff_keeps.mpr fun calls => keeps_succeed (Ledger.keeps_calls calls) r

/-- Delivering a request makes the call that it is. -/
theorem makes_deliver (method url : Text) (body : Option Bytes)
    (headers : Headers Text) :
    (deliver method url body headers
      : Action (Ledger β ω) (Response (Body Nat))).Makes
      ⟨method, url, body, headers⟩ := by
  intro L
  rw [deliver]
  rcases h : Transport.request method url body headers L with ⟨f | r, L'⟩
  · exact (Ledger.request_error h).1
  · exact (Ledger.request_ok h).1

/-- The call that a request for a path makes. -/
def callOf (r : Resource) (method url : Text) (body : Option Bytes)
    (fields : List (Text × Text)) : Call :=
  ⟨method, url, body, r.headers.copy.update fields⟩

variable {r : Resource} {method url : Text} {path : List Text}
  {body : Option Bytes} {fields pairs : List (Text × Text)}

/-- A request whose URL can be built makes one call, to that URL. -/
theorem makes_request [Limits] (h : r.urlOf path pairs = .ok url) :
    (r.request method path body fields pairs
      : Action (Ledger β ω) (Response (Body Nat))).Makes
      (r.callOf method url body fields) :=
  .check h ((makes_deliver _ _ _ _).bind isQuiet_succeed)

/-- A URL that can be built is the base with the path and the query. -/
theorem urlOf_of_areWritable (r : Resource) (h : Url.AreWritable path pairs) :
    r.urlOf path pairs = .ok (r.url ++ Url.pathPart r.url path ++ Url.queryPart pairs) := by
  rw [urlOf, Url.extend_of_areWritable r.url h]
  rfl

/-- The URL of a path is the resource's own with the written path and query
    behind it. -/
theorem urlOf_of_isWellFormed (r : Resource) (hne : path ≠ [])
    (hpath : ∀ segment ∈ path, Text.isWellFormed segment)
    (hpairs : ∀ p ∈ pairs, p.1.isWellFormed ∧ p.2.isWellFormed) :
    r.urlOf path pairs
      = .ok (r.url ++ Url.slashAfter r.url ++ Url.writtenPath path
          ++ Url.queryPart pairs) := by
  rw [r.urlOf_of_areWritable ⟨hpath, hpairs⟩, Url.pathPart_of_ne_nil r.url hne]
  simp only [List.append_assoc]

/-- A document cannot be written, or there is a body for it. -/
theorem documentBody_cases [Limits] (document : Value) :
    (∃ e e', document.encodeBytes = .error e
        ∧ documentBody document = .error e')
      ∨ ∃ body, documentBody document = .ok body := by
  unfold documentBody
  split
  · exact Or.inr ⟨none, rfl⟩
  · split
    · next bs hencode => exact Or.inr ⟨some bs, rfl⟩
    · next hencode => exact Or.inl ⟨_, _, hencode, rfl⟩
    · next e _ hencode => exact Or.inl ⟨e, _, hencode, rfl⟩

end Resource

/-! ## Operations on documents -/

namespace Database

variable {β ω : Type} {db : Database} {id url : Text} {document : Value}
  {options : List (Text × Value)} {pairs fields : List (Text × Text)}
  {body : Option Bytes}

/-- The answer to a write is looked at without a call. -/
theorem isQuiet_written (r : Response Json) :
    (do
      let result ← .ofExcept ((WriteResult.ofJson r.data).mapError .decode)
      if result.id = id then return result.rev
      else .ofExcept (.error (.consistency id result.id))
      : Action (Ledger β ω) (Option Text)).IsQuiet := by
  refine (Action.isQuiet_ofExcept _).bind fun result => ?_
  split
  · exact Action.isQuiet_pure _
  · exact Action.isQuiet_ofExcept _

variable [Transport β ω]

/-- Getting a document makes one call, if its arguments pass. -/
theorem makes_get [Limits] (hnames : checkNames "get" ["self", "id"] options = .ok ())
    (hid : requiredId id = .ok ()) (hpairs : QueryOption.encode options = .ok pairs)
    (hurl : db.resource.urlOf (docPath id) pairs = .ok url) :
    (db.get id options : Action (Ledger β ω) Bytes).Makes
      (db.resource.callOf (text "GET") url none []) := by
  refine .check hnames (.check hid (.check hpairs ?_))
  exact (Resource.makes_request hurl).bind fun r => Resource.isQuiet_readBody r.data

/-- Putting a document makes one call with the document as its body, if the
    arguments pass. -/
theorem makes_put [Limits]
    (hnames : checkNames "put" ["self", "id", "document"] options = .ok ())
    (hid : requiredId id = .ok ()) (hpairs : QueryOption.encode options = .ok pairs)
    (hbody : Resource.documentBody document = .ok body)
    (hfields : Resource.jsonFields [] = .ok fields)
    (hurl : db.resource.urlOf (docPath id) pairs = .ok url) :
    (db.put id document options : Action (Ledger β ω) (Option Text)).Makes
      (db.resource.callOf (text "PUT") url body fields) := by
  refine .check hnames (.check hid (.check hpairs (.bind ?_ isQuiet_written)))
  refine .check hbody (.check hfields ?_)
  exact (Resource.makes_request hurl).bind Resource.isQuiet_readJson

/-- No document is asked for with options that cannot be written. -/
theorem isQuiet_get [Limits] {e : Error} (hpairs : QueryOption.encode options = .error e) :
    (db.get id options : Action (Ledger β ω) Bytes).IsQuiet := by
  refine (Action.isQuiet_ofExcept _).bind fun _ => ?_
  exact (Action.isQuiet_ofExcept _).bind fun _ => Action.isQuiet_check hpairs

/-- Nor is one put with them. -/
theorem isQuiet_put_of_options [Limits] {e : Error}
    (hpairs : QueryOption.encode options = .error e) :
    (db.put id document options : Action (Ledger β ω) (Option Text)).IsQuiet := by
  refine (Action.isQuiet_ofExcept _).bind fun _ => ?_
  exact (Action.isQuiet_ofExcept _).bind fun _ => Action.isQuiet_check hpairs

/-- A document that cannot be encoded is not put. -/
theorem isQuiet_put [Limits] {e : Error} (hbody : Resource.documentBody document = .error e) :
    (db.put id document options : Action (Ledger β ω) (Option Text)).IsQuiet := by
  refine (Action.isQuiet_ofExcept _).bind fun _ => ?_
  refine (Action.isQuiet_ofExcept _).bind fun _ => ?_
  refine (Action.isQuiet_ofExcept _).bind fun pairs => ?_
  exact (Action.isQuiet_check hbody).bind isQuiet_written

/-- Deleting a document makes one call, if its identifier passes. -/
theorem makes_delete [Limits] {rev : Option Text} (hid : requiredId id = .ok ())
    (hurl : db.resource.urlOf (docPath id) [(text "rev", rev.getD [])] = .ok url) :
    (db.delete id rev : Action (Ledger β ω) (Option Text)).Makes
      (db.resource.callOf (text "DELETE") url none []) := by
  refine .check hid ((Resource.makes_request hurl).bind fun r => ?_)
  split
  · exact (Resource.isQuiet_readBody r.data).bind fun _ => Action.isQuiet_pure _
  · refine (Resource.isQuiet_readJson r).bind fun answer => ?_
    exact (Action.isQuiet_ofExcept _).bind fun result => Action.isQuiet_pure _

end Database

end CouchClient
