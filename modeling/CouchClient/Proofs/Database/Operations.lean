import CouchClient.Database.Documents
import CouchClient.Database.Listings
import CouchClient.Database.Maintenance
import CouchClient.Http.Replay
import CouchClient.Proofs.Entries
import CouchClient.Proofs.Http.Failures
import CouchClient.Proofs.Json.Limits
import CouchClient.Proofs.Url.Encodable

/-! # Operations — what a database does with its transport

    Every operation goes the same way.  It looks at its arguments and may
    refuse them.  Then it makes one request.  The body of the reply is read
    to its end and closed, unless a listing hands it on as it is.

    * `Operation`, `Database.perform` — the operations with their arguments;
    * `Operation.Refuses`, `Operation.MayRaise` — what they raise before the
      request and after the reply;
    * `Operation.Asks`, `Operation.Handles` — the way of an operation, and of
      the reply in it, in any world;
    * `isMetBy_check`, `isMetBy_request`, `isDoneBy_readBody`,
      `isDoneBy_readJson` — the parts of this way. -/

namespace CouchClient

/-! ## Actions in a row -/

namespace Action

variable {ω α γ : Type}

/-- An action that succeeds is followed by what comes next. -/
theorem bind_of_ok {act : Action ω α} {next : α → Action ω γ} {w w' : ω} {a : α}
    (h : act w = (.ok a, w')) : (act >>= next) w = next a w' := by
  rw [bind_apply, h]

/-- An action that fails is followed by nothing. -/
theorem bind_of_error {act : Action ω α} {next : α → Action ω γ} {w w' : ω}
    {e : Error} (h : act w = (.error e, w')) :
    (act >>= next) w = (.error e, w') := by
  rw [bind_apply, h]

theorem bind_pure' (act : Action ω α) : (act >>= pure) = act := by
  funext w
  rcases h : act w with ⟨e | a, w'⟩
  · exact bind_of_error h
  · exact bind_of_ok h

theorem bind_bind {δ : Type} (act : Action ω α) (next : α → Action ω γ)
    (last : γ → Action ω δ) :
    act >>= next >>= last = act >>= fun a => next a >>= last := by
  funext w
  rcases h : act w with ⟨e | a, w'⟩
  · rw [bind_of_error h, bind_of_error (bind_of_error h)]
  · rw [bind_of_ok h, bind_apply, bind_of_ok h]
    rfl

instance : LawfulMonad (Action ω) :=
  .mk' (Action ω) bind_pure' (fun _ _ => rfl) bind_bind

end Action

/-! ## Operations and their answers -/

/-- An operation of a database with its arguments. -/
inductive Operation where
  | get (id : Text) (options : List (Text × Value))
  | put (id : Text) (document : Value) (options : List (Text × Value))
  | create (document : Value) (options : List (Text × Value))
  | delete (id : Text) (rev : Option Text)
  | stats
  | compact
  | compactView (ddoc : Text)
  | viewCleanup
  | rowsAt (path : List Text) (options : List (Text × Value))
  | rowsAtWritten (target : Text) (options : List (Text × Value))
  | allDocs (options : List (Text × Value))
  | query (ddoc view : Text) (options : List (Text × Value))

/-- What an operation gives. -/
inductive Answer (β : Type) where
  | document (content : Bytes)
  | revision (rev : Option Text)
  | written (result : WriteResult)
  | stats (stats : Stats)
  | done
  | rows (stream : RowStream β)

/-- Performs an operation. -/
def Database.perform [Limits] {β ω : Type} [Transport β ω] (db : Database) :
    Operation → Action ω (Answer β)
  | .get id options => do return .document (← db.get id options)
  | .put id document options =>
      do return .revision (← db.put id document options)
  | .create document options =>
      do return .written (← db.create document options)
  | .delete id rev => do return .revision (← db.delete id rev)
  | .stats => do return .stats (← db.stats)
  | .compact => do
      let _ ← db.compact
      return .done
  | .compactView ddoc => do
      let _ ← db.compactView ddoc
      return .done
  | .viewCleanup => do
      let _ ← db.viewCleanup
      return .done
  | .rowsAt path options => do return .rows (← db.rowsAt path options)
  | .rowsAtWritten target options =>
      do return .rows (← db.rowsAtWritten target options)
  | .allDocs options => do return .rows (← db.allDocs options)
  | .query ddoc view options =>
      do return .rows (← db.query ddoc view options)

/-! ## Arguments -/

/-- An option that is a number gives one pair, unless the number is too long. -/
theorem QueryOption.pairs_int [Limits] (name : Text) (n : Int) :
    (QueryOption.mk name (.int n)).pairs
      = (Limits.textOf n).map fun t => [(name, t)] := by
  show (Limits.textOf n >>= fun t => pure [(name, t)]) = _
  cases Limits.textOf n <;> rfl

/-- Only a whole number can be too long to be written by an option. -/
theorem QueryOption.pairs_eq_error [Limits] {o : QueryOption} {e : TooLong}
    (h : o.pairs = .error e) :
    ∃ n, o.value = .int n ∧ Limits.excess? n = some e := by
  obtain ⟨name, value⟩ := o
  cases value with
  | int n =>
      rw [pairs_int] at h
      cases htext : Limits.textOf n with
      | ok t =>
          rw [htext] at h
          cases h
      | error e' =>
          rw [htext] at h
          cases h
          exact ⟨n, rfl, Limits.textOf_eq_error_iff.mp htext⟩
  | _ => cases h

/-- Why options cannot be written: one is of no supported type, or is a number
    that is too long. -/
inductive QueryOption.Rejects [Limits] (options : List (Text × Value)) :
    Error → Prop
  | unsupported {o} (ho : o ∈ options)
      (h : OptionValue.ofValue? o.2 = none) :
      Rejects options (.unsupportedOption o.2.typeName o.1)
  | tooLong {o n e} (ho : o ∈ options)
      (hvalue : OptionValue.ofValue? o.2 = some (.int n))
      (h : Limits.excess? n = some e) : Rejects options (.tooLong e)

/-- What rejects some options rejects any more of them. -/
theorem QueryOption.Rejects.subset [Limits] {options all : List (Text × Value)}
    {e : Error} (h : Rejects options e) (hall : options ⊆ all) :
    Rejects all e := by
  cases h with
  | unsupported ho hnone => exact .unsupported (hall ho) hnone
  | tooLong ho hvalue hlong => exact .tooLong (hall ho) hvalue hlong

section
variable [Limits] {name : Text} {v : Value} {value : OptionValue}
  {rest : List (Text × Value)}

/-- An option that is written comes before the pairs of the rest. -/
theorem QueryOption.encodeAll_of_pairs
    (hvalue : OptionValue.ofValue? v = some value)
    {written : List (Text × Text)}
    (hpairs : (QueryOption.mk name value).pairs = .ok written) :
    encodeAll ((name, v) :: rest) = (encodeAll rest).map (written ++ ·) := by
  rw [encodeAll, ofValue, hvalue]
  show ((QueryOption.mk name value).pairs.mapError Error.tooLong
    >>= fun pairs => encodeAll rest >>= fun more => pure (pairs ++ more)) = _
  rw [hpairs]
  cases encodeAll rest <;> rfl

/-- Encoding ends at a number that is too long. -/
theorem QueryOption.encodeAll_of_tooLong
    (hvalue : OptionValue.ofValue? v = some value) {e : TooLong}
    (hpairs : (QueryOption.mk name value).pairs = .error e) :
    encodeAll ((name, v) :: rest) = .error (.tooLong e) := by
  rw [encodeAll, ofValue, hvalue]
  show ((QueryOption.mk name value).pairs.mapError Error.tooLong
    >>= fun pairs => encodeAll rest >>= fun more => pure (pairs ++ more)) = _
  rw [hpairs]
  rfl

/-- Encoding ends at a value of no supported type. -/
theorem QueryOption.encodeAll_of_unsupported
    (hvalue : OptionValue.ofValue? v = none) :
    encodeAll ((name, v) :: rest)
      = .error (.unsupportedOption v.typeName name) := by
  rw [encodeAll, ofValue, hvalue]
  rfl

end

/-- Some option cannot be written, or all are: a pair is written by one of
    them. -/
theorem QueryOption.encodeAll_cases [Limits] (options : List (Text × Value)) :
    (∃ e, Rejects options e ∧ encodeAll options = .error e)
      ∨ ∃ pairs, encodeAll options = .ok pairs ∧ ∀ p ∈ pairs,
          ∃ o ∈ options, ∃ value written,
            OptionValue.ofValue? o.2 = some value
              ∧ (QueryOption.mk o.1 value).pairs = .ok written
              ∧ p ∈ written := by
  induction options with
  | nil => exact Or.inr ⟨[], rfl, by simp⟩
  | cons o rest ih =>
      cases hvalue : OptionValue.ofValue? o.2 with
      | none =>
          exact Or.inl ⟨_, .unsupported List.mem_cons_self hvalue,
            encodeAll_of_unsupported hvalue⟩
      | some value =>
          cases hpairs : (QueryOption.mk o.1 value).pairs with
          | error e =>
              obtain ⟨n, hn, hlong⟩ := pairs_eq_error hpairs
              exact Or.inl ⟨_, .tooLong List.mem_cons_self
                (hvalue.trans (congrArg some hn)) hlong,
                encodeAll_of_tooLong hvalue hpairs⟩
          | ok written =>
              have hcons : encodeAll (o :: rest)
                  = (encodeAll rest).map (written ++ ·) :=
                encodeAll_of_pairs hvalue hpairs
              obtain ⟨e, hrejects, hrest⟩ | ⟨pairs, hrest, hmore⟩ := ih
              · rw [hrest] at hcons
                exact Or.inl
                  ⟨e, hrejects.subset (List.subset_cons_self o rest), hcons⟩
              · rw [hrest] at hcons
                refine Or.inr ⟨written ++ pairs, hcons, ?_⟩
                intro p hp
                rcases List.mem_append.mp hp with hp | hp
                · exact ⟨o, List.mem_cons_self, value, written, hvalue, hpairs, hp⟩
                · obtain ⟨o', ho', hwritten⟩ := hmore p hp
                  exact ⟨o', List.mem_cons_of_mem o ho', hwritten⟩

/-- The same of the options of a call, in which the last value of a name counts. -/
theorem QueryOption.encode_cases [Limits] (options : List (Text × Value)) :
    (∃ e, Rejects options e ∧ encode options = .error e)
      ∨ ∃ pairs, encode options = .ok pairs ∧ ∀ p ∈ pairs,
          ∃ o ∈ options, ∃ value written,
            OptionValue.ofValue? o.2 = some value
              ∧ (QueryOption.mk o.1 value).pairs = .ok written
              ∧ p ∈ written := by
  obtain ⟨e, hrejects, herror⟩ | ⟨pairs, hok, hpairs⟩ :=
    encodeAll_cases (Entries.ofList options)
  · exact Or.inl
      ⟨e, hrejects.subset fun o => Entries.mem_of_mem_ofList, herror⟩
  · refine Or.inr ⟨pairs, hok, ?_⟩
    intro p hp
    obtain ⟨o, ho, hwritten⟩ := hpairs p hp
    exact ⟨o, Entries.mem_of_mem_ofList ho, hwritten⟩

/-- The texts that an option writes into a URL. -/
def OptionValue.textsOf : OptionValue → List Text
  | .str t => [t]
  | .texts items => items
  | _ => []

namespace Operation

/-- The options of an operation. -/
def options : Operation → List (Text × Value)
  | get _ options => options
  | put _ _ options => options
  | create _ options => options
  | rowsAt _ options => options
  | rowsAtWritten _ options => options
  | allDocs options => options
  | query _ _ options => options
  | _ => []

/-- The identifiers of an operation, of documents, revisions and views, and
    its paths. -/
def names : Operation → List Text
  | get id _ => [id]
  | put id _ _ => [id]
  | delete id rev => id :: rev.toList
  | compactView ddoc => [ddoc]
  | rowsAt path _ => path
  | rowsAtWritten target _ => [target]
  | query ddoc view _ => [ddoc, view]
  | _ => []

/-- The texts that an operation cannot do without.  The name of a design
    document may be given with the segment before it, which is no name. -/
def required : Operation → List Text
  | get id _ => [id]
  | put id _ _ => [id]
  | delete id _ => [id]
  | compactView ddoc => [ddoc]
  | query ddoc view _ => [ddoc, Database.designName ddoc, view]
  | _ => []

/-- The document that an operation sends. -/
def document? : Operation → Option Value
  | put _ document _ => some document
  | create document _ => some document
  | _ => none

/-- The texts that an operation writes into its URL: identifiers and paths,
    and the names and texts of the options. -/
def texts (op : Operation) : List Text :=
  op.names ++ op.options.flatMap fun o =>
    o.1 :: ((OptionValue.ofValue? o.2).map OptionValue.textsOf).getD []

/-- No text of the operation holds a surrogate. -/
def IsEncodable (op : Operation) : Prop := ∀ t ∈ op.texts, t.isWellFormed

/-- The names of the arguments that an option cannot have. -/
def parameters : Operation → List String
  | get _ _ => ["self", "id"]
  | put _ _ _ => ["self", "id", "document"]
  | create _ _ => ["self", "document"]
  | rowsAt _ _ => ["self", "path"]
  | rowsAtWritten _ _ => ["self", "path"]
  | allDocs _ => ["self", "path"]
  | query _ _ _ => ["self", "ddoc", "view", "path"]
  | _ => []

/-- No option has the name of an argument. -/
def NamesAccepted (op : Operation) : Prop :=
  ∀ o ∈ op.options, ∀ p ∈ op.parameters, o.1 ≠ text p

/-- Whether the operation gives a stream of rows. -/
def isListing : Operation → Bool
  | rowsAt _ _ => true
  | rowsAtWritten _ _ => true
  | allDocs _ => true
  | query _ _ _ => true
  | _ => false

/-- Whether the operation puts a document. -/
def isPut : Operation → Bool
  | put _ _ _ => true
  | _ => false

/-! ## The way of an operation -/

/-- What an operation raises before it makes a request, and why: a text that
    has to be there is empty, the document cannot be written or is too deep, an
    option cannot be written, or a text of the URL cannot. -/
inductive Refuses [Limits] (op : Operation) : Error → Prop
  | required {what} (h : [] ∈ op.required) :
      Refuses op (.invalid (.required what))
  | document {v e} (hv : op.document? = some v) (h : v.encodeBytes = .error e)
      (hdeep : e ≠ .tooDeep) : Refuses op (.invalid (.document e))
  | tooDeep {v} (hv : op.document? = some v)
      (h : v.encodeBytes = .error .tooDeep) : Refuses op (.tooDeep .writing)
  | option {e} (h : QueryOption.Rejects op.options e) : Refuses op e
  | unencodable {e t} (ht : t ∈ op.texts) (h : t.isWellFormed = false) :
      Refuses op (.unencodable e)

/-- What an operation raises once the body of the reply was read, by the status
    and the bytes that were read. -/
inductive MayRaise [Limits] (op : Operation) (status : Int) (raw : Bytes) :
    Error → Prop
  | http {e} (h : Status.isSuccess status = false)
      (hdescribes : e.Describes status raw) : MayRaise op status raw (.http e)
  | decode {why} : MayRaise op status raw (.decode why)
  | tooDeep {what} (h : Json.IsTooDeep raw what) :
      MayRaise op status raw (.tooDeep what)
  | consistency {requested returned} (h : op.isPut) :
      MayRaise op status raw (.consistency requested returned)

/-- What comes of an operation that does not hand the body on. -/
inductive Settles [Limits] {β : Type} (op : Operation) (status : Int)
    (raw : Bytes) : Except Error (Answer β) → Prop
  | answer {a} (h : ∀ s, a ≠ .rows s) : Settles op status raw (.ok a)
  | error {e} (h : op.MayRaise status raw e) : Settles op status raw (.error e)

section

variable {β ω : Type} {op : Operation} {status : Int} {raw : Bytes}

/-- What is read has to be an answer of some kind. -/
theorem settles_decoded [Limits] {α : Type} (decoded : Except BadReply α)
    {next : α → Action ω (Answer β)}
    (hnext : ∀ a, ∃ result, op.Settles status raw result
      ∧ next a = Action.ofExcept result) :
    ∃ result, op.Settles status raw result
      ∧ (Action.ofExcept (decoded.mapError .decode) >>= next)
        = Action.ofExcept result := by
  cases decoded with
  | error why => exact ⟨_, .error .decode, rfl⟩
  | ok a => exact hnext a

/-- An answer without rows settles the operation. -/
theorem settles_pure [Limits] {a : Answer β} (h : ∀ s, a ≠ .rows s) :
    ∃ result, op.Settles status raw result
      ∧ (pure a : Action ω (Answer β)) = Action.ofExcept result :=
  ⟨.ok a, .answer h, rfl⟩

end

variable {β ω : Type} [Transport β ω]

/-- What becomes of a reply: its body cannot be read to its end, or it is
    read and closed, or a listing hands it on. -/
inductive Handles [Limits] (op : Operation) (r : Response (Body β)) (w : ω) :
    Except Error (Answer β) → ω → Prop
  | unread {e b w'} (h : r.data.readAll w = (.error e, b, w')) :
      Handles op r w (.error e) w'
  | read {raw b w' result} (h : r.data.readAll w = (.ok raw, b, w'))
      (hsettles : op.Settles r.status raw result) : Handles op r w result w'
  | left (hsuccess : Status.isSuccess r.status) (hlisting : op.isListing) :
      Handles op r w (.ok (.rows (.ofFeed (.body r.data) Database.rowsField))) w

end Operation

/-- The reply to a call, with its body. -/
def Call.replyOf {β : Type} (call : Call) (r : Response (Option β)) :
    Response (Body β) :=
  { r with data := Body.ofStream r.data (some call.method) (some call.url) }

/-- A call is answered with a status and the bytes of a body that is read to
    its end. -/
def Call.Brings {β ω : Type} [Transport β ω] (call : Call) (w : ω) (status : Int)
    (raw : Bytes) (w' : ω) : Prop :=
  ∃ (r : Response (Option β)) (w₁ : ω) (b : Body β),
    Transport.request call.method call.url call.body call.headers w = (.ok r, w₁)
      ∧ r.status = status
      ∧ (call.replyOf r).data.readAll w₁ = (.ok raw, b, w')

namespace Operation

variable {β ω γ : Type} [Transport β ω]

/-- An operation refuses its arguments, or it makes one request. -/
inductive Asks [Limits] (op : Operation) (w : ω) : Except Error (Answer β) → ω → Prop
  | argumentTwice {operation argument} (h : ¬ op.NamesAccepted) :
      Asks op w (.error (.argumentTwice operation argument)) w
  | refused {e} (h : op.Refuses e) : Asks op w (.error e) w
  | undelivered (call : Call) {f w'}
      (h : Transport.request call.method call.url call.body call.headers w
        = (.error f, w')) :
      Asks op w (.error (Resource.errorOf call.method call.url f)) w'
  | answered (call : Call) {r w' result w''}
      (h : Transport.request call.method call.url call.body call.headers w
        = (.ok r, w'))
      (hhandles : op.Handles (call.replyOf r) w' result w'') :
      Asks op w result w''

/-- An action goes the way of an operation. -/
def IsMetBy [Limits] (op : Operation) (act : Action ω (Answer β)) : Prop :=
  ∀ w, op.Asks w (act w).1 (act w).2

/-- An action does the rest of an operation with a reply. -/
def IsDoneBy [Limits] (op : Operation) (r : Response (Body β))
    (act : Action ω (Answer β)) : Prop :=
  ∀ w, op.Handles r w (act w).1 (act w).2

variable {op : Operation} {r : Response (Body β)}

/-! ## Before the request -/

/-- A check passes, or the operation refuses its arguments. -/
theorem isMetBy_check [Limits] {check : Except Error γ} {next : γ → Action ω (Answer β)}
    (hcheck : ∀ e, check = .error e → op.Refuses e)
    (hnext : ∀ a, check = .ok a → op.IsMetBy (next a)) :
    op.IsMetBy (Action.ofExcept check >>= next) := by
  intro w
  cases check with
  | error e => exact .refused (hcheck e rfl)
  | ok a => exact hnext a rfl w

/-- The check of the names of the options is part of the way of an operation. -/
theorem isMetBy_checkNames [Limits] {operation : String} {arguments : List String}
    {options : List (Text × Value)} {next : Unit → Action ω (Answer β)}
    (hoptions : options = op.options) (harguments : arguments ⊆ op.parameters)
    (hnext : op.IsMetBy (next ())) :
    op.IsMetBy (Action.ofExcept (Database.checkNames operation arguments options)
      >>= next) := by
  intro w
  rw [Database.checkNames, hoptions]
  cases hfind : op.options.find? fun o => (arguments.map text).contains o.1 with
  | none => exact hnext w
  | some o =>
      refine .argumentTwice ?_
      intro haccepted
      have hname : (arguments.map text).contains o.1 := by
        simpa using List.find?_some hfind
      obtain ⟨argument, hargument, heq⟩ :=
        List.mem_map.mp (List.contains_iff_mem.mp hname)
      exact haccepted o (List.mem_of_find?_eq_some hfind) argument
        (harguments hargument) heq.symm

/-- The check of a text that is required is part of the way of an operation. -/
theorem isMetBy_required [Limits] {argument : Text} {what : String}
    {next : Unit → Action ω (Answer β)} (hargument : argument ∈ op.required)
    (hnext : op.IsMetBy (next ())) :
    op.IsMetBy (Action.ofExcept (Database.required argument what) >>= next) := by
  refine isMetBy_check ?_ fun _ _ => hnext
  intro e h
  rw [Database.required] at h
  split at h
  · next hempty =>
      cases h
      rw [List.isEmpty_iff.mp hempty] at hargument
      exact .required hargument
  · cases h

/-- Writing the document is part of the way of an operation that has one. -/
theorem isMetBy_documentBody [Limits] {document : Value}
    {next : Option Bytes → Action ω (Answer β)}
    (hdocument : op.document? = some document)
    (hnext : ∀ body, op.IsMetBy (next body)) :
    op.IsMetBy (Action.ofExcept (Resource.documentBody document) >>= next) := by
  refine isMetBy_check ?_ fun body _ => hnext body
  intro e h
  unfold Resource.documentBody at h
  split at h
  · cases h
  · split at h
    · cases h
    · next hencode =>
        cases h
        exact .tooDeep hdocument hencode
    · next e' hdeep hencode =>
        cases h
        exact .document hdocument hencode hdeep

/-- The fields of a request for JSON can always be read. -/
theorem isMetBy_jsonFields [Limits] {next : List (Text × Text) → Action ω (Answer β)}
    (hnext : ∀ fields, op.IsMetBy (next fields)) :
    op.IsMetBy (Action.ofExcept (Resource.jsonFields []) >>= next) := by
  refine isMetBy_check ?_ fun fields _ => hnext fields
  intro e h
  have hfields : (Resource.jsonFields []).toBool = true := by decide
  rw [h] at hfields
  cases hfields

/-- Writing the options is part of the way of an operation. -/
theorem isMetBy_encode [Limits] {options : List (Text × Value)}
    {next : List (Text × Text) → Action ω (Answer β)}
    (hoptions : options = op.options)
    (hnext : ∀ pairs, QueryOption.encode op.options = .ok pairs →
      op.IsMetBy (next pairs)) :
    op.IsMetBy (Action.ofExcept (QueryOption.encode options) >>= next) := by
  subst hoptions
  refine isMetBy_check ?_ hnext
  intro e h
  obtain ⟨e', hrejects, herror⟩ | ⟨pairs, hok, -⟩ :=
    QueryOption.encode_cases op.options
  · cases herror.symm.trans h
    exact .option hrejects
  · cases hok.symm.trans h

/-! ## What a URL is made of -/

/-- An option writes its name and its texts, and digits and letters. -/
theorem isWellFormed_of_mem_pairs [Limits] {o : QueryOption}
    {written : List (Text × Text)} (hpairs : o.pairs = .ok written)
    (hname : o.name.isWellFormed)
    (hvalue : ∀ t ∈ o.value.textsOf, Text.isWellFormed t) :
    ∀ p ∈ written, p.1.isWellFormed ∧ p.2.isWellFormed := by
  obtain ⟨name, value⟩ := o
  intro p hp
  cases value with
  | str t =>
      cases hpairs
      cases List.mem_singleton.mp hp
      exact ⟨hname, hvalue t List.mem_cons_self⟩
  | bool b =>
      cases hpairs
      cases List.mem_singleton.mp hp
      refine ⟨hname, ?_⟩
      cases b with
      | false => exact Text.isWellFormed_text "false"
      | true => exact Text.isWellFormed_text "true"
  | int n =>
      rw [QueryOption.pairs_int] at hpairs
      cases htext : Limits.textOf n with
      | error e =>
          rw [htext] at hpairs
          cases hpairs
      | ok t =>
          rw [htext] at hpairs
          cases hpairs
          cases List.mem_singleton.mp hp
          obtain ⟨-, rfl⟩ := Limits.textOf_eq_ok_iff.mp htext
          exact ⟨hname, Text.isWellFormed_ofInt n⟩
  | texts items =>
      cases hpairs
      obtain ⟨t, ht, rfl⟩ := List.mem_map.mp hp
      exact ⟨hname, hvalue t ht⟩

/-- No pair of an encodable operation holds a surrogate. -/
theorem IsEncodable.pairs [L : Limits] (h : op.IsEncodable)
    {pairs : List (Text × Text)}
    (hencode : QueryOption.encode op.options = .ok pairs) :
    ∀ p ∈ pairs, p.1.isWellFormed ∧ p.2.isWellFormed := by
  intro p hp
  obtain ⟨_, -, herror⟩ | ⟨pairs', hok, hpairs⟩ :=
    QueryOption.encode_cases op.options
  · cases herror.symm.trans hencode
  cases hok.symm.trans hencode
  obtain ⟨o, ho, value, written, hvalue, hwritten, hp⟩ := hpairs p hp
  have htexts : ∀ t ∈ o.1 :: value.textsOf, Text.isWellFormed t := by
    intro t ht
    refine h t (List.mem_append_right _ (List.mem_flatMap.mpr ?_))
    refine ⟨o, ho, ?_⟩
    rw [hvalue]
    exact ht
  refine isWellFormed_of_mem_pairs hwritten (htexts o.1 List.mem_cons_self) ?_
    p hp
  intro t ht
  exact htexts t (List.mem_cons_of_mem o.1 ht)

/-- No part of an identifier of an encodable operation holds a surrogate. -/
theorem IsEncodable.name (h : op.IsEncodable) {t u : Text} (ht : t ∈ op.names)
    (hu : u ⊆ t) : u.isWellFormed :=
  Text.isWellFormed_of_subset hu (h t (List.mem_append_left _ ht))

/-- A segment of a document's path is a part of its identifier. -/
theorem subset_of_mem_docPath {id segment : Text} (h : segment ∈ docPath id) :
    segment ⊆ id := by
  have hwhole {t : Text} (ht : t ∈ [id]) : t ⊆ id := by
    rw [List.mem_singleton.mp ht]
    exact List.Subset.refl id
  obtain ⟨hfirst, hrest⟩ := Text.subset_of_cut (.char '/') id
  unfold docPath at h
  split at h
  · split at h
    · next first rest hcut =>
        rw [hcut] at hfirst hrest
        rcases List.mem_cons.mp h with rfl | h
        · exact hfirst
        · rw [List.mem_singleton.mp h]
          exact hrest rest rfl
    · exact hwhole h
  · exact hwhole h

theorem designName_subset (ddoc : Text) : Database.designName ddoc ⊆ ddoc := by
  rw [Database.designName]
  split
  · exact (List.drop_suffix _ ddoc).subset
  · exact List.Subset.refl ddoc

/-- The segments of a path without surrogates have none. -/
theorem isWellFormed_of_mem_segmentsOf {path segment : Text}
    (hpath : path.isWellFormed) (h : segment ∈ Database.segmentsOf path) :
    segment.isWellFormed := by
  obtain ⟨piece, hpiece, rfl⟩ := List.mem_map.mp h
  refine Url.isWellFormed_unquote piece (Text.isWellFormed_of_subset ?_ hpath)
  exact List.Subset.trans (Text.subset_of_mem_splitOn _ _ piece hpiece)
    (Text.strip_subset _ path)

/-! ## The request -/

/-- A URL that cannot be built has a text of the operation in it that cannot
    be written. -/
theorem refuses_of_urlOf [Limits] {res : Resource} {path : List Text}
    {pairs : List (Text × Text)} {e : Error}
    (hparts : op.IsEncodable → (∀ segment ∈ path, Text.isWellFormed segment)
      ∧ ∀ p ∈ pairs, p.1.isWellFormed ∧ p.2.isWellFormed)
    (h : res.urlOf path pairs = .error e) : op.Refuses e := by
  rw [Resource.urlOf] at h
  cases hextend : Url.extend res.url path pairs with
  | error e' =>
      rw [hextend] at h
      cases h
      have hnot : ¬ op.IsEncodable := by
        intro hencodable
        obtain ⟨url, hurl⟩ :=
          (Url.exists_extend_iff res.url).mpr (hparts hencodable)
        rw [hextend] at hurl
        cases hurl
      obtain ⟨t, ht, hwf⟩ := not_forall₂.mp hnot
      exact .unencodable ht (eq_false_of_ne_true hwf)
  | ok url =>
      rw [hextend] at h
      cases h

/-- The error of a reply that is no success may be raised by every operation. -/
theorem mayRaise_failureOf [Limits] {op : Operation} {status : Int}
    (hstatus : Status.isSuccess status = false) (raw : Bytes) :
    op.MayRaise status raw (failureOf status raw) := by
  have hreports := reports_failureOf status raw
  generalize failureOf status raw = e at hreports ⊢
  cases hreports with
  | described hdescribes => exact .http hstatus hdescribes
  | tooDeep hdeep => exact .tooDeep hdeep

/-- Bytes that hold no JSON are a reply that cannot be decoded, unless they
    are too deep to be read. -/
theorem mayRaise_of_decodeBytes [Limits] {op : Operation} {raw : Bytes}
    {e : Error} (h : decodeBytes raw = .error e) (status : Int) :
    op.MayRaise status raw e := by
  obtain ⟨why, rfl⟩ | ⟨what, rfl, hdeep⟩ := decodeBytes_eq_error h
  · exact .decode
  · exact .tooDeep hdeep.isTooDeep

/-- One request is made.  The reply of a failure is read and raised, and a
    success is left to what comes next. -/
theorem isMetBy_request [Limits] {res : Resource} {method : Text} {path : List Text}
    {body : Option Bytes} {fields pairs : List (Text × Text)}
    {next : Response (Body β) → Action ω (Answer β)}
    (hparts : op.IsEncodable → (∀ segment ∈ path, Text.isWellFormed segment)
      ∧ ∀ p ∈ pairs, p.1.isWellFormed ∧ p.2.isWellFormed)
    (hnext : ∀ r, Status.isSuccess r.status → op.IsDoneBy r (next r)) :
    op.IsMetBy (res.request method path body fields pairs >>= next) := by
  rw [Resource.request, bind_assoc]
  refine isMetBy_check (fun _ => refuses_of_urlOf hparts) ?_
  intro url _ w
  let call : Call := ⟨method, url, body, res.headers.copy.update fields⟩
  rw [bind_assoc, Action.bind_apply, Resource.deliver]
  rcases h : Transport.request method url body
    (res.headers.copy.update fields) w with ⟨f | r, w'⟩
  · exact .undelivered call h
  · refine .answered call h ?_
    show op.Handles (call.replyOf r) w'
      ((Resource.succeed (call.replyOf r) >>= next) w').1
      ((Resource.succeed (call.replyOf r) >>= next) w').2
    generalize call.replyOf r = reply
    rw [Action.bind_apply, Resource.succeed, Response.check]
    cases hstatus : Status.isSuccess reply.status with
    | true => exact hnext reply hstatus w'
    | false =>
        dsimp only
        rcases hread : reply.data.readAll w' with ⟨e | bs, b, w''⟩
        · exact .unread hread
        · exact .read hread (.error (mayRaise_failureOf hstatus bs))

/-! ## The reply -/

/-- The body is read, and what comes of it is clear without the world. -/
theorem isDoneBy_readBody [Limits] {next : Bytes → Action ω (Answer β)}
    (hnext : ∀ raw, ∃ result, op.Settles r.status raw result
      ∧ next raw = Action.ofExcept result) :
    op.IsDoneBy r (Resource.readBody r.data >>= next) := by
  intro w
  rw [Action.bind_apply, Resource.readBody]
  rcases hread : r.data.readAll w with ⟨e | bs, b, w'⟩
  · exact .unread hread
  · obtain ⟨result, hsettles, hresult⟩ := hnext bs
    dsimp only
    rw [hresult]
    exact .read hread hsettles

/-- An operation is done by what it makes of the JSON of the reply. -/
theorem isDoneBy_readJson [Limits] {next : Response Json → Action ω (Answer β)}
    (hnext : ∀ answer raw, ∃ result, op.Settles r.status raw result
      ∧ next answer = Action.ofExcept result) :
    op.IsDoneBy r (Resource.readJson r >>= next) := by
  intro w
  rw [Action.bind_apply, Resource.readJson, Body.readJson]
  rcases hread : r.data.readAll w with ⟨e | bs, b, w'⟩
  · exact .unread hread
  · dsimp only
    cases hdecode : decodeBytes bs with
    | error why =>
        exact .read hread (.error (mayRaise_of_decodeBytes hdecode r.status))
    | ok v =>
        obtain ⟨result, hsettles, hresult⟩ := hnext ⟨r.status, r.headers, v⟩ bs
        show op.Handles r w (next ⟨r.status, r.headers, v⟩ w').1
          (next ⟨r.status, r.headers, v⟩ w').2
        rw [hresult]
        exact .read hread hsettles

end Operation

end CouchClient
