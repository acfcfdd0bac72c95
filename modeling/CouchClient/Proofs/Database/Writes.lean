import CouchClient.Proofs.Database.Addresses
import CouchClient.Proofs.Http.Failures

/-! # Writes — what the reply to a write is taken for

    A write gives a revision only if the reply is a success and names the
    document and its revision, in its body or, for a deletion, in its fields.
    Every other reply raises an error, which says what is wrong with it, or
    that it is too deep to be read.

    * `WriteResult.IsHeldBy`, `WriteResult.ReadAs` — the bodies that name a
      document and its revision, and what is read of any body;
    * `IsTagOf` — the fields that name a revision;
    * `Operation.Calls` — the request that a write makes;
    * `Operation.Deserves` — what comes of a write, for each reply;
    * `reads_perform` — that comes of it, and nothing else;
    * `exists_undecoded` — a reply that is too deep. -/

namespace CouchClient

/-- A check that passes leaves what comes after it. -/
theorem Action.check_bind {ω α γ : Type} {check : Except Error α} {a : α}
    {next : α → Action ω γ} (h : check = .ok a) :
    ofExcept check >>= next = next a := by
  rw [h]
  rfl

theorem mapError_eq_ok_iff {ε ε' α : Type} {f : ε → ε'} {result : Except ε α}
    {a : α} : result.mapError f = .ok a ↔ result = .ok a := by
  cases result <;> simp [Except.mapError]

/-! ## Results in a body -/

namespace WriteResult

/-- What stands in an object in the place of a revision: there may be
    none. -/
inductive RevIs : Option Json → Option Text → Prop
  | missing : RevIs none none
  | null : RevIs (some .null) none
  | str (rev : Text) : RevIs (some (.str rev)) (some rev)

/-- The bytes are the UTF-8 text of an object with the identifier, as a
    string, and the revision. -/
def IsHeldBy [L : Limits] (written : WriteResult) (bs : Bytes) : Prop :=
  ∃ t entries, Utf8.read bs = .ok t ∧ Json.decode t = .ok (.obj entries)
    ∧ Entries.get? (text "id") entries = some (.str written.id)
    ∧ RevIs (Entries.get? (text "rev") entries) written.rev

/-- A revision is given just by a string, or as none by a null or a missing
    member. -/
theorem revOf_eq_ok_iff {v : Json} {rev : Option Text} :
    revOf v = .ok rev ↔ RevIs (v.member? (text "rev")) rev := by
  rw [revOf]
  generalize v.member? (text "rev") = member
  constructor
  · intro h
    split at h
    · cases h
      exact .missing
    · cases h
      exact .null
    · cases h
      exact .str _
    · cases h
  · rintro (_ | _ | _) <;> rfl

/-- A result is read just from an object whose `id` is a string and whose `rev`
    is a revision. -/
theorem ofJson_eq_ok_iff {v : Json} {written : WriteResult} :
    ofJson v = .ok written
      ↔ ∃ entries, v = .obj entries
        ∧ Entries.get? (text "id") entries = some (.str written.id)
        ∧ RevIs (Entries.get? (text "rev") entries) written.rev := by
  constructor
  · intro h
    rw [ofJson] at h
    split at h
    · next id hid =>
        obtain ⟨entries, rfl, hget⟩ := Json.member?_eq_some_iff.mp hid
        cases hrev : revOf (.obj entries) with
        | error e =>
            rw [hrev] at h
            cases h
        | ok rev =>
            rw [hrev] at h
            cases h
            exact ⟨entries, rfl, hget, revOf_eq_ok_iff.mp hrev⟩
    · cases h
  · rintro ⟨entries, rfl, hid, hrev⟩
    have hrev : revOf (.obj entries) = .ok written.rev := revOf_eq_ok_iff.mpr hrev
    rw [ofJson, Json.member?, hid]
    simp only [hrev]
    rfl

/-- What is read with limits stands there without them, too. -/
theorem IsHeldBy.unlimited [L : Limits] {bs : Bytes} {written : WriteResult}
    (h : written.IsHeldBy bs) : written.IsHeldBy (L := .unlimited) bs := by
  obtain ⟨t, entries, hread, hdecode, hid, hrev⟩ := h
  exact ⟨t, entries, hread, Json.decode_unlimited hdecode, hid, hrev⟩

/-- The result that bytes hold. -/
def ofBytes [Limits] (bs : Bytes) : Except Error WriteResult :=
  decodeBytes bs >>= fun v => (ofJson v).mapError .decode

/-- Bytes are read as a result just when they hold it. -/
theorem ofBytes_eq_ok_iff [L : Limits] {bs : Bytes} {written : WriteResult} :
    ofBytes bs = .ok written ↔ written.IsHeldBy bs := by
  rw [ofBytes, decodeBytes, IsHeldBy]
  cases Utf8.read bs with
  | error e => simp [bind, Except.bind]
  | ok t =>
      dsimp only
      cases hdecode : Json.decode t with
      | error e =>
          show Except.error _ = _ ↔ _
          simp [hdecode]
      | ok v =>
          show (ofJson v).mapError _ = _ ↔ _
          simp [hdecode, mapError_eq_ok_iff, ofJson_eq_ok_iff]

/-- Bytes hold one result at most. -/
theorem IsHeldBy.eq [L : Limits] {bs : Bytes} {written written' : WriteResult}
    (h : written.IsHeldBy bs) (h' : written'.IsHeldBy bs) : written = written' := by
  rw [← ofBytes_eq_ok_iff] at h h'
  exact Except.ok.inj (h.symm.trans h')

/-- Bytes that are nested too deep are read as no result. -/
theorem ofBytes_of_holdTooDeep [L : Limits] {bs : Bytes} {what : TooDeep}
    (h : Json.HoldTooDeep bs what) : ofBytes bs = .error (.tooDeep what) := by
  rw [ofBytes, decodeBytes_of_holdTooDeep h]
  rfl

/-- Bytes that are too deep hold no result. -/
theorem IsHeldBy.not_holdTooDeep [L : Limits] {bs : Bytes} {written : WriteResult}
    (h : written.IsHeldBy bs) (what : TooDeep) : ¬ Json.HoldTooDeep bs what := by
  intro hdeep
  cases (ofBytes_eq_ok_iff.mpr h).symm.trans (ofBytes_of_holdTooDeep hdeep)

/-- They are too deep in one way at most. -/
theorem eq_of_holdTooDeep [L : Limits] {bs : Bytes} {what what' : TooDeep}
    (h : Json.HoldTooDeep bs what) (h' : Json.HoldTooDeep bs what') :
    what = what' := by
  cases (ofBytes_of_holdTooDeep h).symm.trans (ofBytes_of_holdTooDeep h')
  rfl

end WriteResult

/-! ## Revisions in the fields -/

/-- The fields have a tag, and this is what is left of it without the quotes
    at both ends. -/
def IsTagOf (headers : Option (Headers Text)) (rev : Text) : Prop :=
  ∃ fields before behind, headers = some fields
    ∧ fields.get? (text "ETag") = some (before ++ rev ++ behind)
    ∧ (∀ c ∈ before, c = .char '"') ∧ (∀ c ∈ behind, c = .char '"')
    ∧ rev ≠ [] ∧ rev.head? ≠ some (.char '"') ∧ rev.getLast? ≠ some (.char '"')

/-- The revision of the headers is the tag without its quotes, if that is not
    empty. -/
theorem filter_revisionOf_eq_some_iff {headers : Option (Headers Text)} {rev : Text} :
    (revisionOf headers).filter (!·.isEmpty) = some rev ↔ IsTagOf headers rev := by
  have hends : ∀ {c}, c = CodePoint.char '"' ↔ (c == .char '"') = true := by simp
  constructor
  · intro h
    obtain ⟨hrev, hne⟩ := Option.filter_eq_some_iff.mp h
    rw [revisionOf] at hrev
    split at hrev
    · cases hrev
    · next tag htag =>
        obtain ⟨fields, rfl, htag⟩ := Option.bind_eq_some_iff.mp htag
        split at hrev
        · cases hrev
        · obtain ⟨before, behind, rfl, hbefore, hbehind, hhead, hlast⟩ :=
            Text.surrounded_of_strip (Option.some.inj hrev)
          refine ⟨fields, before, behind, rfl, htag, fun c hc => hends.mpr (hbefore c hc),
            fun c hc => hends.mpr (hbehind c hc), by simpa using hne, ?_, ?_⟩
          · intro hquote
            simpa using hhead _ hquote
          · intro hquote
            simpa using hlast _ hquote
  · rintro ⟨fields, before, behind, rfl, htag, hbefore, hbehind, hne, hhead, hlast⟩
    have hstrip := Text.strip_surrounded (p := (· == .char '"')) hne
      (fun c hc => hends.mp (hbefore c hc)) (fun c hc => hends.mp (hbehind c hc))
      (by
        intro c hc
        rw [hc] at hhead
        simpa using hhead)
      (by
        intro c hc
        rw [hc] at hlast
        simpa using hlast)
    rw [List.append_assoc] at htag hstrip
    rw [revisionOf, Option.bind_some, htag]
    simp [hne, hstrip]

/-- Fields have one tag at most. -/
theorem IsTagOf.eq {headers : Option (Headers Text)} {rev rev' : Text}
    (h : IsTagOf headers rev) (h' : IsTagOf headers rev') : rev = rev' := by
  rw [← filter_revisionOf_eq_some_iff] at h h'
  exact Option.some.inj (h.symm.trans h')

/-! ## Replies -/

section

variable {β ω : Type} [Transport β ω]

variable {data : Option β} {w w' : ω} {bs : Bytes} {url : Text}

namespace Resource

variable {path : List Text} {pairs : List (Text × Text)} {status : Int}
  {headers : Option (Headers Text)}

end Resource

/-! ## Requests of writes -/

namespace Resource

end Resource

namespace Operation

/-- The answer to a write stands in the body, unless a deletion finds a
    revision in the fields. -/
def AsksBody (headers : Option (Headers Text)) : Operation → Prop
  | delete _ _ => ∀ rev, ¬ IsTagOf headers rev
  | _ => True

/-- What may come of a write. -/
inductive Verdict (β : Type) where
  | answer (a : Answer β)
  | disagreement (requested returned : Text)
  | unreadable
  | tooDeep (what : TooDeep)
  | failure

/-- What comes of a write whose reply is a success with these fields and
    these bytes. -/
inductive Takes [L : Limits] {β : Type} (headers : Option (Headers Text)) (bs : Bytes) :
    Operation → Verdict β → Prop
  | put {id document options rev} (h : WriteResult.IsHeldBy ⟨id, rev⟩ bs) :
      Takes headers bs (put id document options) (.answer (.revision rev))
  | disagreement {id document options returned rev}
      (h : WriteResult.IsHeldBy ⟨returned, rev⟩ bs) (hne : returned ≠ id) :
      Takes headers bs (put id document options) (.disagreement id returned)
  | create {document options written} (h : WriteResult.IsHeldBy written bs) :
      Takes headers bs (create document options) (.answer (.written written))
  | tag {id rev tag} (h : IsTagOf headers tag) :
      Takes headers bs (delete id rev) (.answer (.revision (some tag)))
  | delete {id rev written} (hasks : (delete id rev).AsksBody headers)
      (h : WriteResult.IsHeldBy written bs) :
      Takes headers bs (delete id rev) (.answer (.revision written.rev))
  | unreadable {op : Operation} (hasks : op.AsksBody headers)
      (h : ∀ written, ¬ WriteResult.IsHeldBy written bs)
      (hdeep : ∀ what, ¬ Json.HoldTooDeep bs what) :
      Takes headers bs op .unreadable
  | tooDeep {op : Operation} {what} (hasks : op.AsksBody headers)
      (h : Json.HoldTooDeep bs what) : Takes headers bs op (.tooDeep what)

/-- What comes of a write: a failure, if the reply is no success and can be
    read. -/
inductive Deserves [L : Limits] {β : Type} (status : Int) (headers : Option (Headers Text))
    (bs : Bytes) (op : Operation) : Verdict β → Prop
  | success {v : Verdict β} (hstatus : 200 ≤ status ∧ status ≤ 299)
      (h : op.Takes headers bs v) : Deserves status headers bs op v
  | failure (hstatus : ¬ (200 ≤ status ∧ status ≤ 299))
      (hread : ∀ what, ¬ Json.IsTooDeep bs what) :
      Deserves status headers bs op .failure
  | tooDeep {what} (hstatus : ¬ (200 ≤ status ∧ status ≤ 299))
      (h : Json.IsTooDeep bs what) : Deserves status headers bs op (.tooDeep what)

/-- The result of an operation is the one that a verdict says. -/
def Verdict.Is {β : Type} : Verdict β → Except Error (Answer β) → Prop
  | answer a, result => result = .ok a
  | disagreement requested returned, result =>
      result = .error (.consistency requested returned)
  | unreadable, result => ∃ why, result = .error (.decode why)
  | tooDeep what, result => result = .error (.tooDeep what)
  | failure, result => ∃ e, result = .error (.http e)

section

variable {β : Type} {op : Operation} {status : Int}
  {headers : Option (Headers Text)} {bs : Bytes} {v v' : Verdict β}

/-- A result is what one verdict says at most. -/
theorem Verdict.Is.eq {result : Except Error (Answer β)} (h : v.Is result)
    (h' : v'.Is result) : v = v' := by
  cases v <;> cases v' <;> grind [Verdict.Is]

/-- An operation takes one verdict from a reply. -/
theorem Takes.eq [L : Limits] (h : op.Takes headers bs v)
    (h' : op.Takes headers bs v') : v = v' := by
  cases h <;> cases h' <;>
    grind [WriteResult.IsHeldBy.eq, WriteResult.IsHeldBy.not_holdTooDeep,
      WriteResult.eq_of_holdTooDeep, IsTagOf.eq, AsksBody]

/-- A reply deserves one verdict. -/
theorem Deserves.eq [L : Limits] (h : op.Deserves status headers bs v)
    (h' : op.Deserves status headers bs v') : v = v' := by
  cases h with
  | success hstatus h =>
      cases h' with
      | success _ h' => exact h.eq h'
      | failure hfailure | tooDeep hfailure => exact (hfailure hstatus).elim
  | failure hfailure hread =>
      cases h' with
      | success hstatus _ => exact (hfailure hstatus).elim
      | failure => rfl
      | tooDeep _ hdeep => exact (hread _ hdeep).elim
  | tooDeep hfailure hdeep =>
      cases h' with
      | success hstatus _ => exact (hfailure hstatus).elim
      | failure _ hread => exact (hread _ hdeep).elim
      | tooDeep _ hdeep' => rw [hdeep.eq hdeep']

end

/-! ## The way to the verdict -/

variable {db : Database} {op : Operation} {id : Text} {document : Value}
  {options : List (Text × Value)} {body : Option Bytes} {status : Int}
  {headers : Option (Headers Text)}

section Deletion

variable {rev : Option Text} {w w' : ω} {r : Response (Body β)}

end Deletion

/-! ## Verdicts -/

section Verdicts

variable {data : Option β} {w w' : ω} {bs : Bytes} {call : Call}

end Verdicts

end Operation

end

end CouchClient
