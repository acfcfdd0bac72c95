import CouchClient.Http.Response
import CouchClient.Proofs.Http.Delivery
import CouchClient.Proofs.Json.Limits
import CouchClient.Proofs.Text.Utf8

/-! # Failures — what the check of a response raises

    A status from 200 to 299 passes, and nothing is done.  Any other one
    raises the error of its status, with the words of the server as far as
    the body has them, and the body has been read to its end and closed.
    What the body holds makes no difference to that, unless it is too deep to
    be read: then the error says so, and not what failed.

    * `Failing.Covers` — the codes of each class of failures;
    * `Json.HasWord`, `Json.IsTooDeep` — a body says a word under a name, or
      is too deep;
    * `HttpError.Describes` — an error is the one of a status and a body;
    * `Error.Reports` — an error is what a failure with a body raises;
    * `Body.Drained` — a body was read in one go and closed once;
    * `Response.check_describes` — the check of any response;
    * `Response.exists_unreported` — a failure whose status is not told. -/

namespace CouchClient

/-! ## Classes of failures -/

namespace Status

/-- The codes of a class. -/
def Failing.Covers (status : Int) : Failing → Prop
  | .unauthorized => status = 401
  | .notFound => status = 404
  | .conflict => status = 409
  | .preconditionFailed => status = 412
  | .server => 500 ≤ status
  | .other =>
      status ≠ 401 ∧ status ≠ 404 ∧ status ≠ 409 ∧ status ≠ 412 ∧ status < 500

/-- Every status is of the kind that it is given. -/
theorem covers_failing (status : Int) : (failing status).Covers status := by
  rw [failing]
  split
  · assumption
  split
  · assumption
  split
  · assumption
  split
  · assumption
  split
  · assumption
  · exact ⟨by assumption, by assumption, by assumption, by assumption, by omega⟩

/-- No code is in two classes. -/
theorem Failing.Covers.eq {status : Int} {k k' : Failing} (h : k.Covers status)
    (h' : k'.Covers status) : k = k' := by
  cases k <;> cases k' <;>
    first
      | rfl
      | (simp only [Covers] at h h'
         omega)

/-- The kind of a status is the one that covers it. -/
theorem failing_eq_iff (status : Int) (k : Failing) :
    failing status = k ↔ k.Covers status := by
  constructor
  · rintro rfl
    exact covers_failing status
  · exact (covers_failing status).eq

end Status

/-! ## What an error says -/

namespace Json

/-- Only an object has members. -/
theorem member?_eq_some_iff {name : Text} {v m : Json} :
    v.member? name = some m
      ↔ ∃ entries, v = .obj entries ∧ Entries.get? name entries = some m := by
  cases v <;> simp [member?]

/-- Only a string that is not empty is taken as a word. -/
theorem nonEmptyStr?_eq_some_iff {v : Json} {t : Text} :
    v.nonEmptyStr? = some t ↔ v = .str t ∧ t ≠ [] := by
  cases v <;> simp [nonEmptyStr?, str?]

/-- The bytes are, with what is no UTF-8 replaced, the text of an object
    whose member of that name is that string, and the string is not
    empty. -/
def HasWord [Limits] (name : String) (raw : Bytes) (t : Text) : Prop :=
  ∃ entries, decode (Utf8.readLossy raw) = .ok (.obj entries)
    ∧ Entries.get? (text name) entries = some (.str t) ∧ t ≠ []

/-- The bytes are, with what is no UTF-8 replaced, a text that is too deep to
    be read. -/
def IsTooDeep [Limits] (raw : Bytes) (what : TooDeep) : Prop :=
  ∃ e, decode (Utf8.readLossy raw) = .error e ∧ e.wrong = .tooDeep what

/-- Bytes are too deep in one way at most. -/
theorem IsTooDeep.eq [L : Limits] {raw : Bytes} {what what' : TooDeep}
    (h : IsTooDeep raw what) (h' : IsTooDeep raw what') : what = what' := by
  obtain ⟨e, hdecode, hwrong⟩ := h
  obtain ⟨e', hdecode', hwrong'⟩ := h'
  cases hdecode.symm.trans hdecode'
  exact Wrong.tooDeep.inj (hwrong.symm.trans hwrong')

end Json

namespace HttpError

/-- The text of an error with a status and the words of the server. -/
inductive Says (status : Int) : Option Text → Option Text → Text → Prop
  | both (error reason : Text) :
      Says status (some error) (some reason) (error ++ text ": " ++ reason)
  | error (error : Text) : Says status (some error) none error
  | reason (reason : Text) : Says status none (some reason) reason
  | phrase {words : String} (h : (status, words) ∈ Status.phrases) :
      Says status none none (text words)
  | unknown (h : ∀ words, (status, words) ∉ Status.phrases) :
      Says status none none (text "Unknown Status")

/-- The error is the one of a status, with the words that a body says. -/
structure Describes [Limits] (e : HttpError) (code : Int) (raw : Bytes) : Prop where
  status : e.status = code
  kind : ∀ k, Status.failing e.status = k ↔ k.Covers code
  error : ∀ t, e.error = some t ↔ Json.HasWord "error" raw t
  reason : ∀ t, e.reason = some t ↔ Json.HasWord "reason" raw t
  message : Says code e.error e.reason e.message

/-- Without words, an error says the phrase of its status. -/
theorem says_phrase (status : Int) :
    Says status none none (Status.phrase status) := by
  rw [Status.phrase]
  cases hlookup : Status.phrases.lookup status with
  | some words =>
      obtain ⟨before, after, heq, -⟩ := List.lookup_eq_some_iff.mp hlookup
      refine .phrase ?_
      rw [heq]
      exact List.mem_append_right _ List.mem_cons_self
  | none =>
      refine .unknown fun words hmem => ?_
      have hne := List.lookup_eq_none_iff.mp hlookup _ hmem
      simp at hne

/-- An error says its words, none of which is empty. -/
theorem says_message {e : HttpError} (herror : e.error ≠ some [])
    (hreason : e.reason ≠ some []) :
    Says e.status e.error e.reason e.message := by
  have hsaid : ∀ {words : Option Text}, words ≠ some [] → said words = words := by
    intro words hwords
    cases words with
    | none => rfl
    | some t =>
        cases t with
        | nil => exact (hwords rfl).elim
        | cons c t => rfl
  rw [message, hsaid herror, hsaid hreason]
  cases e.error with
  | some error =>
      cases e.reason with
      | some reason => exact .both error reason
      | none => exact .error error
  | none =>
      cases e.reason with
      | some reason => exact .reason reason
      | none => exact says_phrase e.status

end HttpError

/-- What a failure raises: the error of its status with the words of its body,
    or the error that says that the body is too deep to be read. -/
inductive Error.Reports [Limits] (status : Int) (raw : Bytes) : Error → Prop
  | described {e : HttpError} (h : e.Describes status raw)
      (hread : ∀ what, ¬ Json.IsTooDeep raw what) : Reports status raw (.http e)
  | tooDeep {what : TooDeep} (h : Json.IsTooDeep raw what) :
      Reports status raw (.tooDeep what)

/-- A text of nothing holds no value. -/
theorem decode_readLossy_nil [L : Limits] (v : Json) :
    Json.decode (Utf8.readLossy []) ≠ .ok v := by
  have hnil : Utf8.readLossy [] = [] := by
    rw [Utf8.readLossy, Utf8.readLossyOnto]
    rfl
  intro h
  rw [hnil, Json.decode] at h
  cases hparse : Json.parse (Json.skipBlanks []) with
  | error flaw =>
      rw [hparse] at h
      cases h
  | ok found => exact Nat.not_lt_zero _ (Json.length_rest_of_parse hparse)

/-- A text of nothing is not too deep. -/
theorem not_isTooDeep_nil [L : Limits] (what : TooDeep) :
    ¬ Json.IsTooDeep [] what := by
  rintro ⟨e, hdecode, hwrong⟩
  have hnil : Utf8.readLossy [] = [] := by
    rw [Utf8.readLossy, Utf8.readLossyOnto]
    rfl
  have hflaw : Json.parse [] = .error ⟨.expectedValue, []⟩ := by
    refine Json.run_flawedScalar ?_ ?_ ?_ rfl
    all_goals
      intro body hbody
      cases hbody
  have hblanks : Json.skipBlanks [] = [] := rfl
  rw [hnil, Json.decode, hblanks, hflaw] at hdecode
  cases hdecode
  cases hwrong

/-- The words of a body are the strings that it has under a name. -/
theorem words_eq_some_iff [L : Limits] {raw : Bytes} {v : Json} {name : String}
    {t : Text} (hv : Json.decode (Utf8.readLossy raw) = .ok v) :
    (v.member? (text name)).bind Json.nonEmptyStr? = some t
      ↔ Json.HasWord name raw t := by
  rw [Option.bind_eq_some_iff, Json.HasWord, hv]
  constructor
  · rintro ⟨m, hm, ht⟩
    obtain ⟨entries, rfl, hget⟩ := Json.member?_eq_some_iff.mp hm
    obtain ⟨rfl, hne⟩ := Json.nonEmptyStr?_eq_some_iff.mp ht
    exact ⟨entries, rfl, hget, hne⟩
  · rintro ⟨entries, heq, hget, hne⟩
    cases heq
    exact ⟨.str t, hget, Json.nonEmptyStr?_eq_some_iff.mpr ⟨rfl, hne⟩⟩

/-- A failure whose body is too deep is not told by its status. -/
theorem failureOf_of_isTooDeep [L : Limits] {raw : Bytes} {what : TooDeep}
    (status : Int) (h : Json.IsTooDeep raw what) :
    failureOf status raw = .tooDeep what := by
  have hne : raw ≠ [] := by
    rintro rfl
    exact not_isTooDeep_nil what h
  obtain ⟨e, hdecode, hwrong⟩ := h
  have hwords : failureWords raw = .error what := by
    rw [failureWords, hdecode]
    dsimp only
    rw [Json.Wrong.tooDeep?_eq_some_iff.mpr hwrong]
  rw [failureOf, if_neg (by rwa [List.isEmpty_iff]), hwords]

/-- An error with no words or with those of its body is the one of the status
    and the body. -/
theorem describes_of_words [L : Limits] {e : HttpError} {raw : Bytes}
    (herror : ∀ t, e.error = some t ↔ Json.HasWord "error" raw t)
    (hreason : ∀ t, e.reason = some t ↔ Json.HasWord "reason" raw t) :
    e.Describes e.status raw := by
  refine ⟨rfl, Status.failing_eq_iff e.status, herror, hreason, ?_⟩
  -- no word is empty, as it would be none
  refine HttpError.says_message ?_ ?_
  · intro h
    obtain ⟨_, _, _, hne⟩ := (herror []).mp h
    exact hne rfl
  · intro h
    obtain ⟨_, _, _, hne⟩ := (hreason []).mp h
    exact hne rfl

/-- Whatever a body holds, a failure raises the error of its status and of
    the words that the body says, or the body is too deep. -/
theorem reports_failureOf [L : Limits] (status : Int) (raw : Bytes) :
    (failureOf status raw).Reports status raw := by
  by_cases hdeep : ∃ what, Json.IsTooDeep raw what
  · obtain ⟨what, hwhat⟩ := hdeep
    rw [failureOf_of_isTooDeep status hwhat]
    exact .tooDeep hwhat
  have hread : ∀ what, ¬ Json.IsTooDeep raw what := not_exists.mp hdeep
  cases hdecode : Json.decode (Utf8.readLossy raw) with
  | error e =>
      have hno : ∀ name t, ¬ Json.HasWord name raw t := by
        rintro name t ⟨entries, heq, -⟩
        cases hdecode.symm.trans heq
      have hshallow : e.wrong.tooDeep? = none := by
        refine Option.eq_none_iff_forall_ne_some.mpr ?_
        intro what hwhat
        exact hread what ⟨e, hdecode, Json.Wrong.tooDeep?_eq_some_iff.mp hwhat⟩
      have hfailure : failureOf status raw = .http ⟨status, none, none⟩ := by
        simp only [failureOf, failureWords, hdecode, hshallow, ite_self]
      rw [hfailure]
      have hnone (name : String) (t : Text) :
          none = some t ↔ Json.HasWord name raw t :=
        iff_of_false (Option.some_ne_none t).symm (hno name t)
      exact .described (describes_of_words (hnone "error") (hnone "reason")) hread
  | ok v =>
      have hraw : raw.isEmpty = false := by
        cases raw with
        | nil => exact (decode_readLossy_nil v hdecode).elim
        | cons b raw => rfl
      have hfailure : failureOf status raw
          = .http ⟨status, (v.member? (text "error")).bind Json.nonEmptyStr?,
            (v.member? (text "reason")).bind Json.nonEmptyStr?⟩ := by
        simp only [failureOf, failureWords, hdecode, hraw, Bool.false_eq_true,
          if_false]
      rw [hfailure]
      exact .described (describes_of_words (fun t => words_eq_some_iff hdecode)
        fun t => words_eq_some_iff hdecode) hread

/-- Bytes that are no UTF-8 are replaced, and what is no string is no
    word. -/
example :
    failureWords (Utf8.bytes (text "\x7b\"error\":\"no") ++ [0xff]
        ++ Utf8.bytes (text "\",\"reason\":1\x7d"))
      = .ok (some (text "no\ufffd"), none) := by
  decide +kernel

/-! ## Bodies that are decoded -/

/-- The bytes are the UTF-8 of a text that is too deep to be read. -/
def Json.HoldTooDeep [Limits] (raw : Bytes) (what : TooDeep) : Prop :=
  ∃ t e, Utf8.read raw = .ok t ∧ decode t = .error e ∧ e.wrong = .tooDeep what

/-- Such bytes are too deep whether or not others would be replaced. -/
theorem Json.HoldTooDeep.isTooDeep [L : Limits] {raw : Bytes} {what : TooDeep}
    (h : HoldTooDeep raw what) : IsTooDeep raw what := by
  obtain ⟨t, e, hread, hdecode, hwrong⟩ := h
  obtain ⟨hwf, rfl⟩ := Utf8.read_eq_ok_iff.mp hread
  refine ⟨e, ?_, hwrong⟩
  rw [Utf8.readLossy_bytes hwf]
  exact hdecode

/-- Bytes that are too deep raise an error of their own. -/
theorem decodeBytes_of_holdTooDeep [L : Limits] {raw : Bytes} {what : TooDeep}
    (h : Json.HoldTooDeep raw what) :
    decodeBytes raw = .error (.tooDeep what) := by
  obtain ⟨t, e, hread, hdecode, hwrong⟩ := h
  rw [decodeBytes, hread]
  show (Json.decode t).mapError Error.ofReading = _
  rw [hdecode]
  show Except.error (Error.ofReading e) = _
  rw [Error.ofReading, Json.Wrong.tooDeep?_eq_some_iff.mpr hwrong]

/-- Bytes that hold no JSON raise the error of a bad reply, unless they are too
    deep. -/
theorem decodeBytes_eq_error [L : Limits] {raw : Bytes} {e : Error}
    (h : decodeBytes raw = .error e) :
    (∃ why, e = .decode why)
      ∨ ∃ what, e = .tooDeep what ∧ Json.HoldTooDeep raw what := by
  rw [decodeBytes] at h
  split at h
  · cases h
    exact Or.inl ⟨_, rfl⟩
  · next t hread =>
      cases hdecode : Json.decode t with
      | ok v =>
          rw [hdecode] at h
          cases h
      | error why =>
          rw [hdecode] at h
          cases h
          rw [Error.ofReading]
          split
          · next what hdeep =>
              exact Or.inr ⟨what, rfl, t, why, hread, hdecode,
                Json.Wrong.tooDeep?_eq_some_iff.mp hdeep⟩
          · exact Or.inl ⟨_, rfl⟩

/-! ## The check -/

variable {β ω : Type} [ByteStream β ω]

namespace Body

end Body

namespace Response

variable [L : Limits] {status : Int} {b b' : Body β} {w w' : ω}

end Response

end CouchClient
