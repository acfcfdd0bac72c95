import CouchClient.Proofs.Json.Written

/-! # Readings — a listing that is there as a whole

    A scanner reads a listing from text that arrives in pieces.  A reading
    goes through the same phases with the text in front of it as a whole,
    so it never asks for more: where the text ends it knows what strikes
    there.  Only what is too deep strikes at once.

    * `Reading.step` — one token;
    * `Reading.next`, `Reading.run` — up to the next row, and to the end;
    * `Reading.next_eq`, `Reading.run_eq` — both are runs of steps;
    * `Reading.Completes` — the run gives these rows and comes to the end
      of the listing. -/

namespace CouchClient

/-- What can be told of an error apart from its words: of a reply that is not
    what it should be only that it is not. -/
inductive Outline where
  | decode
  | other (e : Error)

/-- The outline of an error. -/
def Error.outline : Error → Outline
  | .decode _ => .decode
  | e => .other e

/-- A listing that is read from a text. -/
structure Reading where
  phase : Phase
  info : ListingInfo
  text : Text

namespace Reading

/-- Before anything is read. -/
def ofText (t : Text) : Reading := ⟨.start, .initial, t⟩

/-- What a step comes to. -/
inductive Step where
  /-- It goes on. -/
  | go (r : Reading)
  /-- A row is there. -/
  | give (row : Row) (r : Reading)
  /-- Nothing follows. -/
  | stop (ending : Except Outline Unit)

/-- How a text ends, where nothing is wrong with it: with an error that
    strikes there, or with none. -/
def endingOf : Option Outline → Except Outline Unit
  | none => .ok ()
  | some e => .error e

/-- What strikes before it is known that a value has ended, which is followed
    by the given rest of the text. -/
def holdingBack (last : Option Outline) (v : Json) (rest : Text) :
    Option Outline :=
  if Scanner.mayGoOn v rest then last else none

/-- What strikes where no value can be read: what is too deep does so at
    once, and anything else once the text has ended. -/
def striking (last : Option Outline) (flaw : Json.Flaw) : Outline :=
  match flaw.wrong.tooDeep? with
  | some what => .other (.tooDeep what)
  | none => last.getD .decode

/-- What is too deep strikes as that, whatever is still to come. -/
theorem striking_of_tooDeep {last : Option Outline} {flaw : Json.Flaw}
    {what : TooDeep} (h : flaw.wrong.tooDeep? = some what) :
    striking last flaw = .other (.tooDeep what) := by
  rw [striking, h]

/-- A flaw that more text might mend waits for the end of the text. -/
theorem striking_of_not_tooDeep {last : Option Outline} {flaw : Json.Flaw}
    (h : flaw.wrong.tooDeep? = none) :
    striking last flaw = last.getD .decode := by
  rw [striking, h]

/-- The value at the start of a text with the text for it and the text after
    it. -/
def valueAt [L : Limits] (last : Option Outline) (t : Text) :
    Except Outline (Json × Text × Text) :=
  match Json.parse t with
  | .error flaw => .error (striking last flaw)
  | .ok (v, rest) =>
      match holdingBack last v rest with
      | some e => .error e
      | none => .ok (v, t.take (t.length - rest.length), rest)

/-- Reads the value that a text starts with. -/
def valueStep [L : Limits] (f : Text) (last : Option Outline) (r : Reading) (t : Text) :
    Step :=
  match valueAt last t with
  | .error e => .stop (.error e)
  | .ok (v, raw, rest) =>
      match r.phase.afterValue f r.info v raw with
      | .error _ => .stop (.error .decode)
      | .ok (phase, info) => .go ⟨phase, info, rest⟩

/-- Makes a move at a code point, which the given text follows. -/
def moveTo [L : Limits] (f : Text) (last : Option Outline) (r : Reading) (c : CodePoint)
    (t : Text) : Move → Step
  | .refuse _ => .stop (.error .decode)
  | .giveRow members => .give (Row.ofMembers members) ⟨.rowEnd, r.info, t⟩
  | .take phase => .go ⟨phase, r.info, t⟩
  | .value => r.valueStep f last (c :: t)

/-- Reads a token.  `f` is the name of the field that holds the rows, and
    `last` strikes at the end of the text. -/
def step [L : Limits] (f : Text) (last : Option Outline) (r : Reading) : Step :=
  match r.phase, Json.skipBlanks r.text with
  | .finish, _ => .stop (endingOf last)
  | _, [] => .stop (.error (last.getD .decode))
  | _, c :: t => r.moveTo f last c t (r.phase.move f (some c))

variable {f : Text} {last : Option Outline}

theorem step_of_finish [L : Limits] {r : Reading} (hphase : r.phase = .finish) :
    r.step f last = .stop (endingOf last) := by
  rw [step, hphase]

theorem step_of_nil [L : Limits] {r : Reading} (hphase : r.phase ≠ .finish)
    (ht : Json.skipBlanks r.text = []) :
    r.step f last = .stop (.error (last.getD .decode)) := by
  rw [step, ht]
  split
  · next hp => exact (hphase hp).elim
  · rfl
  · next hc _ => cases hc

theorem step_of_cons [L : Limits] {r : Reading} {c : CodePoint} {t : Text}
    (hphase : r.phase ≠ .finish) (ht : Json.skipBlanks r.text = c :: t) :
    r.step f last = r.moveTo f last c t (r.phase.move f (some c)) := by
  rw [step, ht]
  split
  · next hp => exact (hphase hp).elim
  · next hc _ => cases hc
  · next hc _ =>
      cases hc
      rfl

/-- A value takes something of the text. -/
theorem length_of_valueAt [L : Limits] {t raw rest : Text} {v : Json}
    (h : valueAt last t = .ok (v, raw, rest)) : rest.length < t.length := by
  rw [valueAt] at h
  split at h
  · cases h
  · next v' rest' hparse =>
      split at h
      · cases h
      · cases h
        exact Json.length_rest_of_parse hparse

/-- The reading that a step leads to, if it leads to one. -/
def Step.reading? : Step → Option Reading
  | .go r => some r
  | .give _ r => some r
  | .stop _ => none

theorem length_of_valueStep [L : Limits] {r r' : Reading} {t : Text}
    (h : (r.valueStep f last t).reading? = some r') :
    r'.text.length < t.length := by
  rw [valueStep] at h
  split at h
  · cases h
  · next hvalue =>
      split at h
      · cases h
      · cases h
        exact length_of_valueAt hvalue

theorem length_of_moveTo [L : Limits] {r r' : Reading} {c : CodePoint} {t : Text} {m : Move}
    (h : (r.moveTo f last c t m).reading? = some r') :
    r'.text.length < (c :: t).length := by
  cases m with
  | refuse expected => cases h
  | giveRow members =>
      cases h
      exact Nat.lt_succ_self t.length
  | take phase =>
      cases h
      exact Nat.lt_succ_self t.length
  | value => exact length_of_valueStep h

/-- A token takes up text. -/
theorem length_of_step [L : Limits] {r r' : Reading}
    (h : (r.step f last).reading? = some r') :
    r'.text.length < r.text.length := by
  rw [step] at h
  split at h
  · cases h
  · cases h
  · next ht _ =>
      exact Nat.lt_of_lt_of_le (length_of_moveTo h)
        (Json.length_of_skipBlanks ht)

/-- The next row, or nothing at the end. -/
def next [L : Limits] (f : Text) (last : Option Outline) (r : Reading) :
    Except Outline (Option Row) × Reading :=
  match _h : r.step f last with
  | .go r' => next f last r'
  | .give row r' => (.ok (some row), r')
  | .stop (.ok ()) => (.ok none, r)
  | .stop (.error e) => (.error e, r)
termination_by r.text.length
decreasing_by exact length_of_step (by rw [_h]; rfl)

/-- A row takes something of the text. -/
theorem length_of_next [L : Limits] {r r' : Reading} {row : Row}
    (h : r.next f last = (.ok (some row), r')) :
    r'.text.length < r.text.length := by
  fun_induction next f last r with
  | case1 r r' hstep ih => exact Nat.lt_trans (ih h) (length_of_step (by rw [hstep]; rfl))
  | case2 r row r' hstep =>
      cases h
      exact length_of_step (by rw [hstep]; rfl)
  | case3 => cases h
  | case4 => cases h

/-- All rows that are still to come, each with the text after it, how the
    reading ends, and where. -/
def run [L : Limits] (f : Text) (last : Option Outline) (r : Reading) :
    (List (Row × Text) × Except Outline Unit) × Reading :=
  match _h : r.next f last with
  | (.error e, r') => (([], .error e), r')
  | (.ok none, r') => (([], .ok ()), r')
  | (.ok (some row), r') =>
      let ((rows, ending), r'') := run f last r'
      (((row, r'.text) :: rows, ending), r'')
termination_by r.text.length
decreasing_by exact length_of_next _h

/-! ## Runs of steps -/

section
variable {r r' : Reading} {row : Row} {e : Outline}

theorem next_of_go [L : Limits] (h : r.step f last = .go r') :
    r.next f last = r'.next f last := by
  rw [next]
  split
  · next hs => cases h.symm.trans hs; rfl
  all_goals next hs => cases h.symm.trans hs

theorem next_of_give [L : Limits] (h : r.step f last = .give row r') :
    r.next f last = (.ok (some row), r') := by
  rw [next]
  split
  · next hs => cases h.symm.trans hs
  · next hs => cases h.symm.trans hs; rfl
  all_goals next hs => cases h.symm.trans hs

theorem next_of_end [L : Limits] (h : r.step f last = .stop (.ok ())) :
    r.next f last = (.ok none, r) := by
  rw [next]
  split
  · next hs => cases h.symm.trans hs
  · next hs => cases h.symm.trans hs
  · rfl
  · next hs => cases h.symm.trans hs

theorem next_of_error [L : Limits] (h : r.step f last = .stop (.error e)) :
    r.next f last = (.error e, r) := by
  rw [next]
  split
  · next hs => cases h.symm.trans hs
  · next hs => cases h.symm.trans hs
  · next hs => cases h.symm.trans hs
  · next hs => cases h.symm.trans hs; rfl

theorem run_eq [L : Limits] : r.run f last
    = match r.next f last with
      | (.error e, r') => (([], .error e), r')
      | (.ok none, r') => (([], .ok ()), r')
      | (.ok (some row), r') =>
          (((row, r'.text) :: (r'.run f last).1.1, (r'.run f last).1.2),
            (r'.run f last).2) := by
  rw [run]
  split
  · next hs => rw [hs]
  · next hs => rw [hs]
  · next hs => rw [hs]

theorem run_of_go [L : Limits] (h : r.step f last = .go r') :
    r.run f last = r'.run f last := by
  rw [run_eq, next_of_go h, ← run_eq]

theorem run_of_give [L : Limits] (h : r.step f last = .give row r') :
    r.run f last
      = (((row, r'.text) :: (r'.run f last).1.1, (r'.run f last).1.2),
          (r'.run f last).2) := by
  rw [run_eq, next_of_give h]

theorem run_of_end [L : Limits] (h : r.step f last = .stop (.ok ())) :
    r.run f last = (([], .ok ()), r) := by
  rw [run_eq, next_of_end h]

theorem run_of_error [L : Limits] (h : r.step f last = .stop (.error e)) :
    r.run f last = (([], .error e), r) := by
  rw [run_eq, next_of_error h]

end

/-! ## Readings that come to the end of the listing -/

theorem take_of_split {t raw rest : Text} (h : t = raw ++ rest) :
    t.take (t.length - rest.length) = raw := by
  rw [h, List.length_append, Nat.add_sub_cancel, List.take_left]

/-- In a complete text a value is one that is written there and fits. -/
theorem valueAt_none_eq_ok_iff [L : Limits] {t raw rest : Text} {v : Json} :
    valueAt none t = .ok (v, raw, rest)
      ↔ Json.Written.Opens ⟨v, raw, rest⟩ t
        ∧ Json.Written.Fits ⟨v, raw, rest⟩ := by
  have hnone : ∀ v rest, holdingBack none v rest = none :=
    fun _ _ => ite_self none
  rw [Json.Written.opens_and_fits_iff]
  constructor
  · intro h
    rw [valueAt] at h
    split at h
    · cases h
    · next v' rest' hparse =>
        rw [hnone] at h
        cases h
        obtain ⟨raw, hraw⟩ := Json.suffix_of_parse hparse
        rw [take_of_split hraw.symm]
        exact ⟨hraw.symm, hparse⟩
  · rintro ⟨hsplit, hparse⟩
    rw [valueAt, hparse]
    dsimp only
    rw [hnone, take_of_split hsplit]

/-- The reading gives these rows, each with the text after it, and comes to
    the end of the listing. -/
def Completes [L : Limits] (f : Text) (r : Reading) (rows : List (Row × Text))
    (final : Reading) : Prop :=
  r.run f none = ((rows, .ok ()), final)

/-- The same, where the next sign is met with the given move. -/
def CompletesAt [L : Limits] (f : Text) (r : Reading) (c : CodePoint) (t : Text)
    (rows : List (Row × Text)) (final : Reading) : Move → Prop
  | .refuse _ => False
  | .giveRow members => ∃ rows', rows = (Row.ofMembers members, t) :: rows'
      ∧ Completes f ⟨.rowEnd, r.info, t⟩ rows' final
  | .take phase => Completes f ⟨phase, r.info, t⟩ rows final
  | .value => ∃ w : Json.Written, w.Opens (c :: t) ∧ w.Fits ∧ ∃ phase info,
      r.phase.afterValue f r.info w.value w.raw = .ok (phase, info)
        ∧ Completes f ⟨phase, info, w.after⟩ rows final

/-- A listing that is at its end completes with no more rows. -/
theorem completes_finish_iff [L : Limits] {info : ListingInfo} {t : Text}
    {rows : List (Row × Text)} {final : Reading} :
    Completes f ⟨.finish, info, t⟩ rows final
      ↔ rows = [] ∧ final = ⟨.finish, info, t⟩ := by
  have hrun : Reading.run f none ⟨.finish, info, t⟩
      = (([], .ok ()), ⟨.finish, info, t⟩) := run_of_end rfl
  rw [Completes, hrun]
  constructor
  · intro h
    cases h
    exact ⟨rfl, rfl⟩
  · rintro ⟨rfl, rfl⟩
    rfl

theorem not_completes_of_error [L : Limits] {r : Reading} {e : Outline}
    {rows : List (Row × Text)} {final : Reading}
    (h : r.step f none = .stop (.error e)) : ¬ Completes f r rows final := by
  rw [Completes, run_of_error h]
  simp

theorem completes_of_go [L : Limits] {r r' : Reading} {rows : List (Row × Text)}
    {final : Reading} (h : r.step f none = .go r') :
    Completes f r rows final ↔ Completes f r' rows final := by
  rw [Completes, run_of_go h, Completes]

theorem completes_of_give [L : Limits] {r r' : Reading} {row : Row}
    {rows : List (Row × Text)} {final : Reading}
    (h : r.step f none = .give row r') :
    Completes f r rows final
      ↔ ∃ rows', rows = (row, r'.text) :: rows' ∧ Completes f r' rows' final := by
  rw [Completes, run_of_give h]
  constructor
  · intro h
    cases hrun : r'.run f none with
    | mk result final' =>
        obtain ⟨rows', ending⟩ := result
        rw [hrun] at h
        cases h
        exact ⟨rows', rfl, hrun⟩
  · rintro ⟨rows', rfl, hrows'⟩
    rw [show r'.run f none = ((rows', .ok ()), final) from hrows']

/-- A listing completes at a value as it does behind it. -/
theorem completes_of_valueStep [L : Limits] {r : Reading} {c : CodePoint} {t : Text}
    {rows : List (Row × Text)} {final : Reading}
    (hstep : r.step f none = r.valueStep f none (c :: t)) :
    Completes f r rows final ↔ CompletesAt f r c t rows final .value := by
  rw [valueStep] at hstep
  cases hvalue : valueAt none (c :: t) with
  | error e =>
      rw [hvalue] at hstep
      refine iff_of_false (not_completes_of_error hstep) ?_
      rintro ⟨w, hopens, hfits, -⟩
      cases hvalue.symm.trans (valueAt_none_eq_ok_iff.mpr ⟨hopens, hfits⟩)
  | ok found =>
      obtain ⟨v, raw, rest⟩ := found
      rw [hvalue] at hstep
      dsimp only at hstep
      obtain ⟨hopens, hfits⟩ := valueAt_none_eq_ok_iff.mp hvalue
      have hsame (w : Json.Written) (hw : w.Opens (c :: t)) :
          w = ⟨v, raw, rest⟩ := hw.unique hopens
      cases hafter : r.phase.afterValue f r.info v raw with
      | error why =>
          rw [hafter] at hstep
          refine iff_of_false (not_completes_of_error hstep) ?_
          rintro ⟨w, hw, -, phase, info, hw', -⟩
          cases hsame w hw
          cases hafter.symm.trans hw'
      | ok result =>
          obtain ⟨phase, info⟩ := result
          rw [hafter] at hstep
          refine (completes_of_go hstep).trans ?_
          constructor
          · intro h
            exact ⟨_, hopens, hfits, phase, info, hafter, h⟩
          · rintro ⟨w, hw, -, phase', info', hw', h⟩
            cases hsame w hw
            cases hafter.symm.trans hw'
            exact h

/-- Before its end a reading goes on with the move at the next sign. -/
theorem completes_iff [L : Limits] {r : Reading} (hphase : r.phase ≠ .finish)
    {rows : List (Row × Text)} {final : Reading} :
    Completes f r rows final
      ↔ ∃ c t, Json.skipBlanks r.text = c :: t
        ∧ CompletesAt f r c t rows final (r.phase.move f (some c)) := by
  cases ht : Json.skipBlanks r.text with
  | nil =>
      refine iff_of_false (not_completes_of_error (step_of_nil hphase ht)) ?_
      rintro ⟨_, _, hc, -⟩
      cases hc
  | cons c t =>
      have hstep := @step_of_cons f none L r c t hphase ht
      have hhere : Completes f r rows final
          ↔ CompletesAt f r c t rows final (r.phase.move f (some c)) := by
        cases hmove : r.phase.move f (some c) with
        | refuse expected =>
            rw [hmove] at hstep
            exact iff_of_false (not_completes_of_error hstep) id
        | giveRow members =>
            rw [hmove] at hstep
            exact completes_of_give hstep
        | take phase =>
            rw [hmove] at hstep
            exact completes_of_go hstep
        | value =>
            rw [hmove] at hstep
            exact completes_of_valueStep hstep
      constructor
      · intro h
        exact ⟨c, t, rfl, hhere.mp h⟩
      · rintro ⟨_, _, hc, h⟩
        cases hc
        exact hhere.mpr h

end Reading

end CouchClient
