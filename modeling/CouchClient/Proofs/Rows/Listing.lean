import CouchClient.Proofs.Rows.Reading
import Mathlib.Data.List.Forall2

/-! # Listings as they are written

    A reading that comes to the end of a listing has gone through one
    object, and what it gave is what the object is written with. -/

namespace CouchClient

open Json (Written MembersAt ObjectAt ElementsAt ArrayAt readName readString
  skipBlanks)

namespace Reading

variable {f : Text} {info : ListingInfo} {t : Text} {rows : List (Row × Text)}
  {final : Reading}

/-! ## Names -/

/-- A written string begins with its quote and is read up to the other. -/
theorem parse_quote_iff {body : Text} {w : Written} :
    w.Opens (.char '"' :: body)
      ↔ ∃ name, readString body = .ok (name, w.after) ∧ w.value = .str name
        ∧ .char '"' :: body = w.raw ++ w.after := by
  constructor
  · rintro ⟨hsplit, hreads⟩
    rcases Json.parse_cases hreads with
      ⟨_, name, hbody, hs, hv⟩ | ⟨_, ha, -⟩ | ⟨_, ho, -⟩ | hscalar
    · cases hbody
      exact ⟨name, hs, hv, hsplit⟩
    · cases ha
    · cases ho
    · cases hscalar
  · rintro ⟨name, hs, hv, hsplit⟩
    refine ⟨hsplit, ?_⟩
    rw [hv]
    exact (Json.run_string (L := .unlimited) hs).trans
      (Json.run_nil (L := .unlimited))

/-- Where a name is due, the reading goes on with the phase for it. -/
theorem completes_name_iff [L : Limits] (phase : Phase) (next : Text → Phase)
    (hphase : phase ≠ .finish)
    (hmove : ∀ c, phase.move f (some c) = Phase.nameMove (some c))
    (hafter : ∀ name raw,
      phase.afterValue f info (.str name) raw = .ok (next name, info)) :
    Completes f ⟨phase, info, t⟩ rows final
      ↔ ∃ body name r, skipBlanks t = .char '"' :: body
        ∧ readString body = .ok (name, r)
        ∧ Completes f ⟨next name, info, r⟩ rows final := by
  rw [completes_iff hphase]
  constructor
  · rintro ⟨c, t', ht, h⟩
    rw [hmove, Phase.nameMove] at h
    split at h
    · next hc =>
        cases hc
        obtain ⟨w, hopens, -, phase', info', hnext, h⟩ := h
        obtain ⟨name, hs, hv, -⟩ := parse_quote_iff.mp hopens
        rw [hv, hafter] at hnext
        cases hnext
        exact ⟨t', name, w.after, ht, hs, h⟩
    · exact h.elim
  · rintro ⟨body, name, r, ht, hs, h⟩
    refine ⟨.char '"', body, ht, ?_⟩
    rw [hmove]
    obtain ⟨raw, hraw⟩ := (Json.suffix_of_readString hs).trans
      (List.suffix_cons (.char '"') body)
    have hopens : Written.Opens ⟨.str name, raw, r⟩ (.char '"' :: body) :=
      parse_quote_iff.mpr ⟨name, hs, rfl, hraw.symm⟩
    exact ⟨_, hopens, hopens.fits_of_quote, next name, info, hafter name raw, h⟩

/-- Where one sign alone is accepted, the reading goes on behind it. -/
theorem completes_sign_iff [L : Limits] (phase next : Phase) (sign : CodePoint)
    (hphase : phase ≠ .finish)
    (hmove : ∀ c, phase.move f (some c)
      = if some c = some sign then .take next else .refuse [sign]) :
    Completes f ⟨phase, info, t⟩ rows final
      ↔ ∃ r, skipBlanks t = sign :: r ∧ Completes f ⟨next, info, r⟩ rows final := by
  rw [completes_iff hphase]
  constructor
  · rintro ⟨c, r, ht, h⟩
    rw [hmove] at h
    split at h
    · next hc =>
        cases hc
        exact ⟨r, ht, h⟩
    · exact h.elim
  · rintro ⟨r, ht, h⟩
    refine ⟨sign, r, ht, ?_⟩
    rw [hmove, if_pos rfl]
    exact h

/-- Where a comma or another sign is accepted, the reading goes on behind
    it. -/
theorem completes_either_iff [L : Limits] (phase : Phase) (sign : CodePoint)
    (onComma onSign : Move) (hphase : phase ≠ .finish)
    (hsign : sign ≠ .char ',')
    (hmove : ∀ c, phase.move f (some c)
      = if some c = some (.char ',') then onComma
        else if some c = some sign then onSign
        else .refuse [.char ',', sign]) :
    Completes f ⟨phase, info, t⟩ rows final
      ↔ (∃ r, skipBlanks t = .char ',' :: r
          ∧ CompletesAt f ⟨phase, info, t⟩ (.char ',') r rows final onComma)
        ∨ ∃ r, skipBlanks t = sign :: r
          ∧ CompletesAt f ⟨phase, info, t⟩ sign r rows final onSign := by
  rw [completes_iff hphase]
  constructor
  · rintro ⟨c, r, ht, h⟩
    rw [hmove] at h
    split at h
    · next hc =>
        cases hc
        exact .inl ⟨r, ht, h⟩
    split at h
    · next hc =>
        cases hc
        exact .inr ⟨r, ht, h⟩
    · exact h.elim
  · rintro (⟨r, ht, h⟩ | ⟨r, ht, h⟩)
    · refine ⟨_, r, ht, ?_⟩
      rw [hmove, if_pos rfl]
      exact h
    · refine ⟨_, r, ht, ?_⟩
      rw [hmove, if_neg fun hc => hsign (Option.some.inj hc), if_pos rfl]
      exact h

/-- After an opening sign the container may be closed at once; otherwise it
    goes on as it does after a comma. -/
theorem completes_first_iff [L : Limits] (phase later : Phase) (sign : CodePoint)
    (onSign : Move) (hphase : phase ≠ .finish) (hlater : later ≠ .finish)
    (hmove : ∀ c, phase.move f (some c)
      = if some c = some sign then onSign else later.move f (some c))
    (hafter : ∀ c, later.move f (some c) = .value →
      phase.afterValue f info = later.afterValue f info)
    (hrefuse : ∃ expected, later.move f (some sign) = .refuse expected) :
    Completes f ⟨phase, info, t⟩ rows final
      ↔ (∃ r, skipBlanks t = sign :: r
          ∧ CompletesAt f ⟨phase, info, t⟩ sign r rows final onSign)
        ∨ Completes f ⟨later, info, t⟩ rows final := by
  have hsame (c : CodePoint) (r : Text) :
      CompletesAt f ⟨phase, info, t⟩ c r rows final (later.move f (some c))
        ↔ CompletesAt f ⟨later, info, t⟩ c r rows final
            (later.move f (some c)) := by
    cases hlater : later.move f (some c) with
    | value =>
        simp only [CompletesAt]
        rw [hafter c hlater]
    | _ => exact Iff.rfl
  rw [completes_iff hphase, completes_iff hlater]
  constructor
  · rintro ⟨c, r, ht, h⟩
    rw [hmove] at h
    split at h
    · next hc =>
        cases hc
        exact .inl ⟨r, ht, h⟩
    · exact .inr ⟨c, r, ht, (hsame c r).mp h⟩
  · rintro (⟨r, ht, h⟩ | ⟨c, r, ht, h⟩)
    · refine ⟨_, r, ht, ?_⟩
      rw [hmove, if_pos rfl]
      exact h
    · refine ⟨c, r, ht, ?_⟩
      rw [hmove, if_neg]
      · exact (hsame c r).mpr h
      · rintro ⟨⟩
        obtain ⟨expected, hexpected⟩ := hrefuse
        rw [hexpected] at h
        exact h.elim

/-! ## Rows -/

/-- A value as a member of a row. -/
def memberOf (w : Written) : Member := ⟨w.value, w.raw⟩

/-- A member of a row has a value, which is kept under its name. -/
theorem completes_memberValue_iff [L : Limits] {acc : List (Text × Member)} {name : Text} :
    Completes f ⟨.memberValue acc name, info, t⟩ rows final
      ↔ ∃ w : Written, w.Opens (skipBlanks t) ∧ w.Fits
        ∧ Completes f ⟨.memberEnd (Entries.insert name (memberOf w) acc), info,
            w.after⟩ rows final := by
  rw [completes_iff Phase.noConfusion]
  constructor
  · rintro ⟨c, r, ht, w, hopens, hfits, phase, info', hnext, h⟩
    cases hnext
    exact ⟨w, ht ▸ hopens, hfits, h⟩
  · rintro ⟨w, hopens, hfits, h⟩
    cases ht : skipBlanks t with
    | nil =>
        have := hopens.length_after
        rw [ht] at this
        cases this
    | cons c r => exact ⟨c, r, rfl, w, ht ▸ hopens, hfits, _, _, rfl, h⟩

/-- A member is a name and a value, which takes the place of one before it
    with the same name. -/
theorem completes_member_iff [L : Limits] {acc : List (Text × Member)} :
    Completes f ⟨.member acc, info, t⟩ rows final
      ↔ ∃ name t', readName (skipBlanks t) = .ok (name, t')
        ∧ ∃ w : Written, w.Opens t' ∧ w.Fits
          ∧ Completes f ⟨.memberEnd (Entries.insert name (memberOf w) acc), info,
              w.after⟩ rows final := by
  rw [completes_name_iff (.member acc) (.memberColon acc) (by simp)
    (fun _ => rfl) (fun _ _ => rfl)]
  have hcolon (name r : Text) :
      Completes f ⟨.memberColon acc name, info, r⟩ rows final
        ↔ ∃ r', skipBlanks r = .char ':' :: r'
          ∧ Completes f ⟨.memberValue acc name, info, r'⟩ rows final :=
    completes_sign_iff _ _ _ (by simp) fun _ => rfl
  constructor
  · rintro ⟨body, name, r, ht, hs, h⟩
    obtain ⟨r', hr, h⟩ := (hcolon name r).mp h
    exact ⟨name, skipBlanks r',
      Json.readName_eq_ok_iff.mpr ⟨body, r, r', ht, hs, hr, rfl⟩,
      completes_memberValue_iff.mp h⟩
  · rintro ⟨name, t', hname, h⟩
    obtain ⟨body, r, r', ht, hs, hr, rfl⟩ := Json.readName_eq_ok_iff.mp hname
    exact ⟨body, name, r, ht, hs, (hcolon name r).mpr
      ⟨r', hr, completes_memberValue_iff.mpr h⟩⟩

/-- The members of an object as a row keeps them. -/
def membersOf (ms : List (Text × Written)) : List (Text × Member) :=
  ms.map fun m => (m.1, memberOf m.2)

/-- The row that an object with the given members writes. -/
def rowOf (ms : List (Text × Written)) : Row :=
  Row.ofMembers (Entries.ofList (membersOf ms))

/-- Behind a member comes the next one, or the row is complete. -/
theorem completes_memberEnd_iff [L : Limits] {acc : List (Text × Member)} :
    Completes f ⟨.memberEnd acc, info, t⟩ rows final
      ↔ (∃ r, skipBlanks t = .char ',' :: r
          ∧ Completes f ⟨.member acc, info, r⟩ rows final)
        ∨ ∃ r, skipBlanks t = .char '}' :: r
          ∧ ∃ rows', rows = (Row.ofMembers acc, r) :: rows'
            ∧ Completes f ⟨.rowEnd, info, r⟩ rows' final :=
  completes_either_iff (.memberEnd acc) (.char '}') (.take (.member acc))
    (.giveRow acc) (by simp) (by simp) fun _ => rfl

/-- A row that is completed was written as members. -/
theorem membersAt_of_completes [L : Limits] {t : Text} {acc : List (Text × Member)}
    (h : Completes f ⟨.member acc, info, t⟩ rows final) :
    ∃ ms rest, MembersAt t ms rest ∧ (∀ m ∈ ms, m.2.Fits) ∧ ∃ rows',
      rows = (Row.ofMembers (Entries.insertAll acc (membersOf ms)), rest)
          :: rows'
        ∧ Completes f ⟨.rowEnd, info, rest⟩ rows' final := by
  obtain ⟨name, t', hname, w, hopens, hfits, h⟩ := completes_member_iff.mp h
  rcases completes_memberEnd_iff.mp h with ⟨r, hcomma, h⟩ | ⟨r, hend, h⟩
  · have h₁ := Json.length_of_skipBlanks hcomma
    have h₂ := hopens.length_after
    have h₃ := Json.length_rest_of_readName hname
    have h₄ := Json.length_skipBlanks t
    obtain ⟨ms, rest, hms, hfit, h⟩ := membersAt_of_completes h
    exact ⟨_, rest, .more hname hopens hcomma hms,
      List.forall_mem_cons.mpr ⟨hfits, hfit⟩, h⟩
  · exact ⟨_, r, .last hname hopens hend, List.forall_mem_singleton.mpr hfits, h⟩
termination_by t.length
decreasing_by
  rw [List.length_cons] at h₁
  omega

/-- Members are read onto those that came before them, up to the end of the
    row. -/
theorem completes_members_iff [L : Limits] {acc : List (Text × Member)} :
    Completes f ⟨.member acc, info, t⟩ rows final
      ↔ ∃ ms rest, MembersAt t ms rest ∧ (∀ m ∈ ms, m.2.Fits) ∧ ∃ rows',
        rows = (Row.ofMembers (Entries.insertAll acc (membersOf ms)), rest)
            :: rows'
          ∧ Completes f ⟨.rowEnd, info, rest⟩ rows' final := by
  refine ⟨membersAt_of_completes, ?_⟩
  rintro ⟨ms, rest, hms, hfit, h⟩
  induction hms generalizing acc with
  | last hname hopens hend =>
      have hfits := List.forall_mem_singleton.mp hfit
      exact completes_member_iff.mpr ⟨_, _, hname, _, hopens, hfits,
        completes_memberEnd_iff.mpr (.inr ⟨_, hend, h⟩)⟩
  | more hname hopens hcomma _ ih =>
      obtain ⟨hfits, hfit⟩ := List.forall_mem_cons.mp hfit
      exact completes_member_iff.mpr ⟨_, _, hname, _, hopens, hfits,
        completes_memberEnd_iff.mpr (.inl ⟨_, hcomma, ih hfit h⟩)⟩

/-- A row is a written object, and is given as soon as it ends. -/
theorem completes_row_iff [L : Limits] :
    Completes f ⟨.row, info, t⟩ rows final
      ↔ ∃ ms rest, ObjectAt (skipBlanks t) ms rest ∧ (∀ m ∈ ms, m.2.Fits)
        ∧ ∃ rows', rows = (rowOf ms, rest) :: rows'
          ∧ Completes f ⟨.rowEnd, info, rest⟩ rows' final := by
  rw [completes_sign_iff .row .firstMember (.char '{') (by simp) fun _ => rfl]
  have hfirst (r : Text) :
      Completes f ⟨.firstMember, info, r⟩ rows final
        ↔ (∃ r', skipBlanks r = .char '}' :: r'
            ∧ ∃ rows', rows = (Row.ofMembers [], r') :: rows'
              ∧ Completes f ⟨.rowEnd, info, r'⟩ rows' final)
          ∨ Completes f ⟨.member [], info, r⟩ rows final :=
    completes_first_iff .firstMember (.member []) (.char '}') (.giveRow [])
      (by simp) (by simp) (fun _ => rfl) (fun _ _ => rfl) ⟨_, rfl⟩
  constructor
  · rintro ⟨r, ht, h⟩
    rw [ht]
    rcases (hfirst r).mp h with ⟨r', hend, h⟩ | h
    · exact ⟨[], r', .empty hend, List.forall_mem_nil _, h⟩
    · obtain ⟨ms, rest, hms, hfit, h⟩ := completes_members_iff.mp h
      exact ⟨ms, rest, .members hms, hfit, h⟩
  · rintro ⟨ms, rest, hms, hfit, h⟩
    generalize ht : skipBlanks t = t' at hms
    cases hms with
    | empty hend => exact ⟨_, rfl, (hfirst _).mpr (.inl ⟨_, hend, h⟩)⟩
    | members hmembers =>
        exact ⟨_, rfl, (hfirst _).mpr
          (.inr (completes_members_iff.mpr ⟨ms, rest, hmembers, hfit, h⟩))⟩

/-- Behind a row comes the next one, or the rows end. -/
theorem completes_rowEnd_iff [L : Limits] :
    Completes f ⟨.rowEnd, info, t⟩ rows final
      ↔ (∃ r, skipBlanks t = .char ',' :: r
          ∧ Completes f ⟨.row, info, r⟩ rows final)
        ∨ ∃ r, skipBlanks t = .char ']' :: r
          ∧ Completes f ⟨.fieldEnd, info, r⟩ rows final :=
  completes_either_iff .rowEnd (.char ']') (.take .row) (.take .fieldEnd)
    (by simp) (by simp) fun _ => rfl

/-- An element of an array as the row that it writes, with the text after
    it.  Its members are read one by one, so that each of them has to fit. -/
def WritesRow [L : Limits] (w : Written) (row : Row × Text) : Prop :=
  ∃ ms, ObjectAt (w.raw ++ w.after) ms w.after ∧ (∀ m ∈ ms, m.2.Fits)
    ∧ row = (rowOf ms, w.after)

theorem exists_opens_of_objectAt [L : Limits] {t rest : Text} {ms : List (Text × Written)}
    (h : ObjectAt t ms rest) (hfit : ∀ m ∈ ms, m.2.Fits) :
    ∃ w : Written, w.Opens t ∧ w.after = rest
      ∧ WritesRow w (rowOf ms, rest) := by
  obtain ⟨raw, hopens⟩ :=
    Json.exists_opens (Json.parse_eq_obj_iff.mpr ⟨ms, h, rfl⟩)
  exact ⟨_, hopens, rfl, ms, hopens.split ▸ h, hfit, rfl⟩

/-- Rows that are completed were written as elements. -/
theorem elementsAt_of_completes [L : Limits] {t : Text} {rows : List (Row × Text)}
    (h : Completes f ⟨.row, info, t⟩ rows final) :
    ∃ ws rest, ElementsAt t ws rest ∧ ∃ rs rows', List.Forall₂ WritesRow ws rs
      ∧ rows = rs ++ rows'
      ∧ Completes f ⟨.fieldEnd, info, rest⟩ rows' final := by
  obtain ⟨ms, rest, hms, hfit, rows', hrows, hend⟩ := completes_row_iff.mp h
  obtain ⟨w, hopens, rfl, hwrites⟩ := exists_opens_of_objectAt hms hfit
  subst hrows
  rcases completes_rowEnd_iff.mp hend with ⟨r, hcomma, h'⟩ | ⟨r, hbracket, h'⟩
  · have h₁ := Json.length_of_skipBlanks hcomma
    have h₂ := hopens.length_after
    have h₃ := Json.length_skipBlanks t
    obtain ⟨ws, rest', hws, rs, rows'', hrs, hrows', hmore⟩ :=
      elementsAt_of_completes h'
    exact ⟨w :: ws, rest', .more hopens hcomma hws, _ :: rs, rows'',
      .cons hwrites hrs, congrArg _ hrows', hmore⟩
  · exact ⟨[w], r, .last hopens hbracket, [_], rows', .cons hwrites .nil, rfl,
      h'⟩
termination_by t.length
decreasing_by
  rw [List.length_cons] at h₁
  omega

/-- Written elements that are rows are completed. -/
theorem completes_of_elementsAt [L : Limits] {t rest : Text} {ws : List Written}
    (hws : ElementsAt t ws rest) {rs rows' : List (Row × Text)}
    (hrs : List.Forall₂ WritesRow ws rs)
    (h : Completes f ⟨.fieldEnd, info, rest⟩ rows' final) :
    Completes f ⟨.row, info, t⟩ (rs ++ rows') final := by
  induction hws generalizing rs with
  | last hopens hend =>
      cases hrs with
      | cons hwrites hnil =>
          cases hnil
          obtain ⟨ms, hms, hfit, rfl⟩ := hwrites
          refine completes_row_iff.mpr
            ⟨ms, _, hopens.split ▸ hms, hfit, _, rfl, ?_⟩
          exact completes_rowEnd_iff.mpr (.inr ⟨_, hend, h⟩)
  | more hopens hcomma _ ih =>
      cases hrs with
      | cons hwrites hrs' =>
          obtain ⟨ms, hms, hfit, rfl⟩ := hwrites
          refine completes_row_iff.mpr
            ⟨ms, _, hopens.split ▸ hms, hfit, _, rfl, ?_⟩
          exact completes_rowEnd_iff.mpr (.inl ⟨_, hcomma, ih hrs' h⟩)

/-- What stands where the rows are due: nothing, or an array of rows. -/
inductive RowsAt [L : Limits] : Text → List (Row × Text) → Text → Prop
  | null {t : Text} {w : Written} (hopens : w.Opens t) (hnull : w.value = .null) :
      RowsAt t [] w.after
  | array {t rest : Text} {ws : List Written} {rows : List (Row × Text)}
      (harray : ArrayAt t ws rest) (hrows : List.Forall₂ WritesRow ws rows) :
      RowsAt t rows rest

/-- Where null opens a text, the word for it does. -/
theorem readScalar?_of_opens_null {w : Written} {t : Text} (h : w.Opens t)
    (hnull : w.value = .null) : Json.readScalar? t = some (.null, w.after) := by
  have hreads := h.reads
  rw [hnull] at hreads
  rcases Json.parse_cases hreads with
    ⟨_, _, _, _, hv⟩ | ⟨_, _, hv⟩ | ⟨_, _, hv⟩ | hscalar
  · cases hv
  · cases hv
  · cases hv
  · exact hscalar

theorem fits_of_opens_null [L : Limits] {w : Written} {t : Text}
    (h : w.Opens t) (hnull : w.value = .null) : w.Fits := by
  refine h.fits_of_scalar ?_ ?_
  · rw [hnull]
    exact readScalar?_of_opens_null h hnull
  · rw [hnull]
    rfl

theorem eq_cons_of_opens_null {w : Written} {t : Text} (h : w.Opens t)
    (hnull : w.value = .null) : ∃ r, t = .char 'n' :: r := by
  have hscalar := readScalar?_of_opens_null h hnull
  rw [Json.readScalar?] at hscalar
  split at hscalar
  · next hword =>
      cases hscalar
      obtain ⟨w', hmem, hv, ht⟩ := Json.readWord?_eq_some_iff.mp hword
      simp only [Json.words, List.mem_cons, List.not_mem_nil, or_false] at hmem
      rcases hmem with rfl | rfl | rfl | rfl | rfl | rfl
      · exact ⟨_, ht⟩
      all_goals cases hv
  · rcases Json.number_of_readNumber? hscalar with ⟨_, hv⟩ | ⟨_, hv⟩
    all_goals cases hv

/-- An array of rows ends at once, or begins with a row. -/
theorem completes_firstRow_iff [L : Limits] (r : Text) :
    Completes f ⟨.firstRow, info, r⟩ rows final
      ↔ (∃ r', skipBlanks r = .char ']' :: r'
          ∧ Completes f ⟨.fieldEnd, info, r'⟩ rows final)
        ∨ Completes f ⟨.row, info, r⟩ rows final := by
  refine completes_first_iff .firstRow .row (.char ']') (.take .fieldEnd)
    (by simp) (by simp) (fun _ => rfl) ?_ ⟨_, rfl⟩
  -- neither phase takes a value
  intro c hc
  dsimp only [Phase.move] at hc
  split at hc <;> cases hc

/-- The field of the rows holds an array of them, or a null. -/
theorem completes_rows_iff [L : Limits] :
    Completes f ⟨.rows, info, t⟩ rows final
      ↔ ∃ rs rest, RowsAt (skipBlanks t) rs rest ∧ ∃ rows', rows = rs ++ rows'
        ∧ Completes f ⟨.fieldEnd, info, rest⟩ rows' final := by
  rw [completes_iff Phase.noConfusion]
  constructor
  · rintro ⟨c, r, ht, h⟩
    rw [ht]
    rw [Phase.move] at h
    split at h
    · obtain ⟨w, hopens, -, phase, info', hafter, h⟩ := h
      cases hv : w.value with
      | null =>
          rw [hv] at hafter
          cases hafter
          exact ⟨[], w.after, .null hopens hv, rows, rfl, h⟩
      | _ =>
          rw [hv] at hafter
          cases hafter
    split at h
    · next hc =>
        cases hc
        rcases (completes_firstRow_iff r).mp h with ⟨r', hend, h⟩ | h
        · exact ⟨[], r', .array (.empty hend) .nil, rows, rfl, h⟩
        · obtain ⟨ws, rest, hws, rs, rows', hrs, hrows, h⟩ :=
            elementsAt_of_completes h
          exact ⟨rs, rest, .array (.elements hws) hrs, rows', hrows, h⟩
    · exact h.elim
  · rintro ⟨rs, rest, hrs, rows', rfl, h⟩
    generalize ht : skipBlanks t = t' at hrs
    cases hrs with
    | @null w hopens hnull =>
        obtain ⟨r, rfl⟩ := eq_cons_of_opens_null hopens hnull
        have hfits := fits_of_opens_null hopens hnull
        refine ⟨_, r, rfl, w, hopens, hfits, .fieldEnd, info, ?_, h⟩
        rw [hnull]
        rfl
    | array harray hrs =>
        cases harray with
        | empty hend =>
            cases hrs
            exact ⟨_, _, rfl,
              (completes_firstRow_iff _).mpr (.inl ⟨_, hend, h⟩)⟩
        | elements hws =>
            exact ⟨_, _, rfl, (completes_firstRow_iff _).mpr
              (.inr (completes_of_elementsAt hws hrs h))⟩

/-! ## Fields -/

/-- What one field gives: its rows if it holds rows, and otherwise what it
    says about them. -/
inductive FieldGives [L : Limits] (f : Text) (info : ListingInfo) :
    Text → Written → List (Row × Text) → ListingInfo → Prop
  | rows {w : Written} {rs : List (Row × Text)}
      (hrows : RowsAt (w.raw ++ w.after) rs w.after) :
      FieldGives f info f w rs info
  | note {info' : ListingInfo} {name : Text} {w : Written} (hname : name ≠ f)
      (hfits : w.Fits) (hnote : info.note name w.value = .ok info') :
      FieldGives f info name w [] info'

/-- What fields give, one after the other. -/
inductive FieldsGive [L : Limits] (f : Text) : ListingInfo → List (Text × Written) →
    List (Row × Text) → ListingInfo → Prop
  | nil {info : ListingInfo} : FieldsGive f info [] [] info
  | cons {info info' info'' : ListingInfo} {name : Text} {w : Written}
      {fields : List (Text × Written)} {rs rows : List (Row × Text)}
      (hfield : FieldGives f info name w rs info')
      (hmore : FieldsGive f info' fields rows info'') :
      FieldsGive f info ((name, w) :: fields) (rs ++ rows) info''

theorem RowsAt.exists_opens [L : Limits] {t rest : Text} {rs : List (Row × Text)}
    (h : RowsAt t rs rest) : ∃ w : Written, w.Opens t ∧ w.after = rest := by
  cases h with
  | @null w hopens hnull => exact ⟨w, hopens, rfl⟩
  | array harray hrows =>
      obtain ⟨raw, hopens⟩ :=
        Json.exists_opens (Json.parse_eq_arr_iff.mpr ⟨_, harray, rfl⟩)
      exact ⟨_, hopens, rfl⟩

/-- Another field has a value, which is noted under its name. -/
theorem completes_fieldValue_iff [L : Limits] {name : Text} :
    Completes f ⟨.fieldValue name, info, t⟩ rows final
      ↔ ∃ w : Written, w.Opens (skipBlanks t) ∧ w.Fits ∧ ∃ info',
        info.note name w.value = .ok info'
          ∧ Completes f ⟨.fieldEnd, info', w.after⟩ rows final := by
  rw [completes_iff Phase.noConfusion]
  constructor
  · rintro ⟨c, r, ht, w, hopens, hfits, phase, info', hafter, h⟩
    cases hnote : info.note name w.value with
    | error why =>
        dsimp only [Phase.afterValue] at hafter
        rw [hnote] at hafter
        cases hafter
    | ok noted =>
        dsimp only [Phase.afterValue] at hafter
        rw [hnote] at hafter
        cases hafter
        exact ⟨w, ht ▸ hopens, hfits, _, hnote, h⟩
  · rintro ⟨w, hopens, hfits, info', hnote, h⟩
    cases ht : skipBlanks t with
    | nil =>
        have := hopens.length_after
        rw [ht] at this
        cases this
    | cons c r =>
        refine ⟨c, r, rfl, w, ht ▸ hopens, hfits, .fieldEnd, info', ?_, h⟩
        dsimp only [Phase.afterValue]
        rw [hnote]
        rfl

/-- After its colon a field gives what its name and the value give. -/
theorem completes_colon_iff [L : Limits] (name r : Text) :
    Completes f ⟨if name = f then .rows else .fieldValue name, info, r⟩
        rows final
      ↔ ∃ w : Written, w.Opens (skipBlanks r)
        ∧ ∃ rs info', FieldGives f info name w rs info'
          ∧ ∃ rows', rows = rs ++ rows'
            ∧ Completes f ⟨.fieldEnd, info', w.after⟩ rows' final := by
  by_cases hname : name = f
  · subst hname
    rw [if_pos rfl, completes_rows_iff]
    constructor
    · rintro ⟨rs, rest, hrs, rows', hrows, h⟩
      obtain ⟨w, hopens, rfl⟩ := hrs.exists_opens
      exact ⟨w, hopens, rs, info, .rows (hopens.split ▸ hrs), rows', hrows, h⟩
    · rintro ⟨w, hopens, rs, info', hgives, rows', hrows, h⟩
      cases hgives with
      | rows hrs => exact ⟨rs, w.after, hopens.split ▸ hrs, rows', hrows, h⟩
      | note hname _ _ => exact (hname rfl).elim
  · rw [if_neg hname, completes_fieldValue_iff]
    constructor
    · rintro ⟨w, hopens, hfits, info', hnote, h⟩
      exact ⟨w, hopens, [], info', .note hname hfits hnote, rows, rfl, h⟩
    · rintro ⟨w, hopens, rs, info', hgives, rows', hrows, h⟩
      cases hgives with
      | rows _ => exact (hname rfl).elim
      | note _ hfits hnote =>
          subst hrows
          exact ⟨w, hopens, hfits, info', hnote, h⟩

/-- A field is a name and a value, and gives what they give. -/
theorem completes_field_iff [L : Limits] :
    Completes f ⟨.field, info, t⟩ rows final
      ↔ ∃ name t', readName (skipBlanks t) = .ok (name, t')
        ∧ ∃ w : Written, w.Opens t' ∧ ∃ rs info', FieldGives f info name w rs info'
          ∧ ∃ rows', rows = rs ++ rows'
            ∧ Completes f ⟨.fieldEnd, info', w.after⟩ rows' final := by
  rw [completes_name_iff .field .fieldColon (by simp) (fun _ => rfl)
    (fun _ _ => rfl)]
  have hcolon (name r : Text) :
      Completes f ⟨.fieldColon name, info, r⟩ rows final
        ↔ ∃ r', skipBlanks r = .char ':' :: r'
          ∧ Completes f ⟨if name = f then .rows else .fieldValue name, info, r'⟩
              rows final :=
    completes_sign_iff _ _ _ (by simp) fun _ => rfl
  constructor
  · rintro ⟨body, name, r, ht, hs, h⟩
    obtain ⟨r', hr, h⟩ := (hcolon name r).mp h
    exact ⟨name, skipBlanks r',
      Json.readName_eq_ok_iff.mpr ⟨body, r, r', ht, hs, hr, rfl⟩,
      (completes_colon_iff name r').mp h⟩
  · rintro ⟨name, t', hname, h⟩
    obtain ⟨body, r, r', ht, hs, hr, rfl⟩ := Json.readName_eq_ok_iff.mp hname
    exact ⟨body, name, r, ht, hs, (hcolon name r).mpr
      ⟨r', hr, (completes_colon_iff name r').mpr h⟩⟩

/-- Behind a field comes the next one, or the listing ends. -/
theorem completes_fieldEnd_iff [L : Limits] :
    Completes f ⟨.fieldEnd, info, t⟩ rows final
      ↔ (∃ r, skipBlanks t = .char ',' :: r
          ∧ Completes f ⟨.field, info, r⟩ rows final)
        ∨ ∃ r, skipBlanks t = .char '}' :: r
          ∧ rows = [] ∧ final = ⟨.finish, info, r⟩ := by
  simp only [← completes_finish_iff (f := f)]
  exact completes_either_iff .fieldEnd (.char '}') (.take .field)
    (.take .finish) (by simp) (by simp) fun _ => rfl

/-- A listing that is completed was written as fields. -/
theorem membersAt_of_completes_field [L : Limits] {t : Text} {info : ListingInfo}
    {rows : List (Row × Text)}
    (h : Completes f ⟨.field, info, t⟩ rows final) :
    ∃ fields rest info', MembersAt t fields rest
      ∧ FieldsGive f info fields rows info' ∧ final = ⟨.finish, info', rest⟩ := by
  obtain ⟨name, t', hname, w, hopens, rs, info', hgives, rows', rfl, hend⟩ :=
    completes_field_iff.mp h
  rcases completes_fieldEnd_iff.mp hend with
    ⟨r, hcomma, h'⟩ | ⟨r, hbrace, rfl, hfinal⟩
  · have h₁ := Json.length_of_skipBlanks hcomma
    have h₂ := hopens.length_after
    have h₃ := Json.length_rest_of_readName hname
    have h₄ := Json.length_skipBlanks t
    obtain ⟨fields, rest, info'', hfields, hgive, hfinal⟩ :=
      membersAt_of_completes_field h'
    exact ⟨_, rest, info'', .more hname hopens hcomma hfields,
      .cons hgives hgive, hfinal⟩
  · exact ⟨_, r, info', .last hname hopens hbrace, .cons hgives .nil, hfinal⟩
termination_by t.length
decreasing_by
  rw [List.length_cons] at h₁
  omega

/-- Written fields that give rows and information are completed. -/
theorem completes_of_membersAt [L : Limits] {t rest : Text} {info info' : ListingInfo}
    {fields : List (Text × Written)} {rows : List (Row × Text)}
    (hfields : MembersAt t fields rest)
    (hgive : FieldsGive f info fields rows info') :
    Completes f ⟨.field, info, t⟩ rows ⟨.finish, info', rest⟩ := by
  induction hfields generalizing info rows with
  | last hname hopens hbrace =>
      cases hgive with
      | cons hfield hmore =>
          cases hmore
          refine completes_field_iff.mpr
            ⟨_, _, hname, _, hopens, _, _, hfield, [], rfl, ?_⟩
          exact completes_fieldEnd_iff.mpr (.inr ⟨_, hbrace, rfl, rfl⟩)
  | more hname hopens hcomma _ ih =>
      cases hgive with
      | cons hfield hmore =>
          refine completes_field_iff.mpr
            ⟨_, _, hname, _, hopens, _, _, hfield, _, rfl, ?_⟩
          exact completes_fieldEnd_iff.mpr (.inl ⟨_, hcomma, ih hmore⟩)

/-! ## Listings -/

/-- A text is read to the end exactly if it opens with an object, and the
    reading gives what the fields of the object give. -/
theorem completes_iff_objectAt [L : Limits] :
    Completes f (ofText t) rows final
      ↔ ∃ fields rest info, ObjectAt (skipBlanks t) fields rest
        ∧ FieldsGive f .initial fields rows info
        ∧ final = ⟨.finish, info, rest⟩ := by
  have hstart : Completes f (ofText t) rows final
      ↔ ∃ r, skipBlanks t = .char '{' :: r
        ∧ Completes f ⟨.firstField, .initial, r⟩ rows final :=
    completes_sign_iff .start .firstField (.char '{') (by simp) fun _ => rfl
  have hfirst (r : Text) :
      Completes f ⟨.firstField, .initial, r⟩ rows final
        ↔ (∃ r', skipBlanks r = .char '}' :: r'
            ∧ Completes f ⟨.finish, .initial, r'⟩ rows final)
          ∨ Completes f ⟨.field, .initial, r⟩ rows final :=
    completes_first_iff .firstField .field (.char '}') (.take .finish)
      (by simp) (by simp) (fun _ => rfl) (fun _ _ => rfl) ⟨_, rfl⟩
  rw [hstart]
  constructor
  · rintro ⟨r, ht, h⟩
    rw [ht]
    rcases (hfirst r).mp h with ⟨r', hend, h⟩ | h
    · obtain ⟨rfl, rfl⟩ := completes_finish_iff.mp h
      exact ⟨[], r', .initial, .empty hend, .nil, rfl⟩
    · obtain ⟨fields, rest, info, hfields, hgive, hfinal⟩ :=
        membersAt_of_completes_field h
      exact ⟨fields, rest, info, .members hfields, hgive, hfinal⟩
  · rintro ⟨fields, rest, info, hfields, hgive, rfl⟩
    generalize ht : skipBlanks t = t' at hfields
    cases hfields with
    | empty hend =>
        cases hgive
        exact ⟨_, rfl, (hfirst _).mpr
          (.inl ⟨_, hend, completes_finish_iff.mpr ⟨rfl, rfl⟩⟩)⟩
    | members hmembers =>
        exact ⟨_, rfl, (hfirst _).mpr
          (.inr (completes_of_membersAt hmembers hgive))⟩

end Reading

end CouchClient
