import CouchClient.Proofs.Json.Limits

/-! # Objects and arrays as they are written

    A parsed object no longer knows which text its entries were written
    with, nor whether a name came twice.  The relations below keep all of
    that: each entry is a value together with its own text and the text
    after it.  How a text is written has nothing to do with the limits of an
    interpreter, so the texts here are read without any.

    * `Written.Opens` — a value as it stands at the start of a text;
    * `ObjectAt`, `ArrayAt` — the entries of a container that opens a text;
    * `Written.Fits` — within the limits of an interpreter the value is read
      where it stands;
    * `WrittenWith.unique` — a document is written in one way;
    * `parse_eq_obj_iff`, `parse_eq_arr_iff` — a container is parsed exactly
      as it is written;
    * `decode_eq_obj_iff` — the same for a whole document;
    * `ObjectAt.fits`, `ArrayAt.fits` — what stands in a container that is
      read within the limits is within them too. -/

namespace CouchClient.Json

attribute [local instance] Limits.unlimited

/-! ## Values -/

/-- A value as it is written: the value, its text, and the text after it. -/
structure Written where
  value : Json
  raw : Text
  after : Text

/-- The value is what a reading of the text finds first. -/
structure Written.Opens (w : Written) (t : Text) : Prop where
  split : t = w.raw ++ w.after
  reads : parse t = .ok (w.value, w.after)

/-- A value that is read is written at the beginning of its text. -/
theorem exists_opens {t rest : Text} {v : Json} (h : parse t = .ok (v, rest)) :
    ∃ raw, Written.Opens ⟨v, raw, rest⟩ t := by
  obtain ⟨raw, hraw⟩ := suffix_of_parse h
  exact ⟨raw, hraw.symm, h⟩

namespace Written

variable {w : Written} {t : Text}

/-- A written value takes something of its text. -/
theorem Opens.length_after (h : w.Opens t) : w.after.length < t.length :=
  length_rest_of_parse h.reads

/-- The value is read where it stands, whatever limits the interpreter has. -/
def Fits [L : Limits] (w : Written) : Prop :=
  parse (w.raw ++ w.after) = .ok (w.value, w.after)

/-- A written value that fits is read from its own text. -/
theorem Fits.parse_raw [L : Limits] (h : w.Fits) :
    parse w.raw = .ok (w.value, []) := by
  obtain ⟨r, hr, hparse⟩ := parse_of_append h (Nat.le_refl _)
  have hlen := congrArg List.length hr
  rw [List.length_append] at hlen
  rwa [List.eq_nil_of_length_eq_zero (l := r) (by omega)] at hparse

/-- The text of a value that fits is a document with that value. -/
theorem Fits.decode_raw [L : Limits] (h : w.Fits) :
    decode w.raw = .ok w.value := by
  have hraw := h.parse_raw
  rw [decode, skipBlanks_of_parse hraw, hraw]
  rfl

/-- What is read within the limits stands at the start of the text, and
    fits. -/
theorem opens_and_fits_iff [L : Limits] :
    w.Opens t ∧ w.Fits
      ↔ t = w.raw ++ w.after ∧ parse t = .ok (w.value, w.after) := by
  constructor
  · rintro ⟨hopens, hfits⟩
    refine ⟨hopens.split, ?_⟩
    rw [hopens.split]
    exact hfits
  · rintro ⟨hsplit, hreads⟩
    refine ⟨⟨hsplit, parse_unlimited hreads⟩, ?_⟩
    rw [Fits, ← hsplit]
    exact hreads

/-- Without limits every value fits. -/
theorem Opens.fits_unlimited (h : w.Opens t) : w.Fits (L := .unlimited) := by
  rw [Fits, ← h.split]
  exact h.reads

/-- The text of a value is a document with that value. -/
theorem Opens.decode_raw (h : w.Opens t) : decode w.raw = .ok w.value :=
  h.fits_unlimited.decode_raw

end Written

/-! ## Containers -/

/-- What follows are members up to a brace, as they are written. -/
inductive MembersAt : Text → List (Text × Written) → Text → Prop
  | last {t t' rest name : Text} {w : Written}
      (hname : readName (skipBlanks t) = .ok (name, t')) (hvalue : w.Opens t')
      (hend : skipBlanks w.after = .char '}' :: rest) :
      MembersAt t [(name, w)] rest
  | more {t t' t'' rest name : Text} {w : Written} {ms : List (Text × Written)}
      (hname : readName (skipBlanks t) = .ok (name, t')) (hvalue : w.Opens t')
      (hcomma : skipBlanks w.after = .char ',' :: t'')
      (hmore : MembersAt t'' ms rest) : MembersAt t ((name, w) :: ms) rest

/-- The text opens with an object that is written with the given members. -/
inductive ObjectAt : Text → List (Text × Written) → Text → Prop
  | empty {body rest : Text} (hend : skipBlanks body = .char '}' :: rest) :
      ObjectAt (.char '{' :: body) [] rest
  | members {body rest : Text} {ms : List (Text × Written)}
      (hmembers : MembersAt body ms rest) :
      ObjectAt (.char '{' :: body) ms rest

/-- What follows are elements up to a bracket, as they are written. -/
inductive ElementsAt : Text → List Written → Text → Prop
  | last {t rest : Text} {w : Written} (hvalue : w.Opens (skipBlanks t))
      (hend : skipBlanks w.after = .char ']' :: rest) : ElementsAt t [w] rest
  | more {t t' rest : Text} {w : Written} {ws : List Written}
      (hvalue : w.Opens (skipBlanks t))
      (hcomma : skipBlanks w.after = .char ',' :: t')
      (hmore : ElementsAt t' ws rest) : ElementsAt t (w :: ws) rest

/-- The text opens with an array that is written with the given elements. -/
inductive ArrayAt : Text → List Written → Text → Prop
  | empty {body rest : Text} (hend : skipBlanks body = .char ']' :: rest) :
      ArrayAt (.char '[' :: body) [] rest
  | elements {body rest : Text} {ws : List Written}
      (helements : ElementsAt body ws rest) :
      ArrayAt (.char '[' :: body) ws rest

/-- The entries that members write. -/
def entriesOf (ms : List (Text × Written)) : List (Text × Json) :=
  ms.map fun m => (m.1, m.2.value)

/-- A document is one object, written with the given members. -/
def WrittenWith (t : Text) (ms : List (Text × Written)) : Prop :=
  ∃ rest, ObjectAt (skipBlanks t) ms rest ∧ skipBlanks rest = []

/-! ## What stands in a container -/

/-- A written value opens its own text with what came after it. -/
theorem Written.Opens.opens_self {w : Written} {t : Text} (h : w.Opens t) :
    w.Opens (w.raw ++ w.after) :=
  h.split ▸ h

/-- The values of members are written where they stand. -/
theorem MembersAt.opens {t rest : Text} {ms : List (Text × Written)}
    (h : MembersAt t ms rest) :
    ∀ m ∈ ms, m.2.Opens (m.2.raw ++ m.2.after) := by
  induction h with
  | last _ hvalue _ =>
      intro m hm
      cases List.mem_singleton.mp hm
      exact hvalue.opens_self
  | more _ hvalue _ _ ih =>
      intro m hm
      rcases List.mem_cons.mp hm with rfl | hm
      · exact hvalue.opens_self
      · exact ih m hm

/-- A member stands where its value opens the text. -/
theorem ObjectAt.opens {t rest : Text} {ms : List (Text × Written)}
    (h : ObjectAt t ms rest) :
    ∀ m ∈ ms, m.2.Opens (m.2.raw ++ m.2.after) := by
  cases h with
  | empty _ => exact fun m hm => (List.not_mem_nil hm).elim
  | members hmembers => exact hmembers.opens

/-- Elements are written where they stand. -/
theorem ElementsAt.opens {t rest : Text} {ws : List Written}
    (h : ElementsAt t ws rest) : ∀ w ∈ ws, w.Opens (w.raw ++ w.after) := by
  induction h with
  | last hvalue _ =>
      intro w hw
      cases List.mem_singleton.mp hw
      exact hvalue.opens_self
  | more hvalue _ _ ih =>
      intro w hw
      rcases List.mem_cons.mp hw with rfl | hw
      · exact hvalue.opens_self
      · exact ih w hw

/-- An element stands where it opens the text. -/
theorem ArrayAt.opens {t rest : Text} {ws : List Written}
    (h : ArrayAt t ws rest) : ∀ w ∈ ws, w.Opens (w.raw ++ w.after) := by
  cases h with
  | empty _ => exact fun w hw => (List.not_mem_nil hw).elim
  | elements helements => exact helements.opens

/-! ## A text is written in one way -/

/-- A text opens with one written value. -/
theorem Written.Opens.unique {w w' : Written} {t : Text} (h : w.Opens t)
    (h' : w'.Opens t) : w = w' := by
  obtain ⟨value, raw, after⟩ := w
  obtain ⟨value', raw', after'⟩ := w'
  cases h.reads.symm.trans h'.reads
  have hraw : raw ++ after = raw' ++ after := h.split.symm.trans h'.split
  rw [List.append_cancel_right hraw]

/-- Members are written in one way. -/
theorem MembersAt.unique {t rest rest' : Text} {ms ms' : List (Text × Written)}
    (h : MembersAt t ms rest) (h' : MembersAt t ms' rest') :
    ms = ms' ∧ rest = rest' := by
  induction h generalizing ms' rest' with
  | last hname hvalue hend =>
      cases h' with
      | last hname' hvalue' hend' =>
          cases hname.symm.trans hname'
          cases hvalue.unique hvalue'
          cases hend.symm.trans hend'
          exact ⟨rfl, rfl⟩
      | more hname' hvalue' hcomma' hmore' =>
          cases hname.symm.trans hname'
          cases hvalue.unique hvalue'
          cases hend.symm.trans hcomma'
  | more hname hvalue hcomma hmore ih =>
      cases h' with
      | last hname' hvalue' hend' =>
          cases hname.symm.trans hname'
          cases hvalue.unique hvalue'
          cases hcomma.symm.trans hend'
      | more hname' hvalue' hcomma' hmore' =>
          cases hname.symm.trans hname'
          cases hvalue.unique hvalue'
          cases hcomma.symm.trans hcomma'
          obtain ⟨rfl, rfl⟩ := ih hmore'
          exact ⟨rfl, rfl⟩

theorem MembersAt.ne_brace {t rest r : Text} {ms : List (Text × Written)}
    (h : MembersAt t ms rest) : skipBlanks t ≠ .char '}' :: r := by
  intro hbrace
  cases h with
  | last hname _ _ => exact ne_brace_of_readName hname hbrace
  | more hname _ _ _ => exact ne_brace_of_readName hname hbrace

/-- An object is written in one way. -/
theorem ObjectAt.unique {t rest rest' : Text} {ms ms' : List (Text × Written)}
    (h : ObjectAt t ms rest) (h' : ObjectAt t ms' rest') :
    ms = ms' ∧ rest = rest' := by
  cases h with
  | empty hend =>
      cases h' with
      | empty hend' =>
          cases hend.symm.trans hend'
          exact ⟨rfl, rfl⟩
      | members hmembers' => exact (hmembers'.ne_brace hend).elim
  | members hmembers =>
      cases h' with
      | empty hend' => exact (hmembers.ne_brace hend').elim
      | members hmembers' => exact hmembers.unique hmembers'

/-- The members that a document is written with are determined by it. -/
theorem WrittenWith.unique {t : Text} {ms ms' : List (Text × Written)}
    (h : WrittenWith t ms) (h' : WrittenWith t ms') : ms = ms' := by
  obtain ⟨rest, hobject, -⟩ := h
  obtain ⟨rest', hobject', -⟩ := h'
  exact (hobject.unique hobject').1

/-! ## A container is parsed as it is written -/

/-- Behind a member an object ends or goes on with the next name. -/
theorem run_after_object_eq_ok [L : Limits] {stack : List Frame}
    {entries : List (Text × Json)} {name t rest : Text} {v x : Json}
    (h : run (.object entries name :: stack) (.after v) t = .ok (x, rest)) :
    (∃ r, skipBlanks t = .char '}' :: r
        ∧ run stack
            (.after (.obj (Entries.ofList ((name, v) :: entries).reverse))) r
          = .ok (x, rest))
      ∨ ∃ body name' r, skipBlanks t = .char ',' :: body
          ∧ readName (skipBlanks body) = .ok (name', r)
          ∧ run (.object ((name, v) :: entries) name' :: stack) .value r
            = .ok (x, rest) := by
  rw [run] at h
  split at h
  · next r hs => exact .inl ⟨r, hs, h⟩
  · next body hs =>
      split at h
      · cases h
      · next name' r hn => exact .inr ⟨body, name', r, hs, hn, h⟩
  · cases h

/-- Behind an element an array ends or goes on with the next. -/
theorem run_after_array_eq_ok [L : Limits] {stack : List Frame} {done : List Json}
    {t rest : Text} {v x : Json}
    (h : run (.array done :: stack) (.after v) t = .ok (x, rest)) :
    (∃ r, skipBlanks t = .char ']' :: r
        ∧ run stack (.after (.arr (v :: done).reverse)) r = .ok (x, rest))
      ∨ ∃ body, skipBlanks t = .char ',' :: body
          ∧ run (.array (v :: done) :: stack) .value (skipBlanks body)
            = .ok (x, rest) := by
  rw [run] at h
  split at h
  · next r hs => exact .inl ⟨r, hs, h⟩
  · next body hs => exact .inr ⟨body, hs, h⟩
  · cases h

/-- Members are read onto those that came before them. -/
theorem run_of_membersAt {t rest : Text} {ms : List (Text × Written)}
    (h : MembersAt t ms rest) :
    ∃ name t', readName (skipBlanks t) = .ok (name, t')
      ∧ ∀ done, run [.object done name] .value t'
        = .ok (.obj (Entries.ofList (done.reverse ++ entriesOf ms)), rest) := by
  induction h with
  | @last t t' rest name w hname hvalue hend =>
      refine ⟨name, t', hname, ?_⟩
      intro done
      refine run_value_eq_ok_iff.mpr ⟨w.value, w.after, hvalue.reads, ?_⟩
      rw [run_objectEnd hend, run_nil, List.reverse_cons]
      rfl
  | @more t t' t'' rest name w ms hname hvalue hcomma hmore ih =>
      obtain ⟨name', r, hname', hrun⟩ := ih
      refine ⟨name, t', hname, ?_⟩
      intro done
      refine run_value_eq_ok_iff.mpr ⟨w.value, w.after, hvalue.reads, ?_⟩
      rw [run_objectNext hcomma hname', hrun, List.reverse_cons,
        List.append_assoc]
      rfl

/-- What a run reads in an object is its written members. -/
theorem membersAt_of_run {t t' name rest : Text} {done : List (Text × Json)}
    {x : Json} (hname : readName (skipBlanks t) = .ok (name, t'))
    (h : run [.object done name] .value t' = .ok (x, rest)) :
    ∃ ms, MembersAt t ms rest
      ∧ x = .obj (Entries.ofList (done.reverse ++ entriesOf ms)) := by
  obtain ⟨v, r, hparse, hafter⟩ := run_value_eq_ok_iff.mp h
  obtain ⟨raw, hopens⟩ := exists_opens hparse
  rcases run_after_object_eq_ok hafter with
    ⟨r', hend, hnil⟩ | ⟨body, name', r', hcomma, hname', hrun⟩
  · cases run_nil.symm.trans hnil
    refine ⟨_, .last hname hopens hend, ?_⟩
    rw [List.reverse_cons]
    rfl
  · have h₁ := hopens.length_after
    have h₂ := length_of_skipBlanks hcomma
    have h₃ := length_rest_of_readName hname'
    have h₄ := length_skipBlanks body
    obtain ⟨ms, hms, hx⟩ := membersAt_of_run hname' hrun
    refine ⟨_, .more hname hopens hcomma hms, ?_⟩
    rw [hx, List.reverse_cons, List.append_assoc]
    rfl
termination_by t'.length
decreasing_by
  simp only [List.length_cons] at h₁ h₂
  omega

/-- Written elements are read as the elements of an array. -/
theorem run_of_elementsAt {t rest : Text} {ws : List Written}
    (h : ElementsAt t ws rest) (done : List Json) :
    run [.array done] .value (skipBlanks t)
      = .ok (.arr (done.reverse ++ ws.map Written.value), rest) := by
  induction h generalizing done with
  | @last t rest w hvalue hend =>
      refine run_value_eq_ok_iff.mpr ⟨w.value, w.after, hvalue.reads, ?_⟩
      rw [run_arrayEnd hend, run_nil, List.reverse_cons]
      rfl
  | @more t t' rest w ws hvalue hcomma hmore ih =>
      refine run_value_eq_ok_iff.mpr ⟨w.value, w.after, hvalue.reads, ?_⟩
      rw [run_arrayNext hcomma, ih, List.reverse_cons, List.append_assoc]
      rfl

/-- What a run reads in an array is its written elements. -/
theorem elementsAt_of_run {t rest : Text} {done : List Json} {x : Json}
    (h : run [.array done] .value (skipBlanks t) = .ok (x, rest)) :
    ∃ ws, ElementsAt t ws rest
      ∧ x = .arr (done.reverse ++ ws.map Written.value) := by
  obtain ⟨v, r, hparse, hafter⟩ := run_value_eq_ok_iff.mp h
  obtain ⟨raw, hopens⟩ := exists_opens hparse
  rcases run_after_array_eq_ok hafter with
    ⟨r', hend, hnil⟩ | ⟨body, hcomma, hrun⟩
  · cases run_nil.symm.trans hnil
    refine ⟨_, .last hopens hend, ?_⟩
    rw [List.reverse_cons]
    rfl
  · have h₁ := hopens.length_after
    have h₂ := length_of_skipBlanks hcomma
    have h₃ := length_skipBlanks t
    obtain ⟨ws, hws, hx⟩ := elementsAt_of_run hrun
    refine ⟨_, .more hopens hcomma hws, ?_⟩
    rw [hx, List.reverse_cons, List.append_assoc]
    rfl
termination_by t.length
decreasing_by
  simp only [List.length_cons] at h₁ h₂
  omega

/-- The first sign of a value tells its kind. -/
theorem parse_cases {t rest : Text} {v : Json} (h : parse t = .ok (v, rest)) :
    (∃ body s, t = .char '"' :: body ∧ readString body = .ok (s, rest)
        ∧ v = .str s)
      ∨ (∃ ws, ArrayAt t ws rest ∧ v = .arr (ws.map Written.value))
      ∨ (∃ ms, ObjectAt t ms rest ∧ v = .obj (Entries.ofList (entriesOf ms)))
      ∨ readScalar? t = some (v, rest) := by
  rw [parse] at h
  cases t with
  | nil => cases length_rest_of_run h
  | cons c body =>
  by_cases hquote : c = .char '"'
  · subst hquote
    rw [run] at h
    split at h
    · cases h
    · next s r hs =>
        cases run_nil.symm.trans h
        exact .inl ⟨body, s, rfl, hs, rfl⟩
  by_cases hbracket : c = .char '['
  · subst hbracket
    refine .inr (.inl ?_)
    have hroom := Limits.not_isFull_unlimited ([] : List Frame).length
    by_cases hempty : ∃ r, skipBlanks body = .char ']' :: r
    · obtain ⟨r, hr⟩ := hempty
      rw [run_emptyArray hroom hr] at h
      cases run_nil.symm.trans h
      exact ⟨[], .empty hr, rfl⟩
    · rw [run_array hroom fun r hr => hempty ⟨r, hr⟩] at h
      obtain ⟨ws, hws, rfl⟩ := elementsAt_of_run h
      exact ⟨ws, .elements hws, rfl⟩
  by_cases hbrace : c = .char '{'
  · subst hbrace
    refine .inr (.inr (.inl ?_))
    rw [run, if_neg (Limits.not_isFull_unlimited _)] at h
    split at h
    · next r hr =>
        cases run_nil.symm.trans h
        exact ⟨[], .empty hr, rfl⟩
    · split at h
      · cases h
      · next name r hn =>
          obtain ⟨ms, hms, rfl⟩ := membersAt_of_run hn h
          exact ⟨ms, .members hms, rfl⟩
  -- what starts with none of these signs is a scalar
  refine .inr (.inr (.inr ?_))
  rw [run] at h
  · split at h
    · cases h
    · next v' r hs =>
        cases run_nil.symm.trans h
        exact readScalar_unlimited_iff.mp hs
  · exact fun _ hc => hquote (List.cons.inj hc).1
  · exact fun _ hc => hbracket (List.cons.inj hc).1
  · exact fun _ hc => hbrace (List.cons.inj hc).1

/-- An object is parsed exactly if it is written, and to the entries that are
    written. -/
theorem parse_eq_obj_iff {t rest : Text} {d : List (Text × Json)} :
    parse t = .ok (.obj d, rest)
      ↔ ∃ ms, ObjectAt t ms rest ∧ d = Entries.ofList (entriesOf ms) := by
  constructor
  · intro h
    rcases parse_cases h with
      ⟨_, _, _, _, hv⟩ | ⟨_, _, hv⟩ | ⟨ms, hms, hv⟩ | hscalar
    · cases hv
    · cases hv
    · exact ⟨ms, hms, Json.obj.inj hv⟩
    · rcases scalar_of_readScalar? hscalar with hv | ⟨_, hv⟩ | ⟨_, hv⟩ | ⟨_, hv⟩
      all_goals cases hv
  · rintro ⟨ms, hms, rfl⟩
    cases hms with
    | empty hend =>
        exact (run_emptyObject (Limits.not_isFull_unlimited _) hend).trans run_nil
    | members hmembers =>
        obtain ⟨name, t', hname, hrun⟩ := run_of_membersAt hmembers
        exact (run_object (Limits.not_isFull_unlimited _) hname).trans (hrun [])

/-- Elements begin with a written value. -/
theorem ElementsAt.exists_opens {t rest : Text} {ws : List Written}
    (h : ElementsAt t ws rest) : ∃ w, Written.Opens w (skipBlanks t) := by
  cases h with
  | last hvalue _ => exact ⟨_, hvalue⟩
  | more hvalue _ _ => exact ⟨_, hvalue⟩

/-- An array is parsed exactly if it is written, and to the elements that
    are written. -/
theorem parse_eq_arr_iff {t rest : Text} {items : List Json} :
    parse t = .ok (.arr items, rest)
      ↔ ∃ ws, ArrayAt t ws rest ∧ items = ws.map Written.value := by
  constructor
  · intro h
    rcases parse_cases h with
      ⟨_, _, _, _, hv⟩ | ⟨ws, hws, hv⟩ | ⟨_, _, hv⟩ | hscalar
    · cases hv
    · exact ⟨ws, hws, Json.arr.inj hv⟩
    · cases hv
    · rcases scalar_of_readScalar? hscalar with hv | ⟨_, hv⟩ | ⟨_, hv⟩ | ⟨_, hv⟩
      all_goals cases hv
  · rintro ⟨ws, hws, rfl⟩
    cases hws with
    | empty hend =>
        exact (run_emptyArray (Limits.not_isFull_unlimited _) hend).trans run_nil
    | @elements body _ _ helements =>
        refine (run_array (Limits.not_isFull_unlimited _) ?_).trans
          (run_of_elementsAt helements [])
        intro r hr
        obtain ⟨w, hopens⟩ := helements.exists_opens
        exact ne_bracket_of_parse hopens.reads hr

section
variable [L : Limits] {t rest r : Text} {x : Json}

/-- Inside a container a value is read as it stands there, and fits. -/
theorem Written.Opens.fits_of_run {w : Written} {stack : List Frame}
    (hopens : w.Opens t) (h : run stack .value t = .ok (x, rest)) :
    w.Fits ∧ run stack (.after w.value) w.after = .ok (x, rest) := by
  obtain ⟨v, r, hparse, hafter⟩ := @exists_of_run_onto L [] stack .value t rest x h
  cases hopens.reads.symm.trans (parse_unlimited hparse)
  exact ⟨(opens_and_fits_iff.mpr ⟨hopens.split, hparse⟩).2, hafter⟩

/-- The members of an object that is read fit. -/
theorem MembersAt.fits {ms : List (Text × Written)} (h : MembersAt t ms rest)
    {name t' : Text} {done : List (Text × Json)}
    (hname : readName (skipBlanks t) = .ok (name, t'))
    (hrun : run [.object done name] .value t' = .ok (x, r)) :
    ∀ m ∈ ms, m.2.Fits := by
  induction h generalizing name t' done with
  | last hname' hvalue hend =>
      cases hname'.symm.trans hname
      intro m hm
      cases List.mem_singleton.mp hm
      exact (hvalue.fits_of_run hrun).1
  | more hname' hvalue hcomma hmore ih =>
      cases hname'.symm.trans hname
      obtain ⟨hfits, hafter⟩ := hvalue.fits_of_run hrun
      obtain ⟨q, hend, -⟩ | ⟨body, name', q, hcomma', hnext, hrun'⟩ :=
        run_after_object_eq_ok hafter
      · cases hcomma.symm.trans hend
      · cases hcomma.symm.trans hcomma'
        intro m hm
        rcases List.mem_cons.mp hm with rfl | hm
        · exact hfits
        · exact ih hnext hrun' m hm

/-- The members of an object that is read fit. -/
theorem ObjectAt.fits {ms : List (Text × Written)} (h : ObjectAt t ms rest)
    (hparse : parse t = .ok (x, r)) : ∀ m ∈ ms, m.2.Fits := by
  cases h with
  | empty hend => exact fun m hm => (List.not_mem_nil hm).elim
  | members hmembers =>
      rw [parse, run] at hparse
      split at hparse
      · cases hparse
      · split at hparse
        · next hend => exact (hmembers.ne_brace hend).elim
        · split at hparse
          · cases hparse
          · next hname => exact hmembers.fits hname hparse

/-- The elements of an array that is read fit. -/
theorem ElementsAt.fits {ws : List Written} (h : ElementsAt t ws rest)
    {done : List Json}
    (hrun : run [.array done] .value (skipBlanks t) = .ok (x, r)) :
    ∀ w ∈ ws, w.Fits := by
  induction h generalizing done with
  | last hvalue hend =>
      intro w hw
      cases List.mem_singleton.mp hw
      exact (hvalue.fits_of_run hrun).1
  | more hvalue hcomma hmore ih =>
      obtain ⟨hfits, hafter⟩ := hvalue.fits_of_run hrun
      obtain ⟨q, hend, -⟩ | ⟨body, hcomma', hrun'⟩ :=
        run_after_array_eq_ok hafter
      · cases hcomma.symm.trans hend
      · cases hcomma.symm.trans hcomma'
        intro w hw
        rcases List.mem_cons.mp hw with rfl | hw
        · exact hfits
        · exact ih hrun' w hw

/-- The elements of an array that is read fit. -/
theorem ArrayAt.fits {ws : List Written} (h : ArrayAt t ws rest)
    (hparse : parse t = .ok (x, r)) : ∀ w ∈ ws, w.Fits := by
  cases h with
  | empty hend => exact fun w hw => (List.not_mem_nil hw).elim
  | elements helements =>
      obtain ⟨w, hopens⟩ := helements.exists_opens
      rw [parse, run] at hparse
      split at hparse
      · cases hparse
      · split at hparse
        · next hend => exact (ne_bracket_of_parse (L := .unlimited) hopens.reads hend).elim
        · exact helements.fits hparse

/-- A string fits. -/
theorem Written.Opens.fits_of_quote {w : Written} {body : Text}
    (h : w.Opens (.char '"' :: body)) : w.Fits := by
  rcases parse_cases h.reads with
    ⟨_, s, hbody, hs, hvalue⟩ | ⟨_, ha, -⟩ | ⟨_, ho, -⟩ | hscalar
  · cases hbody
    refine (opens_and_fits_iff.mpr ⟨h.split, ?_⟩).2
    rw [hvalue]
    exact (run_string hs).trans run_nil
  · cases ha
  · cases ho
  · cases hscalar

/-- A scalar fits that is not too long. -/
theorem Written.Opens.fits_of_scalar {w : Written} (h : w.Opens t)
    (hscalar : readScalar? t = some (w.value, w.after))
    (hshort : w.value.excess? = none) : w.Fits :=
  (opens_and_fits_iff.mpr ⟨h.split,
    (run_scalar (readScalar_eq_ok_iff.mpr ⟨hscalar, hshort⟩)).trans run_nil⟩).2

end

end CouchClient.Json
