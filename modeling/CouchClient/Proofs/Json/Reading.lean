import CouchClient.Proofs.Json.Lexeme

/-! # Values and the text after them

    What was shown of lexemes holds of whole values: a value is read the
    same when more text comes after it, and when text after it is taken
    away.  Only a number that ends the text so far may be read as another
    one.  Inside a container there is always a sign that ends a number, so
    the question arises for a number that stands alone and for no other
    value.

    All of this holds for any limits of the interpreter, and what is too deep
    stays so as well when more text comes.

    * `run_string`, …, `run_objectNext` — the moves of the machine;
    * `parse_append`, `parse_of_append` — the text after a value;
    * `exists_of_run_onto` — the machine reads a value first and goes on with
      the containers around it afterwards. -/

namespace CouchClient.Json

open Scanner (standsInNumber)

/-! ## Names -/

/-- A name is a string with a colon behind it, and blanks around that. -/
theorem readName_eq_ok_iff {t name rest : Text} :
    readName t = .ok (name, rest)
      ↔ ∃ body r r', t = .char '"' :: body ∧ readString body = .ok (name, r)
        ∧ skipBlanks r = .char ':' :: r' ∧ rest = skipBlanks r' := by
  constructor
  · intro h
    rw [readName.eq_def] at h
    split at h
    · next body =>
        split at h
        · cases h
        · next name' r hs =>
            split at h
            · next r' hcolon =>
                cases h
                exact ⟨body, r, r', rfl, hs, hcolon, rfl⟩
            · cases h
    · cases h
  · rintro ⟨body, r, r', rfl, hs, hcolon, rfl⟩
    rw [readName, hs]
    dsimp only
    rw [hcolon]
    rfl

/-- A name is followed by a value, which takes up text. -/
theorem readName_append {t name rest : Text} (h : readName t = .ok (name, rest))
    (hrest : rest ≠ []) (u : Text) :
    readName (t ++ u) = .ok (name, rest ++ u) := by
  obtain ⟨body, r, r', rfl, hs, hcolon, rfl⟩ := readName_eq_ok_iff.mp h
  refine readName_eq_ok_iff.mpr
    ⟨body ++ u, r ++ u, r' ++ u, rfl, readString_append hs u,
      skipBlanks_append hcolon u, ?_⟩
  cases hr : skipBlanks r' with
  | nil => exact (hrest hr).elim
  | cons c r'' => exact (skipBlanks_append hr u).symm

/-- A name that something follows is read there with more text. -/
theorem readName_skipBlanks_append {t name rest : Text}
    (h : readName (skipBlanks t) = .ok (name, rest)) (hrest : rest ≠ [])
    (u : Text) : readName (skipBlanks (t ++ u)) = .ok (name, rest ++ u) := by
  have hne : skipBlanks t ≠ [] := by
    intro hnil
    rw [hnil] at h
    cases h
  rw [skipBlanks_append_of_ne_nil hne]
  exact readName_append h hrest u

/-- A name before the later text is read within the earlier one. -/
theorem readName_of_append {t u name rest : Text}
    (h : readName (t ++ u) = .ok (name, rest)) (hlen : u.length ≤ rest.length) :
    ∃ r, rest = r ++ u ∧ readName t = .ok (name, r) := by
  obtain ⟨body, r, r', hbody, hs, hcolon, rfl⟩ := readName_eq_ok_iff.mp h
  have h₁ := length_rest_of_readString hs
  have h₂ := length_of_skipBlanks hcolon
  have h₃ := length_skipBlanks r'
  rw [List.length_cons] at h₂
  obtain ⟨t', rfl, rfl⟩ := exists_cons_of_append hbody (by omega)
  obtain ⟨q, rfl, hs'⟩ := readString_of_append hs (by omega)
  rw [skipBlanks_of_append (by rw [hcolon, List.length_cons]; omega)] at hcolon
  obtain ⟨q', hq', rfl⟩ := exists_cons_of_append hcolon (by omega)
  have hsplit := skipBlanks_of_append hlen
  exact ⟨skipBlanks q', hsplit,
    readName_eq_ok_iff.mpr ⟨t', q, q', rfl, hs', hq', rfl⟩⟩

/-- A string that is flawed is not too deep. -/
theorem tooDeep?_of_readString {t : Text} {flaw : Flaw}
    (h : readString t = .error flaw) : flaw.wrong.tooDeep? = none := by
  unfold readString at h
  generalize (⟨[], none⟩ : Partial) = p at h
  fun_induction readStringOnto (.char '"' :: t) p t
  case case2 => cases h
  case case3 ih | case7 ih | case10 ih => exact ih h
  all_goals
    cases h
    rfl

/-- Nor is a name that is flawed. -/
theorem tooDeep?_of_readName {t : Text} {flaw : Flaw}
    (h : readName t = .error flaw) : flaw.wrong.tooDeep? = none := by
  rw [readName.eq_def] at h
  split at h
  · split at h
    · next hs =>
        cases h
        exact tooDeep?_of_readString hs
    · split at h
      · cases h
      · cases h
        rfl
  · cases h
    rfl

/-- A name does not begin with a brace. -/
theorem ne_brace_of_readName {t name rest rest' : Text}
    (h : readName t = .ok (name, rest)) : t ≠ .char '}' :: rest' := by
  rintro rfl
  cases h

/-! ## Scalars -/

section
variable [Limits] {t u rest : Text} {v : Json}

/-- A scalar that cannot be read is none, or it is too long. -/
theorem readScalar_eq_error {flaw : Flaw} (h : readScalar t = .error flaw) :
    (readScalar? t = none ∧ flaw = ⟨.expectedValue, t⟩)
      ∨ ∃ e, flaw = ⟨.tooLong e, t⟩ ∧ Limits.Exceeds e := by
  rw [readScalar] at h
  split at h
  · next hs =>
      cases h
      exact Or.inl ⟨hs, rfl⟩
  · split at h
    · next v _ _ _ e hlong =>
        cases h
        cases v with
        | int n => exact Or.inr ⟨e, rfl, n, hlong⟩
        | _ => cases hlong
    · cases h

/-- A scalar that cannot go on is read there with more text. -/
theorem readScalar_append (h : readScalar t = .ok (v, rest))
    (hgo : Scanner.mayGoOn v rest = false) (u : Text) :
    readScalar (t ++ u) = .ok (v, rest ++ u) := by
  obtain ⟨hs, hfits⟩ := readScalar_eq_ok_iff.mp h
  exact readScalar_eq_ok_iff.mpr ⟨readScalar?_append hs hgo u, hfits⟩

/-- A scalar before the later text is read within the earlier one. -/
theorem readScalar_of_append (h : readScalar (t ++ u) = .ok (v, rest))
    (hlen : u.length ≤ rest.length) :
    ∃ r, rest = r ++ u ∧ readScalar t = .ok (v, r) := by
  obtain ⟨hs, hfits⟩ := readScalar_eq_ok_iff.mp h
  obtain ⟨r, hr, hs'⟩ := readScalar?_of_append hs hlen
  exact ⟨r, hr, readScalar_eq_ok_iff.mpr ⟨hs', hfits⟩⟩

theorem suffix_of_readScalar (h : readScalar t = .ok (v, rest)) : rest <:+ t :=
  suffix_of_readScalar? (readScalar_eq_ok_iff.mp h).1

end

/-! ## The moves of the machine -/

section
variable [L : Limits] {stack : List Frame} {body rest s name t : Text} {v : Json}
  {done : List Json} {entries : List (Text × Json)}

/-- A string is a value. -/
theorem run_string (h : readString body = .ok (s, rest)) :
    run stack .value (.char '"' :: body) = run stack (.after (.str s)) rest := by
  rw [run]
  split
  · next hs => cases h.symm.trans hs
  · next hs =>
      cases h.symm.trans hs
      rfl

/-- An array that ends at once is empty. -/
theorem run_emptyArray (hroom : ¬ Limits.isFull stack.length)
    (h : skipBlanks body = .char ']' :: rest) :
    run stack .value (.char '[' :: body)
      = run stack (.after (.arr [])) rest := by
  rw [run, if_neg hroom]
  split
  · next hs =>
      cases h.symm.trans hs
      rfl
  · next hs => exact (hs _ h).elim

/-- An array goes on with its first element, one level deeper. -/
theorem run_array (hroom : ¬ Limits.isFull stack.length)
    (h : ∀ rest, skipBlanks body ≠ .char ']' :: rest) :
    run stack .value (.char '[' :: body)
      = run (.array [] :: stack) .value (skipBlanks body) := by
  rw [run, if_neg hroom]
  split
  · next hs => exact (h _ hs).elim
  · rfl

/-- An object that ends at once is empty. -/
theorem run_emptyObject (hroom : ¬ Limits.isFull stack.length)
    (h : skipBlanks body = .char '}' :: rest) :
    run stack .value (.char '{' :: body)
      = run stack (.after (.obj [])) rest := by
  rw [run, if_neg hroom]
  split
  · next hs =>
      cases h.symm.trans hs
      rfl
  · next hs => exact (hs _ h).elim

/-- An object goes on with the value of its first name, one level deeper. -/
theorem run_object (hroom : ¬ Limits.isFull stack.length)
    (h : readName (skipBlanks body) = .ok (name, rest)) :
    run stack .value (.char '{' :: body)
      = run (.object [] name :: stack) .value rest := by
  rw [run, if_neg hroom]
  split
  · next hs => exact (ne_brace_of_readName h hs).elim
  · split
    · next hn => cases h.symm.trans hn
    · next hn =>
        cases h.symm.trans hn
        rfl

/-- A scalar is a value. -/
theorem run_scalar (h : readScalar t = .ok (v, rest)) :
    run stack .value t = run stack (.after v) rest := by
  rw [run]
  · split
    · next hs => cases h.symm.trans hs
    · next hs =>
        cases h.symm.trans hs
        rfl
  -- no scalar starts like a string or a container
  all_goals
    rintro _ rfl
    cases h

/-- At the end of an array its elements are a value. -/
theorem run_arrayEnd (h : skipBlanks t = .char ']' :: rest) :
    run (.array done :: stack) (.after v) t
      = run stack (.after (.arr (v :: done).reverse)) rest := by
  conv => lhs; rw [run]
  split
  · next hs =>
      cases h.symm.trans hs
      rfl
  · next hs => cases h.symm.trans hs
  · next hs _ => exact (hs _ h).elim

/-- Behind a comma comes the next element. -/
theorem run_arrayNext (h : skipBlanks t = .char ',' :: body) :
    run (.array done :: stack) (.after v) t
      = run (.array (v :: done) :: stack) .value (skipBlanks body) := by
  conv => lhs; rw [run]
  split
  · next hs => cases h.symm.trans hs
  · next hs =>
      cases h.symm.trans hs
      rfl
  · next hs => exact (hs _ h).elim

/-- At the end of an object its members are a value, the last one of a name
    counting. -/
theorem run_objectEnd (h : skipBlanks t = .char '}' :: rest) :
    run (.object entries name :: stack) (.after v) t
      = run stack
          (.after (.obj (Entries.ofList ((name, v) :: entries).reverse)))
          rest := by
  conv => lhs; rw [run]
  split
  · next hs =>
      cases h.symm.trans hs
      rfl
  · next hs => cases h.symm.trans hs
  · next hs _ => exact (hs _ h).elim

/-- Behind a comma comes the value of the next name. -/
theorem run_objectNext {name' : Text} (h : skipBlanks t = .char ',' :: body)
    (hn : readName (skipBlanks body) = .ok (name', rest)) :
    run (.object entries name :: stack) (.after v) t
      = run (.object ((name, v) :: entries) name' :: stack) .value rest := by
  conv => lhs; rw [run]
  split
  · next hs => cases h.symm.trans hs
  · next hs =>
      cases h.symm.trans hs
      split
      · next hn' => cases hn.symm.trans hn'
      · next hn' =>
          cases hn.symm.trans hn'
          rfl
  · next hs => exact (hs _ h).elim

end

/-! ## More text after a value -/

/-- Inside a container the text goes on with a sign that is no part of a
    number, unless it is flawed there. -/
theorem mayGoOn_of_run_after [L : Limits] {stack : List Frame} {v : Json}
    {t : Text} (hstack : stack ≠ [])
    (h : ∀ r, run stack (.after v) t ≠ .error ⟨.expectedComma, r⟩) (x : Json) :
    Scanner.mayGoOn x t = false := by
  have hsign : ∃ c body, skipBlanks t = c :: body
      ∧ standsInNumber c = false := by
    cases stack with
    | nil => exact (hstack rfl).elim
    | cons frame stack =>
        cases frame with
        | array done =>
            rw [run] at h
            split at h
            · next hs => exact ⟨_, _, hs, rfl⟩
            · next hs => exact ⟨_, _, hs, rfl⟩
            · exact absurd rfl (h _)
        | object entries name =>
            rw [run] at h
            split at h
            · next hs => exact ⟨_, _, hs, rfl⟩
            · next hs => exact ⟨_, _, hs, rfl⟩
            · exact absurd rfl (h _)
  obtain ⟨c, body, hs, hc⟩ := hsign
  have hall : t.all standsInNumber = false := by
    refine all_of_suffix (List.dropWhile_suffix isBlank) ?_
    rw [show t.dropWhile isBlank = c :: body from hs, List.all_cons, hc]
    rfl
  cases x with
  | int n => exact hall
  | float n => exact hall
  | bool b => exact hall
  | _ => rfl

/-- What comes of a reading where more text is left. -/
def extend (u : Text) :
    Except Flaw (Json × Text) → Except Flaw (Json × Text)
  | .error flaw => .error ⟨flaw.wrong, flaw.rest ++ u⟩
  | .ok (v, rest) => .ok (v, rest ++ u)

/-- A reading comes to an end that no further text changes: with a value, or
    as something is too deep. -/
def IsFinal : Except Flaw (Json × Text) → Prop
  | .error flaw => flaw.wrong.tooDeep? ≠ none
  | .ok _ => True

/-- A value that is due in an empty text may still come. -/
theorem ne_nil_of_isFinal [L : Limits] {stack : List Frame} {t : Text}
    (h : IsFinal (run stack .value t)) : t ≠ [] := by
  rintro rfl
  rw [run] at h
  · exact h rfl
  all_goals simp

/-- A run that comes to an end comes to the same end when there is more text,
    unless it reads a number that stands alone and may go on. -/
theorem run_append [L : Limits] {stack : List Frame} {due : Due} {t : Text}
    (h : IsFinal (run stack due t))
    (hrest : stack = [] → due = .value → ∀ v rest,
      run stack due t = .ok (v, rest) → Scanner.mayGoOn v rest = false)
    (u : Text) : run stack due (t ++ u) = extend u (run stack due t) := by
  fun_induction run stack due t with
  | case1 stack body flaw hs => exact absurd (tooDeep?_of_readString hs) h
  | case2 stack body s r hs ih =>
      exact (run_string (readString_append hs u)).trans (ih h (by simp))
  | case3 stack body hfull =>
      rw [List.cons_append, run, if_pos hfull]
      rfl
  | case4 stack body hroom r hs ih =>
      exact (run_emptyArray hroom (skipBlanks_append hs u)).trans
        (ih h (by simp))
  | case5 stack body hroom hs ih =>
      have hne := ne_nil_of_isFinal h
      have hsplit := skipBlanks_append_of_ne_nil hne u
      rw [List.cons_append, run_array hroom, hsplit]
      · exact ih h (by simp)
      · intro r hr
        cases hbody : skipBlanks body with
        | nil => exact hne hbody
        | cons c r' =>
            rw [hsplit, hbody, List.cons_append, List.cons.injEq] at hr
            exact hs r' (by rw [hbody, hr.1])
  | case6 stack body hfull =>
      rw [List.cons_append, run, if_pos hfull]
      rfl
  | case7 stack body hroom r hs ih =>
      exact (run_emptyObject hroom (skipBlanks_append hs u)).trans
        (ih h (by simp))
  | case8 stack body hroom flaw _ hn =>
      exact absurd (tooDeep?_of_readName hn) h
  | case9 stack body hroom name r _ hn ih =>
      have hname := readName_skipBlanks_append hn (ne_nil_of_isFinal h) u
      exact (run_object hroom hname).trans (ih h (by simp))
  | case10 stack t _ _ _ flaw hs =>
      obtain ⟨-, rfl⟩ | ⟨e, rfl, -⟩ := readScalar_eq_error hs
      all_goals exact absurd rfl h
  | case11 stack t _ _ _ v r hs ih =>
      have hgo : Scanner.mayGoOn v r = false := by
        by_cases hstack : stack = []
        · subst hstack
          exact hrest rfl rfl v r run_nil
        · refine mayGoOn_of_run_after (v := v) hstack ?_ v
          intro q hq
          rw [hq] at h
          exact h rfl
      exact (run_scalar (readScalar_append hs hgo u)).trans (ih h (by simp))
  | case12 => exact run_nil
  | case13 t v done stack r hs ih =>
      exact (run_arrayEnd (skipBlanks_append hs u)).trans (ih h (by simp))
  | case14 t v done stack body hs ih =>
      rw [run_arrayNext (skipBlanks_append hs u),
        skipBlanks_append_of_ne_nil (ne_nil_of_isFinal h)]
      exact ih h (by simp)
  | case16 t v entries name stack r hs ih =>
      exact (run_objectEnd (skipBlanks_append hs u)).trans (ih h (by simp))
  | case17 t v entries name stack body hs flaw hn =>
      exact absurd (tooDeep?_of_readName hn) h
  | case18 t v entries name stack body hs name' r hn ih =>
      have hname := readName_skipBlanks_append hn (ne_nil_of_isFinal h) u
      exact (run_objectNext (skipBlanks_append hs u) hname).trans
        (ih h (by simp))
  | _ => exact absurd rfl h

/-- A value that cannot go on is read there with more text. -/
theorem parse_append [L : Limits] {t rest : Text} {v : Json}
    (h : parse t = .ok (v, rest)) (hrest : Scanner.mayGoOn v rest = false)
    (u : Text) : parse (t ++ u) = .ok (v, rest ++ u) := by
  rw [parse] at h
  have hsame := run_append (by rw [h]; trivial) (fun _ _ v' r' h' => by
    cases h.symm.trans h'
    exact hrest) u
  rw [h] at hsame
  exact hsame

/-- What is too deep stays too deep. -/
theorem parse_append_of_tooDeep [L : Limits] {t : Text} {flaw : Flaw}
    (h : parse t = .error flaw) (hdeep : flaw.wrong.tooDeep? ≠ none)
    (u : Text) :
    parse (t ++ u) = .error ⟨flaw.wrong, flaw.rest ++ u⟩ := by
  rw [parse] at h
  have hsame := run_append (by rw [h]; exact hdeep) (fun _ _ v' r' h' => by
    cases h.symm.trans h') u
  rw [h] at hsame
  exact hsame

/-! ## Less text after a value -/

/-- A character behind blanks, before the later text, is of the earlier one. -/
theorem skipBlanks_of_append_cons {t u body : Text} {c : CodePoint}
    (h : skipBlanks (t ++ u) = c :: body) (hlen : u.length ≤ body.length) :
    ∃ t', skipBlanks t = c :: t' ∧ body = t' ++ u := by
  rw [skipBlanks_of_append (by rw [h, List.length_cons]; omega)] at h
  exact exists_cons_of_append h hlen

/-- A run is the same when text is taken away that it leaves. -/
theorem run_of_append [L : Limits] {stack : List Frame} {due : Due} {t u rest : Text}
    {v : Json} (h : run stack due (t ++ u) = .ok (v, rest))
    (hlen : u.length ≤ rest.length) :
    ∃ r, rest = r ++ u ∧ run stack due t = .ok (v, r) := by
  -- no step takes any of `u`: what it leaves is no shorter than `rest`
  generalize hT : t ++ u = T at h
  fun_induction run stack due T generalizing t with
  | case2 stack body s r hs ih =>
      have hshort := length_rest_of_run h
      have hstring := length_rest_of_readString hs
      obtain ⟨t', rfl, rfl⟩ := exists_cons_of_append hT (by omega)
      obtain ⟨q, rfl, hs'⟩ := readString_of_append hs (by omega)
      obtain ⟨r', hr, hrun⟩ := ih rfl h
      exact ⟨r', hr, (run_string hs').trans hrun⟩
  | case4 stack body hroom r hs ih =>
      have hshort := length_rest_of_run h
      have hblanks := length_of_skipBlanks hs
      rw [List.length_cons] at hblanks
      obtain ⟨t', rfl, rfl⟩ := exists_cons_of_append hT (by omega)
      obtain ⟨q, hs', rfl⟩ := skipBlanks_of_append_cons hs (by omega)
      obtain ⟨r', hr, hrun⟩ := ih rfl h
      exact ⟨r', hr, (run_emptyArray hroom hs').trans hrun⟩
  | case5 stack body hroom hs ih =>
      have hshort := length_rest_of_run h
      have hblanks := length_skipBlanks body
      obtain ⟨t', rfl, rfl⟩ := exists_cons_of_append hT (by omega)
      have hsplit := skipBlanks_of_append (t := t') (u := u) (by omega)
      obtain ⟨r', hr, hrun⟩ := ih hsplit.symm h
      refine ⟨r', hr, (run_array hroom ?_).trans hrun⟩
      intro q hq
      exact hs (q ++ u) (by rw [hsplit, hq, List.cons_append])
  | case7 stack body hroom r hs ih =>
      have hshort := length_rest_of_run h
      have hblanks := length_of_skipBlanks hs
      rw [List.length_cons] at hblanks
      obtain ⟨t', rfl, rfl⟩ := exists_cons_of_append hT (by omega)
      obtain ⟨q, hs', rfl⟩ := skipBlanks_of_append_cons hs (by omega)
      obtain ⟨r', hr, hrun⟩ := ih rfl h
      exact ⟨r', hr, (run_emptyObject hroom hs').trans hrun⟩
  | case9 stack body hroom name r _ hn ih =>
      have hshort := length_rest_of_run h
      have hname := length_rest_of_readName hn
      have hblanks := length_skipBlanks body
      obtain ⟨t', rfl, rfl⟩ := exists_cons_of_append hT (by omega)
      rw [skipBlanks_of_append (by omega)] at hn
      obtain ⟨q, rfl, hn'⟩ := readName_of_append hn (by omega)
      obtain ⟨r', hr, hrun⟩ := ih rfl h
      exact ⟨r', hr, (run_object hroom hn').trans hrun⟩
  | case11 stack T _ _ _ v' r hs ih =>
      have hshort := length_rest_of_run h
      subst hT
      obtain ⟨q, rfl, hs'⟩ := readScalar_of_append hs (by omega)
      obtain ⟨r', hr, hrun⟩ := ih rfl h
      exact ⟨r', hr, (run_scalar hs').trans hrun⟩
  | case12 =>
      cases h
      exact ⟨t, hT.symm, run_nil⟩
  | case13 T v done stack r hs ih =>
      have hshort := length_rest_of_run h
      subst hT
      obtain ⟨q, hs', rfl⟩ := skipBlanks_of_append_cons hs (by omega)
      obtain ⟨r', hr, hrun⟩ := ih rfl h
      exact ⟨r', hr, (run_arrayEnd hs').trans hrun⟩
  | case14 T v done stack body hs ih =>
      have hshort := length_rest_of_run h
      have hblanks := length_skipBlanks body
      subst hT
      obtain ⟨q, hs', rfl⟩ := skipBlanks_of_append_cons hs (by omega)
      have hsplit := skipBlanks_of_append (t := q) (u := u) (by omega)
      obtain ⟨r', hr, hrun⟩ := ih hsplit.symm h
      exact ⟨r', hr, (run_arrayNext hs').trans hrun⟩
  | case16 T v entries name stack r hs ih =>
      have hshort := length_rest_of_run h
      subst hT
      obtain ⟨q, hs', rfl⟩ := skipBlanks_of_append_cons hs (by omega)
      obtain ⟨r', hr, hrun⟩ := ih rfl h
      exact ⟨r', hr, (run_objectEnd hs').trans hrun⟩
  | case18 T v entries name stack body hs name' r hn ih =>
      have hshort := length_rest_of_run h
      have hname := length_rest_of_readName hn
      have hblanks := length_skipBlanks body
      subst hT
      obtain ⟨q, hs', rfl⟩ := skipBlanks_of_append_cons hs (by omega)
      rw [skipBlanks_of_append (by omega)] at hn
      obtain ⟨q', rfl, hn'⟩ := readName_of_append hn (by omega)
      obtain ⟨r', hr, hrun⟩ := ih rfl h
      exact ⟨r', hr, (run_objectNext hs' hn').trans hrun⟩
  | _ => cases h

/-- A value before the later text is read within the earlier one. -/
theorem parse_of_append [L : Limits] {t u rest : Text} {v : Json}
    (h : parse (t ++ u) = .ok (v, rest)) (hlen : u.length ≤ rest.length) :
    ∃ r, rest = r ++ u ∧ parse t = .ok (v, r) :=
  run_of_append h hlen

/-! ## What is left is the end of the text -/

theorem suffix_skipBlanks (t : Text) : skipBlanks t <:+ t :=
  List.dropWhile_suffix _

theorem suffix_of_skipBlanks {t rest : Text} {c : CodePoint}
    (h : skipBlanks t = c :: rest) : rest <:+ t :=
  (h ▸ List.suffix_cons c rest : rest <:+ skipBlanks t).trans
    (suffix_skipBlanks t)

/-- What is left of a name is the end of its text. -/
theorem suffix_of_readName {t name rest : Text}
    (h : readName t = .ok (name, rest)) : rest <:+ t := by
  obtain ⟨body, r, r', rfl, hs, hcolon, rfl⟩ := readName_eq_ok_iff.mp h
  have h₁ := (suffix_of_readString hs).trans (List.suffix_cons (.char '"') body)
  exact ((suffix_skipBlanks r').trans (suffix_of_skipBlanks hcolon)).trans h₁

/-- What a run leaves is the end of its text. -/
theorem suffix_of_run [L : Limits] {stack : List Frame} {due : Due} {t rest : Text}
    {v : Json} (h : run stack due t = .ok (v, rest)) : rest <:+ t := by
  fun_induction run stack due t with
  | case2 stack body s r hs ih =>
      exact ((ih h).trans (suffix_of_readString hs)).trans
        (List.suffix_cons _ _)
  | case4 stack body hroom r hs ih =>
      exact ((ih h).trans (suffix_of_skipBlanks hs)).trans
        (List.suffix_cons _ _)
  | case5 stack body hroom hs ih =>
      exact ((ih h).trans (suffix_skipBlanks body)).trans
        (List.suffix_cons _ _)
  | case7 stack body hroom r hs ih =>
      exact ((ih h).trans (suffix_of_skipBlanks hs)).trans
        (List.suffix_cons _ _)
  | case9 stack body hroom name r _ hn ih =>
      exact (((ih h).trans (suffix_of_readName hn)).trans
        (suffix_skipBlanks body)).trans (List.suffix_cons _ _)
  | case11 stack t _ _ _ v' r hs ih =>
      exact (ih h).trans (suffix_of_readScalar hs)
  | case12 t v =>
      cases h
      exact List.suffix_refl _
  | case13 t v done stack r hs ih => exact (ih h).trans (suffix_of_skipBlanks hs)
  | case14 t v done stack body hs ih =>
      exact ((ih h).trans (suffix_skipBlanks body)).trans
        (suffix_of_skipBlanks hs)
  | case16 t v entries name stack r hs ih =>
      exact (ih h).trans (suffix_of_skipBlanks hs)
  | case18 t v entries name stack body hs name' r hn ih =>
      exact (((ih h).trans (suffix_of_readName hn)).trans
        (suffix_skipBlanks body)).trans (suffix_of_skipBlanks hs)
  | _ => cases h

theorem suffix_of_parse [L : Limits] {t rest : Text} {v : Json}
    (h : parse t = .ok (v, rest)) : rest <:+ t :=
  suffix_of_run h

/-- A value does not start with a blank. -/
theorem skipBlanks_of_parse [L : Limits] {t rest : Text} {v : Json}
    (h : parse t = .ok (v, rest)) : skipBlanks t = t := by
  cases t with
  | nil => rfl
  | cons c body =>
      rw [skipBlanks, List.dropWhile_cons]
      cases hblank : isBlank c with
      | false => rfl
      | true =>
          simp only [isBlank, Bool.or_eq_true, beq_iff_eq] at hblank
          have hscalar : readScalar? (c :: body) = none := by
            rcases hblank with ((rfl | rfl) | rfl) | rfl <;> rfl
          rw [parse, run] at h
          · split at h
            · cases h
            · next hs =>
                cases hscalar.symm.trans (readScalar_eq_ok_iff.mp hs).1
          all_goals
            rintro _ hc
            rw [(List.cons.inj hc).1] at hblank
            exact absurd hblank (by decide)

/-! ## Containers around a value -/

/-- Where a container may be opened inside others, it may be opened inside
    some of them. -/
theorem not_isFull_of_append [L : Limits] {inner outer stack : List Frame}
    (hstack : inner ++ outer = stack) (hroom : ¬ Limits.isFull stack.length) :
    ¬ Limits.isFull inner.length := by
  intro hfull
  refine hroom (Limits.isFull_of_le hfull ?_)
  rw [← hstack, List.length_append]
  exact Nat.le_add_right _ _

/-- The machine gets to the outer containers only with a value. -/
theorem exists_of_run_onto [L : Limits] {inner outer : List Frame} {due : Due}
    {t rest : Text} {v : Json}
    (h : run (inner ++ outer) due t = .ok (v, rest)) :
    ∃ v' r, run inner due t = .ok (v', r)
      ∧ run outer (.after v') r = .ok (v, rest) := by
  generalize hstack : inner ++ outer = stack at h
  fun_induction run stack due t generalizing inner with
  | case2 stack body s r hs ih =>
      obtain ⟨v', r', hrun, houter⟩ := ih hstack h
      exact ⟨v', r', (run_string hs).trans hrun, houter⟩
  | case4 stack body hroom r hs ih =>
      have hroom := not_isFull_of_append hstack hroom
      obtain ⟨v', r', hrun, houter⟩ := ih hstack h
      exact ⟨v', r', (run_emptyArray hroom hs).trans hrun, houter⟩
  | case5 stack body hroom hs ih =>
      have hroom := not_isFull_of_append hstack hroom
      obtain ⟨v', r', hrun, houter⟩ := @ih (.array [] :: inner)
        (congrArg _ hstack) h
      exact ⟨v', r', (run_array hroom hs).trans hrun, houter⟩
  | case7 stack body hroom r hs ih =>
      have hroom := not_isFull_of_append hstack hroom
      obtain ⟨v', r', hrun, houter⟩ := ih hstack h
      exact ⟨v', r', (run_emptyObject hroom hs).trans hrun, houter⟩
  | case9 stack body hroom name r _ hn ih =>
      have hroom := not_isFull_of_append hstack hroom
      obtain ⟨v', r', hrun, houter⟩ := @ih (.object [] name :: inner)
        (congrArg _ hstack) h
      exact ⟨v', r', (run_object hroom hn).trans hrun, houter⟩
  | case11 stack t _ _ _ v' r hs ih =>
      obtain ⟨v', r', hrun, houter⟩ := ih hstack h
      exact ⟨v', r', (run_scalar hs).trans hrun, houter⟩
  | case12 t v =>
      obtain ⟨rfl, rfl⟩ := List.append_eq_nil_iff.mp hstack
      exact ⟨v, t, run_nil, run_nil.trans h⟩
  | case13 t v done stack r hs ih =>
      cases inner with
      | nil =>
          subst hstack
          exact ⟨v, t, run_nil, (run_arrayEnd hs).trans h⟩
      | cons frame inner =>
          obtain ⟨rfl, htail⟩ := List.cons.inj hstack
          obtain ⟨v', r', hrun, houter⟩ := ih htail h
          exact ⟨v', r', (run_arrayEnd hs).trans hrun, houter⟩
  | case14 t v done stack body hs ih =>
      cases inner with
      | nil =>
          subst hstack
          exact ⟨v, t, run_nil, (run_arrayNext hs).trans h⟩
      | cons frame inner =>
          obtain ⟨rfl, htail⟩ := List.cons.inj hstack
          obtain ⟨v', r', hrun, houter⟩ := @ih (.array (v :: done) :: inner)
            (congrArg _ htail) h
          exact ⟨v', r', (run_arrayNext hs).trans hrun, houter⟩
  | case16 t v entries name stack r hs ih =>
      cases inner with
      | nil =>
          subst hstack
          exact ⟨v, t, run_nil, (run_objectEnd hs).trans h⟩
      | cons frame inner =>
          obtain ⟨rfl, htail⟩ := List.cons.inj hstack
          obtain ⟨v', r', hrun, houter⟩ := ih htail h
          exact ⟨v', r', (run_objectEnd hs).trans hrun, houter⟩
  | case18 t v entries name stack body hs name' r hn ih =>
      cases inner with
      | nil =>
          subst hstack
          exact ⟨v, t, run_nil, (run_objectNext hs hn).trans h⟩
      | cons frame inner =>
          obtain ⟨rfl, htail⟩ := List.cons.inj hstack
          obtain ⟨v', r', hrun, houter⟩ :=
            @ih (.object ((name, v) :: entries) name' :: inner)
              (congrArg _ htail) h
          exact ⟨v', r', (run_objectNext hs hn).trans hrun, houter⟩
  | _ => cases h

end CouchClient.Json
