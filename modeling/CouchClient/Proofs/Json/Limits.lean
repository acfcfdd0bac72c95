import CouchClient.Proofs.Json.Reading

/-! # Reading with limits and without

    What the machine reads does not depend on the limits of the interpreter:
    where none is met it reads what it would read without them.  Without
    limits it does not matter either which containers a value stands in.

    * `run_eq_or_meetsLimit`, `decode_eq_or_meetsLimit` — with limits the machine
      reads the same, unless it meets one of them;
    * `DecodesWithin` — a text that is decoded to a value within the limits;
    * `decode_brackets` — a text that is too deep;
    * `run_onto`, `run_value_eq_ok_iff` — without limits a value is read
      inside containers as it is read alone. -/

namespace CouchClient.Json

/-! ## Flaws on the way -/

section
variable [L : Limits] {stack : List Frame} {body t name : Text} {v : Json}
  {flaw : Flaw} {done : List Json} {entries : List (Text × Json)}

/-- A run fails at a string as the string does. -/
theorem run_flawedString (h : readString body = .error flaw) :
    run stack .value (.char '"' :: body) = .error flaw := by
  rw [run]
  split
  · next hs =>
      cases h.symm.trans hs
      rfl
  · next hs => cases h.symm.trans hs

/-- A run fails at the first name of an object as the name does. -/
theorem run_flawedObject (hroom : ¬ Limits.isFull stack.length)
    (hopen : ∀ rest, skipBlanks body ≠ .char '}' :: rest)
    (h : readName (skipBlanks body) = .error flaw) :
    run stack .value (.char '{' :: body) = .error flaw := by
  rw [run, if_neg hroom]
  split
  · next hs => exact (hopen _ hs).elim
  · split
    · next hn =>
        cases h.symm.trans hn
        rfl
    · next hn => cases h.symm.trans hn

/-- A run fails at a scalar as the scalar does. -/
theorem run_flawedScalar (hquote : ∀ body, t ≠ .char '"' :: body)
    (hbracket : ∀ body, t ≠ .char '[' :: body)
    (hbrace : ∀ body, t ≠ .char '{' :: body) (h : readScalar t = .error flaw) :
    run stack .value t = .error flaw := by
  rw [run]
  · split
    · next hs =>
        cases h.symm.trans hs
        rfl
    · next hs => cases h.symm.trans hs
  · exact hquote
  · exact hbracket
  · exact hbrace

/-- Behind an element something else than an end or a comma is refused. -/
theorem run_flawedElements (hend : ∀ rest, skipBlanks t ≠ .char ']' :: rest)
    (hcomma : ∀ rest, skipBlanks t ≠ .char ',' :: rest) :
    run (.array done :: stack) (.after v) t
      = .error ⟨.expectedComma, skipBlanks t⟩ := by
  rw [run]
  split
  · next hs => exact (hend _ hs).elim
  · next hs => exact (hcomma _ hs).elim
  · rfl

/-- Behind a member something else than an end or a comma is refused. -/
theorem run_flawedEntries (hend : ∀ rest, skipBlanks t ≠ .char '}' :: rest)
    (hcomma : ∀ rest, skipBlanks t ≠ .char ',' :: rest) :
    run (.object entries name :: stack) (.after v) t
      = .error ⟨.expectedComma, skipBlanks t⟩ := by
  rw [run]
  split
  · next hs => exact (hend _ hs).elim
  · next hs => exact (hcomma _ hs).elim
  · rfl

/-- A run fails at the next name of an object as the name does. -/
theorem run_flawedNext (h : skipBlanks t = .char ',' :: body)
    (hn : readName (skipBlanks body) = .error flaw) :
    run (.object entries name :: stack) (.after v) t = .error flaw := by
  rw [run]
  split
  · next hs => cases h.symm.trans hs
  · next hs =>
      cases h.symm.trans hs
      split
      · next hn' =>
          cases hn.symm.trans hn'
          rfl
      · next hn' => cases hn.symm.trans hn'
  · next hs => exact (hs _ h).elim

end

/-- No value starts with the bracket that closes an array. -/
theorem ne_bracket_of_parse [L : Limits] {t rest r : Text} {v : Json}
    (h : parse t = .ok (v, rest)) : t ≠ .char ']' :: r := by
  rintro rfl
  have hflaw : parse (.char ']' :: r)
      = .error ⟨.expectedValue, .char ']' :: r⟩ := by
    refine run_flawedScalar ?_ ?_ ?_ rfl
    all_goals
      intro body hbody
      cases hbody
  cases hflaw.symm.trans h

/-! ## With limits and without -/

/-- Without limits no scalar is too long. -/
theorem excess?_unlimited (v : Json) : v.excess? (L := .unlimited) = none := by
  cases v <;> rfl

/-- Without limits every scalar is read. -/
theorem readScalar_unlimited_iff {t rest : Text} {v : Json} :
    readScalar (L := .unlimited) t = .ok (v, rest)
      ↔ readScalar? t = some (v, rest) :=
  (readScalar_eq_ok_iff (L := .unlimited)).trans
    (and_iff_left (excess?_unlimited v))

/-- What is wrong is that a limit is met. -/
def Wrong.MeetsLimit [L : Limits] : Wrong → Prop
  | .tooLong e => Limits.Exceeds e
  | .tooDeep _ => Limits.Fills
  | _ => False

/-- Without limits none is met. -/
theorem Wrong.not_meetsLimit_unlimited (w : Wrong) :
    ¬ w.MeetsLimit (L := .unlimited) := by
  intro h
  cases w with
  | tooLong e =>
      obtain ⟨n, hn⟩ := h
      cases hn
  | tooDeep what =>
      obtain ⟨depth, hdepth⟩ := h
      exact Limits.not_isFull_unlimited depth hdepth
  | _ => exact h

/-- With limits the machine reads the same as without, unless it meets one of
    them. -/
theorem run_eq_or_meetsLimit [L : Limits] (stack : List Frame) (due : Due)
    (t : Text) :
    run stack due t = run (L := .unlimited) stack due t
      ∨ ∃ flaw, run stack due t = .error flaw ∧ flaw.wrong.MeetsLimit := by
  fun_induction run stack due t with
  | case1 stack body flaw hs =>
      exact Or.inl (run_flawedString (L := .unlimited) hs).symm
  | case2 stack body s r hs ih =>
      exact ih.imp_left fun h => h.trans (run_string (L := .unlimited) hs).symm
  | case3 stack body hfull | case6 stack body hfull =>
      exact Or.inr ⟨_, rfl, _, hfull⟩
  | case4 stack body _ r hs ih =>
      exact ih.imp_left fun h => h.trans
        (run_emptyArray (L := .unlimited) (Limits.not_isFull_unlimited _) hs).symm
  | case5 stack body _ hs ih =>
      exact ih.imp_left fun h => h.trans
        (run_array (L := .unlimited) (Limits.not_isFull_unlimited _) hs).symm
  | case7 stack body _ r hs ih =>
      exact ih.imp_left fun h => h.trans
        (run_emptyObject (L := .unlimited) (Limits.not_isFull_unlimited _) hs).symm
  | case8 stack body _ flaw hs hn =>
      exact Or.inl (run_flawedObject (L := .unlimited)
        (Limits.not_isFull_unlimited _) hs hn).symm
  | case9 stack body _ name r _ hn ih =>
      exact ih.imp_left fun h => h.trans
        (run_object (L := .unlimited) (Limits.not_isFull_unlimited _) hn).symm
  | case10 stack t hquote hbracket hbrace flaw hs =>
      obtain ⟨hnone, rfl⟩ | ⟨e, rfl, hlong⟩ := readScalar_eq_error hs
      · have hs : readScalar (L := .unlimited) t = .error ⟨.expectedValue, t⟩ := by
          unfold readScalar
          rw [hnone]
        exact Or.inl
          (run_flawedScalar (L := .unlimited) hquote hbracket hbrace hs).symm
      · exact Or.inr ⟨_, rfl, hlong⟩
  | case11 stack t _ _ _ v r hs ih =>
      have hs := readScalar_unlimited_iff.mpr (readScalar_eq_ok_iff.mp hs).1
      exact ih.imp_left fun h => h.trans (run_scalar (L := .unlimited) hs).symm
  | case12 => exact Or.inl (run_nil (L := .unlimited)).symm
  | case13 t v done stack r hs ih =>
      exact ih.imp_left fun h => h.trans
        (run_arrayEnd (L := .unlimited) hs).symm
  | case14 t v done stack body hs ih =>
      exact ih.imp_left fun h => h.trans
        (run_arrayNext (L := .unlimited) hs).symm
  | case15 t v done stack hend hcomma =>
      exact Or.inl (run_flawedElements (L := .unlimited) hend hcomma).symm
  | case16 t v entries name stack r hs ih =>
      exact ih.imp_left fun h => h.trans
        (run_objectEnd (L := .unlimited) hs).symm
  | case17 t v entries name stack body hs flaw hn =>
      exact Or.inl (run_flawedNext (L := .unlimited) hs hn).symm
  | case18 t v entries name stack body hs name' r hn ih =>
      exact ih.imp_left fun h => h.trans
        (run_objectNext (L := .unlimited) hs hn).symm
  | case19 t v entries name stack hend hcomma =>
      exact Or.inl (run_flawedEntries (L := .unlimited) hend hcomma).symm

/-- What is read with limits is read without them. -/
theorem run_unlimited [L : Limits] {stack : List Frame} {due : Due}
    {t rest : Text} {v : Json} (h : run stack due t = .ok (v, rest)) :
    run (L := .unlimited) stack due t = .ok (v, rest) := by
  obtain hsame | ⟨flaw, hflaw, -⟩ := run_eq_or_meetsLimit stack due t
  · exact hsame.symm.trans h
  · cases hflaw.symm.trans h

/-- What is read within limits is read as the same without them. -/
theorem parse_unlimited [L : Limits] {t rest : Text} {v : Json}
    (h : parse t = .ok (v, rest)) :
    parse (L := .unlimited) t = .ok (v, rest) :=
  run_unlimited h

theorem decode_eq_or_meetsLimit [L : Limits] (doc : Text) :
    decode doc = decode (L := .unlimited) doc
      ∨ ∃ e, decode doc = .error e ∧ e.wrong.MeetsLimit := by
  obtain hsame | ⟨flaw, hflaw, hlimit⟩ :=
    run_eq_or_meetsLimit [] .value (skipBlanks doc)
  · refine Or.inl ?_
    unfold decode parse
    rw [hsame]
  · refine Or.inr ⟨flaw.locate doc 0, ?_, hlimit⟩
    unfold decode parse
    rw [hflaw]

/-- A text begins with a value that is too deep to be read. -/
def OpensTooDeep [Limits] (t : Text) (what : TooDeep) : Prop :=
  ∃ flaw, parse t = .error flaw ∧ flaw.wrong = .tooDeep what

/-- A document that is read within limits is read as the same without them. -/
theorem decode_unlimited [L : Limits] {doc : Text} {v : Json}
    (h : decode doc = .ok v) : decode (L := .unlimited) doc = .ok v := by
  obtain hsame | ⟨e, he, -⟩ := decode_eq_or_meetsLimit doc
  · exact hsame.symm.trans h
  · cases he.symm.trans h

section
attribute [local instance] Limits.unlimited

variable {stack : List Frame} {due : Due} {t rest : Text} {v : Json}

/-- The machine that has read a value goes on with the outer containers. -/
theorem run_onto {inner : List Frame} (h : run inner due t = .ok (v, rest))
    (outer : List Frame) :
    run (inner ++ outer) due t = run outer (.after v) rest := by
  fun_induction run inner due t with
  | case2 stack body s r hs ih => exact (run_string hs).trans (ih h)
  | case4 stack body _ r hs ih =>
      exact (run_emptyArray (Limits.not_isFull_unlimited _) hs).trans (ih h)
  | case5 stack body _ hs ih =>
      exact (run_array (Limits.not_isFull_unlimited _) hs).trans (ih h)
  | case7 stack body _ r hs ih =>
      exact (run_emptyObject (Limits.not_isFull_unlimited _) hs).trans (ih h)
  | case9 stack body _ name r _ hn ih =>
      exact (run_object (Limits.not_isFull_unlimited _) hn).trans (ih h)
  | case11 stack t _ _ _ v' r hs ih => exact (run_scalar hs).trans (ih h)
  | case12 =>
      cases h
      rfl
  | case13 t v done stack r hs ih => exact (run_arrayEnd hs).trans (ih h)
  | case14 t v done stack body hs ih => exact (run_arrayNext hs).trans (ih h)
  | case16 t v entries name stack r hs ih =>
      exact (run_objectEnd hs).trans (ih h)
  | case18 t v entries name stack body hs name' r hn ih =>
      exact (run_objectNext hs hn).trans (ih h)
  | _ => cases h

/-- Inside containers a value is read as it is read alone. -/
theorem run_value_eq_ok_iff :
    run stack .value t = .ok (v, rest)
      ↔ ∃ v' r, parse t = .ok (v', r)
        ∧ run stack (.after v') r = .ok (v, rest) := by
  constructor
  · intro h
    exact @exists_of_run_onto _ [] stack .value t rest v h
  · rintro ⟨v', r, hparse, hafter⟩
    exact (run_onto hparse stack).trans hafter

end

end CouchClient.Json
