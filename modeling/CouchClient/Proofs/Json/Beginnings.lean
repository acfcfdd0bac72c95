import CouchClient.Proofs.Json.Reading

/-! # Beginnings — values in a text of which more is to come

    A value may be read before the text that holds it is complete.  What was
    read is then kept, unless it counts as a number and all that is left of
    the beginning could be part of one.  And where a beginning holds no value, one
    that is found later ends behind it.

    * `Json.IsNumeric`, `mayGoOn_eq_true_iff` — the values that may go on;
    * `parseAt_eq_ok_iff` — a value at an offset, and where it ends;
    * `parseAt_append`, `parseAt_of_append` — more text, and less;
    * `parseAt_beginning` — what a beginning tells of the whole text. -/

namespace CouchClient.Json

open Scanner (standsInNumber mayGoOn)

/-! ## Values that may go on -/

/-- The values that count as numbers: truth values are held to the rule for
    numbers. -/
inductive IsNumeric : Json → Prop where
  | bool (b : Bool) : IsNumeric (.bool b)
  | int (n : Int) : IsNumeric (.int n)
  | float (x : Binary64) : IsNumeric (.float x)

/-- The signs that numbers are written with. -/
def numberSigns : Text := text "0123456789.eE+-"

theorem mem_numberSigns_of_isDigit {c : CodePoint} (h : c.isDigit = true) :
    c ∈ numberSigns := by
  -- the last digit has the number 57
  have hall : ∀ n : Fin 58, 48 ≤ n.val → .char (Char.ofNat n.val) ∈ numberSigns := by
    decide
  cases c with
  | surrogate s => cases h
  | char c =>
      obtain ⟨hlow, hhigh⟩ := Bool.and_eq_true_iff.mp h
      have hlow := UInt32.le_iff_toNat_le.mp (of_decide_eq_true hlow)
      have hhigh := UInt32.le_iff_toNat_le.mp (of_decide_eq_true hhigh)
      have hmem := hall ⟨c.toNat, Nat.lt_succ_of_le hhigh⟩ hlow
      rwa [Char.ofNat_toNat] at hmem

/-- The signs that stand in a number are those of the list. -/
theorem standsInNumber_iff {c : CodePoint} :
    standsInNumber c = true ↔ c ∈ numberSigns := by
  constructor
  · intro h
    simp only [standsInNumber, Bool.or_eq_true, beq_iff_eq] at h
    rcases h with ((((h | rfl) | rfl) | rfl) | rfl) | rfl
    · exact mem_numberSigns_of_isDigit h
    all_goals decide
  · have hall : ∀ c ∈ numberSigns, standsInNumber c = true := by decide
    exact hall c

/-- A value may go on just when it is a number and nothing but signs of a number
    follows. -/
theorem mayGoOn_eq_true_iff {v : Json} {rest : Text} :
    mayGoOn v rest = true ↔ v.IsNumeric ∧ ∀ c ∈ rest, c ∈ numberSigns := by
  have hall : rest.all standsInNumber = true ↔ ∀ c ∈ rest, c ∈ numberSigns := by
    simp only [List.all_eq_true, standsInNumber_iff]
  cases v with
  | bool b => exact hall.trans (and_iff_right (.bool b)).symm
  | int n => exact hall.trans (and_iff_right (.int n)).symm
  | float x => exact hall.trans (and_iff_right (.float x)).symm
  | _ =>
      constructor
      · intro h
        cases h
      · rintro ⟨⟨⟩, -⟩

/-! ## Values at an offset -/

variable {s : Text} {i stop : Nat} {v : Json}

/-- A value at an offset takes up text, and what is behind its end is what is
    left of the text. -/
theorem parseAt_eq_ok_iff [L : Limits] :
    parseAt s i = .ok (v, stop)
      ↔ i < stop ∧ stop ≤ s.length ∧ parse (s.drop i) = .ok (v, s.drop stop) := by
  rw [parseAt]
  constructor
  · intro h
    cases hparse : parse (s.drop i) with
    | error flaw =>
        rw [hparse] at h
        cases h
    | ok found =>
        obtain ⟨v', rest⟩ := found
        rw [hparse] at h
        cases h
        have hshort := length_rest_of_parse hparse
        have hrest := List.suffix_iff_eq_drop.mp (suffix_of_parse hparse)
        rw [List.drop_drop] at hrest
        rw [← hrest]
        rw [List.length_drop] at hshort ⊢
        exact ⟨by omega, by omega, rfl⟩
  · rintro ⟨hstart, hstop, hparse⟩
    rw [hparse]
    dsimp only
    rw [List.length_drop, List.length_drop]
    congr 2
    omega

/-- A value is found again when more text comes, unless it may go on. -/
theorem parseAt_append [L : Limits] (h : parseAt s i = .ok (v, stop))
    (hrest : mayGoOn v (s.drop stop) = false) (u : Text) :
    parseAt (s ++ u) i = .ok (v, stop) := by
  obtain ⟨hstart, hstop, hparse⟩ := parseAt_eq_ok_iff.mp h
  have hlong : stop ≤ (s ++ u).length := by
    rw [List.length_append]
    omega
  refine parseAt_eq_ok_iff.mpr ⟨hstart, hlong, ?_⟩
  rw [List.drop_append_of_le_length (by omega), List.drop_append_of_le_length hstop]
  exact parse_append hparse hrest u

/-- A value is found again when text behind it is taken away. -/
theorem parseAt_of_append [L : Limits] {u : Text} (h : parseAt (s ++ u) i = .ok (v, stop))
    (hstop : stop ≤ s.length) : parseAt s i = .ok (v, stop) := by
  obtain ⟨hstart, -, hparse⟩ := parseAt_eq_ok_iff.mp h
  rw [List.drop_append_of_le_length (by omega), List.drop_append_of_le_length hstop]
    at hparse
  obtain ⟨r, hr, hparse⟩ := parse_of_append hparse (by simp)
  rw [← List.append_cancel_right hr] at hparse
  exact parseAt_eq_ok_iff.mpr ⟨hstart, hstop, hparse⟩

/-- **A beginning is read soundly**: a value that is read from a beginning of a
    text lies within it, and it is the value that the whole text has there,
    unless it counts as a number and only signs of numbers are left behind it.
    Where a beginning has no value, one that the whole text has there ends
    behind the beginning. -/
theorem parseAt_beginning [L : Limits] (s u : Text) (i : Nat) :
    (∀ v stop, parseAt s i = .ok (v, stop) →
        i < stop ∧ stop ≤ s.length
          ∧ (v.IsNumeric ∧ (∀ c ∈ s.drop stop, c ∈ numberSigns)
            ∨ parseAt (s ++ u) i = .ok (v, stop)))
      ∧ ∀ e v stop, parseAt s i = .error e → parseAt (s ++ u) i = .ok (v, stop) →
        s.length < stop := by
  constructor
  · intro v stop h
    obtain ⟨hstart, hstop, -⟩ := parseAt_eq_ok_iff.mp h
    refine ⟨hstart, hstop, ?_⟩
    cases hgo : mayGoOn v (s.drop stop) with
    | true => exact .inl (mayGoOn_eq_true_iff.mp hgo)
    | false => exact .inr (parseAt_append h hgo u)
  · intro e v stop herror h
    by_contra hle
    -- what ends within the beginning would have been read from it
    cases herror.symm.trans (parseAt_of_append h (by omega))

/-- A beginning that ends within the second half of a pair: the number before
    the string stays, and the string ends behind the beginning.  A number that
    ends the beginning is another one with its exponent. -/
theorem parseAt_beginning_of_pair :
    let s := text "[1,\"\\ud83d\\u"
    let u := text "de00\"]"
    parseAt s 1 = .ok (.int 1, 2) ∧ parseAt (s ++ u) 1 = .ok (.int 1, 2)
      ∧ parseAt s 3 = .error ⟨.badUnicodeEscape, 1, 12, 11⟩
      ∧ parseAt (s ++ u) 3 = .ok (.str [.char '😀'], 17) ∧ s.length < 17
      ∧ parseAt (text "1") 0 = .ok (.int 1, 1)
      ∧ parseAt (text "1" ++ text "e2") 0 = .ok (.float (.ofDecimal false 1 2), 3)
      ∧ IsNumeric (.int 1) ∧ ∀ c ∈ (text "1").drop 1, c ∈ numberSigns := by
  have hcut : parseAt (text "[1,\"\\ud83d\\u") 3
      = .error ⟨.badUnicodeEscape, 1, 12, 11⟩ := by cbv
  intro s u
  have hfirst : parseAt s 1 = .ok (.int 1, 2) :=
    parseAt_eq_ok_iff.mpr ⟨by decide, by decide,
      (run_scalar (readScalar_eq_ok_iff.mpr ⟨rfl, by decide⟩)).trans run_nil⟩
  have hwhole : parseAt (s ++ u) 3 = .ok (.str [.char '😀'], 17) :=
    parseAt_eq_ok_iff.mpr ⟨by decide, by decide, (run_string rfl).trans run_nil⟩
  have hone : parseAt (text "1") 0 = .ok (.int 1, 1) :=
    parseAt_eq_ok_iff.mpr ⟨by decide, by decide,
      (run_scalar (readScalar_eq_ok_iff.mpr ⟨rfl, by decide⟩)).trans run_nil⟩
  have hhundred : parseAt (text "1" ++ text "e2") 0
      = .ok (.float (.ofDecimal false 1 2), 3) :=
    parseAt_eq_ok_iff.mpr ⟨by decide, by decide,
      (run_scalar (readScalar_eq_ok_iff.mpr ⟨rfl, by decide⟩)).trans run_nil⟩
  have hlong := (parseAt_beginning s u 3).2 _ _ _ hcut hwhole
  obtain ⟨-, -, hfirst'⟩ := (parseAt_beginning s u 1).1 _ _ hfirst
  obtain ⟨-, -, hone'⟩ := (parseAt_beginning (text "1") (text "e2") 0).1 _ _ hone
  refine ⟨hfirst, ?_, hcut, hwhole, hlong, hone, hhundred, ?_⟩
  · -- the comma behind the number is no sign of one
    obtain ⟨-, hsigns⟩ | hsame := hfirst'
    · exact absurd hsigns (by decide)
    · exact hsame
  · obtain hnumeric | hsame := hone'
    · exact hnumeric
    · cases hhundred.symm.trans hsame

end CouchClient.Json
