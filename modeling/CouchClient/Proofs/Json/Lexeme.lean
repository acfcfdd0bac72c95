import CouchClient.Rows.Scanner
import Mathlib.Data.List.TakeWhile

/-! # Lexemes and the text after them

    A lexeme that was read from the start of a text is read the same when
    more text comes, and when text after it is taken away.  Strings and
    words end by themselves.  A number ends where the text goes on with
    something that is no part of a number, so more text leaves it alone
    only if such a code point was there already.

    Each reader has two lemmas:

    * `…_append` — more text after what is left changes nothing;
    * `…_of_append` — taking away text that was left changes nothing. -/

namespace CouchClient.Json

open Scanner (standsInNumber)

/-! ## Runs of code points -/

section
variable {p : CodePoint → Bool} {t u : Text}

/-- What is dropped before a character that stays does not depend on more text. -/
private theorem dropWhile_append_of_ne_nil (h : t.dropWhile p ≠ []) :
    (t ++ u).dropWhile p = t.dropWhile p ++ u := by
  rw [List.dropWhile_append, if_neg (by rwa [List.isEmpty_iff])]

/-- What is taken before a character that ends it does not depend on more text. -/
private theorem takeWhile_append_of_ne_nil (h : t.dropWhile p ≠ []) :
    (t ++ u).takeWhile p = t.takeWhile p := by
  rw [List.takeWhile_append, if_neg]
  intro hlen
  have := congrArg List.length (List.takeWhile_append_dropWhile (p := p) (l := t))
  rw [List.length_append, hlen] at this
  exact h (List.eq_nil_of_length_eq_zero (by omega))

/-- Text that is left behind a run is left when text is taken away. -/
private theorem dropWhile_of_append
    (h : u.length ≤ ((t ++ u).dropWhile p).length) :
    (t ++ u).dropWhile p = t.dropWhile p ++ u
      ∧ (t ++ u).takeWhile p = t.takeWhile p := by
  by_cases ht : t.dropWhile p = []
  · have hdrop : (t ++ u).dropWhile p = u.dropWhile p := by
      rw [List.dropWhile_append, if_pos (by rw [ht]; rfl)]
    have hu : u.dropWhile p = u :=
      (List.dropWhile_suffix p).eq_of_length_le (hdrop ▸ h)
    have htake : t.takeWhile p = t := by
      have := List.takeWhile_append_dropWhile (p := p) (l := t)
      rwa [ht, List.append_nil] at this
    have hutake : u.takeWhile p = [] := by
      have := congrArg List.length
        (List.takeWhile_append_dropWhile (p := p) (l := u))
      rw [List.length_append, hu] at this
      exact List.eq_nil_of_length_eq_zero (by omega)
    refine ⟨by rw [hdrop, hu, ht, List.nil_append], ?_⟩
    rw [List.takeWhile_append, if_pos (by rw [htake]), hutake, htake,
      List.append_nil]
  · exact ⟨dropWhile_append_of_ne_nil ht, takeWhile_append_of_ne_nil ht⟩

end

/-- A text that stands before another one and no later than its end is the
    start of what comes before the end. -/
theorem exists_append_of_append {t u body : Text} (start : Text)
    (h : t ++ u = start ++ body) (hlen : u.length ≤ body.length) :
    ∃ t', t = start ++ t' ∧ body = t' ++ u := by
  rcases List.append_eq_append_iff.mp h with ⟨as, hstart, hu⟩ | ⟨cs, ht, hbody⟩
  · have := congrArg List.length hu
    rw [List.length_append] at this
    have has : as = [] := List.eq_nil_of_length_eq_zero (by omega)
    rw [has, List.append_nil] at hstart
    rw [has, List.nil_append] at hu
    exact ⟨[], by rw [hstart, List.append_nil], by rw [hu, List.nil_append]⟩
  · exact ⟨cs, ht, hbody⟩

/-- A first character with more than the later text behind it is of the earlier
    text. -/
theorem exists_cons_of_append {t u body : Text} {c : CodePoint}
    (h : t ++ u = c :: body) (hlen : u.length ≤ body.length) :
    ∃ t', t = c :: t' ∧ body = t' ++ u :=
  exists_append_of_append [c] h hlen

/-- Blanks that end within a text end there with more text. -/
theorem skipBlanks_append_of_ne_nil {t : Text} (h : skipBlanks t ≠ [])
    (u : Text) : skipBlanks (t ++ u) = skipBlanks t ++ u :=
  dropWhile_append_of_ne_nil h

theorem skipBlanks_append {t rest : Text} {c : CodePoint}
    (h : skipBlanks t = c :: rest) (u : Text) :
    skipBlanks (t ++ u) = c :: (rest ++ u) := by
  rw [skipBlanks_append_of_ne_nil (h ▸ List.cons_ne_nil c rest), h,
    List.cons_append]

/-- Blanks that end before the later text end within the earlier one. -/
theorem skipBlanks_of_append {t u : Text}
    (h : u.length ≤ (skipBlanks (t ++ u)).length) :
    skipBlanks (t ++ u) = skipBlanks t ++ u :=
  (dropWhile_of_append h).1

/-! ## Strings -/

section
variable {opening : Text} {p : Partial}

/-- A string goes on with the unit of an escape by four digits. -/
theorem readStringOnto_unit {a b c d : CodePoint} {unit : UInt16} {rest : Text}
    (h : unitOfHex? a b c d = some unit) (hrest : rest ≠ []) :
    readStringOnto opening p
        (.char '\\' :: .char 'u' :: a :: b :: c :: d :: rest)
      = readStringOnto opening (p.pushUnit unit) rest := by
  cases rest with
  | nil => exact (hrest rfl).elim
  | cons e rest => exact readStringOnto.eq_3 opening p a b c d unit e rest h

/-- A string goes on with the character of a short escape. -/
theorem readStringOnto_escape {c c' : CodePoint} {rest : Text}
    (h : unescape? c = some c') :
    readStringOnto opening p (.char '\\' :: c :: rest)
      = readStringOnto opening (p.push c') rest := by
  have hu : c ≠ .char 'u' := by
    rintro rfl
    cases h
  rw [readStringOnto, h]
  · intro _ _ _ _ _ hc _
    exact hu hc
  · exact hu

/-- A string goes on with a character that stands for itself. -/
theorem readStringOnto_plain {c : CodePoint} {rest : Text}
    (hquote : c ≠ .char '"') (hescape : c ≠ .char '\\')
    (hcontrol : ¬ c.toNat < 0x20) :
    readStringOnto opening p (c :: rest)
      = readStringOnto opening (p.push c) rest := by
  rw [readStringOnto, if_neg hcontrol]
  · exact hquote
  · intro _ _ _ _ _ hc _
    exact hescape hc
  · intro _ hc _
    exact hescape hc
  · intro hc _
    exact hescape hc
  · intro _ _ hc _
    exact hescape hc

end

/-- A string that ends within a text ends there with more text. -/
theorem readStringOnto_append {opening : Text} {p : Partial} {t s rest : Text}
    (h : readStringOnto opening p t = .ok (s, rest)) (opening' u : Text) :
    readStringOnto opening' p (t ++ u) = .ok (s, rest ++ u) := by
  fun_induction readStringOnto opening p t with
  | case2 p rest =>
      cases h
      exact readStringOnto_quote _
  | case3 p a b c d unit e rest hunit ih =>
      exact (readStringOnto_unit hunit (List.cons_ne_nil _ _)).trans (ih h)
  | case7 p c rest _ _ c' hescape ih =>
      exact (readStringOnto_escape hescape).trans (ih h)
  | case10 p c rest hquote _ _ hlast hescape hcontrol ih =>
      refine (readStringOnto_plain hquote ?_ hcontrol).trans (ih h)
      intro hc
      cases rest with
      | nil => exact hlast hc rfl
      | cons d rest => exact hescape d rest hc rfl
  | _ => cases h

/-- A string that ends before the later text ends within the earlier one. -/
theorem readStringOnto_of_append {opening : Text} {p : Partial}
    {t u s rest : Text} (h : readStringOnto opening p (t ++ u) = .ok (s, rest))
    (hlen : u.length ≤ rest.length) (opening' : Text) :
    ∃ r, rest = r ++ u ∧ readStringOnto opening' p t = .ok (s, r) := by
  generalize hT : t ++ u = T at h
  fun_induction readStringOnto opening p T generalizing t with
  | case2 p body =>
      cases h
      obtain ⟨t', ht, hbody⟩ := exists_cons_of_append hT hlen
      rw [ht]
      exact ⟨t', hbody, readStringOnto_quote _⟩
  | case3 p a b c d unit e body hunit ih =>
      have hshort := length_rest_of_readStringOnto h
      obtain ⟨t', ht, hbody⟩ := exists_append_of_append
        [.char '\\', .char 'u', a, b, c, d] hT (by omega)
      obtain ⟨r, hr, hread⟩ := ih hbody.symm h
      have hne : t' ≠ [] := by
        rintro rfl
        cases hread
      rw [ht]
      exact ⟨r, hr, (readStringOnto_unit hunit hne).trans hread⟩
  | case7 p c body _ _ c' hescape ih =>
      have hshort := length_rest_of_readStringOnto h
      obtain ⟨t', ht, hbody⟩ := exists_append_of_append
        [.char '\\', c] hT (by omega)
      obtain ⟨r, hr, hread⟩ := ih hbody.symm h
      rw [ht]
      exact ⟨r, hr, (readStringOnto_escape hescape).trans hread⟩
  | case10 p c body hquote _ _ hlast hescape hcontrol ih =>
      have hshort := length_rest_of_readStringOnto h
      obtain ⟨t', ht, hbody⟩ := exists_cons_of_append hT (by omega)
      obtain ⟨r, hr, hread⟩ := ih hbody.symm h
      rw [ht]
      refine ⟨r, hr, (readStringOnto_plain hquote ?_ hcontrol).trans hread⟩
      intro hc
      cases body with
      | nil => exact hlast hc rfl
      | cons d rest => exact hescape d rest hc rfl
  | _ => cases h

theorem readString_append {t s rest : Text} (h : readString t = .ok (s, rest))
    (u : Text) : readString (t ++ u) = .ok (s, rest ++ u) :=
  readStringOnto_append h _ u

theorem readString_of_append {t u s rest : Text}
    (h : readString (t ++ u) = .ok (s, rest)) (hlen : u.length ≤ rest.length) :
    ∃ r, rest = r ++ u ∧ readString t = .ok (s, r) :=
  readStringOnto_of_append h hlen _

theorem suffix_of_readStringOnto {opening : Text} {p : Partial}
    {t s rest : Text} (h : readStringOnto opening p t = .ok (s, rest)) :
    rest <:+ t := by
  fun_induction readStringOnto opening p t with
  | case2 p rest =>
      cases h
      exact List.suffix_cons _ _
  | case3 p a b c d unit e rest hunit ih =>
      exact (ih h).trans (List.suffix_append
        [.char '\\', .char 'u', a, b, c, d] _)
  | case7 p c rest _ _ c' hescape ih =>
      exact (ih h).trans (List.suffix_append [.char '\\', c] _)
  | case10 p c rest _ _ _ _ _ hcontrol ih =>
      exact (ih h).trans (List.suffix_cons _ _)
  | _ => cases h

theorem suffix_of_readString {t s rest : Text}
    (h : readString t = .ok (s, rest)) : rest <:+ t :=
  suffix_of_readStringOnto h

/-! ## Words -/

/-- A word is read exactly if the text starts with it: no two words start
    with the same code point. -/
theorem readWord?_eq_some_iff {t rest : Text} {v : Json} :
    readWord? t = some (v, rest) ↔ ∃ w ∈ words, v = w.2 ∧ t = w.1 ++ rest := by
  constructor
  · intro h
    obtain ⟨w, hmem, hw⟩ := List.exists_of_findSome?_eq_some h
    obtain ⟨rest', hrest, heq⟩ := Option.map_eq_some_iff.mp hw
    cases heq
    exact ⟨w, hmem, rfl, (append_of_afterWord? hrest).symm⟩
  · rintro ⟨w, hmem, rfl, rfl⟩
    simp only [words, List.mem_cons, List.not_mem_nil, or_false] at hmem
    rcases hmem with rfl | rfl | rfl | rfl | rfl | rfl <;> rfl

/-- A word within a text is read there with more text. -/
theorem readWord?_append {t rest : Text} {v : Json}
    (h : readWord? t = some (v, rest)) (u : Text) :
    readWord? (t ++ u) = some (v, rest ++ u) := by
  obtain ⟨w, hmem, hv, ht⟩ := readWord?_eq_some_iff.mp h
  refine readWord?_eq_some_iff.mpr ⟨w, hmem, hv, ?_⟩
  rw [ht, List.append_assoc]

/-- A word before the later text is read within the earlier one. -/
theorem readWord?_of_append {t u rest : Text} {v : Json}
    (h : readWord? (t ++ u) = some (v, rest)) (hlen : u.length ≤ rest.length) :
    ∃ r, rest = r ++ u ∧ readWord? t = some (v, r) := by
  obtain ⟨w, hmem, hv, ht⟩ := readWord?_eq_some_iff.mp h
  obtain ⟨r, ht', hrest⟩ := exists_append_of_append w.1 ht hlen
  exact ⟨r, hrest, readWord?_eq_some_iff.mpr ⟨w, hmem, hv, ht'⟩⟩

/-! ## Numbers -/

/-- Where no digit stands first, none does with more text. -/
theorem isEmpty_digitsOf_append {t u : Text} (ht : t ≠ [])
    (h : (digitsOf t).isEmpty = true) : (digitsOf (t ++ u)).isEmpty = true := by
  cases t with
  | nil => exact (ht rfl).elim
  | cons c t =>
      rw [digitsOf, List.takeWhile_cons] at h
      rw [digitsOf, List.cons_append, List.takeWhile_cons]
      cases hc : c.isDigit with
      | true => rw [hc] at h; cases h
      | false => rfl

theorem isEmpty_digitsOf_of_append {t u : Text}
    (h : (digitsOf (t ++ u)).isEmpty = true) :
    (digitsOf t).isEmpty = true := by
  cases t with
  | nil => rfl
  | cons c t =>
      rw [digitsOf, List.cons_append, List.takeWhile_cons] at h
      rw [digitsOf, List.takeWhile_cons]
      cases hc : c.isDigit with
      | true => rw [hc] at h; cases h
      | false => rfl

/-- A whole number that does not begin with a zero is all the digits. -/
theorem readWhole?_of_not_zero {t : Text}
    (h : ∀ rest, t ≠ .char '0' :: rest) :
    readWhole? t = if (digitsOf t).isEmpty then none
      else some (digitsOf t, afterDigits t) := by
  rw [readWhole?]
  exact h

/-- A whole number that something follows is read there with more text. -/
theorem readWhole?_append {t whole rest : Text}
    (h : readWhole? t = some (whole, rest)) (hrest : rest ≠ []) (u : Text) :
    readWhole? (t ++ u) = some (whole, rest ++ u) := by
  by_cases hzero : ∃ r, t = .char '0' :: r
  · obtain ⟨r, rfl⟩ := hzero
    cases h
    rfl
  · have hne : ∀ r, t ≠ .char '0' :: r := fun r hr => hzero ⟨r, hr⟩
    rw [readWhole?_of_not_zero hne] at h
    split at h
    · cases h
    · next hdigits =>
        cases h
        have hne' : ∀ r, t ++ u ≠ .char '0' :: r := by
          intro r hr
          cases t with
          | nil => exact hrest rfl
          | cons c t =>
              rw [List.cons_append, List.cons.injEq] at hr
              exact hne t (by rw [hr.1])
        rw [readWhole?_of_not_zero hne', digitsOf, afterDigits,
          takeWhile_append_of_ne_nil hrest, dropWhile_append_of_ne_nil hrest]
        exact if_neg hdigits

/-- A whole number before the later text is read within the earlier one. -/
theorem readWhole?_of_append {t u whole rest : Text}
    (h : readWhole? (t ++ u) = some (whole, rest))
    (hlen : u.length ≤ rest.length) :
    ∃ r, rest = r ++ u ∧ readWhole? t = some (whole, r) := by
  by_cases hzero : ∃ r, t ++ u = .char '0' :: r
  · obtain ⟨r, hr⟩ := hzero
    rw [hr] at h
    cases h
    obtain ⟨t', ht, hrest⟩ := exists_cons_of_append hr hlen
    exact ⟨t', hrest, by rw [ht]; rfl⟩
  · have hne : ∀ r, t ++ u ≠ .char '0' :: r := fun r hr => hzero ⟨r, hr⟩
    rw [readWhole?_of_not_zero hne] at h
    split at h
    · cases h
    · next hdigits =>
        cases h
        obtain ⟨hdrop, htake⟩ := dropWhile_of_append hlen
        have hne' : ∀ r, t ≠ .char '0' :: r := by
          rintro r rfl
          exact hne (r ++ u) rfl
        refine ⟨afterDigits t, hdrop, ?_⟩
        rw [digitsOf, htake] at hdigits
        rw [readWhole?_of_not_zero hne', digitsOf, digitsOf, htake]
        exact if_neg hdigits

/-- Without a point there is no fraction. -/
theorem readFraction_of_not_point {t : Text}
    (h : ∀ rest, t ≠ .char '.' :: rest) : readFraction t = ([], t) := by
  rw [readFraction]
  exact h

/-- A fraction ends where it ended, if some sign behind it is no sign of a
    number. -/
theorem readFraction_append {t fraction rest : Text}
    (h : readFraction t = (fraction, rest))
    (hrest : rest.all standsInNumber = false) (u : Text) :
    readFraction (t ++ u) = (fraction, rest ++ u) := by
  have hne : rest ≠ [] := by
    rintro rfl
    cases hrest
  by_cases hpoint : ∃ r, t = .char '.' :: r
  · obtain ⟨r, rfl⟩ := hpoint
    rw [readFraction] at h
    rw [List.cons_append, readFraction]
    split at h
    · next hdigits =>
        cases h
        -- a point that ends the text would be part of a number
        have hr : r ≠ [] := by
          rintro rfl
          cases hrest
        rw [if_pos (isEmpty_digitsOf_append hr hdigits)]
        rfl
    · next hdigits =>
        cases h
        rw [digitsOf, afterDigits, takeWhile_append_of_ne_nil hne,
          dropWhile_append_of_ne_nil hne]
        exact if_neg hdigits
  · have hno : ∀ r, t ≠ .char '.' :: r := fun r hr => hpoint ⟨r, hr⟩
    rw [readFraction_of_not_point hno] at h
    cases h
    refine readFraction_of_not_point ?_
    intro r hr
    cases t with
    | nil => exact hne rfl
    | cons c t =>
        rw [List.cons_append, List.cons.injEq] at hr
        exact hno t (by rw [hr.1])

/-- A fraction before the later text is read within the earlier one. -/
theorem readFraction_of_append {t u fraction rest : Text}
    (h : readFraction (t ++ u) = (fraction, rest))
    (hlen : u.length ≤ rest.length) :
    ∃ r, rest = r ++ u ∧ readFraction t = (fraction, r) := by
  cases t with
  | nil =>
      -- nothing of the end was read
      have hle := length_readFraction u
      by_cases hpoint : ∃ r, u = .char '.' :: r
      · obtain ⟨r, rfl⟩ := hpoint
        rw [List.nil_append, readFraction] at h
        split at h
        · cases h
          exact ⟨[], rfl, rfl⟩
        · cases h
          have := length_afterDigits r
          rw [List.length_cons] at hlen
          omega
      · rw [List.nil_append, readFraction_of_not_point
          fun r hr => hpoint ⟨r, hr⟩] at h
        cases h
        exact ⟨[], rfl, rfl⟩
  | cons c t =>
      by_cases hpoint : c = .char '.'
      · subst hpoint
        rw [List.cons_append, readFraction] at h
        rw [readFraction]
        split at h
        · next hdigits =>
            cases h
            exact ⟨.char '.' :: t, rfl,
              if_pos (isEmpty_digitsOf_of_append hdigits)⟩
        · next hdigits =>
            cases h
            obtain ⟨hdrop, htake⟩ := dropWhile_of_append hlen
            rw [digitsOf, htake] at hdigits
            refine ⟨afterDigits t, hdrop, ?_⟩
            rw [digitsOf, digitsOf, htake]
            exact if_neg hdigits
      · have hno : ∀ l r, c :: l ≠ .char '.' :: r := by
          intro l r hr
          rw [List.cons.injEq] at hr
          exact hpoint hr.1
        rw [List.cons_append, readFraction_of_not_point (hno _)] at h
        cases h
        exact ⟨c :: t, rfl, readFraction_of_not_point (hno _)⟩

theorem readSign_append {t : Text} (ht : t ≠ []) (u : Text) :
    readSign (t ++ u) = ((readSign t).1, (readSign t).2 ++ u) := by
  cases t with
  | nil => exact (ht rfl).elim
  | cons c t =>
      rw [List.cons_append]
      by_cases hminus : c = .char '-'
      · rw [hminus]
        rfl
      by_cases hplus : c = .char '+'
      · rw [hplus]
        rfl
      have hnone : ∀ l, readSign (c :: l) = (false, c :: l) := by
        intro l
        rw [readSign]
        · intro _ h
          exact hminus (List.cons.inj h).1
        · intro _ h
          exact hplus (List.cons.inj h).1
      rw [hnone, hnone]
      rfl

/-- Behind a sign there is all the text that is no part of a number. -/
theorem all_readSign {t : Text} (h : t.all standsInNumber = false) :
    (readSign t).2.all standsInNumber = false := by
  fun_cases readSign t with
  | case1 rest => exact h
  | case2 rest => exact h
  | case3 t => exact h

/-- Behind the mark of an exponent come a sign and digits, or it is no exponent. -/
private theorem readExponent_of_mark {c : Char} (hc : c = 'e' ∨ c = 'E')
    (t : Text) :
    readExponent (.char c :: t)
      = if (digitsOf (readSign t).2).isEmpty then (none, .char c :: t)
        else
          (some (if (readSign t).1
              then -(Text.valueOfDigits (digitsOf (readSign t).2) : Int)
              else Text.valueOfDigits (digitsOf (readSign t).2)),
            afterDigits (readSign t).2) := by
  rw [readExponent, if_pos hc]

/-- Without a mark there is no exponent. -/
theorem readExponent_of_not_mark {t : Text}
    (h : ∀ c rest, t = .char c :: rest → ¬ (c = 'e' ∨ c = 'E')) :
    readExponent t = (none, t) := by
  cases t with
  | nil => rfl
  | cons d rest =>
      cases d with
      | surrogate s => rfl
      | char c => rw [readExponent, if_neg (h c rest rfl)]

/-- An exponent ends where it ended, if some sign behind it is no sign of a
    number. -/
theorem readExponent_append {t rest : Text} {exponent : Option Int}
    (h : readExponent t = (exponent, rest))
    (hrest : rest.all standsInNumber = false) (u : Text) :
    readExponent (t ++ u) = (exponent, rest ++ u) := by
  have hne : rest ≠ [] := by
    rintro rfl
    cases hrest
  by_cases hmark : ∃ c r, t = .char c :: r ∧ (c = 'e' ∨ c = 'E')
  · obtain ⟨c, r, rfl, hc⟩ := hmark
    rw [readExponent_of_mark hc] at h
    rw [List.cons_append, readExponent_of_mark hc]
    have hr : r ≠ [] := by
      rintro rfl
      cases h
      rcases hc with rfl | rfl <;> cases hrest
    rw [readSign_append hr]
    split at h
    · next hdigits =>
        cases h
        -- the mark is part of a number, so something behind it is not
        have hall : r.all standsInNumber = false := by
          rw [List.all_cons] at hrest
          have hmark : standsInNumber (.char c) = true := by
            rcases hc with rfl | rfl <;> rfl
          rwa [hmark, Bool.true_and] at hrest
        have hsign : (readSign r).2 ≠ [] := by
          intro hnil
          have := all_readSign hall
          rw [hnil] at this
          cases this
        rw [if_pos (isEmpty_digitsOf_append hsign hdigits)]
        rfl
    · next hdigits =>
        cases h
        rw [digitsOf, afterDigits, takeWhile_append_of_ne_nil hne,
          dropWhile_append_of_ne_nil hne]
        exact if_neg hdigits
  · rw [readExponent_of_not_mark fun c r hr hc => hmark ⟨c, r, hr, hc⟩] at h
    cases h
    refine readExponent_of_not_mark ?_
    intro c r hr hc
    cases t with
    | nil => exact hne rfl
    | cons d t =>
        rw [List.cons_append, List.cons.injEq] at hr
        exact hmark ⟨c, t, by rw [hr.1], hc⟩

/-- An exponent before the later text is read within the earlier one. -/
theorem readExponent_of_append {t u rest : Text} {exponent : Option Int}
    (h : readExponent (t ++ u) = (exponent, rest))
    (hlen : u.length ≤ rest.length) :
    ∃ r, rest = r ++ u ∧ readExponent t = (exponent, r) := by
  by_cases hmark : ∃ c r, t ++ u = .char c :: r ∧ (c = 'e' ∨ c = 'E')
  · obtain ⟨c, body, hbody, hc⟩ := hmark
    rw [hbody, readExponent_of_mark hc] at h
    split at h
    · next hdigits =>
        cases h
        refine ⟨t, hbody.symm, ?_⟩
        cases t with
        | nil => rfl
        | cons d t =>
            rw [List.cons_append, List.cons.injEq] at hbody
            obtain ⟨rfl, rfl⟩ := hbody
            rw [readExponent_of_mark hc]
            refine if_pos ?_
            cases t with
            | nil => rfl
            | cons e t =>
                rw [readSign_append (List.cons_ne_nil e t)] at hdigits
                exact isEmpty_digitsOf_of_append hdigits
    · next hdigits =>
        cases h
        have hsign := length_readSign body
        have hdig := length_afterDigits_lt (Bool.eq_false_iff.mpr hdigits)
        obtain ⟨t', ht, hsplit⟩ := exists_cons_of_append hbody (by omega)
        have hne : t' ≠ [] := by
          rintro rfl
          have := congrArg List.length hsplit
          rw [List.nil_append] at this
          omega
        rw [hsplit, readSign_append hne] at hlen hdigits ⊢
        obtain ⟨hdrop, htake⟩ := dropWhile_of_append hlen
        have hsame : digitsOf ((readSign t').2 ++ u)
            = digitsOf (readSign t').2 := htake
        dsimp only at hdigits ⊢
        rw [hsame] at hdigits ⊢
        refine ⟨afterDigits (readSign t').2, hdrop, ?_⟩
        rw [ht, readExponent_of_mark hc, if_neg hdigits]
  · rw [readExponent_of_not_mark fun c r hr hc => hmark ⟨c, r, hr, hc⟩] at h
    cases h
    refine ⟨t, rfl, readExponent_of_not_mark ?_⟩
    rintro c r rfl hc
    exact hmark ⟨c, r ++ u, rfl, hc⟩

/-- A number without sign is a whole number, a fraction and an exponent. -/
theorem readUnsigned?_eq_some_iff {negative : Bool} {t rest : Text} {v : Json} :
    readUnsigned? negative t = some (v, rest)
      ↔ ∃ whole r fraction r' exponent, readWhole? t = some (whole, r)
        ∧ readFraction r = (fraction, r') ∧ readExponent r' = (exponent, rest)
        ∧ v = numberOf negative whole fraction exponent := by
  constructor
  · intro h
    rw [readUnsigned?] at h
    split at h
    · cases h
    · next whole r hwhole =>
        cases h
        exact ⟨whole, r, _, _, _, hwhole, rfl, rfl, rfl⟩
  · rintro ⟨whole, r, fraction, r', exponent, hwhole, hfraction, hexponent, rfl⟩
    rw [readUnsigned?, hwhole]
    dsimp only
    rw [hfraction]
    dsimp only
    rw [hexponent]

theorem suffix_readFraction (t : Text) : (readFraction t).2 <:+ t := by
  fun_cases readFraction t with
  | case1 rest hdigits => exact List.suffix_refl _
  | case2 rest hdigits =>
      exact (List.dropWhile_suffix _).trans (List.suffix_cons _ _)
  | case3 t => exact List.suffix_refl _

theorem suffix_readSign (t : Text) : (readSign t).2 <:+ t := by
  fun_cases readSign t with
  | case1 rest => exact List.suffix_cons _ _
  | case2 rest => exact List.suffix_cons _ _
  | case3 t => exact List.suffix_refl _

theorem suffix_readExponent (t : Text) : (readExponent t).2 <:+ t := by
  by_cases hmark : ∃ c r, t = .char c :: r ∧ (c = 'e' ∨ c = 'E')
  · obtain ⟨c, r, rfl, hc⟩ := hmark
    rw [readExponent_of_mark hc]
    split
    · exact List.suffix_refl _
    · exact ((List.dropWhile_suffix _).trans (suffix_readSign r)).trans
        (List.suffix_cons _ _)
  · have hnone := readExponent_of_not_mark
      fun c r hr hc => hmark ⟨c, r, hr, hc⟩
    simp only [hnone, List.suffix_refl]

/-- A sign that is no sign of a number is there in any longer text. -/
theorem all_of_suffix {t rest : Text} (h : rest <:+ t)
    (hrest : rest.all standsInNumber = false) :
    t.all standsInNumber = false := by
  obtain ⟨start, rfl⟩ := h
  rw [List.all_append, hrest, Bool.and_false]

/-- A number without sign ends where it ended, if some sign behind it is no sign
    of a number. -/
theorem readUnsigned?_append {negative : Bool} {t rest : Text} {v : Json}
    (h : readUnsigned? negative t = some (v, rest))
    (hrest : rest.all standsInNumber = false) (u : Text) :
    readUnsigned? negative (t ++ u) = some (v, rest ++ u) := by
  obtain ⟨whole, r, fraction, r', exponent, hwhole, hfraction, hexponent, hv⟩ :=
    readUnsigned?_eq_some_iff.mp h
  have hr' : r'.all standsInNumber = false := by
    have := suffix_readExponent r'
    rw [hexponent] at this
    exact all_of_suffix this hrest
  have hr : r ≠ [] := by
    rintro rfl
    cases hfraction
    cases hr'
  exact readUnsigned?_eq_some_iff.mpr
    ⟨whole, r ++ u, fraction, r' ++ u, exponent, readWhole?_append hwhole hr u,
      readFraction_append hfraction hr' u,
      readExponent_append hexponent hrest u, hv⟩

/-- A number without sign before the later text is read within the earlier one. -/
theorem readUnsigned?_of_append {negative : Bool} {t u rest : Text} {v : Json}
    (h : readUnsigned? negative (t ++ u) = some (v, rest))
    (hlen : u.length ≤ rest.length) :
    ∃ r, rest = r ++ u ∧ readUnsigned? negative t = some (v, r) := by
  obtain ⟨whole, r, fraction, r', exponent, hwhole, hfraction, hexponent, hv⟩ :=
    readUnsigned?_eq_some_iff.mp h
  have hexpLen := length_readExponent r'
  have hfracLen := length_readFraction r
  rw [hexponent] at hexpLen
  rw [hfraction] at hfracLen
  obtain ⟨q, rfl, hwhole'⟩ := readWhole?_of_append hwhole
    (Nat.le_trans hlen (Nat.le_trans hexpLen hfracLen))
  obtain ⟨q', rfl, hfraction'⟩ := readFraction_of_append hfraction
    (Nat.le_trans hlen hexpLen)
  obtain ⟨q'', hq, hexponent'⟩ := readExponent_of_append hexponent hlen
  exact ⟨q'', hq, readUnsigned?_eq_some_iff.mpr
    ⟨whole, q, fraction, q', exponent, hwhole', hfraction', hexponent', hv⟩⟩

theorem readNumber?_of_not_minus {t : Text} (h : ∀ r, t ≠ .char '-' :: r) :
    readNumber? t = readUnsigned? false t := by
  rw [readNumber?]
  exact h

/-- A number ends where it ended, if some sign behind it is no sign of a number. -/
theorem readNumber?_append {t rest : Text} {v : Json}
    (h : readNumber? t = some (v, rest))
    (hrest : rest.all standsInNumber = false) (u : Text) :
    readNumber? (t ++ u) = some (v, rest ++ u) := by
  by_cases hminus : ∃ r, t = .char '-' :: r
  · obtain ⟨r, rfl⟩ := hminus
    rw [readNumber?] at h
    rw [List.cons_append, readNumber?]
    exact readUnsigned?_append h hrest u
  · have hno : ∀ r, t ≠ .char '-' :: r := fun r hr => hminus ⟨r, hr⟩
    rw [readNumber?_of_not_minus hno] at h
    rw [readNumber?_of_not_minus, readUnsigned?_append h hrest u]
    intro r hr
    cases t with
    | nil => cases h
    | cons c t =>
        rw [List.cons_append, List.cons.injEq] at hr
        exact hno t (by rw [hr.1])

/-- A number before the later text is read within the earlier one. -/
theorem readNumber?_of_append {t u rest : Text} {v : Json}
    (h : readNumber? (t ++ u) = some (v, rest))
    (hlen : u.length ≤ rest.length) :
    ∃ r, rest = r ++ u ∧ readNumber? t = some (v, r) := by
  by_cases hminus : ∃ r, t ++ u = .char '-' :: r
  · obtain ⟨body, hbody⟩ := hminus
    rw [hbody, readNumber?] at h
    have hshort := length_rest_of_readUnsigned? h
    obtain ⟨t', rfl, rfl⟩ := exists_cons_of_append hbody (by omega)
    rw [readNumber?]
    exact readUnsigned?_of_append h hlen
  · have hno : ∀ r, t ++ u ≠ .char '-' :: r := fun r hr => hminus ⟨r, hr⟩
    rw [readNumber?_of_not_minus hno] at h
    rw [readNumber?_of_not_minus]
    · exact readUnsigned?_of_append h hlen
    · rintro r rfl
      exact hno (r ++ u) rfl

/-! ## Scalars -/

/-- A whole number begins with a digit. -/
theorem exists_digit_of_readWhole? {t whole rest : Text}
    (h : readWhole? t = some (whole, rest)) :
    ∃ c r, t = c :: r ∧ c.isDigit = true := by
  cases t with
  | nil => cases h
  | cons c r =>
      refine ⟨c, r, rfl, ?_⟩
      cases hc : c.isDigit with
      | true => rfl
      | false =>
          rw [readWhole?_of_not_zero] at h
          · rw [digitsOf, List.takeWhile_cons, hc] at h
            cases h
          · rintro _ ⟨⟩
            cases hc

/-- A number without sign begins with a digit. -/
theorem exists_digit_of_readUnsigned? {negative : Bool} {t rest : Text}
    {v : Json} (h : readUnsigned? negative t = some (v, rest)) :
    ∃ c r, t = c :: r ∧ c.isDigit = true := by
  obtain ⟨_, _, _, _, _, hwhole, -⟩ := readUnsigned?_eq_some_iff.mp h
  exact exists_digit_of_readWhole? hwhole

/-- What starts like a number starts no word, whatever follows. -/
theorem readWord?_append_eq_none {t rest : Text} {v : Json}
    (h : readNumber? t = some (v, rest)) (u : Text) :
    readWord? (t ++ u) = none := by
  have hstart : ∃ c r, (t = c :: r ∨ t = .char '-' :: c :: r)
      ∧ c.isDigit = true := by
    rw [readNumber?.eq_def] at h
    split at h
    · obtain ⟨c, r, hr, hc⟩ := exists_digit_of_readUnsigned? h
      exact ⟨c, r, .inr (by rw [hr]), hc⟩
    · obtain ⟨c, r, hr, hc⟩ := exists_digit_of_readUnsigned? h
      exact ⟨c, r, .inl hr, hc⟩
  cases hword : readWord? (t ++ u) with
  | none => rfl
  | some found =>
      obtain ⟨w, hmem, -, hw⟩ := readWord?_eq_some_iff.mp hword
      obtain ⟨c, r, ht, hc⟩ := hstart
      simp only [words, List.mem_cons, List.not_mem_nil, or_false] at hmem
      rcases ht with rfl | rfl
      · rcases hmem with rfl | rfl | rfl | rfl | rfl | rfl <;>
          · cases (List.cons.inj hw).1
            cases hc
      · rcases hmem with rfl | rfl | rfl | rfl | rfl | rfl
        -- only one of the words has a minus sign
        case inr.inr.inr.inr.inr.inr =>
            cases (List.cons.inj (List.cons.inj hw).2).1
            cases hc
        all_goals cases (List.cons.inj hw).1

/-- What is read as a number is an integer or a float. -/
theorem number_of_readNumber? {t rest : Text} {v : Json}
    (h : readNumber? t = some (v, rest)) :
    (∃ n, v = .int n) ∨ ∃ x, v = .float x := by
  have hnumber : ∃ negative whole fraction exponent,
      v = numberOf negative whole fraction exponent := by
    rw [readNumber?.eq_def] at h
    split at h
    all_goals
      obtain ⟨_, _, _, _, _, -, -, -, hv⟩ := readUnsigned?_eq_some_iff.mp h
      exact ⟨_, _, _, _, hv⟩
  obtain ⟨negative, whole, fraction, exponent, rfl⟩ := hnumber
  rw [numberOf]
  split
  · exact .inl ⟨_, rfl⟩
  · exact .inr ⟨_, rfl⟩

/-- Of a number, what is left tells whether it may go on. -/
theorem mayGoOn_of_readNumber? {t rest : Text} {v : Json}
    (h : readNumber? t = some (v, rest)) (u : Text) :
    Scanner.mayGoOn v u = u.all standsInNumber := by
  rcases number_of_readNumber? h with ⟨n, rfl⟩ | ⟨x, rfl⟩ <;> rfl

/-- A scalar is read the same when more text comes, unless it is a number
    and all that is left could be part of one. -/
theorem readScalar?_append {t rest : Text} {v : Json}
    (h : readScalar? t = some (v, rest))
    (hrest : Scanner.mayGoOn v rest = false) (u : Text) :
    readScalar? (t ++ u) = some (v, rest ++ u) := by
  rw [readScalar?] at h
  split at h
  · next found hword =>
      cases h
      rw [readScalar?, readWord?_append hword u]
  · rw [mayGoOn_of_readNumber? h] at hrest
    rw [readScalar?, readWord?_append_eq_none h u]
    exact readNumber?_append h hrest u

/-- A scalar before the later text is read within the earlier one. -/
theorem readScalar?_of_append {t u rest : Text} {v : Json}
    (h : readScalar? (t ++ u) = some (v, rest)) (hlen : u.length ≤ rest.length) :
    ∃ r, rest = r ++ u ∧ readScalar? t = some (v, r) := by
  rw [readScalar?] at h
  split at h
  · next found hword =>
      cases h
      obtain ⟨r, hr, hread⟩ := readWord?_of_append hword hlen
      exact ⟨r, hr, by rw [readScalar?, hread]⟩
  · obtain ⟨r, hr, hread⟩ := readNumber?_of_append h hlen
    have hnone := readWord?_append_eq_none hread []
    rw [List.append_nil] at hnone
    exact ⟨r, hr, by rw [readScalar?, hnone]; exact hread⟩

/-- A scalar is neither a string nor a container. -/
theorem scalar_of_readScalar? {t rest : Text} {v : Json}
    (h : readScalar? t = some (v, rest)) :
    v = .null ∨ (∃ b, v = .bool b) ∨ (∃ n, v = .int n) ∨ ∃ x, v = .float x := by
  rw [readScalar?] at h
  split at h
  · next found hword =>
      cases h
      obtain ⟨w, hmem, rfl, -⟩ := readWord?_eq_some_iff.mp hword
      simp only [words, List.mem_cons, List.not_mem_nil, or_false] at hmem
      rcases hmem with rfl | rfl | rfl | rfl | rfl | rfl
      · exact .inl rfl
      · exact .inr (.inl ⟨_, rfl⟩)
      · exact .inr (.inl ⟨_, rfl⟩)
      all_goals exact .inr (.inr (.inr ⟨_, rfl⟩))
  · exact .inr (.inr (number_of_readNumber? h))

theorem suffix_of_readWhole? {t whole rest : Text}
    (h : readWhole? t = some (whole, rest)) : rest <:+ t := by
  rw [readWhole?.eq_def] at h
  split at h
  · cases h
    exact List.suffix_cons _ _
  · split at h
    · cases h
    · cases h
      exact List.dropWhile_suffix _

theorem suffix_of_readUnsigned? {negative : Bool} {t rest : Text} {v : Json}
    (h : readUnsigned? negative t = some (v, rest)) : rest <:+ t := by
  obtain ⟨whole, r, fraction, r', exponent, hwhole, hfraction, hexponent, -⟩ :=
    readUnsigned?_eq_some_iff.mp h
  have h₁ := suffix_of_readWhole? hwhole
  have h₂ := suffix_readFraction r
  have h₃ := suffix_readExponent r'
  rw [hfraction] at h₂
  rw [hexponent] at h₃
  exact (h₃.trans h₂).trans h₁

/-- What is left of a scalar is the end of its text. -/
theorem suffix_of_readScalar? {t rest : Text} {v : Json}
    (h : readScalar? t = some (v, rest)) : rest <:+ t := by
  rw [readScalar?] at h
  split at h
  · next found hword =>
      cases h
      obtain ⟨w, -, -, ht⟩ := readWord?_eq_some_iff.mp hword
      exact ⟨w.1, ht.symm⟩
  · rw [readNumber?.eq_def] at h
    split at h
    · exact (suffix_of_readUnsigned? h).trans (List.suffix_cons _ _)
    · exact suffix_of_readUnsigned? h

end CouchClient.Json
