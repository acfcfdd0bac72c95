import CouchClient.Proofs.Json.Lexeme
import CouchClient.Value.Encoding
import Mathlib.Data.List.Chain

/-! # Quoted texts and whole numbers — what is written is read back

    A JSON string is written with escapes for all that is not printable
    ASCII, and a whole number with its digits.  Reading them undoes this, but
    for a high surrogate right before a low one, which are read as the one
    character that they write together.

    * `Text.IsUnpaired` — the texts in which there is no such pair;
    * `Partial.IsAfter` — what is read of a string, one code point later;
    * `readString_quote` — strings;
    * `readScalar?_ofInt` — whole numbers. -/

namespace CouchClient

/-! ## Surrogates -/

/-- Whether the code point opens a pair of surrogates. -/
def CodePoint.isHigh : CodePoint → Bool
  | .char _ => false
  | .surrogate s => s.isHigh

/-- Whether the code point closes a pair of surrogates. -/
def CodePoint.isLow : CodePoint → Bool
  | .char _ => false
  | .surrogate s => !s.isHigh

/-- No high surrogate stands right before a low one. -/
def Text.IsUnpaired (t : Text) : Prop :=
  t.IsChain fun c d => c.isHigh → d.isLow = false

/-- A code point that is one unit is read from it. -/
theorem CodePoint.ofUnit_toNat {c : CodePoint} (h : c.toNat < 0x10000) :
    ofUnit (.ofNat c.toNat) = c := by
  have hunit : (UInt16.ofNat c.toNat).toNat = c.toNat := UInt16.toNat_ofNat_of_lt' h
  cases c with
  | char c =>
      have hvalid : c.toNat.isValidChar := c.valid
      rw [ofUnit, dif_neg]
      · congr 1
        exact Char.ext (UInt32.toNat_inj.mp hunit)
      · rw [hunit]
        unfold Nat.isValidChar at hvalid
        simp only [toNat]
        omega
  | surrogate s =>
      have hoffset := s.offset.isLt
      rw [ofUnit, dif_pos]
      · refine congrArg CodePoint.surrogate (congrArg Surrogate.mk (Fin.ext ?_))
        show (UInt16.ofNat _).toNat - 0xD800 = _
        rw [hunit]
        simp only [toNat, Surrogate.toNat]
        omega
      · rw [hunit]
        simp only [toNat, Surrogate.toNat]
        omega

/-- The unit of a surrogate is read as that surrogate. -/
theorem CodePoint.ofUnit_surrogate (s : Surrogate) :
    ofUnit (.ofNat s.toNat) = .surrogate s := by
  have hs := s.offset.isLt
  exact ofUnit_toNat (c := .surrogate s) (show 0xD800 + s.offset.val < _ by omega)

/-- A code point that is two units is what a high and a low surrogate write
    together. -/
theorem CodePoint.exists_halves {c : CodePoint} (h : ¬ c.toNat < 0x10000) :
    ∃ high low : Surrogate, high.isHigh ∧ low.isHigh = false
      ∧ c = .char (high.join low)
      ∧ c.units = [.ofNat high.toNat, .ofNat low.toNat] := by
  cases c with
  | surrogate s =>
      have hs := s.offset.isLt
      exact absurd (show 0xD800 + s.offset.val < 0x10000 by omega) h
  | char c =>
      have hvalid : c.toNat.isValidChar := c.valid
      have hle : 0x10000 ≤ c.toNat := Nat.le_of_not_lt h
      have hlt : c.toNat < 0x110000 := by
        unfold Nat.isValidChar at hvalid
        omega
      refine ⟨⟨⟨(c.toNat - 0x10000) / 1024, by omega⟩⟩,
        ⟨⟨1024 + (c.toNat - 0x10000) % 1024, by omega⟩⟩, ?_, ?_, ?_, ?_⟩
      · exact decide_eq_true (show (c.toNat - 0x10000) / 1024 < 1024 by omega)
      · exact decide_eq_false (show ¬ 1024 + _ < 1024 by omega)
      · refine congrArg CodePoint.char (Char.ext (UInt32.toNat_inj.mp ?_))
        show c.toNat = 0x10000 + (c.toNat - 0x10000) / 1024 % 1024 * 1024
          + (1024 + (c.toNat - 0x10000) % 1024) % 1024
        omega
      · rw [units, if_neg h]
        simp only [toNat, Surrogate.toNat, ← Nat.add_assoc]

namespace Json

/-- A hexadecimal digit is read as its value. -/
theorem hexValue?_digitChar (n : Nat) :
    (CodePoint.char (n % 16).digitChar).hexValue? = some (n % 16) := by
  have h : ∀ d : Fin 16, (CodePoint.char d.val.digitChar).hexValue? = some d.val := by
    decide
  exact h ⟨n % 16, Nat.mod_lt n (by decide)⟩

/-- The four digits of a unit are read as the unit. -/
theorem readStringOnto_unitEscape {opening rest : Text} {p : Partial} (u : UInt16)
    (hrest : rest ≠ []) :
    readStringOnto opening p (unitEscape u ++ rest)
      = readStringOnto opening (p.pushUnit u) rest := by
  have hu := u.toNat_lt
  refine readStringOnto_unit ?_ hrest
  rw [unitOfHex?, hexValue?_digitChar, hexValue?_digitChar, hexValue?_digitChar,
    hexValue?_digitChar]
  show some (UInt16.ofNat _) = _
  congr 1
  rw [← UInt16.ofNat_toNat (x := u)]
  congr 1
  rw [UInt16.ofNat_toNat]
  omega

/-- All that was read, and that a pair may only be open behind a high
    surrogate. -/
structure Partial.IsAfter (p p' : Partial) (c : CodePoint) : Prop where
  settled : p'.settled = c :: p.settled
  high : p'.high.isSome → c.isHigh

/-- A character that is pushed is the last one of the string so far. -/
theorem Partial.isAfter_push (p : Partial) (c : CodePoint) :
    p.IsAfter (p.push c) c := by
  refine ⟨rfl, ?_⟩
  intro h
  cases h

/-- A high surrogate waits for a low one. -/
theorem Partial.pushUnit_high {p : Partial} {u : UInt16} {s : Surrogate}
    (hu : CodePoint.ofUnit u = .surrogate s) (hs : s.isHigh) :
    p.pushUnit u = ⟨p.settled, some s⟩ := by
  obtain ⟨read, high⟩ := p
  rw [pushUnit, hu]
  cases high with
  | none => exact if_pos hs
  | some h => exact if_pos hs

/-- A low surrogate that no high one comes before stands alone. -/
theorem Partial.pushUnit_low {p : Partial} {u : UInt16} {s : Surrogate}
    (hu : CodePoint.ofUnit u = .surrogate s) (hs : s.isHigh = false)
    (hp : p.high = none) : p.pushUnit u = p.push (.surrogate s) := by
  obtain ⟨read, high⟩ := p
  cases hp
  rw [pushUnit, hu]
  dsimp only
  rw [hs]
  rfl

/-- A low surrogate right behind a high one makes a character with it. -/
theorem Partial.pushUnit_pair {p : Partial} {u : UInt16} {high low : Surrogate}
    (hu : CodePoint.ofUnit u = .surrogate low) (hlow : low.isHigh = false)
    (hp : p.high = some high) :
    p.pushUnit u = ⟨.char (high.join low) :: p.read, none⟩ := by
  obtain ⟨read, high⟩ := p
  cases hp
  rw [pushUnit, hu]
  dsimp only
  rw [hlow]
  rfl

/-- A unit that is a character is pushed as that. -/
theorem Partial.pushUnit_char {p : Partial} {u : UInt16} {c : Char}
    (hu : CodePoint.ofUnit u = .char c) : p.pushUnit u = p.push (.char c) := by
  rw [pushUnit, hu]

/-- The units of a code point are read as the code point. -/
theorem Partial.isAfter_units {p : Partial} {c : CodePoint}
    (h : p.high.isSome → c.isLow = false) :
    p.IsAfter (c.units.foldl pushUnit p) c := by
  by_cases hc : c.toNat < 0x10000
  · have hunit := CodePoint.ofUnit_toNat hc
    rw [CodePoint.units, if_pos hc, List.foldl_cons, List.foldl_nil]
    cases c with
    | char c =>
        rw [pushUnit_char hunit]
        exact isAfter_push p _
    | surrogate s =>
        cases hs : s.isHigh with
        | true =>
            rw [pushUnit_high hunit hs]
            exact ⟨rfl, fun _ => hs⟩
        | false =>
            have hnone : p.high = none := by
              cases hp : p.high with
              | none => rfl
              | some high =>
                  rw [hp] at h
                  have hlow := h rfl
                  rw [CodePoint.isLow, hs] at hlow
                  cases hlow
            rw [pushUnit_low hunit hs hnone]
            exact isAfter_push p _
  · -- two units, of which the second meets the first
    obtain ⟨high, low, hhigh, hlow, rfl, hunits⟩ := CodePoint.exists_halves hc
    rw [hunits]
    simp only [List.foldl_cons, List.foldl_nil]
    rw [pushUnit_high (CodePoint.ofUnit_surrogate high) hhigh,
      pushUnit_pair (CodePoint.ofUnit_surrogate low) hlow rfl]
    refine ⟨rfl, ?_⟩
    intro h
    cases h

/-! ## Strings -/

variable {opening rest : Text} {p : Partial}

/-- Units are read one after the other. -/
theorem readStringOnto_flatMap_unitEscape (us : List UInt16) (hrest : rest ≠ []) :
    readStringOnto opening p (us.flatMap unitEscape ++ rest)
      = readStringOnto opening (us.foldl Partial.pushUnit p) rest := by
  induction us generalizing p with
  | nil => rfl
  | cons u us ih =>
      rw [List.flatMap_cons, List.append_assoc, readStringOnto_unitEscape, ih]
      · rfl
      · simp [hrest]

/-- A code point is read, unless it closes a pair that is open. -/
theorem readStringOnto_escape_append {c : CodePoint}
    (h : p.high.isSome → c.isLow = false) (hrest : rest ≠ []) :
    ∃ p', p.IsAfter p' c
      ∧ readStringOnto opening p (escape c ++ rest)
        = readStringOnto opening p' rest := by
  unfold escape
  split
  case h_8 c' hquote hslash _ _ _ _ _ =>
      split
      · next hplain =>
          refine ⟨p.push c, Partial.isAfter_push p c, ?_⟩
          refine readStringOnto_plain hquote hslash ?_
          omega
      · exact ⟨_, Partial.isAfter_units h, readStringOnto_flatMap_unitEscape _ hrest⟩
  all_goals exact ⟨p.push _, Partial.isAfter_push p _, readStringOnto_escape rfl⟩

/-- The code points of a string are read, if no pair is among them that would
    be read as one. -/
theorem readStringOnto_flatMap_escape {t : Text} (ht : t.IsUnpaired)
    (h : ∀ c, t.head? = some c → p.high.isSome → c.isLow = false) :
    readStringOnto opening p (t.flatMap escape ++ .char '"' :: rest)
      = .ok (p.settled.reverse ++ t, rest) := by
  -- the induction is for any start, as a high surrogate may be waiting in it
  induction t generalizing p with
  | nil =>
      rw [List.append_nil]
      exact readStringOnto_quote rest
  | cons c t ih =>
      have hrest : t.flatMap escape ++ .char '"' :: rest ≠ [] := by simp
      obtain ⟨p', hafter, hread⟩ : ∃ p', p.IsAfter p' c
          ∧ readStringOnto opening p (escape c ++ _) = readStringOnto opening p' _ :=
        readStringOnto_escape_append (h c rfl) hrest
      rw [List.flatMap_cons, List.append_assoc, hread, ih ht.tail, hafter.settled,
        List.reverse_cons, List.append_assoc]
      · rfl
      · intro d hd hhigh
        cases t with
        | nil => cases hd
        | cons d' t =>
            cases hd
            exact (List.isChain_cons_cons.mp ht).1 (hafter.high hhigh)

/-- A text is read from the string that is written for it. -/
theorem readString_quote {t : Text} (ht : t.IsUnpaired) (rest : Text) :
    readString (t.flatMap escape ++ .char '"' :: rest) = .ok (t, rest) := by
  rw [readString, readStringOnto_flatMap_escape ht]
  · rfl
  · intro c _ h
    cases h

end Json

/-! ## Decimal digits -/

namespace Text

/-- A number is written in digits. -/
theorem isDigit_of_mem_ofNat {n : Nat} {c : CodePoint} (h : c ∈ ofNat n) :
    c.isDigit := by
  obtain ⟨d, hd, rfl⟩ := List.mem_map.mp h
  exact Nat.isDigit_of_mem_toDigits (by decide) (Nat.le_refl 10) hd

theorem ofNat_ne_nil (n : Nat) : ofNat n ≠ [] := by
  simp [ofNat, ofChars]

/-- The digits of a number have its value. -/
theorem valueOfDigits_ofNat (n : Nat) : valueOfDigits (ofNat n) = n := by
  rw [valueOfDigits, ofNat, ofChars, List.foldl_map]
  have hvalue := Nat.ofDigitChars_ten_toDigits (n := n)
  rwa [Nat.ofDigitChars_eq_foldl] at hvalue

/-- Only zero starts with a zero. -/
theorem eq_zero_of_head?_toDigits {n : Nat}
    (h : (Nat.toDigits 10 n).head? = some '0') : n = 0 := by
  induction n using Nat.strongRecOn with
  | ind n ih =>
      by_cases hn : n < 10
      · rw [Nat.toDigits_of_lt_base hn] at h
        exact Nat.digitChar_eq_zero.mp (Option.some.inj h)
      · have hle : 10 ≤ n := Nat.le_of_not_lt hn
        rw [Nat.toDigits_of_base_le (by decide) hle,
          List.head?_append_of_ne_nil _ Nat.toDigits_ne_nil] at h
        have hzero := ih (n / 10) (by omega) h
        omega

end Text

/-! ## Whole numbers -/

namespace Json

/-- Behind a value the text ends, or a container goes on. -/
def IsBehind (rest : Text) : Prop :=
  ∀ c, rest.head? = some c →
    c = .char ',' ∨ c = .char ']' ∨ c = .char '}'

variable {rest : Text}

/-- A sign that goes on with a number is not behind a value. -/
theorem IsBehind.ne {c : CodePoint} (h : IsBehind rest)
    (hc : c ≠ .char ',' ∧ c ≠ .char ']' ∧ c ≠ .char '}') (r : Text) :
    rest ≠ c :: r := by
  rintro rfl
  obtain hc' | hc' | hc' := h c rfl
  · exact hc.1 hc'
  · exact hc.2.1 hc'
  · exact hc.2.2 hc'

theorem IsBehind.isDigit {c : CodePoint} (h : IsBehind rest)
    (hc : rest.head? = some c) : c.isDigit = false := by
  obtain rfl | rfl | rfl := h c hc
  all_goals rfl

/-- The digits of a number are read up to what is behind them. -/
theorem readWhole?_ofNat (n : Nat) (h : IsBehind rest) :
    readWhole? (Text.ofNat n ++ rest) = some (Text.ofNat n, rest) := by
  by_cases hn : n = 0
  · rw [hn]
    rfl
  have hzero : ∀ r, Text.ofNat n ++ rest ≠ .char '0' :: r := by
    intro r hr
    have hhead := congrArg List.head? hr
    rw [List.head?_append_of_ne_nil _ (Text.ofNat_ne_nil n), Text.ofNat,
      Text.ofChars, List.head?_map] at hhead
    obtain ⟨d, hd, hd0⟩ := Option.map_eq_some_iff.mp hhead
    cases hd0
    exact hn (Text.eq_zero_of_head?_toDigits hd)
  have hdigits : ∀ c ∈ Text.ofNat n, c.isDigit := by
    intro c hc
    exact Text.isDigit_of_mem_ofNat hc
  have htake : rest.takeWhile CodePoint.isDigit = [] := by
    cases rest with
    | nil => rfl
    | cons c rest => rw [List.takeWhile_cons, h.isDigit rfl]; rfl
  have hdrop : rest.dropWhile CodePoint.isDigit = rest := by
    cases rest with
    | nil => rfl
    | cons c rest => rw [List.dropWhile_cons, h.isDigit rfl]; rfl
  rw [readWhole?_of_not_zero hzero, digitsOf, afterDigits,
    List.takeWhile_append_of_pos hdigits, List.dropWhile_append_of_pos hdigits,
    htake, hdrop, List.append_nil, if_neg]
  simpa using Text.ofNat_ne_nil n

/-- The digits of a number are read as the number. -/
theorem readUnsigned?_ofNat (negative : Bool) (n : Nat) (h : IsBehind rest) :
    readUnsigned? negative (Text.ofNat n ++ rest)
      = some (.int (if negative then -n else n), rest) := by
  have hexponent : readExponent rest = (none, rest) := by
    refine readExponent_of_not_mark ?_
    rintro c r hr (rfl | rfl)
    · exact h.ne (by decide) r hr
    · exact h.ne (by decide) r hr
  rw [readUnsigned?, readWhole?_ofNat n h]
  dsimp only
  rw [readFraction_of_not_point (h.ne (by decide)), hexponent]
  show some (Json.int _, rest) = _
  rw [Text.valueOfDigits_ofNat]

/-- A written integer is read as that integer. -/
theorem readNumber?_ofInt (n : Int) (h : IsBehind rest) :
    readNumber? (Text.ofInt n ++ rest) = some (.int n, rest) := by
  cases n with
  | ofNat n =>
      rw [Text.ofInt, readNumber?_of_not_minus, readUnsigned?_ofNat false n h]
      · rfl
      · intro r hr
        obtain ⟨c, more, hofNat⟩ :=
          List.exists_cons_of_ne_nil (Text.ofNat_ne_nil n)
        have hdigit : c.isDigit := by
          refine Text.isDigit_of_mem_ofNat (n := n) ?_
          rw [hofNat]
          exact List.mem_cons_self
        rw [hofNat] at hr
        cases hr
        cases hdigit
  | negSucc n =>
      show readUnsigned? true (Text.ofNat (n + 1) ++ rest) = _
      rw [readUnsigned?_ofNat true (n + 1) h]
      rfl

/-- A written integer is the scalar that is read. -/
theorem readScalar?_ofInt (n : Int) (h : IsBehind rest) :
    readScalar? (Text.ofInt n ++ rest) = some (.int n, rest) := by
  have hnumber := readNumber?_ofInt n h
  have hword := readWord?_append_eq_none hnumber []
  rw [List.append_nil] at hword
  rw [readScalar?, hword]
  exact hnumber

/-! ## Printable signs -/

/-- Whether the code point is a printable sign of ASCII. -/
def isPrintable (c : CodePoint) : Bool :=
  decide (0x20 ≤ c.toNat ∧ c.toNat ≤ 0x7E)

theorem isPrintable_text {s : String} (h : s.toList.all fun c => isPrintable (.char c)) :
    ∀ c ∈ text s, isPrintable c := by
  intro c hc
  obtain ⟨d, hd, rfl⟩ := List.mem_map.mp hc
  exact List.all_eq_true.mp h d hd

theorem isPrintable_digitChar (n : Nat) :
    isPrintable (.char (n % 16).digitChar) := by
  have h : ∀ d : Fin 16, isPrintable (.char d.val.digitChar) := by decide
  exact h ⟨n % 16, Nat.mod_lt n (by decide)⟩

/-- An escape by four digits is printable. -/
theorem isPrintable_of_mem_unitEscape {u : UInt16} {c : CodePoint}
    (h : c ∈ unitEscape u) : isPrintable c := by
  simp only [unitEscape, Text.ofHex, List.mem_cons, List.mem_append,
    List.not_mem_nil, or_false, false_or] at h
  obtain rfl | rfl | ((rfl | rfl) | rfl) | rfl := h
  · rfl
  · rfl
  all_goals exact isPrintable_digitChar _

/-- Every character is escaped by printable ones. -/
theorem isPrintable_of_mem_escape {c d : CodePoint} (h : d ∈ escape c) :
    isPrintable d := by
  unfold escape at h
  split at h
  case h_8 c _ _ _ _ _ _ _ =>
      split at h
      · next hplain =>
          rw [List.mem_singleton.mp h]
          exact decide_eq_true ⟨hplain.1, by omega⟩
      · obtain ⟨u, -, hd⟩ := List.mem_flatMap.mp h
        exact isPrintable_of_mem_unitEscape hd
  all_goals exact isPrintable_text (by decide) d h

/-- A quoted text is printable. -/
theorem isPrintable_of_mem_quote {t : Text} {c : CodePoint} (h : c ∈ quote t) :
    isPrintable c := by
  simp only [quote, List.cons_append, List.mem_cons, List.mem_append,
    List.not_mem_nil, or_false] at h
  obtain rfl | h | rfl := h
  · rfl
  · obtain ⟨d, -, hc⟩ := List.mem_flatMap.mp h
    exact isPrintable_of_mem_escape hc
  · rfl

theorem isPrintable_of_isDigit {c : CodePoint} (h : c.isDigit) : isPrintable c := by
  cases c with
  | surrogate s => cases h
  | char c =>
      simp only [CodePoint.isDigit, Char.isDigit, Bool.and_eq_true,
        decide_eq_true_eq, ge_iff_le, UInt32.le_iff_toNat_le] at h
      have hval : c.val.toNat = c.toNat := rfl
      refine decide_eq_true ?_
      simp only [CodePoint.toNat]
      grind

/-- A written integer is printable. -/
theorem isPrintable_of_mem_ofInt {n : Int} {c : CodePoint}
    (h : c ∈ Text.ofInt n) : isPrintable c := by
  cases n with
  | ofNat n => exact isPrintable_of_isDigit (Text.isDigit_of_mem_ofNat h)
  | negSucc n =>
      rw [Text.ofInt, List.mem_cons] at h
      obtain rfl | h := h
      · rfl
      · exact isPrintable_of_isDigit (Text.isDigit_of_mem_ofNat h)

end Json

end CouchClient
