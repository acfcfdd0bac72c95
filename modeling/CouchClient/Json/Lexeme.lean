import CouchClient.Json.Basic

/-! # Lexemes — blanks, strings, numbers and names in JSON texts

    Each function reads one lexeme at the start of a text and returns the
    rest of it, which is shorter.

    * `readString` — after the opening quote; a high surrogate escape and
      a low one directly after it make one character;
    * `readNumber?` — the longest complete number;
    * `readScalar?` — a number, or one of the words. -/

namespace CouchClient.Json

/-! ## Blanks -/

/-- The white space of JSON. -/
def isBlank (c : CodePoint) : Bool :=
  c == .char ' ' || c == .char '\t' || c == .char '\n' || c == .char '\r'

/-- The text from the first code point on that is not blank. -/
def skipBlanks (t : Text) : Text := t.dropWhile isBlank

theorem length_skipBlanks (t : Text) : (skipBlanks t).length ≤ t.length :=
  (List.dropWhile_suffix isBlank).length_le

theorem length_of_skipBlanks {t rest : Text} (h : skipBlanks t = rest) :
    rest.length ≤ t.length :=
  h ▸ length_skipBlanks t

/-! ## Strings -/

/-- The sixteen-bit unit that four hexadecimal digits write. -/
def unitOfHex? (a b c d : CodePoint) : Option UInt16 := do
  let a ← a.hexValue?
  let b ← b.hexValue?
  let c ← c.hexValue?
  let d ← d.hexValue?
  return .ofNat (((a * 16 + b) * 16 + c) * 16 + d)

/-- What the sign after a backslash stands for, other than a `u`. -/
def unescape? : CodePoint → Option CodePoint
  | .char '"' => some (.char '"')
  | .char '\\' => some (.char '\\')
  | .char '/' => some (.char '/')
  | .char 'b' => some (.char '\x08')
  | .char 'f' => some (.char '\x0c')
  | .char 'n' => some (.char '\n')
  | .char 'r' => some (.char '\r')
  | .char 't' => some (.char '\t')
  | _ => none

/-- What was read of a string, last first, and the high surrogate that the
    last escape gave, if it did. -/
structure Partial where
  read : Text
  high : Option Surrogate

namespace Partial

/-- All that was read, last first: a high surrogate stays alone. -/
def settled (p : Partial) : Text :=
  match p.high with
  | some h => .surrogate h :: p.read
  | none => p.read

/-- One more code point. -/
def push (p : Partial) (c : CodePoint) : Partial := ⟨c :: p.settled, none⟩

/-- One more escaped unit. -/
def pushUnit (p : Partial) (u : UInt16) : Partial :=
  match CodePoint.ofUnit u, p.high with
  | .surrogate s, some h =>
      if s.isHigh then ⟨p.settled, some s⟩
      else ⟨.char (h.join s) :: p.read, none⟩
  | .surrogate s, none =>
      if s.isHigh then ⟨p.read, some s⟩ else p.push (.surrogate s)
  | c, _ => p.push c

end Partial

/-- Reads a string after its opening quote, onto what was read so far.
    `opening` is the text from that quote on. -/
def readStringOnto (opening : Text) (p : Partial) :
    Text → Except Flaw (Text × Text)
  | [] => .error ⟨.unterminatedString, opening⟩
  | .char '"' :: rest => .ok (p.settled.reverse, rest)
  | .char '\\' :: .char 'u' :: a :: b :: c :: d :: rest =>
      match unitOfHex? a b c d, rest with
      | some u, _ :: _ => readStringOnto opening (p.pushUnit u) rest
      | _, _ =>
          .error ⟨.badUnicodeEscape, .char 'u' :: a :: b :: c :: d :: rest⟩
  | .char '\\' :: .char 'u' :: rest =>
      .error ⟨.badUnicodeEscape, .char 'u' :: rest⟩
  | [.char '\\'] => .error ⟨.unterminatedString, opening⟩
  | .char '\\' :: c :: rest =>
      match unescape? c with
      | some c' => readStringOnto opening (p.push c') rest
      | none => .error ⟨.unknownEscape, .char '\\' :: c :: rest⟩
  | c :: rest =>
      if c.toNat < 0x20 then .error ⟨.controlCharacter, c :: rest⟩
      else readStringOnto opening (p.push c) rest

/-- The next quote ends a string. -/
theorem readStringOnto_quote {opening : Text} {p : Partial} (rest : Text) :
    readStringOnto opening p (.char '"' :: rest)
      = .ok (p.settled.reverse, rest) := by
  rw [readStringOnto]

/-- Reads a string after its opening quote. -/
def readString (t : Text) : Except Flaw (Text × Text) :=
  readStringOnto (.char '"' :: t) ⟨[], none⟩ t

/-- A string takes at least its closing quote. -/
theorem length_rest_of_readStringOnto {opening : Text} {p : Partial}
    {t s rest : Text} (h : readStringOnto opening p t = .ok (s, rest)) :
    rest.length < t.length := by
  fun_induction readStringOnto opening p t
  case case2 => cases h; simp
  case case3 ih | case7 ih | case10 ih =>
      have := ih h
      simp only [List.length_cons] at this ⊢
      omega
  all_goals exact nomatch h

theorem length_rest_of_readString {t s rest : Text}
    (h : readString t = .ok (s, rest)) : rest.length < t.length :=
  length_rest_of_readStringOnto h

/-! ## Numbers and words -/

/-- The digits at the start of a text. -/
def digitsOf (t : Text) : Text := t.takeWhile CodePoint.isDigit

/-- The text after the digits at its start. -/
def afterDigits (t : Text) : Text := t.dropWhile CodePoint.isDigit

/-- Reads the digits before the point: a zero stands alone. -/
def readWhole? : Text → Option (Text × Text)
  | .char '0' :: rest => some ([.char '0'], rest)
  | t =>
      if (digitsOf t).isEmpty then none
      else some (digitsOf t, afterDigits t)

/-- Reads a point and the digits after it; without a digit there is no
    fraction. -/
def readFraction (t : Text) : Text × Text :=
  match t with
  | .char '.' :: rest =>
      if (digitsOf rest).isEmpty then ([], t)
      else (digitsOf rest, afterDigits rest)
  | _ => ([], t)

/-- Reads the sign of an exponent. -/
def readSign : Text → Bool × Text
  | .char '-' :: rest => (true, rest)
  | .char '+' :: rest => (false, rest)
  | t => (false, t)

/-- Reads an exponent; without a digit there is none. -/
def readExponent (t : Text) : Option Int × Text :=
  match t with
  | .char c :: rest =>
      if c = 'e' ∨ c = 'E' then
        let (negative, digits) := readSign rest
        if (digitsOf digits).isEmpty then (none, t)
        else
          let n : Int := Text.valueOfDigits (digitsOf digits)
          (some (if negative then -n else n), afterDigits digits)
      else (none, t)
  | _ => (none, t)

/-- The value of a number from its parts.  Without fraction and exponent it
    is a whole number. -/
def numberOf (negative : Bool) (whole fraction : Text)
    (exponent : Option Int) : Json :=
  if fraction.isEmpty && exponent.isNone then
    let n : Int := Text.valueOfDigits whole
    .int (if negative then -n else n)
  else
    .float (.ofDecimal negative (Text.valueOfDigits (whole ++ fraction))
      (exponent.getD 0 - fraction.length))

/-- Reads the longest complete number behind its sign. -/
def readUnsigned? (negative : Bool) (t : Text) : Option (Json × Text) :=
  match readWhole? t with
  | none => none
  | some (whole, rest) =>
      let (fraction, rest) := readFraction rest
      let (exponent, rest) := readExponent rest
      some (numberOf negative whole fraction exponent, rest)

/-- Reads the longest complete number. -/
def readNumber? : Text → Option (Json × Text)
  | .char '-' :: rest => readUnsigned? true rest
  | t => readUnsigned? false t

/-- The words that are values. -/
def words : List (Text × Json) :=
  [(text "null", .null), (text "true", .bool true),
    (text "false", .bool false), (text "NaN", .float .nan),
    (text "Infinity", .float (.infinite false)),
    (text "-Infinity", .float (.infinite true))]

/-- The text after a word that opens it. -/
def afterWord? : Text → Text → Option Text
  | [], t => some t
  | _ :: _, [] => none
  | c :: word, d :: t => if c = d then afterWord? word t else none

/-- Reads one of the words. -/
def readWord? (t : Text) : Option (Json × Text) :=
  words.findSome? fun w => (afterWord? w.1 t).map ((w.2, ·))

/-- Reads a word or a number. -/
def readScalar? (t : Text) : Option (Json × Text) :=
  match readWord? t with
  | some found => some found
  | none => readNumber? t

/-! ## Every lexeme takes up text -/

theorem length_afterDigits (t : Text) : (afterDigits t).length ≤ t.length :=
  (List.dropWhile_suffix CodePoint.isDigit).length_le

/-- Digits that are there are taken. -/
theorem length_afterDigits_lt {t : Text} (h : (digitsOf t).isEmpty = false) :
    (afterDigits t).length < t.length := by
  have split : digitsOf t ++ afterDigits t = t :=
    List.takeWhile_append_dropWhile
  have total := congrArg List.length split
  rw [List.length_append] at total
  have : 0 < (digitsOf t).length := by
    cases hd : digitsOf t with
    | nil => rw [hd] at h; exact nomatch h
    | cons c rest => exact Nat.succ_pos _
  omega

/-- A whole number takes at least a digit. -/
theorem length_rest_of_readWhole? {t whole rest : Text}
    (h : readWhole? t = some (whole, rest)) : rest.length < t.length := by
  unfold readWhole? at h
  split at h
  · cases h; simp
  · split at h
    · exact nomatch h
    · next hd =>
        cases h
        exact length_afterDigits_lt (Bool.eq_false_iff.mpr hd)

theorem length_readFraction (t : Text) :
    (readFraction t).2.length ≤ t.length := by
  unfold readFraction
  split
  · split
    · exact Nat.le_refl _
    · next rest _ =>
        have := length_afterDigits rest
        simp only [List.length_cons]
        omega
  · exact Nat.le_refl _

theorem length_readSign (t : Text) : (readSign t).2.length ≤ t.length := by
  unfold readSign
  split <;> simp

theorem length_readExponent (t : Text) :
    (readExponent t).2.length ≤ t.length := by
  unfold readExponent
  split
  · split
    · next c rest _ =>
        dsimp only
        split
        · exact Nat.le_refl _
        · have h₁ := length_afterDigits (readSign rest).2
          have h₂ := length_readSign rest
          simp only [List.length_cons]
          omega
    · exact Nat.le_refl _
  · exact Nat.le_refl _

theorem length_rest_of_readUnsigned? {negative : Bool} {t : Text} {v : Json}
    {rest : Text} (h : readUnsigned? negative t = some (v, rest)) :
    rest.length < t.length := by
  rw [readUnsigned?] at h
  split at h
  · exact nomatch h
  · next whole rest' hwhole =>
      rw [Option.some.injEq, Prod.mk.injEq] at h
      rw [← h.2]
      have h₁ := length_rest_of_readWhole? hwhole
      have h₂ := length_readFraction rest'
      have h₃ := length_readExponent (readFraction rest').2
      omega

theorem length_rest_of_readNumber? {t : Text} {v : Json} {rest : Text}
    (h : readNumber? t = some (v, rest)) : rest.length < t.length := by
  rw [readNumber?.eq_def] at h
  split at h
  · have := length_rest_of_readUnsigned? h
    rw [List.length_cons]
    omega
  · exact length_rest_of_readUnsigned? h

/-- A word and what is behind it make up the text. -/
theorem append_of_afterWord? {word t rest : Text}
    (h : afterWord? word t = some rest) : word ++ rest = t := by
  fun_induction afterWord? word t
  case case1 => cases h; rfl
  case case2 => exact nomatch h
  case case3 heq ih => rw [List.cons_append, ih h]
  case case4 => exact nomatch h

theorem length_rest_of_readWord? {t : Text} {v : Json} {rest : Text}
    (h : readWord? t = some (v, rest)) : rest.length < t.length := by
  obtain ⟨w, hmem, hw⟩ := List.exists_of_findSome?_eq_some h
  obtain ⟨rest', hrest, heq⟩ := Option.map_eq_some_iff.mp hw
  cases heq
  rw [← append_of_afterWord? hrest, List.length_append]
  have : 0 < w.1.length := by
    simp only [words, List.mem_cons, List.not_mem_nil, or_false] at hmem
    rcases hmem with h | h | h | h | h | h <;> rw [h] <;> decide
  omega

/-- A scalar takes at least a character. -/
theorem length_rest_of_readScalar? {t : Text} {v : Json} {rest : Text}
    (h : readScalar? t = some (v, rest)) : rest.length < t.length := by
  unfold readScalar? at h
  split at h
  · next found hword =>
      cases h
      exact length_rest_of_readWord? hword
  · exact length_rest_of_readNumber? h

end CouchClient.Json
