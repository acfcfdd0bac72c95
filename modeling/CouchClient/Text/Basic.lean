/-! # Text — code points, lone surrogates included

    JSON escapes can write half of a surrogate pair, so text here is a
    list of code points and not of characters.  A code point is either a
    character, which every encoding can write, or a lone surrogate, which
    UTF-8 cannot.

    * `CodePoint` — a character or a surrogate; `toNat` is its number;
    * `Surrogate.join` — the character that a high and a low half write
      together, and `Text.units`, its converse on whole texts;
    * `Text.splitOn`, `Text.cut`, `Text.strip` — the ways in which the
      library takes text apart. -/

namespace CouchClient

/-- Half of a surrogate pair, counted from U+D800. -/
structure Surrogate where
  offset : Fin 2048
deriving DecidableEq

/-- A code point: a character, or a surrogate that stands alone. -/
inductive CodePoint where
  | char (c : Char)
  | surrogate (s : Surrogate)
deriving DecidableEq

/-- A sequence of code points. -/
abbrev Text := List CodePoint

/-- A sequence of bytes. -/
abbrev Bytes := List UInt8

namespace Surrogate

/-- The number of the code point. -/
def toNat (s : Surrogate) : Nat := 0xD800 + s.offset.val

/-- A high surrogate opens a pair, a low one closes it. -/
def isHigh (s : Surrogate) : Bool := decide (s.offset.val < 1024)

/-- The number of the character that a pair writes. -/
def joined (high low : Surrogate) : Nat :=
  0x10000 + (high.offset.val % 1024) * 1024 + low.offset.val % 1024

/-- A high and a low surrogate are joined into a code point that is a character. -/
theorem joined_valid (high low : Surrogate) :
    (high.joined low).isValidChar := by
  have h := Nat.mod_lt high.offset.val (show 0 < 1024 by decide)
  have l := Nat.mod_lt low.offset.val (show 0 < 1024 by decide)
  unfold Nat.isValidChar joined
  omega

/-- The character that a high and a low surrogate write together. -/
def join (high low : Surrogate) : Char :=
  Char.ofNatAux (high.joined low) (joined_valid high low)

end Surrogate

namespace CodePoint

/-- The number of a code point. -/
def toNat : CodePoint → Nat
  | .char c => c.toNat
  | .surrogate s => s.toNat

/-- The code point of a number, if it has one. -/
def ofNat? (n : Nat) : Option CodePoint :=
  if h : n.isValidChar then
    some (.char (Char.ofNatAux n h))
  else if h : 0xD800 ≤ n ∧ n < 0xE000 then
    some (.surrogate ⟨⟨n - 0xD800, by omega⟩⟩)
  else
    none

/-- The code point of one sixteen-bit unit, taken alone. -/
def ofUnit (u : UInt16) : CodePoint :=
  if h : 0xD800 ≤ u.toNat ∧ u.toNat < 0xE000 then
    .surrogate ⟨⟨u.toNat - 0xD800, by omega⟩⟩
  else
    .char (Char.ofNatAux u.toNat (by
      have := u.toNat_lt
      unfold Nat.isValidChar
      omega))

/-- The sixteen-bit units that write a code point: two for a character
    beyond U+FFFF, and one for all else. -/
def units (c : CodePoint) : List UInt16 :=
  if c.toNat < 0x10000 then
    [.ofNat c.toNat]
  else
    [.ofNat (0xD800 + (c.toNat - 0x10000) / 1024),
      .ofNat (0xDC00 + (c.toNat - 0x10000) % 1024)]

/-- Whether UTF-8 has no bytes for the code point. -/
def isSurrogate : CodePoint → Bool
  | .char _ => false
  | .surrogate _ => true

/-- The value of a hexadecimal digit. -/
def hexValue? : CodePoint → Option Nat
  | .char c =>
      if '0' ≤ c ∧ c ≤ '9' then some (c.toNat - 0x30)
      else if 'a' ≤ c ∧ c ≤ 'f' then some (c.toNat - 0x61 + 10)
      else if 'A' ≤ c ∧ c ≤ 'F' then some (c.toNat - 0x41 + 10)
      else none
  | .surrogate _ => none

/-- Whether the code point is a decimal digit. -/
def isDigit : CodePoint → Bool
  | .char c => c.isDigit
  | .surrogate _ => false

/-- Whether the code point is one of the first 128. -/
def isAscii (c : CodePoint) : Bool := decide (c.toNat < 0x80)

/-- An ASCII letter in its lower case, and all else as it is. -/
def toAsciiLower : CodePoint → CodePoint
  | .char c => .char c.toLower
  | s => s

end CodePoint

/-- The text of a string literal or of any other string. -/
def text (s : String) : Text := s.toList.map .char

namespace Text

/-- The text of a list of characters. -/
def ofChars (s : List Char) : Text := s.map .char

/-- The decimal digits of a number. -/
def ofNat (n : Nat) : Text := ofChars (Nat.toDigits 10 n)

/-- The decimal digits of an integer, after a minus sign if it is
    negative. -/
def ofInt : Int → Text
  | .ofNat n => ofNat n
  | .negSucc n => .char '-' :: ofNat (n + 1)

/-- The number that decimal digits write. -/
def valueOfDigits (digits : Text) : Nat :=
  digits.foldl (fun n c => 10 * n + (c.toNat - 0x30)) 0

/-- The last so many hexadecimal digits of a number, in lower case. -/
def ofHex : Nat → Nat → Text
  | 0, _ => []
  | width + 1, n => ofHex width (n / 16) ++ [.char (n % 16).digitChar]

/-- Whether every code point of the text is a character. -/
def isWellFormed (t : Text) : Bool := t.all fun c => !c.isSurrogate

/-- The pieces between the occurrences of a separator; there is always at
    least one piece. -/
def splitOn (sep : CodePoint) : Text → List Text
  | [] => [[]]
  | c :: rest =>
      if c = sep then [] :: splitOn sep rest
      else (splitOn sep rest).modifyHead (c :: ·)

/-- The text before the first occurrence of a separator and, if there is
    one, the text after it. -/
def cut (sep : CodePoint) : Text → Text × Option Text
  | [] => ([], none)
  | c :: rest =>
      if c = sep then ([], some rest)
      else ((c :: (cut sep rest).1), (cut sep rest).2)

/-- The text without the code points at both ends that satisfy a test. -/
def strip (p : CodePoint → Bool) (t : Text) : Text :=
  ((t.dropWhile p).reverse.dropWhile p).reverse

/-- The pieces, one after the other, with a separator between them. -/
def join (sep : Text) (pieces : List Text) : Text := List.intercalate sep pieces

/-- Whether the text ends in the given code point. -/
def endsWith (t : Text) (c : CodePoint) : Bool := t.getLast? == some c

/-- Every ASCII letter in its lower case. -/
def toAsciiLower (t : Text) : Text := t.map CodePoint.toAsciiLower

/-- The sixteen-bit units of a text. -/
def units (t : Text) : List UInt16 := t.flatMap CodePoint.units

end Text

end CouchClient
