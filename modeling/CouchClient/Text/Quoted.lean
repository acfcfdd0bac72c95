import CouchClient.Text.Basic
import CouchClient.Text.Printable

/-! # Quoted text — how messages show texts and bytes

    A message shows a text between quotes: in single ones, unless the
    text holds a single quote and no double one.  What is not printable
    is written as its number in hexadecimal, as short as it fits into
    two, four or eight digits. -/

namespace CouchClient.Text

/-- The quote around a text, where `single` and `double` say which quotes
    it holds. -/
def quoteFor (single double : Bool) : Char :=
  if single && !double then '"' else '\''

/-- The two-sign escape of a character, if it has one between quotes of
    the given kind. -/
def shortEscape (quote : Char) (c : Char) : Option Text :=
  if c = quote ∨ c = '\\' then some [.char '\\', .char c]
  else if c = '\n' then some (text "\\n")
  else if c = '\r' then some (text "\\r")
  else if c = '\t' then some (text "\\t")
  else none

/-- The escape that gives the number of a code point. -/
def numberEscape (n : Nat) : Text :=
  if n < 0x100 then text "\\x" ++ ofHex 2 n
  else if n < 0x10000 then text "\\u" ++ ofHex 4 n
  else text "\\U" ++ ofHex 8 n

/-- A code point as it stands between quotes of the given kind. -/
def quotedCodePoint (quote : Char) : CodePoint → Text
  | .surrogate s => numberEscape s.toNat
  | .char c =>
      match shortEscape quote c with
      | some escape => escape
      | none =>
          if isPrintable c.toNat then [.char c] else numberEscape c.toNat

/-- A text between quotes. -/
def quoted (t : Text) : Text :=
  let quote := quoteFor (t.contains (.char '\'')) (t.contains (.char '"'))
  .char quote :: t.flatMap (quotedCodePoint quote) ++ [.char quote]

/-- A byte as it stands between quotes of the given kind. -/
def quotedByte (quote : Char) (b : UInt8) : Text :=
  let c := Char.ofNat b.toNat
  match shortEscape quote c with
  | some escape => escape
  | none =>
      if 0x20 ≤ b.toNat ∧ b.toNat < 0x7F then [.char c]
      else numberEscape b.toNat

/-- Bytes between quotes, marked as bytes by a `b`. -/
def quotedBytes (bs : Bytes) : Text :=
  let quote := quoteFor (bs.contains 0x27) (bs.contains 0x22)
  .char 'b' :: .char quote :: bs.flatMap (quotedByte quote)
    ++ [.char quote]

end CouchClient.Text
