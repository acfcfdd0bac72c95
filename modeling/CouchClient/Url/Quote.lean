import CouchClient.Text.Utf8

/-! # Percent quoting — text in paths

    A text is quoted by writing its UTF-8 bytes: letters, digits and four
    signs stand for themselves, and every other byte is a percent sign and
    two hexadecimal digits.  Unquoting reads each run of ASCII as bytes
    and keeps what lies between the runs; bytes that are no UTF-8 become
    replacement characters. -/

namespace CouchClient.Url

/-- The bytes that need no quoting. -/
def isUnreserved (b : UInt8) : Bool :=
  let c := Char.ofNat b.toNat
  c.isAlphanum || c == '_' || c == '.' || c == '-' || c == '~'

/-- One of the sixteen hexadecimal digits, in upper case. -/
def hexDigit (n : Nat) : CodePoint := .char (n % 16).digitChar.toUpper

/-- A percent sign and the two digits of a byte. -/
def percent (b : UInt8) : Text :=
  [.char '%', hexDigit (b.toNat / 16), hexDigit b.toNat]

/-- A byte as it stands in a path segment. -/
def quoteByte (b : UInt8) : Text :=
  if isUnreserved b then [.char (Char.ofNat b.toNat)] else percent b

/-- A text as it stands in a path segment. -/
def quote (t : Text) : Except Utf8.Unencodable Text := do
  return (← Utf8.encode t).flatMap quoteByte

/-- The bytes of a run of ASCII in which percent signs quote bytes.  A
    percent sign without two digits after it stands for itself. -/
def unquoteRun : Text → Bytes
  | [] => []
  | .char '%' :: a :: b :: rest =>
      match a.hexValue?, b.hexValue? with
      | some x, some y => .ofNat (x * 16 + y) :: unquoteRun rest
      | _, _ => 0x25 :: unquoteRun (a :: b :: rest)
  | c :: rest => .ofNat c.toNat :: unquoteRun rest

/-- The text that a quoted text stands for. -/
def unquote (t : Text) : Text :=
  match t with
  | [] => []
  | c :: rest =>
      if c.isAscii then
        Utf8.readLossy (unquoteRun (c :: rest.takeWhile CodePoint.isAscii))
          ++ unquote (rest.dropWhile CodePoint.isAscii)
      else c :: unquote rest
termination_by t.length
decreasing_by
  · have := (List.dropWhile_suffix CodePoint.isAscii (l := rest)).length_le
    simp only [List.length_cons]
    omega
  · simp

end CouchClient.Url
