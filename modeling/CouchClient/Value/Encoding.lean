import CouchClient.Json.Basic
import CouchClient.Text.Utf8
import CouchClient.Value.Basic

/-! # Encoding — values as JSON texts

    A value is written without blanks and in printable ASCII: every other
    code point of a string becomes one escape, or two for a character
    beyond U+FFFF.  Encoding goes from left to right and into the depth,
    a key before its value, and stops at the first part that JSON cannot
    write, or that is too long or too deep for the interpreter. -/

namespace CouchClient

/-- Why a value has no JSON text. -/
inductive EncodeError where
  | notFinite
  | circular
  | keyType (typeName : Text)
  | type (typeName : Text)
  | tooLong (e : TooLong)
  | tooDeep
deriving DecidableEq

/-- Says why a value has no JSON text. -/
def EncodeError.message : EncodeError → Text
  | .notFinite => text "Out of range float values are not JSON compliant"
  | .circular => text "Circular reference detected"
  | .keyType name =>
      text "keys must be str, int, float, bool or None, not " ++ name
  | .type name =>
      text "Object of type " ++ name ++ text " is not JSON serializable"
  | .tooLong e => e.writingMessage
  | .tooDeep => TooDeep.writing.message

namespace Json

/-- The escape of a sixteen-bit unit. -/
def unitEscape (u : UInt16) : Text :=
  .char '\\' :: .char 'u' :: Text.ofHex 4 u.toNat

/-- A code point as it stands in a JSON string. -/
def escape : CodePoint → Text
  | .char '"' => text "\\\""
  | .char '\\' => text "\\\\"
  | .char '\n' => text "\\n"
  | .char '\r' => text "\\r"
  | .char '\t' => text "\\t"
  | .char '\x0c' => text "\\f"
  | .char '\x08' => text "\\b"
  | c =>
      if 0x20 ≤ c.toNat ∧ c.toNat < 0x7F then [c]
      else c.units.flatMap unitEscape

/-- A text as a JSON string. -/
def quote (t : Text) : Text :=
  .char '"' :: t.flatMap escape ++ [.char '"']

/-- Parts with commas between them, in brackets. -/
def bracketed (parts : List Text) : Text :=
  .char '[' :: Text.join [.char ','] parts ++ [.char ']']

/-- Parts with commas between them, in braces. -/
def braced (parts : List Text) : Text :=
  .char '\x7b' :: Text.join [.char ','] parts ++ [.char '\x7d']

end Json

namespace Value

/-- The text of a finite number. -/
def encodeFloat (x : Binary64) : Except EncodeError Text :=
  if x.isFinite then .ok x.toText else .error .notFinite

/-- The words for the truth values. -/
def encodeBool (b : Bool) : Text := if b then text "true" else text "false"

/-- The text of a whole number. -/
def encodeInt [L : Limits] (n : Int) : Except EncodeError Text :=
  (Limits.textOf n).mapError .tooLong

/-- The name that a key gives to an entry. -/
def keyName [L : Limits] : Value → Except EncodeError Text
  | .str t => .ok t
  | .float x => encodeFloat x
  | .bool b => .ok (encodeBool b)
  | .null => .ok (text "null")
  | .int n => encodeInt n
  | k => .error (.keyType k.qualifiedTypeName)

/-- What is encoded inside so many containers, if one more may be open. -/
def inside [L : Limits] {α : Type} (depth : Nat) (encoded : Except EncodeError α) :
    Except EncodeError α :=
  if Limits.isFull depth then .error .tooDeep else encoded

mutual

/-- The JSON text of a value that stands inside so many others. -/
def encodeAt [L : Limits] (depth : Nat) : Value → Except EncodeError Text
  | .null => .ok (text "null")
  | .bool b => .ok (encodeBool b)
  | .int n => encodeInt n
  | .float x => encodeFloat x
  | .str t => .ok (Json.quote t)
  | .list items =>
      inside depth do return Json.bracketed (← encodeAll (depth + 1) items)
  | .tuple items =>
      inside depth do return Json.bracketed (← encodeAll (depth + 1) items)
  | .mapping entries =>
      inside depth do return Json.braced (← encodeEntries (depth + 1) entries)
  -- the form of an object is inside the object
  | .moment m => inside depth (.ok (Json.quote m.iso))
  | .formed _ form => inside depth (encodeAt (depth + 1) form)
  | .enclosing _ => inside depth (.error .circular)
  | .set _ => .error (.type (text "set"))
  | .bytes _ => .error (.type (text "bytes"))
  | .object name => .error (.type name)

/-- The JSON texts of several values that stand inside so many others. -/
def encodeAll [L : Limits] (depth : Nat) :
    List Value → Except EncodeError (List Text)
  | [] => .ok []
  | v :: rest => do
      let first ← encodeAt depth v
      return first :: (← encodeAll depth rest)

/-- The JSON texts of entries: the name, a colon and the value. -/
def encodeEntries [L : Limits] (depth : Nat) :
    List (Value × Value) → Except EncodeError (List Text)
  | [] => .ok []
  | (k, v) :: rest => do
      let name ← keyName k
      let first ← encodeAt depth v
      return (Json.quote name ++ .char ':' :: first)
        :: (← encodeEntries depth rest)

end

/-- The JSON text of a value. -/
def encode [L : Limits] (v : Value) : Except EncodeError Text := v.encodeAt 0

/-- The bytes of the JSON text of a value. -/
def encodeBytes [L : Limits] (v : Value) : Except EncodeError Bytes := do
  return Utf8.bytes (← v.encode)

end Value

end CouchClient
