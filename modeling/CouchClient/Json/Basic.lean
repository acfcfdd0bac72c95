import CouchClient.Entries
import CouchClient.Limits
import CouchClient.Number.Shortest
import CouchClient.Text.Basic

/-! # JSON values and the flaws of a JSON text

    A flaw is found at a suffix of the text that was read, so nothing has
    to count while reading; its place is counted afterwards, from the
    length of that suffix. -/

namespace CouchClient

/-- A JSON value.  Whole numbers are kept apart from the others, and the
    entries of an object are in the order of the text. -/
inductive Json where
  | null
  | bool (b : Bool)
  | int (n : Int)
  | float (x : Binary64)
  | str (t : Text)
  | arr (items : List Json)
  | obj (entries : List (Text × Json))

namespace Json

instance : Inhabited Json := ⟨.null⟩

/-- What is wrong with a text, or too large in it. -/
inductive Wrong where
  | expectedValue
  | expectedName
  | expectedColon
  | expectedComma
  | unterminatedString
  | controlCharacter
  | unknownEscape
  | badUnicodeEscape
  | extraData
  | tooLong (e : TooLong)
  | tooDeep (e : TooDeep)
deriving DecidableEq

/-- What is wrong, and the suffix of the text at which it shows. -/
structure Flaw where
  wrong : Wrong
  rest : Text

/-- What is wrong, and where, counted in code points. -/
structure SyntaxError where
  wrong : Wrong
  line : Nat
  column : Nat
  position : Nat
deriving DecidableEq

/-- The number of code points up to the last line of a text. -/
def lineStart (t : Text) : Nat :=
  t.length - (t.reverse.takeWhile (· != .char '\n')).length

/-- The place of a flaw that was found in the document from an offset on. -/
def Flaw.locate (doc : Text) (offset : Nat) (flaw : Flaw) : SyntaxError :=
  let position := offset + ((doc.drop offset).length - flaw.rest.length)
  let before := doc.take position
  { wrong := flaw.wrong
    line := before.count (.char '\n') + 1
    column := position - lineStart before + 1
    position }

/-- The words for what is wrong. -/
def Wrong.message : Wrong → Text
  | .expectedValue => text "Expecting value"
  | .expectedName => text "Expecting property name enclosed in double quotes"
  | .expectedColon => text "Expecting ':' delimiter"
  | .expectedComma => text "Expecting ',' delimiter"
  | .unterminatedString => text "Unterminated string starting at"
  | .controlCharacter => text "Invalid control character at"
  | .unknownEscape => text "Invalid \\escape"
  | .badUnicodeEscape => text "Invalid \\uXXXX escape"
  | .extraData => text "Extra data"
  | .tooLong e => e.readingMessage
  | .tooDeep e => e.message

/-- Whether a limit of the interpreter is met, and not a rule of JSON. -/
def Wrong.isLimit : Wrong → Bool
  | .tooLong _ => true
  | .tooDeep _ => true
  | _ => false

/-- What is too deep, if anything is. -/
def Wrong.tooDeep? : Wrong → Option TooDeep
  | .tooDeep e => some e
  | _ => none

theorem Wrong.tooDeep?_eq_some_iff {w : Wrong} {e : TooDeep} :
    w.tooDeep? = some e ↔ w = .tooDeep e := by
  cases w with
  | tooDeep e' => simp [tooDeep?]
  | _ => exact ⟨nofun, nofun⟩

/-- Says what is wrong, and for what is no JSON also on which line, in which
    column and at which position. -/
def SyntaxError.message (e : SyntaxError) : Text :=
  if e.wrong.isLimit then e.wrong.message
  else
    e.wrong.message ++ text ": line " ++ Text.ofNat e.line ++ text " column "
      ++ Text.ofNat e.column ++ text " (char " ++ Text.ofNat e.position
      ++ text ")"

end Json

end CouchClient
