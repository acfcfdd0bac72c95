import CouchClient.Error

/-! # Query options — arguments that become query pairs

    An option is a text, a truth value, a whole number or a list of texts;
    a value of any other type is refused before anything is sent, and so is
    a whole number that is too long to be written.  A list becomes one pair
    for each of its elements. -/

namespace CouchClient

/-- What an option may hold. -/
inductive OptionValue where
  | str (t : Text)
  | bool (b : Bool)
  | int (n : Int)
  | texts (items : List Text)
deriving DecidableEq

/-- A named option. -/
structure QueryOption where
  name : Text
  value : OptionValue
deriving DecidableEq

namespace OptionValue

/-- The texts of a list that holds nothing else. -/
def allTexts? : List Value → Option (List Text)
  | [] => some []
  | .str t :: rest => (allTexts? rest).map (t :: ·)
  | _ :: _ => none

/-- The value as an option may hold it. -/
def ofValue? : Value → Option OptionValue
  | .str t => some (.str t)
  | .bool b => some (.bool b)
  | .int n => some (.int n)
  | .list items => (allTexts? items).map .texts
  | .tuple items => (allTexts? items).map .texts
  | _ => none

/-- The value among the values of any type; lists of texts are tuples. -/
def toValue : OptionValue → Value
  | .str t => .str t
  | .bool b => .bool b
  | .int n => .int n
  | .texts items => .tuple (items.map .str)

/-- The name of the kind of value. -/
def kind : OptionValue → Text
  | .str _ => text "str"
  | .bool _ => text "bool"
  | .int _ => text "int"
  | .texts _ => text "list"

end OptionValue

namespace QueryOption

/-- The option with a name and a value, if the value is of a supported
    type. -/
def ofValue (name : Text) (v : Value) : Except Error QueryOption :=
  match OptionValue.ofValue? v with
  | some value => .ok ⟨name, value⟩
  | none => .error (.unsupportedOption v.typeName name)

/-- The query pairs of an option. -/
def pairs [Limits] (o : QueryOption) : Except TooLong (List (Text × Text)) :=
  match o.value with
  | .str t => .ok [(o.name, t)]
  | .bool b => .ok [(o.name, if b then text "true" else text "false")]
  | .int n => do return [(o.name, ← Limits.textOf n)]
  | .texts items => .ok (items.map fun t => (o.name, t))

/-- The query pairs of several options, in their order. -/
def encodeAll [Limits] :
    List (Text × Value) → Except Error (List (Text × Text))
  | [] => .ok []
  | (name, v) :: rest => do
      let first ← ofValue name v
      let pairs ← first.pairs.mapError .tooLong
      return pairs ++ (← encodeAll rest)

/-- The query pairs of a map of options. -/
def encode [Limits] (options : List (Text × Value)) :
    Except Error (List (Text × Text)) :=
  encodeAll (Entries.ofList options)

end QueryOption

end CouchClient
