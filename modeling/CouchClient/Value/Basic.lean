import CouchClient.Json.Basic
import CouchClient.Value.Moment

/-! # Values — what callers may hand over as documents and options

    Callers hand over values of any type, and the library has to say which
    of them it can send.  Besides the kinds that JSON knows there are
    tuples, mappings with keys of many types, moments, objects that
    give another value as their form, and things that cannot be sent.

    A container may hold itself.  Such a place is written `enclosing`: it
    stands for a container around it. -/

namespace CouchClient

/-- A value of any type. -/
inductive Value where
  | null
  | bool (b : Bool)
  | int (n : Int)
  | float (x : Binary64)
  | str (t : Text)
  | list (items : List Value)
  | tuple (items : List Value)
  | mapping (entries : List (Value × Value))
  | set (items : List Value)
  | bytes (content : Bytes)
  | moment (m : Moment)
  /-- An object that gives another value as its form. -/
  | formed (typeName : Text) (form : Value)
  /-- An object of which nothing is known but its type. -/
  | object (typeName : Text)
  /-- A list, or else a mapping, around this very place. -/
  | enclosing (isList : Bool)

namespace Value

instance : Inhabited Value := ⟨.null⟩

/-- The name of the type of a value. -/
def typeName : Value → Text
  | .null => text "NoneType"
  | .bool _ => text "bool"
  | .int _ => text "int"
  | .float _ => text "float"
  | .str _ => text "str"
  | .list _ => text "list"
  | .tuple _ => text "tuple"
  | .mapping _ => text "dict"
  | .set _ => text "set"
  | .bytes _ => text "bytes"
  | .moment m => m.typeName
  | .formed name _ => name
  | .object name => name
  | .enclosing isList => if isList then text "list" else text "dict"

/-- The name of the type with the place where it is defined: the types of
    moments have one of their own. -/
def qualifiedTypeName : Value → Text
  | .moment m => text "datetime." ++ m.typeName
  | v => v.typeName

/-! ## Equal keys -/

/-- The number that a value is, as a numerator over a denominator: a truth
    value counts as zero or one. -/
def ratio? : Value → Option (Int × Nat)
  | .bool b => some (if b then 1 else 0, 1)
  | .int n => some (n, 1)
  | .float x => x.toRatio?
  | _ => none

/-- Whether two values are the same number. -/
def sameNumber (v w : Value) : Bool :=
  match v.ratio?, w.ratio? with
  | some (n, d), some (n', d') => decide (n * d' = n' * d)
  | _, _ =>
      match v, w with
      | .float (.infinite a), .float (.infinite b) => a == b
      | _, _ => false

mutual

/-- Whether two values are one key of a mapping: numbers are compared
    by what they are worth, across types. -/
def sameKey : Value → Value → Bool
  | .null, .null => true
  | .str t, .str u => t == u
  | .bytes b, .bytes c => b == c
  | .moment m, .moment n => m == n
  | .tuple vs, .tuple ws => sameKeys vs ws
  | v, w => v.sameNumber w

/-- Whether two lists of values are one key, place by place. -/
def sameKeys : List Value → List Value → Bool
  | [], [] => true
  | v :: vs, w :: ws => v.sameKey w && sameKeys vs ws
  | _, _ => false

end

/-- The entries with a new value for a key, which keeps its place. -/
def insertEntry (k v : Value) : List (Value × Value) → List (Value × Value)
  | [] => [(k, v)]
  | (k', v') :: rest =>
      if k'.sameKey k then (k', v) :: rest else (k', v') :: insertEntry k v rest

/-- The set of some elements: of equal ones only the first is kept. -/
def setOf (items : List Value) : Value :=
  .set (items.foldl (fun kept v =>
    if kept.any fun k => k.sameKey v then kept else kept ++ [v]) [])

/-- The mapping that pairs make, one after the other. -/
def mappingOf (pairs : List (Value × Value)) : Value :=
  .mapping (pairs.foldl (fun m p => insertEntry p.1 p.2 m) [])

end Value

mutual

/-- A JSON value among the values of any type. -/
def Json.toValue : Json → Value
  | .null => .null
  | .bool b => .bool b
  | .int n => .int n
  | .float x => .float x
  | .str t => .str t
  | .arr items => .list (Json.toValues items)
  | .obj entries => .mapping (Json.toEntries entries)

/-- The elements of an array among the values of any type. -/
def Json.toValues : List Json → List Value
  | [] => []
  | v :: rest => v.toValue :: Json.toValues rest

/-- The entries of an object among the entries of mappings. -/
def Json.toEntries : List (Text × Json) → List (Value × Value)
  | [] => []
  | (name, v) :: rest => (.str name, v.toValue) :: Json.toEntries rest

end

end CouchClient
