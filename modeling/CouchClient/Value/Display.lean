import CouchClient.Text.Quoted
import CouchClient.Value.Basic

/-! # Values in messages

    A message that refuses a value shows it: texts between quotes, lists
    in brackets, tuples in parentheses, with a comma after a single
    element, and mappings and sets in braces. -/

namespace CouchClient.Value

/-- The elements of a tuple between parentheses: a single one is followed
    by a comma. -/
def inParentheses (shown : List Text) : Text :=
  match shown with
  | [one] => .char '(' :: one ++ text ",)"
  | many => .char '(' :: Text.join (text ", ") many ++ [.char ')']

mutual

/-- The value as messages show it. -/
def display : Value → Text
  | .null => text "None"
  | .bool b => if b then text "True" else text "False"
  | .int n => Text.ofInt n
  | .float x => x.toText
  | .str t => Text.quoted t
  | .list items =>
      .char '[' :: Text.join (text ", ") (displayAll items) ++ [.char ']']
  | .tuple items => inParentheses (displayAll items)
  | .mapping entries =>
      .char '\x7b' :: Text.join (text ", ") (displayEntries entries)
        ++ [.char '\x7d']
  | .set items =>
      if items.isEmpty then text "set()"
      else
        .char '\x7b' :: Text.join (text ", ") (displayAll items)
          ++ [.char '\x7d']
  | .bytes content => Text.quotedBytes content
  | .moment m => m.display
  | .formed name _ => .char '<' :: name ++ text " object>"
  | .object name => .char '<' :: name ++ text " object>"
  | .enclosing isList => if isList then text "[...]" else text "\x7b...\x7d"

/-- Several values as messages show them. -/
def displayAll : List Value → List Text
  | [] => []
  | v :: rest => v.display :: displayAll rest

/-- The entries of a mapping as messages show them. -/
def displayEntries : List (Value × Value) → List Text
  | [] => []
  | (k, v) :: rest =>
      (k.display ++ text ": " ++ v.display) :: displayEntries rest

end

end CouchClient.Value

/-- A JSON value as messages show it. -/
def CouchClient.Json.display (v : CouchClient.Json) : CouchClient.Text :=
  v.toValue.display
