import CouchClient.Rows.Row

/-! # Phases — the grammar of a listing, token by token

    A listing is read from token to token.  A token is one of the signs
    that hold objects and arrays together, or a whole value.  The phase
    says which tokens may come next, and knows what the row that is being
    read has so far.

    Nothing here depends on how the text arrives: `Phase.move` looks at
    the next code point that is not blank, and `Phase.afterValue` at the
    value that was read. -/

namespace CouchClient

/-- Where in a listing the reading stands. -/
inductive Phase where
  /-- Before the listing. -/
  | start
  /-- After the opening brace. -/
  | firstField
  /-- After a comma between fields. -/
  | field
  /-- After the name of a field. -/
  | fieldColon (name : Text)
  /-- Before the value of a field. -/
  | fieldValue (name : Text)
  /-- After the value of a field. -/
  | fieldEnd
  /-- Before the rows. -/
  | rows
  /-- After the opening bracket of the rows. -/
  | firstRow
  /-- After a comma between rows. -/
  | row
  /-- After the opening brace of a row. -/
  | firstMember
  /-- After a comma between members. -/
  | member (members : List (Text × Member))
  /-- After the name of a member. -/
  | memberColon (members : List (Text × Member)) (name : Text)
  /-- Before the value of a member. -/
  | memberValue (members : List (Text × Member)) (name : Text)
  /-- After the value of a member. -/
  | memberEnd (members : List (Text × Member))
  /-- After a row. -/
  | rowEnd
  /-- After the listing. -/
  | finish

/-- What a code point leads to. -/
inductive Move where
  /-- It is a token of its own. -/
  | take (next : Phase)
  /-- It ends a row with the given members. -/
  | giveRow (members : List (Text × Member))
  /-- It opens a value. -/
  | value
  /-- Only others are accepted; none if any value would be. -/
  | refuse (expected : List CodePoint)

namespace Phase

/-- The move of a name, which is a value in quotes. -/
def nameMove (c : Option CodePoint) : Move :=
  if c = some (.char '"') then .value else .refuse [.char '"']

/-- The move at the next code point that is not blank, or at the end.
    `rowsField` is the name of the field that holds the rows. -/
def move (rowsField : Text) (phase : Phase) (c : Option CodePoint) : Move :=
  match phase with
  | .start =>
      if c = some (.char '\x7b') then .take .firstField
      else .refuse [.char '\x7b']
  | .firstField =>
      if c = some (.char '\x7d') then .take .finish else nameMove c
  | .field => nameMove c
  | .fieldColon name =>
      if c = some (.char ':') then
        .take (if name = rowsField then .rows else .fieldValue name)
      else .refuse [.char ':']
  | .fieldValue _ => if c.isSome then .value else .refuse []
  | .fieldEnd =>
      if c = some (.char ',') then .take .field
      else if c = some (.char '\x7d') then .take .finish
      else .refuse [.char ',', .char '\x7d']
  | .rows =>
      if c = some (.char 'n') then .value
      else if c = some (.char '[') then .take .firstRow
      else .refuse [.char '[']
  | .firstRow =>
      if c = some (.char ']') then .take .fieldEnd
      else if c = some (.char '\x7b') then .take .firstMember
      else .refuse [.char '\x7b']
  | .row =>
      if c = some (.char '\x7b') then .take .firstMember
      else .refuse [.char '\x7b']
  | .firstMember =>
      if c = some (.char '\x7d') then .giveRow [] else nameMove c
  | .member _ => nameMove c
  | .memberColon members name =>
      if c = some (.char ':') then .take (.memberValue members name)
      else .refuse [.char ':']
  | .memberValue _ _ => if c.isSome then .value else .refuse []
  | .memberEnd members =>
      if c = some (.char ',') then .take (.member members)
      else if c = some (.char '\x7d') then .giveRow members
      else .refuse [.char ',', .char '\x7d']
  | .rowEnd =>
      if c = some (.char ',') then .take .row
      else if c = some (.char ']') then .take .fieldEnd
      else .refuse [.char ',', .char ']']
  | .finish => .refuse []

/-- Nothing is taken at the end of a text. -/
theorem isSome_of_take {rowsField : Text} {phase next : Phase}
    {c : Option CodePoint} (h : phase.move rowsField c = .take next) :
    c.isSome := by
  cases c with
  | some c => rfl
  | none => cases phase <;> exact nomatch h

/-- No row is given at the end of a text. -/
theorem isSome_of_giveRow {rowsField : Text} {phase : Phase}
    {members : List (Text × Member)} {c : Option CodePoint}
    (h : phase.move rowsField c = .giveRow members) : c.isSome := by
  cases c with
  | some c => rfl
  | none => cases phase <;> exact nomatch h

/-- The name that a value in quotes gives. -/
def nameOf (v : Json) : Text :=
  match v with
  | .str t => t
  | _ => []

/-- The phase after a value, and what the listing says by then. -/
def afterValue (rowsField : Text) (phase : Phase) (info : ListingInfo)
    (v : Json) (raw : Text) : Except BadReply (Phase × ListingInfo) :=
  match phase with
  | .firstField => .ok (.fieldColon (nameOf v), info)
  | .field => .ok (.fieldColon (nameOf v), info)
  | .fieldValue name => do return (.fieldEnd, ← info.note name v)
  | .rows =>
      match v with
      | .null => .ok (.fieldEnd, info)
      | _ => .error (.notRows rowsField raw)
  | .firstMember => .ok (.memberColon [] (nameOf v), info)
  | .member members => .ok (.memberColon members (nameOf v), info)
  | .memberValue members name =>
      .ok (.memberEnd (Entries.insert name ⟨v, raw⟩ members), info)
  | phase => .ok (phase, info)

end Phase

end CouchClient
