import CouchClient.Text.Basic

/-! # Hosts in brackets — literal network addresses

    Between brackets a URL may name a host by an address of version six,
    or by one of a later version, marked by a `v`. -/

namespace CouchClient.Url

/-- Whether a text is a decimal octet: up to 255, without leading zeros. -/
def isOctet (t : Text) : Bool :=
  !t.isEmpty
    && t.all CodePoint.isDigit
    && decide (t.length ≤ 3)
    && (t == [.char '0'] || t.head? != some (.char '0'))
    && decide (Text.valueOfDigits t ≤ 255)

/-- Whether a text is an address of version four. -/
def isVersion4 (t : Text) : Bool :=
  let octets := Text.splitOn (.char '.') t
  octets.length == 4 && octets.all isOctet

/-- Whether a text is one of the groups of an address of version six. -/
def isGroup (t : Text) : Bool :=
  !t.isEmpty && decide (t.length ≤ 4)
    && t.all fun c => c.hexValue?.isSome

/-- The parts of an address between colons, at least three, where an address
    of version four at the end is two groups. -/
def groupsOf (t : Text) : Option (List Text) :=
  let parts := Text.splitOn (.char ':') t
  match parts.getLast?, decide (3 ≤ parts.length) with
  | some last, true =>
      if last.contains (.char '.') then
        if isVersion4 last then
          some (parts.dropLast ++ [[.char '0'], [.char '0']])
        else none
      else some parts
  | _, _ => none

/-- The groups at one end of a gap, where an empty part next to the end of
    the address belongs to the gap. -/
def besideGap (outermost : Option Text) (parts : List Text) :
    Option (List Text) :=
  if outermost == some [] then
    if parts.length == 1 then some [] else none
  else some parts

/-- Whether the parts between colons make an address of version six: eight
    groups, or fewer around one gap. -/
def areGroups (parts : List Text) : Bool :=
  if 9 < parts.length then false
  else
    let inner := (parts.drop 1).dropLast
    match inner.count [] with
    -- no gap
    | 0 => parts.length == 8 && parts.all isGroup
    -- one gap, which stands for at least one group
    | 1 =>
        let gap := inner.idxOf [] + 1
        let before := parts.take gap
        let behind := parts.drop (gap + 1)
        match besideGap before.head? before,
          besideGap behind.getLast? behind with
        | some high, some low =>
            decide (high.length + low.length ≤ 7)
              && high.all isGroup && low.all isGroup
        | _, _ => false
    | _ => false

/-- Whether a text is an address of version six, perhaps with a zone after
    a percent sign. -/
def isVersion6 (t : Text) : Bool :=
  let (address, zone) := Text.cut (.char '%') t
  let zoneFits :=
    match zone with
    | none => true
    | some z => !z.isEmpty && !z.contains (.char '%')
  zoneFits &&
    match groupsOf address with
    | some parts => areGroups parts
    | none => false

/-- Whether a text is an address of a later version: a `v`, hexadecimal
    digits, a point and at least one more sign. -/
def isLaterVersion (t : Text) : Bool :=
  match t with
  | .char 'v' :: rest =>
      let (version, address) := Text.cut (.char '.') rest
      !version.isEmpty && version.all (fun c => c.hexValue?.isSome)
        && match address with
           | some a => !a.isEmpty && !a.contains (.char '\n')
           | none => false
  | _ => false

end CouchClient.Url
