import CouchClient.Text.Basic

/-! # Moments — calendar days and times of day

    Each kind of moment has a text in the common international format, in
    which fields have a fixed width and the fraction of a second is left
    out when it is zero. -/

namespace CouchClient

/-- A day of the calendar. -/
structure Day where
  year : Nat
  month : Nat
  day : Nat
deriving DecidableEq

/-- A time of day, down to the microsecond. -/
structure Clock where
  hour : Nat
  minute : Nat
  second : Nat
  microsecond : Nat
deriving DecidableEq

/-- A day, a time of day, or both. -/
inductive Moment where
  | date (day : Day)
  | dateTime (day : Day) (clock : Clock)
  | time (clock : Clock)
deriving DecidableEq

/-- The decimal digits of a number, filled up with zeros to a width. -/
def Text.ofNatPadded (width n : Nat) : Text :=
  let digits := Text.ofNat n
  List.replicate (width - digits.length) (.char '0') ++ digits

/-- The fields `YYYY-MM-DD`. -/
def Day.iso (d : Day) : Text :=
  Text.ofNatPadded 4 d.year ++ .char '-' :: Text.ofNatPadded 2 d.month
    ++ .char '-' :: Text.ofNatPadded 2 d.day

/-- The fields `hh:mm:ss`, and six digits of a fraction unless it is zero. -/
def Clock.iso (c : Clock) : Text :=
  Text.ofNatPadded 2 c.hour ++ .char ':' :: Text.ofNatPadded 2 c.minute
    ++ .char ':' :: Text.ofNatPadded 2 c.second
    ++ if c.microsecond = 0 then []
       else .char '.' :: Text.ofNatPadded 6 c.microsecond

namespace Moment

/-- The moment in the international format. -/
def iso : Moment → Text
  | .date d => d.iso
  | .dateTime d c => d.iso ++ .char 'T' :: c.iso
  | .time c => c.iso

/-- The name of the kind of moment. -/
def typeName : Moment → Text
  | .date _ => text "date"
  | .dateTime _ _ => text "datetime"
  | .time _ => text "time"

/-- Numbers with commas between them, in brackets. -/
def call (name : Text) (arguments : List Nat) : Text :=
  name ++ .char '(' :: Text.join (text ", ") (arguments.map Text.ofNat)
    ++ [.char ')']

/-- The numbers of a clock: seconds and microseconds only if they count. -/
def clockArguments (c : Clock) : List Nat :=
  if c.microsecond ≠ 0 then [c.hour, c.minute, c.second, c.microsecond]
  else if c.second ≠ 0 then [c.hour, c.minute, c.second]
  else [c.hour, c.minute]

/-- The moment as messages show it. -/
def display : Moment → Text
  | .date d => call (text "datetime.date") [d.year, d.month, d.day]
  | .dateTime d c =>
      call (text "datetime.datetime")
        ([d.year, d.month, d.day] ++ clockArguments c)
  | .time c => call (text "datetime.time") (clockArguments c)

end Moment

end CouchClient
