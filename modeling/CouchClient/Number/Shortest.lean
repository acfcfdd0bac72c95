import CouchClient.Number.Binary64
import CouchClient.Text.Basic

/-! # Shortest decimals — how double-precision numbers are written

    A number is written with the fewest digits that read back as the same
    number, and of those with the nearest ones.  The decimals with a given
    count of digits form a grid; if a point of the grid reads back, so does
    one of the two neighbours of the number on it, and the first grid with
    such a neighbour wins.

    The digits stand in positional form where the first one has a place
    from 10^-4 up to 10^15, with `.0` after a whole number; otherwise one
    digit stands before the point, and a signed exponent of at least two
    digits follows. -/

namespace CouchClient.Binary64

/-- A positive number among the decimals: the number itself, and the ends
    of the interval that reads back as it, all over one denominator. -/
structure Bracket where
  value : Nat
  low : Nat
  high : Nat
  den : Nat
  closed : Bool

/-- The bracket of `mantissa * 2 ^ exponent`.  Below a power of two the
    next number is only half as far away as above it. -/
def bracket (mantissa : Nat) (exponent : Int) : Bracket :=
  let up := twoTo exponent
  let below := if mantissa = twoTo 52 ∧ exponent > -1074 then 1 else 2
  { value := 4 * mantissa * up
    low := (4 * mantissa - below) * up
    high := (4 * mantissa + 2) * up
    den := 4 * twoTo (-exponent)
    closed := mantissa % 2 == 0 }

namespace Bracket

/-- The bracket multiplied by a power of ten. -/
def scale (b : Bracket) (k : Int) : Bracket :=
  let up := tenTo k
  { b with
    value := b.value * up, low := b.low * up, high := b.high * up
    den := b.den * tenTo (-k) }

/-- Whether a whole number reads back. -/
def admits (b : Bracket) (n : Nat) : Bool :=
  if b.closed then decide (b.low ≤ n * b.den ∧ n * b.den ≤ b.high)
  else decide (b.low < n * b.den ∧ n * b.den < b.high)

/-- The whole number nearest to the value, of those next to it that read
    back. -/
def nearest? (b : Bracket) : Option Nat :=
  let below := b.value / b.den
  match b.admits below, b.admits (below + 1) with
  | true, true =>
      if 2 * (b.value % b.den) < b.den
          ∨ (2 * (b.value % b.den) = b.den ∧ below % 2 = 0)
      then some below else some (below + 1)
  | true, false => some below
  | false, true => some (below + 1)
  | false, false => none

/-- The `p` with `10 ^ (p - 1) ≤ value < 10 ^ p`. -/
def magnitude (b : Bracket) : Int :=
  let p : Int := decimalLength b.value - decimalLength b.den
  if b.den * tenTo p ≤ b.value * tenTo (-p) then p + 1 else p

/-- The fewest digits that read back, without zeros at their end, and the
    place of the point counted from the first one. -/
def shortest (b : Bracket) : List Char × Int :=
  let p := b.magnitude
  let found := (List.range 17).findSome? fun (i : Nat) =>
    (b.scale ((i : Int) + 1 - p)).nearest?.map fun n => (n, p - (i + 1))
  let (n, e) := found.getD (0, 0)
  let digits := Nat.toDigits 10 n
  ((digits.reverse.dropWhile (· == '0')).reverse, e + digits.length)

end Bracket

/-- So many zeros. -/
def zeros (n : Nat) : List Char := List.replicate n '0'

/-- Digits with the point at the given place, in positional form. -/
def positional (digits : List Char) (point : Int) : List Char :=
  if point ≤ 0 then
    '0' :: '.' :: zeros (-point).toNat ++ digits
  else if digits.length ≤ point.toNat then
    digits ++ zeros (point.toNat - digits.length) ++ ['.', '0']
  else
    digits.take point.toNat ++ '.' :: digits.drop point.toNat

/-- Digits with the point at the given place, in exponent form. -/
def scientific (digits : List Char) (point : Int) : List Char :=
  let exponent := point - 1
  let size := Nat.toDigits 10 exponent.natAbs
  let fraction := digits.drop 1
  digits.take 1
    ++ (if fraction.isEmpty then [] else '.' :: fraction)
    ++ 'e' :: (if exponent < 0 then '-' else '+')
    :: (zeros (2 - size.length) ++ size)

/-- The text of a number. -/
def toChars : Binary64 → List Char
  | .nan => ['n', 'a', 'n']
  | .infinite negative => (if negative then ['-'] else []) ++ ['i', 'n', 'f']
  | .finite negative mantissa exponent =>
      (if negative then ['-'] else []) ++
        if mantissa = 0 then ['0', '.', '0']
        else
          let (digits, point) := (bracket mantissa exponent).shortest
          if -4 < point ∧ point ≤ 16 then positional digits point
          else scientific digits point

/-- The text of a number. -/
def toText (x : Binary64) : Text := Text.ofChars x.toChars

end CouchClient.Binary64
