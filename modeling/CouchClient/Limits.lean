import CouchClient.Text.Basic

/-! # Limits — what is too large for the interpreter

    The library runs on an interpreter that reads and writes whole numbers
    only up to some number of digits, and that follows a text or a value
    into its depth only so far.  How many digits is a setting of the
    interpreter.  How deep depends on its version, and on how many calls are
    open where the library is called.  So neither is fixed here: every part
    of the library that meets a limit asks for it, and `Limits.usual` is the
    interpreter as it is set up. -/

namespace CouchClient

/-- The limits of an interpreter, where `none` is no limit: the most digits
    of a whole number, and the most containers that may be open at once. -/
class Limits where
  digits : Option Nat
  nesting : Option Nat

/-- A whole number with more digits than the limit. -/
structure TooLong where
  limit : Nat
  digits : Nat
deriving DecidableEq

/-- Says that a number is too long to be read. -/
def TooLong.readingMessage (e : TooLong) : Text :=
  text "Exceeds the limit (" ++ Text.ofNat e.limit
    ++ text " digits) for integer string conversion: value has "
    ++ Text.ofNat e.digits
    ++ text " digits; use sys.set_int_max_str_digits() to increase the limit"

/-- Says that a number is too long to be written. -/
def TooLong.writingMessage (e : TooLong) : Text :=
  text "Exceeds the limit (" ++ Text.ofNat e.limit
    ++ text " digits) for integer string conversion; use "
    ++ text "sys.set_int_max_str_digits() to increase the limit"

/-- What was to be read or written where no more containers may be open. -/
inductive TooDeep where
  | readingArray
  | readingObject
  | writing
deriving DecidableEq

/-- Says what is too deep. -/
def TooDeep.message (e : TooDeep) : Text :=
  text "maximum recursion depth exceeded while " ++
    match e with
    | .readingArray => text "decoding a JSON array from a unicode string"
    | .readingObject => text "decoding a JSON object from a unicode string"
    | .writing => text "encoding a JSON object"

namespace Limits

/-- An interpreter without limits. -/
@[reducible]
def unlimited : Limits := ⟨none, none⟩

/-- The interpreter as it is set up, where no calls are open. -/
instance usual : Limits := ⟨some 4300, some 9997⟩

variable [L : Limits]

/-- Whether no container may be opened inside so many. -/
def isFull (depth : Nat) : Bool :=
  match L.nesting with
  | none => false
  | some most => decide (most ≤ depth)

/-- Where no container may be opened, none may be opened further inside. -/
theorem isFull_of_le {depth depth' : Nat} (h : isFull depth)
    (hle : depth ≤ depth') : isFull depth' := by
  unfold isFull at h ⊢
  split
  · next hnone => rw [hnone] at h; cases h
  · next most hsome =>
      rw [hsome] at h
      exact decide_eq_true (Nat.le_trans (of_decide_eq_true h) hle)

/-- What is too long about a whole number, if it has too many digits. -/
def excess? (n : Int) : Option TooLong :=
  match L.digits with
  | none => none
  | some most =>
      let digits := (Text.ofNat n.natAbs).length
      if most < digits then some ⟨most, digits⟩ else none

/-- The limits make some number too long in the given way. -/
def Exceeds (e : TooLong) : Prop := ∃ n, excess? n = some e

/-- The limits make some containers too deep to be opened. -/
def Fills : Prop := ∃ depth, isFull depth

/-- The decimal text of a whole number that is not too long. -/
def textOf (n : Int) : Except TooLong Text :=
  match excess? n with
  | some e => .error e
  | none => .ok (Text.ofInt n)

/-- A number is refused just when it is too long to be written. -/
theorem textOf_eq_error_iff {n : Int} {e : TooLong} :
    textOf n = .error e ↔ excess? n = some e := by
  rw [textOf]
  split
  · next e' hlong => rw [hlong, Except.error.injEq, Option.some.injEq]
  · next hfits => simp [hfits]

/-- A number that is not too long is written in its digits. -/
theorem textOf_eq_ok_iff {n : Int} {t : Text} :
    textOf n = .ok t ↔ excess? n = none ∧ t = Text.ofInt n := by
  rw [textOf]
  split
  · next e hlong => simp [hlong]
  · next hfits =>
      rw [Except.ok.injEq, hfits]
      exact ⟨fun h => ⟨rfl, h.symm⟩, fun h => h.2.symm⟩

omit L in
/-- Without limits a container may always be opened. -/
theorem not_isFull_unlimited (depth : Nat) :
    ¬ isFull (L := .unlimited) depth :=
  Bool.false_ne_true

omit L in
/-- Without limits no number is too long. -/
theorem excess?_unlimited (n : Int) : excess? (L := .unlimited) n = none := rfl

end Limits

end CouchClient
