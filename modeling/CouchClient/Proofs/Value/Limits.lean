import CouchClient.Value.Encoding

/-! # Values within the limits — what the interpreter can write

    A value is within the limits if no whole number in it has too many digits
    and nothing in it is too deep.  Such a value is written as if there were
    no limits.  Of one that is too deep nothing is written.

    * `Value.IsWithin` — values within the limits, inside so many others;
    * `Value.isWithin_unlimited` — without limits every value is;
    * `Value.encodeAt_of_isWithin` — they are written as without limits;
    * `Value.isWithin_of_encodeAt` — nothing else is written;
    * `Value.nested`, `Value.encodeAt_nested` — lists inside one another. -/

namespace CouchClient

namespace Value

/-! ## Within the limits -/

section
variable [L : Limits]

/-- A key that is no number with too many digits. -/
def FitsAsKey : Value → Prop
  | .int n => Limits.excess? n = none
  | _ => True

mutual

/-- A value that stands inside so many others has no number with too many
    digits in it, and what is in it may be opened. -/
def IsWithin (depth : Nat) : Value → Prop
  | .int n => Limits.excess? n = none
  | .list items => ¬ Limits.isFull depth ∧ AreWithin (depth + 1) items
  | .tuple items => ¬ Limits.isFull depth ∧ AreWithin (depth + 1) items
  | .mapping entries =>
      ¬ Limits.isFull depth ∧ HaveWithin (depth + 1) entries
  | .moment _ => ¬ Limits.isFull depth
  | .formed _ form => ¬ Limits.isFull depth ∧ IsWithin (depth + 1) form
  | .enclosing _ => ¬ Limits.isFull depth
  | _ => True

/-- Every value is within the limits. -/
def AreWithin (depth : Nat) : List Value → Prop
  | [] => True
  | v :: rest => v.IsWithin depth ∧ AreWithin depth rest

/-- Every entry has a key and a value within the limits. -/
def HaveWithin (depth : Nat) : List (Value × Value) → Prop
  | [] => True
  | (k, v) :: rest =>
      k.FitsAsKey ∧ v.IsWithin depth ∧ HaveWithin depth rest

end

end

mutual

/-- Without limits every value is within them. -/
theorem isWithin_unlimited (v : Value) (depth : Nat) :
    v.IsWithin (L := .unlimited) depth := by
  have hroom := Limits.not_isFull_unlimited depth
  cases v with
  | int n => exact Limits.excess?_unlimited n
  | list items => exact ⟨hroom, areWithin_unlimited items (depth + 1)⟩
  | tuple items => exact ⟨hroom, areWithin_unlimited items (depth + 1)⟩
  | mapping entries => exact ⟨hroom, haveWithin_unlimited entries (depth + 1)⟩
  | formed name form => exact ⟨hroom, isWithin_unlimited form (depth + 1)⟩
  | moment m => exact hroom
  | enclosing isList => exact hroom
  | _ => trivial

/-- Without limits all items are within them. -/
theorem areWithin_unlimited (items : List Value) (depth : Nat) :
    AreWithin (L := .unlimited) depth items := by
  cases items with
  | nil => trivial
  | cons v rest =>
      exact ⟨isWithin_unlimited v depth, areWithin_unlimited rest depth⟩

/-- Without limits all entries are within them. -/
theorem haveWithin_unlimited (entries : List (Value × Value)) (depth : Nat) :
    HaveWithin (L := .unlimited) depth entries := by
  cases entries with
  | nil => trivial
  | cons e rest =>
      obtain ⟨k, v⟩ := e
      refine ⟨?_, isWithin_unlimited v depth, haveWithin_unlimited rest depth⟩
      cases k with
      | int n => exact Limits.excess?_unlimited n
      | _ => trivial

end

/-! ## Writing -/

/-- Where there is room, a container is encoded as without limits. -/
theorem inside_of_room [L : Limits] {α : Type} {depth : Nat}
    (hroom : ¬ Limits.isFull depth) (encoded : Except EncodeError α) :
    inside depth encoded = encoded :=
  if_neg hroom

theorem inside_unlimited {α : Type} (depth : Nat)
    (encoded : Except EncodeError α) :
    inside (L := .unlimited) depth encoded = encoded :=
  inside_of_room (L := .unlimited) (Limits.not_isFull_unlimited depth) encoded

/-- An integer that is not too long is written in its digits. -/
theorem encodeInt_of_fits [L : Limits] {n : Int}
    (h : Limits.excess? n = none) : encodeInt n = .ok (Text.ofInt n) := by
  rw [encodeInt, Limits.textOf_eq_ok_iff.mpr ⟨h, rfl⟩]
  rfl

theorem encodeInt_unlimited (n : Int) :
    encodeInt (L := .unlimited) n = .ok (Text.ofInt n) :=
  encodeInt_of_fits (L := .unlimited) (Limits.excess?_unlimited n)

/-- A key that is not too long has the name that it has without limits. -/
theorem keyName_of_fits [L : Limits] {k : Value} (h : k.FitsAsKey) :
    k.keyName = k.keyName (L := .unlimited) := by
  cases k with
  | int n => exact (encodeInt_of_fits h).trans (encodeInt_unlimited n).symm
  | _ => rfl

-- Values, lists of them and entries hold one another, so the three lemmas are
-- one induction.  Without limits it does not matter how deep a value stands.
mutual

/-- A value within the limits is written as without limits, however deep it
    stands there. -/
theorem encodeAt_of_isWithin [L : Limits] (v : Value) {depth : Nat}
    (h : v.IsWithin depth) (depth' : Nat) :
    v.encodeAt depth = v.encodeAt (L := .unlimited) depth' := by
  cases v with
  | int n => exact (encodeInt_of_fits h).trans (encodeInt_unlimited n).symm
  | list items =>
      unfold encodeAt
      rw [inside_of_room h.1, inside_unlimited,
        encodeAll_of_areWithin items h.2 (depth' + 1)]
  | tuple items =>
      unfold encodeAt
      rw [inside_of_room h.1, inside_unlimited,
        encodeAll_of_areWithin items h.2 (depth' + 1)]
  | mapping entries =>
      unfold encodeAt
      rw [inside_of_room h.1, inside_unlimited,
        encodeEntries_of_haveWithin entries h.2 (depth' + 1)]
  | moment m =>
      unfold encodeAt
      rw [inside_of_room h, inside_unlimited]
  | formed name form =>
      unfold encodeAt
      rw [inside_of_room h.1, inside_unlimited,
        encodeAt_of_isWithin form h.2 (depth' + 1)]
  | enclosing isList =>
      unfold encodeAt
      rw [inside_of_room h, inside_unlimited]
  | _ => rfl

/-- Items within the limits are encoded as without them. -/
theorem encodeAll_of_areWithin [L : Limits] (items : List Value) {depth : Nat}
    (h : AreWithin depth items) (depth' : Nat) :
    encodeAll depth items = encodeAll (L := .unlimited) depth' items := by
  cases items with
  | nil => rfl
  | cons v rest =>
      unfold encodeAll
      rw [encodeAt_of_isWithin v h.1 depth',
        encodeAll_of_areWithin rest h.2 depth']

/-- Entries within the limits are encoded as without them. -/
theorem encodeEntries_of_haveWithin [L : Limits]
    (entries : List (Value × Value)) {depth : Nat}
    (h : HaveWithin depth entries) (depth' : Nat) :
    encodeEntries depth entries
      = encodeEntries (L := .unlimited) depth' entries := by
  cases entries with
  | nil => rfl
  | cons e rest =>
      obtain ⟨k, v⟩ := e
      unfold encodeEntries
      rw [keyName_of_fits h.1,
        encodeAt_of_isWithin v h.2.1 depth',
        encodeEntries_of_haveWithin rest h.2.2 depth']

end

/-- A value within the limits is encoded as without them. -/
theorem encode_of_isWithin [L : Limits] {v : Value} (h : v.IsWithin 0) :
    v.encode = v.encode (L := .unlimited) :=
  encodeAt_of_isWithin v h 0

/-- What is written inside was not too deep. -/
theorem inside_eq_ok_iff [L : Limits] {α : Type} {depth : Nat}
    {encoded : Except EncodeError α} {a : α} :
    inside depth encoded = .ok a ↔ ¬ Limits.isFull depth ∧ encoded = .ok a := by
  rw [inside]
  split
  · next hfull =>
      constructor
      · intro h
        cases h
      · rintro ⟨hroom, -⟩
        exact (hroom hfull).elim
  · next hroom => exact (and_iff_right hroom).symm

/-- An integer that is written is not too long. -/
theorem fits_of_encodeInt [L : Limits] {n : Int} {t : Text}
    (h : encodeInt n = .ok t) : Limits.excess? n = none := by
  rw [encodeInt] at h
  cases htext : Limits.textOf n with
  | error e =>
      rw [htext] at h
      cases h
  | ok t' => exact (Limits.textOf_eq_ok_iff.mp htext).1

/-- A key that has a name is not too long. -/
theorem fitsAsKey_of_keyName [L : Limits] {k : Value} {t : Text}
    (h : k.keyName = .ok t) : k.FitsAsKey := by
  cases k with
  | int n => exact fits_of_encodeInt h
  | _ => trivial

-- Nothing is written of a container unless all that is in it is written.
mutual

/-- A value that is written is within the limits. -/
theorem isWithin_of_encodeAt [L : Limits] (v : Value) {depth : Nat} {t : Text}
    (h : v.encodeAt depth = .ok t) : v.IsWithin depth := by
  cases v with
  | int n => exact fits_of_encodeInt h
  | list items =>
      rw [encodeAt] at h
      obtain ⟨hroom, h⟩ := inside_eq_ok_iff.mp h
      cases hitems : encodeAll (depth + 1) items with
      | error e =>
          rw [hitems] at h
          cases h
      | ok parts => exact ⟨hroom, areWithin_of_encodeAll items hitems⟩
  | tuple items =>
      rw [encodeAt] at h
      obtain ⟨hroom, h⟩ := inside_eq_ok_iff.mp h
      cases hitems : encodeAll (depth + 1) items with
      | error e =>
          rw [hitems] at h
          cases h
      | ok parts => exact ⟨hroom, areWithin_of_encodeAll items hitems⟩
  | mapping entries =>
      rw [encodeAt] at h
      obtain ⟨hroom, h⟩ := inside_eq_ok_iff.mp h
      cases hentries : encodeEntries (depth + 1) entries with
      | error e =>
          rw [hentries] at h
          cases h
      | ok parts => exact ⟨hroom, haveWithin_of_encodeEntries entries hentries⟩
  | moment m =>
      rw [encodeAt] at h
      exact (inside_eq_ok_iff.mp h).1
  | formed name form =>
      rw [encodeAt] at h
      obtain ⟨hroom, h⟩ := inside_eq_ok_iff.mp h
      exact ⟨hroom, isWithin_of_encodeAt form h⟩
  | enclosing isList =>
      rw [encodeAt] at h
      exact (inside_eq_ok_iff.mp h).1
  | _ => trivial

/-- Items that are encoded are within the limits. -/
theorem areWithin_of_encodeAll [L : Limits] (items : List Value) {depth : Nat}
    {parts : List Text} (h : encodeAll depth items = .ok parts) :
    AreWithin depth items := by
  cases items with
  | nil => trivial
  | cons v rest =>
      rw [encodeAll] at h
      cases hfirst : v.encodeAt depth with
      | error e =>
          rw [hfirst] at h
          cases h
      | ok t =>
          rw [hfirst] at h
          cases hrest : encodeAll depth rest with
          | error e =>
              rw [hrest] at h
              cases h
          | ok more =>
              exact ⟨isWithin_of_encodeAt v hfirst,
                areWithin_of_encodeAll rest hrest⟩

/-- Entries that are encoded are within the limits. -/
theorem haveWithin_of_encodeEntries [L : Limits]
    (entries : List (Value × Value)) {depth : Nat} {parts : List Text}
    (h : encodeEntries depth entries = .ok parts) :
    HaveWithin depth entries := by
  cases entries with
  | nil => trivial
  | cons e rest =>
      obtain ⟨k, v⟩ := e
      rw [encodeEntries] at h
      cases hname : k.keyName with
      | error e =>
          rw [hname] at h
          cases h
      | ok name =>
          rw [hname] at h
          cases hfirst : v.encodeAt depth with
          | error e =>
              rw [hfirst] at h
              cases h
          | ok t =>
              rw [hfirst] at h
              cases hrest : encodeEntries depth rest with
              | error e =>
                  rw [hrest] at h
                  cases h
              | ok more =>
                  exact ⟨fitsAsKey_of_keyName hname,
                    isWithin_of_encodeAt v hfirst,
                    haveWithin_of_encodeEntries rest hrest⟩

end

/-! ## Too deep -/

/-- A value in so many lists, one inside the other. -/
def nested : Nat → Value → Value
  | 0, v => v
  | n + 1, v => .list [nested n v]

/-- Nothing is written of a value in more lists than may be opened. -/
theorem encodeAt_nested [L : Limits] {n : Nat} (v : Value) (depth : Nat)
    (h : Limits.isFull (depth + n)) :
    (nested (n + 1) v).encodeAt depth = .error .tooDeep := by
  induction n generalizing depth with
  | zero => exact if_pos h
  | succ n ih =>
      by_cases hfull : Limits.isFull depth
      · exact if_pos hfull
      · have hinner := ih (depth + 1) (by rwa [Nat.add_right_comm])
        rw [nested, encodeAt, inside_of_room hfull, encodeAll, hinner]
        rfl

/-- A value in more lists than there is room for is not encoded. -/
theorem encode_nested [L : Limits] {n : Nat} (v : Value)
    (h : Limits.isFull n) : (nested (n + 1) v).encode = .error .tooDeep :=
  encodeAt_nested v 0 ((Nat.zero_add n).symm ▸ h)

end Value

end CouchClient
