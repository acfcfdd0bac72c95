import CouchClient.Proofs.Value.Limits

/-! # Encodable values — what can be written as JSON, and what is met first

    A value can be encoded if every part of it can.  Encoding meets the parts
    from left to right and into the depth, a key before its value, and it
    fails at the first one that offends.  That is how it goes without limits,
    and so for every value that is within them.

    * `Value.IsEncodable` — the values that have a JSON text;
    * `Value.parts` — what is met in a value, in that order;
    * `Part.Offends`, `FirstOffence` — how a part offends, and which one is
      the first to do so;
    * `Fits`, `Value.fits_encodeAt` — encoding does what its parts call for;
    * `Value.isEncodable_iff_exists_encode`, `Value.exists_offence` — the two
      ways that encoding goes;
    * `Value.exists_encode_iff` — the values that have a text. -/

namespace CouchClient

namespace Value

/-! ## Values -/

/-- A key that has a name in JSON. -/
inductive IsKey : Value → Prop where
  | str (t : Text) : IsKey (.str t)
  | int (n : Int) : IsKey (.int n)
  | bool (b : Bool) : IsKey (.bool b)
  | null : IsKey .null
  | float {x : Binary64} (h : x.isFinite) : IsKey (.float x)

/-- A value that has a JSON text. -/
inductive IsEncodable : Value → Prop where
  | null : IsEncodable .null
  | bool (b : Bool) : IsEncodable (.bool b)
  | int (n : Int) : IsEncodable (.int n)
  | float {x : Binary64} (h : x.isFinite) : IsEncodable (.float x)
  | str (t : Text) : IsEncodable (.str t)
  | list {items : List Value} (h : ∀ v ∈ items, IsEncodable v) : IsEncodable (.list items)
  | tuple {items : List Value} (h : ∀ v ∈ items, IsEncodable v) : IsEncodable (.tuple items)
  | mapping {entries : List (Value × Value)} (hkeys : ∀ p ∈ entries, p.1.IsKey)
      (hvalues : ∀ p ∈ entries, IsEncodable p.2) : IsEncodable (.mapping entries)
  | moment (m : Moment) : IsEncodable (.moment m)
  | formed {name : Text} {form : Value} (h : IsEncodable form) :
      IsEncodable (.formed name form)

/-- Whether a value is of a type that JSON does not have, and has no form
    either. -/
def isForeign : Value → Bool
  | .set _ => true
  | .bytes _ => true
  | .object _ => true
  | _ => false

/-- Whether a value is of a type that keys may have. -/
def isOfKeyType : Value → Bool
  | .str _ => true
  | .int _ => true
  | .bool _ => true
  | .null => true
  | .float _ => true
  | _ => false

end Value

/-! ## Parts -/

/-- Something that is met in a value: a value in it, or the key of an
    entry. -/
inductive Part where
  | item (v : Value)
  | key (k : Value)

namespace Value

mutual

/-- What is met in a value, from left to right and into the depth, a key
    before its value.  A container is met before what is in it. -/
def parts : Value → List Part
  | .list items => .item (.list items) :: partsOfAll items
  | .tuple items => .item (.tuple items) :: partsOfAll items
  | .mapping entries => .item (.mapping entries) :: partsOfEntries entries
  | .formed name form => .item (.formed name form) :: parts form
  | v => [.item v]

/-- What is met in several values. -/
def partsOfAll : List Value → List Part
  | [] => []
  | v :: rest => parts v ++ partsOfAll rest

/-- What is met in entries. -/
def partsOfEntries : List (Value × Value) → List Part
  | [] => []
  | (k, v) :: rest => .key k :: (parts v ++ partsOfEntries rest)

end

/-- The parts of items are those of each of them. -/
theorem mem_partsOfAll {p : Part} {items : List Value} :
    p ∈ partsOfAll items ↔ ∃ v ∈ items, p ∈ v.parts := by
  induction items with
  | nil => simp [partsOfAll]
  | cons v rest ih => simp [partsOfAll, ih]

/-- The parts of entries are their keys and those of their values. -/
theorem mem_partsOfEntries {p : Part} {entries : List (Value × Value)} :
    p ∈ partsOfEntries entries ↔ ∃ e ∈ entries, p = .key e.1 ∨ p ∈ e.2.parts := by
  induction entries with
  | nil => simp [partsOfEntries]
  | cons e rest ih => simp [partsOfEntries, ih, or_assoc]

end Value

namespace Part

/-- A part is a number that is not finite, a container inside itself, or a
    value or a key of another type. -/
inductive Offends : Part → EncodeError → Prop where
  | number {x : Binary64} (h : x.isFinite = false) : Offends (.item (.float x)) .notFinite
  | numberKey {x : Binary64} (h : x.isFinite = false) : Offends (.key (.float x)) .notFinite
  | circle (isList : Bool) : Offends (.item (.enclosing isList)) .circular
  | foreign {v : Value} (h : v.isForeign) : Offends (.item v) (.type v.typeName)
  | foreignKey {k : Value} (h : k.isOfKeyType = false) :
      Offends (.key k) (.keyType k.qualifiedTypeName)

/-- A part does not offend. -/
def IsSound (p : Part) : Prop := ∀ e, ¬ p.Offends e

/-- Whether a part is a value or a key of another type. -/
def isForeign : Part → Bool
  | .item v => v.isForeign
  | .key k => !k.isOfKeyType

variable {p : Part} {e : EncodeError}

/-- A key is sound just when it is of a type that keys may have. -/
theorem isSound_key_iff {k : Value} : (key k).IsSound ↔ k.IsKey := by
  constructor
  · intro h
    cases k with
    | str t => exact .str t
    | int n => exact .int n
    | bool b => exact .bool b
    | null => exact .null
    | float x =>
        by_cases hx : x.isFinite
        · exact .float hx
        · exact (h _ (.numberKey (eq_false_of_ne_true hx))).elim
    | _ => exact (h _ (.foreignKey rfl)).elim
  · intro h e hoffends
    cases h with
    | float hx =>
        cases hoffends with
        | numberKey hnot => cases hx.symm.trans hnot
        | foreignKey hforeign => cases hforeign
    | _ =>
        cases hoffends with
        | foreignKey hforeign => cases hforeign

/-- A float is sound just when it is finite. -/
theorem isSound_float_iff {x : Binary64} : (item (.float x)).IsSound ↔ x.isFinite := by
  constructor
  · intro h
    by_cases hx : x.isFinite
    · exact hx
    · exact (h _ (.number (eq_false_of_ne_true hx))).elim
  · intro hx e hoffends
    cases hoffends with
    | number hnot => cases hx.symm.trans hnot
    | foreign hforeign => cases hforeign

/-- What is met before its own parts does not offend. -/
theorem isSound_item {v : Value} (hfloat : ∀ x, v ≠ .float x)
    (hcircle : ∀ isList, v ≠ .enclosing isList) (hforeign : v.isForeign = false) :
    (item v).IsSound := by
  intro e hoffends
  cases hoffends with
  | number => exact hfloat _ rfl
  | circle isList => exact hcircle isList rfl
  | foreign h => cases h.symm.trans hforeign

end Part

/-! ## The first offence -/

/-- Of some parts the given one is the first that offends, and it does so in
    the given way. -/
inductive FirstOffence (p : Part) (e : EncodeError) : List Part → Prop where
  | here {rest : List Part} (h : p.Offends e) : FirstOffence p e (p :: rest)
  | later {q : Part} {rest : List Part} (hq : q.IsSound) (h : FirstOffence p e rest) :
      FirstOffence p e (q :: rest)

section

variable {p : Part} {e : EncodeError} {ps qs : List Part}

/-- The first offence stays the first with more parts behind. -/
theorem FirstOffence.append (h : FirstOffence p e ps) (qs : List Part) :
    FirstOffence p e (ps ++ qs) := by
  induction h with
  | here h => exact .here h
  | later hq _ ih => exact .later hq ih

/-- The first offence stays the first with sound parts before. -/
theorem FirstOffence.after (h : FirstOffence p e qs) (hps : ∀ q ∈ ps, q.IsSound) :
    FirstOffence p e (ps ++ qs) := by
  induction ps with
  | nil => exact h
  | cons q ps ih =>
      rw [List.forall_mem_cons] at hps
      exact .later hps.1 (ih hps.2)

/-- There is an offence, so the parts are not all sound. -/
theorem FirstOffence.not_forall (h : FirstOffence p e ps) : ¬ ∀ q ∈ ps, q.IsSound := by
  intro hps
  induction h with
  | here h => exact hps p List.mem_cons_self e h
  | later _ _ ih => exact ih (List.forall_mem_cons.mp hps).2

/-- A result is what parts call for: it is none if one of them offends, and
    then the first one says why. -/
def Fits {α : Type} (ps : List Part) : Except EncodeError α → Prop
  | .ok _ => ∀ p ∈ ps, p.IsSound
  | .error e => ∃ p, FirstOffence p e ps

variable {α γ : Type} {result : Except EncodeError α}

theorem fits_nil (a : α) : Fits [] (.ok a : Except EncodeError α) := by simp [Fits]

/-- A sound part is encoded. -/
theorem fits_sound (hp : p.IsSound) (a : α) : Fits [p] (.ok a : Except EncodeError α) := by
  simpa [Fits] using hp

/-- An offending part is refused by its error. -/
theorem fits_offends (h : p.Offends e) : Fits [p] (.error e : Except EncodeError α) :=
  ⟨p, .here h⟩

/-- What comes first is met first. -/
theorem Fits.bind {next : α → Except EncodeError γ} (h : Fits ps result)
    (hnext : ∀ a, Fits qs (next a)) : Fits (ps ++ qs) (result >>= next) := by
  cases result with
  | error e =>
      -- the rest is not encoded, so it does not matter what is in it
      obtain ⟨p, hp⟩ := h
      exact ⟨p, hp.append qs⟩
  | ok a =>
      have hqs := hnext a
      show Fits (ps ++ qs) (next a)
      generalize next a = last at hqs ⊢
      cases last with
      | error e =>
          obtain ⟨p, hp⟩ := hqs
          exact ⟨p, hp.after h⟩
      | ok b => exact List.forall_mem_append.mpr ⟨h, hqs⟩

/-- What is made of an encoded part fits the same parts. -/
theorem Fits.map (h : Fits ps result) (f : α → γ) :
    Fits ps (result >>= fun a => .ok (f a)) := by
  have hbind := h.bind fun a => fits_nil (f a)
  rwa [List.append_nil] at hbind

/-- A sound part before the others changes nothing. -/
theorem Fits.cons (h : Fits ps result) (hp : p.IsSound) : Fits (p :: ps) result :=
  (fits_sound hp ()).bind fun _ => h

end

/-! ## Encoding without limits -/

namespace Value

section
attribute [local instance] Limits.unlimited

/-- A float is encoded if it is finite, and is an offence otherwise. -/
theorem fits_encodeFloat {p : Part} {x : Binary64} (hsound : x.isFinite → p.IsSound)
    (hoffends : x.isFinite = false → p.Offends .notFinite) : Fits [p] (encodeFloat x) := by
  rw [encodeFloat]
  by_cases hx : x.isFinite
  · rw [if_pos hx]
    exact fits_sound (hsound hx) _
  · rw [if_neg hx]
    exact fits_offends (hoffends (eq_false_of_ne_true hx))

/-- A key has a name if it is sound, and is an offence otherwise. -/
theorem fits_keyName (k : Value) : Fits [.key k] k.keyName := by
  cases k with
  | str t => exact fits_sound (Part.isSound_key_iff.mpr (.str t)) _
  | int n =>
      rw [keyName, encodeInt_unlimited]
      exact fits_sound (Part.isSound_key_iff.mpr (.int n)) _
  | bool b => exact fits_sound (Part.isSound_key_iff.mpr (.bool b)) _
  | null => exact fits_sound (Part.isSound_key_iff.mpr .null) _
  | float x =>
      exact fits_encodeFloat (fun hx => Part.isSound_key_iff.mpr (.float hx)) .numberKey
  | _ => exact fits_offends (.foreignKey rfl)

-- Values, lists of them and entries hold one another, so the three lemmas are
-- one induction; each step meets the parts in the order of the encoder.
mutual

/-- Encoding a value does what its parts call for. -/
theorem fits_encodeAt (v : Value) (depth : Nat) :
    Fits v.parts (v.encodeAt depth) := by
  cases v with
  | float x => exact fits_encodeFloat Part.isSound_float_iff.mpr .number
  | int n =>
      rw [encodeAt, encodeInt_unlimited]
      exact fits_sound (Part.isSound_item (by simp) (by simp) rfl) _
  | list items =>
      refine ((fits_encodeAll items (depth + 1)).map Json.bracketed).cons ?_
      exact Part.isSound_item (by simp) (by simp) rfl
  | tuple items =>
      refine ((fits_encodeAll items (depth + 1)).map Json.bracketed).cons ?_
      exact Part.isSound_item (by simp) (by simp) rfl
  | mapping entries =>
      refine ((fits_encodeEntries entries (depth + 1)).map Json.braced).cons ?_
      exact Part.isSound_item (by simp) (by simp) rfl
  | formed name form =>
      rw [parts, encodeAt, inside_unlimited]
      exact (fits_encodeAt form (depth + 1)).cons
        (Part.isSound_item (by simp) (by simp) rfl)
  | enclosing isList =>
      rw [encodeAt, inside_unlimited]
      exact fits_offends (.circle isList)
  | set items => exact fits_offends (.foreign rfl)
  | bytes content => exact fits_offends (.foreign rfl)
  | object name => exact fits_offends (.foreign rfl)
  | _ => exact fits_sound (Part.isSound_item (by simp) (by simp) rfl) _

/-- Encoding items ends at the first offence of their parts. -/
theorem fits_encodeAll (items : List Value) (depth : Nat) :
    Fits (partsOfAll items) (encodeAll depth items) := by
  cases items with
  | nil => exact fits_nil []
  | cons v rest =>
      rw [partsOfAll, encodeAll]
      exact (fits_encodeAt v depth).bind fun first =>
        (fits_encodeAll rest depth).map _

/-- Encoding entries ends at the first offence, a key coming before its value. -/
theorem fits_encodeEntries (entries : List (Value × Value)) (depth : Nat) :
    Fits (partsOfEntries entries) (encodeEntries depth entries) := by
  cases entries with
  | nil => exact fits_nil []
  | cons e rest =>
      obtain ⟨k, v⟩ := e
      rw [partsOfEntries, encodeEntries]
      refine (fits_keyName k).bind fun name => ?_
      exact (fits_encodeAt v depth).bind fun first =>
        (fits_encodeEntries rest depth).map _

end

end

/-- Encoding a value within the limits does what its parts call for. -/
theorem fits_encode [Limits] {v : Value} (h : v.IsWithin 0) :
    Fits v.parts v.encode := by
  rw [encode_of_isWithin h]
  exact fits_encodeAt v 0

/-! ## Encodable values -/

/-- Every part of an encodable value is sound. -/
theorem IsEncodable.isSound {v : Value} (h : v.IsEncodable) : ∀ p ∈ v.parts, p.IsSound := by
  induction h with
  | float hx => simpa [parts] using Part.isSound_float_iff.mpr hx
  | list _ ih =>
      refine List.forall_mem_cons.mpr ⟨Part.isSound_item (by simp) (by simp) rfl, ?_⟩
      intro p hp
      obtain ⟨v, hv, hp⟩ := mem_partsOfAll.mp hp
      exact ih v hv p hp
  | tuple _ ih =>
      refine List.forall_mem_cons.mpr ⟨Part.isSound_item (by simp) (by simp) rfl, ?_⟩
      intro p hp
      obtain ⟨v, hv, hp⟩ := mem_partsOfAll.mp hp
      exact ih v hv p hp
  | mapping hkeys _ ih =>
      refine List.forall_mem_cons.mpr ⟨Part.isSound_item (by simp) (by simp) rfl, ?_⟩
      intro p hp
      obtain ⟨e, he, rfl | hp⟩ := mem_partsOfEntries.mp hp
      · exact Part.isSound_key_iff.mpr (hkeys e he)
      · exact ih e he p hp
  | formed _ ih =>
      rw [parts]
      exact List.forall_mem_cons.mpr ⟨Part.isSound_item (by simp) (by simp) rfl, ih⟩
  | _ =>
      refine List.forall_mem_cons.mpr ⟨Part.isSound_item (by simp) (by simp) rfl, ?_⟩
      exact List.forall_mem_nil _

mutual

/-- A value whose parts are sound is encodable. -/
theorem isEncodable_of_isSound (v : Value) (h : ∀ p ∈ v.parts, p.IsSound) :
    v.IsEncodable := by
  cases v with
  | null => exact .null
  | bool b => exact .bool b
  | int n => exact .int n
  | str t => exact .str t
  | moment m => exact .moment m
  | float x => exact .float (Part.isSound_float_iff.mp (h _ List.mem_cons_self))
  | list items => exact .list (areEncodable_of_isSound items (List.forall_mem_cons.mp h).2)
  | tuple items => exact .tuple (areEncodable_of_isSound items (List.forall_mem_cons.mp h).2)
  | mapping entries =>
      -- keys are met among the parts of the entries, but they are no values
      have hentries := (List.forall_mem_cons.mp h).2
      refine .mapping ?_ (haveEncodable_of_isSound entries hentries)
      intro e he
      refine Part.isSound_key_iff.mp (hentries _ (mem_partsOfEntries.mpr ?_))
      exact ⟨e, he, Or.inl rfl⟩
  | formed name form =>
      rw [parts] at h
      exact .formed (isEncodable_of_isSound form (List.forall_mem_cons.mp h).2)
  | enclosing isList => exact (h _ List.mem_cons_self _ (.circle isList)).elim
  | _ => exact (h _ List.mem_cons_self _ (.foreign rfl)).elim

theorem areEncodable_of_isSound (items : List Value)
    (h : ∀ p ∈ partsOfAll items, p.IsSound) : ∀ v ∈ items, v.IsEncodable := by
  cases items with
  | nil => simp
  | cons v rest =>
      rw [partsOfAll, List.forall_mem_append] at h
      exact List.forall_mem_cons.mpr
        ⟨isEncodable_of_isSound v h.1, areEncodable_of_isSound rest h.2⟩

theorem haveEncodable_of_isSound (entries : List (Value × Value))
    (h : ∀ p ∈ partsOfEntries entries, p.IsSound) : ∀ e ∈ entries, e.2.IsEncodable := by
  cases entries with
  | nil => simp
  | cons e rest =>
      obtain ⟨k, v⟩ := e
      rw [partsOfEntries, List.forall_mem_cons, List.forall_mem_append] at h
      exact List.forall_mem_cons.mpr
        ⟨isEncodable_of_isSound v h.2.1, haveEncodable_of_isSound rest h.2.2⟩

end

/-- A value is encodable just when all its parts are sound. -/
theorem isEncodable_iff_isSound (v : Value) :
    v.IsEncodable ↔ ∀ p ∈ v.parts, p.IsSound :=
  ⟨IsEncodable.isSound, isEncodable_of_isSound v⟩

/-- The values that are encoded are those that can be. -/
theorem isEncodable_iff_exists_encode [Limits] {v : Value}
    (hwithin : v.IsWithin 0) : v.IsEncodable ↔ ∃ t, v.encode = .ok t := by
  have hfits := fits_encode hwithin
  rw [isEncodable_iff_isSound]
  cases hencode : v.encode with
  | ok t =>
      rw [hencode] at hfits
      exact ⟨fun _ => ⟨t, rfl⟩, fun _ => hfits⟩
  | error e =>
      rw [hencode] at hfits
      obtain ⟨p, hp⟩ := hfits
      constructor
      · intro h
        exact (hp.not_forall h).elim
      · rintro ⟨t, ht⟩
        cases ht

/-- A value is encoded if it can be and is within the limits. -/
theorem exists_encode_iff [L : Limits] {v : Value} :
    (∃ t, v.encode = .ok t) ↔ v.IsEncodable ∧ v.IsWithin 0 := by
  constructor
  · rintro ⟨t, ht⟩
    have hwithin := isWithin_of_encodeAt v ht
    exact ⟨(isEncodable_iff_exists_encode hwithin).mpr ⟨t, ht⟩, hwithin⟩
  · rintro ⟨hencodable, hwithin⟩
    exact (isEncodable_iff_exists_encode hwithin).mp hencodable

end Value

end CouchClient
