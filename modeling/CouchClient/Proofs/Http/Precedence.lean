import CouchClient.Http.Request
import CouchClient.Proofs.Http.Fields

/-! # Precedence — which of the fields of one name is sent

    A name may be spelled more than once: among the fields of a resource,
    among those of a request, and by what is sent in default of both.  Names
    are compared without case, the last spelling in a mapping wins, and what
    is set in later wins over what was there.

    * `IsMapping`, `lastSpelled?` — fields as they are given, and the value
      that a name has among them;
    * `HoldsJust` — one field for each name that has a value, and no other;
    * `OrderedMap.value_setAll`, `value_setIfNew` — values in maps;
    * `Headers.Mirrors.holdsJust` — headers hold what their map holds;
    * `Request.wireValue?`, `Request.holdsJust_sentFields` — what a request is
      sent with. -/

namespace CouchClient

/-! ## Fields as they are given -/

/-- Fields as a mapping gives them: no name comes twice in one spelling, and
    all names are ASCII. -/
structure IsMapping (fields : List (Text × Text)) : Prop where
  distinct : (fields.map Prod.fst).Nodup
  ascii : ∀ p ∈ fields, p.1.isAscii

/-- The fields with their names in lower case. -/
def lowered (fields : List (Text × Text)) : List (Text × Text) :=
  fields.map fun p => (Text.toAsciiLower p.1, p.2)

/-- The value of the last field that spells a name, in whatever case. -/
def lastSpelled? (name : Text) (fields : List (Text × Text)) : Option Text :=
  Entries.last? (Text.toAsciiLower name) (lowered fields)

/-- Fields hold just the given values: each name that has a value is that of
    one field with the value, in whatever case, and there are no others. -/
structure HoldsJust (fields : List (Text × Text)) (value : Text → Option Text) :
    Prop where
  ascii : ∀ p ∈ fields, p.1.isAscii
  once : (fields.map fun p => Text.toAsciiLower p.1).Nodup
  value : ∀ name v, value name = some v
    ↔ ∃ p ∈ fields, Text.toAsciiLower p.1 = Text.toAsciiLower name ∧ p.2 = v

/-- Fields with one value for each name have no name twice. -/
theorem HoldsJust.nodup_names {fields : List (Text × Text)} {value : Text → Option Text}
    (h : HoldsJust fields value) : (fields.map Prod.fst).Nodup := by
  refine List.Nodup.of_map Text.toAsciiLower ?_
  rw [List.map_map]
  exact h.once

/-! ## Values in maps -/

namespace OrderedMap

variable {κ α : Type} [DecidableEq κ] {m : OrderedMap κ α} {entries : List (κ × α)}

/-- A value for a key, unless it has one. -/
def setIfNew (m : OrderedMap κ α) (k : κ) (v : α) : OrderedMap κ α :=
  if (m.value k).isSome then m else m.set k v

theorem value_set (m : OrderedMap κ α) (k' : κ) (v : α) (k : κ) :
    (m.set k' v).value k = if k' = k then some v else m.value k := rfl

/-- The last of the pairs for a key counts, or else what was there. -/
theorem value_setAll (m : OrderedMap κ α) (pairs : List (κ × α)) (k : κ) :
    (m.setAll pairs).value k = (Entries.last? k pairs).or (m.value k) := by
  induction pairs generalizing m with
  | nil => rfl
  | cons p pairs ih =>
      obtain ⟨k', v⟩ := p
      show ((m.set k' v).setAll pairs).value k = _
      rw [ih, Entries.last?_cons, Option.or_assoc, value_set]
      by_cases hk : k' = k
      · rw [if_pos hk, if_pos hk, Option.some_or]
      · rw [if_neg hk, if_neg hk, Option.none_or]

/-- A default counts where nothing was set. -/
theorem value_setIfNew (m : OrderedMap κ α) (k' : κ) (v : α) (k : κ) :
    (m.setIfNew k' v).value k = (m.value k).or (if k' = k then some v else none) := by
  rw [setIfNew]
  by_cases hk : k' = k
  · subst hk
    rw [if_pos rfl]
    cases hvalue : m.value k' with
    | none => exact m.value_set_self k' v
    | some v' => exact hvalue
  · rw [if_neg hk, Option.or_none]
    split
    · rfl
    · exact if_neg hk

/-- What the entries of a map say last of a key is its value. -/
theorem Holds.last?_items (h : m.Holds entries) (k : κ) :
    Entries.last? k m.items = m.value k := by
  rw [h.items_eq, ← Entries.get?_ofList, Entries.ofList_of_nodup h.nodup_entries, h.value]

end OrderedMap

namespace Headers

variable {h : Headers Text} {m : OrderedMap Text Text} {fields : List (Text × Text)}

/-- In a mapping of ASCII names, the lower-case names are the folded ones. -/
theorem folded_of_isMapping (hfields : IsMapping fields) :
    Step.folded fields = lowered fields := by
  rw [Step.folded, OrderedMap.items_ofPairs, Entries.ofList_of_nodup hfields.distinct]
  rfl

/-- Updating with a mapping sets its lower-case names. -/
theorem Mirrors.update_of_isMapping (hm : h.Mirrors m) (hfields : IsMapping fields) :
    (h.update fields).Mirrors (m.setAll (lowered fields)) := by
  rw [← folded_of_isMapping hfields]
  exact hm.update hfields.ascii

/-- A default is set under the lower-case name, where nothing is there. -/
theorem Mirrors.insertIfNew {name : Text} (hm : h.Mirrors m) (hname : name.isAscii)
    (v : Text) : (h.insertIfNew name v).Mirrors (m.setIfNew (Text.toAsciiLower name) v) := by
  rw [Headers.insertIfNew, OrderedMap.setIfNew, hm.contains hname]
  split
  · exact hm
  · exact hm.insert hname v

/-- **Headers hold just what their map holds**, in the names that they
    show. -/
theorem Mirrors.holdsJust (hm : h.Mirrors m) :
    HoldsJust h.toList fun name => m.value (Text.toAsciiLower name) := by
  have hspells : lowered h.toList = h.entries := hm.spells_toList
  constructor
  · exact hm.isAscii_of_spells hm.spells_toList
  · have hkeys := hm.holds.nodup_entries
    rw [← hspells, lowered, List.map_map] at hkeys
    exact hkeys
  · intro name v
    rw [← hm.holds.value]
    constructor
    · intro hget
      have hmem := Entries.mem_of_get? hget
      rw [← hspells] at hmem
      obtain ⟨p, hp, hpair⟩ := List.mem_map.mp hmem
      exact ⟨p, hp, congrArg Prod.fst hpair, congrArg Prod.snd hpair⟩
    · rintro ⟨p, hp, hname, rfl⟩
      refine Entries.get?_of_mem hm.holds.nodup_entries ?_
      rw [← hspells, ← hname]
      exact List.mem_map_of_mem hp

end Headers

/-! ## Fields on the wire -/

namespace Request

/-- What a request is sent with unless its fields say something else. -/
def wireDefaults : List (Text × Text) :=
  [(text "accept", jsonType), (text "user-agent", userAgent)]

/-- The value that a name has on the wire, by the values that were given: the
    length of a body that there is none of is zero, whatever was given. -/
def wireValue? (body : Option Bytes) (value : Text → Option Text) (name : Text) :
    Option Text :=
  if isEmptyBody body ∧ Text.toAsciiLower name = text "content-length" then
    some (text "0")
  else (value name).or (Entries.get? (Text.toAsciiLower name) wireDefaults)

variable {h : Headers Text} {m : OrderedMap Text Text} {r : Request}

/-- The map of the fields that a request is sent with. -/
theorem exists_mirrors_fieldsFor (hm : h.Mirrors m) (body : Option Bytes) :
    ∃ m', (fieldsFor body h.toList).Mirrors m'
      ∧ ∀ name, m'.value (Text.toAsciiLower name)
        = wireValue? body (fun name => m.value (Text.toAsciiLower name)) name := by
  have haccept := hm.insertIfNew (show (text "Accept").isAscii by decide) jsonType
  have hagent := haccept.insertIfNew (show (text "User-Agent").isAscii by decide) userAgent
  have hvalue (k : Text) : ((m.setIfNew (Text.toAsciiLower (text "Accept")) jsonType).setIfNew
      (Text.toAsciiLower (text "User-Agent")) userAgent).value k
        = (m.value k).or (Entries.get? k wireDefaults) := by
    rw [OrderedMap.value_setIfNew, OrderedMap.value_setIfNew, Option.or_assoc]
    refine congrArg (m.value k).or ?_
    show Option.or (if text "accept" = k then _ else none)
        (if text "user-agent" = k then _ else none)
      = if text "accept" = k then _ else if text "user-agent" = k then _ else none
    by_cases hk : text "accept" = k
    · rw [if_pos hk, if_pos hk, Option.some_or]
    · rw [if_neg hk, if_neg hk, Option.none_or]
  rw [fieldsFor, hm.ofList_of_spells hm.spells_toList]
  cases hempty : isEmptyBody body with
  | false =>
      refine ⟨_, hagent, ?_⟩
      intro name
      rw [wireValue?, hempty, if_neg (by simp), hvalue]
  | true =>
      refine ⟨_, hagent.insert (show (text "Content-Length").isAscii by decide) (text "0"), ?_⟩
      intro name
      rw [wireValue?, hempty, OrderedMap.value_set]
      show (if text "content-length" = Text.toAsciiLower name then _ else _) = _
      by_cases hname : Text.toAsciiLower name = text "content-length"
      · rw [if_pos hname.symm, if_pos ⟨rfl, hname⟩]
      · rw [if_neg (Ne.symm hname), if_neg (fun hboth => hname hboth.2), hvalue]

/-- **A request is sent with the fields that were given**, those that go
    without saying, and a length of zero if it has no body. -/
theorem holdsJust_sentFields (hm : h.Mirrors m) (hr : r.headers = fieldsFor r.body h.toList) :
    HoldsJust r.sentFields
      (wireValue? r.body fun name => m.value (Text.toAsciiLower name)) := by
  obtain ⟨m', hm', hvalue⟩ := exists_mirrors_fieldsFor hm r.body
  have hholds := hm'.holdsJust
  rw [sentFields, hr, Entries.ofList_of_nodup hholds.nodup_names]
  refine ⟨hholds.ascii, hholds.once, ?_⟩
  intro name v
  rw [← hvalue]
  exact hholds.value name v

end Request

end CouchClient
