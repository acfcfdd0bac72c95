import CouchClient.Proofs.Entries
import CouchClient.Proofs.Http.Names
import CouchClient.Proofs.Url.Quoting

/-! # Fields — headers as a map in the order of insertion

    Headers fold the case of names, store one spelling and show another.
    Seen from outside they are a map that keeps its keys in the order in
    which they came, with the names in lower case for keys: whatever is done
    to both, they give the same answers and hold the same fields.

    * `OrderedMap` — the map: its keys in their order, and their values;
    * `OrderedMap.Holds` — a list of entries is such a map;
    * `Headers.Step`, `Step.perform`, `Step.expected` — operations on headers
      and on maps;
    * `Headers.Mirrors`, `Headers.IsReadable` — headers hold what a map holds,
      and are read by the names that they show;
    * `Headers.IsTidy` — what holds of headers that mirror a map;
    * `mirrors_perform`, `agrees_run` — one step, and any number of them. -/

namespace CouchClient

/-! ## Maps in the order of insertion -/

/-- A map that keeps its keys in the order in which they came, with the value
    of each. -/
structure OrderedMap (κ α : Type) where
  keys : List κ
  value : κ → Option α

namespace OrderedMap

variable {κ α : Type} [DecidableEq κ]

/-- The map without keys. -/
def empty : OrderedMap κ α := ⟨[], fun _ => none⟩

/-- A key that is there keeps its place, and a new one comes last. -/
def set (m : OrderedMap κ α) (k : κ) (v : α) : OrderedMap κ α :=
  ⟨if k ∈ m.keys then m.keys else m.keys ++ [k],
    fun k' => if k = k' then some v else m.value k'⟩

/-- The map without a key. -/
def delete (m : OrderedMap κ α) (k : κ) : OrderedMap κ α :=
  ⟨m.keys.filter (· ≠ k), fun k' => if k = k' then none else m.value k'⟩

/-- The map with pairs that are set one after the other. -/
def setAll (m : OrderedMap κ α) (pairs : List (κ × α)) : OrderedMap κ α :=
  pairs.foldl (fun m p => m.set p.1 p.2) m

/-- The map of some pairs. -/
def ofPairs (pairs : List (κ × α)) : OrderedMap κ α := empty.setAll pairs

/-- The keys with their values, in their order. -/
def items (m : OrderedMap κ α) : List (κ × α) :=
  m.keys.filterMap fun k => (m.value k).map (k, ·)

/-- A list of entries has the keys of a map, each of them once, and their
    values. -/
structure Holds (m : OrderedMap κ α) (entries : List (κ × α)) : Prop where
  keys : entries.map Prod.fst = m.keys
  nodup : m.keys.Nodup
  value : ∀ k, Entries.get? k entries = m.value k

theorem value_set_self (m : OrderedMap κ α) (k : κ) (v : α) :
    (m.set k v).value k = some v := if_pos rfl

variable {m : OrderedMap κ α} {entries : List (κ × α)}

theorem holds_empty : (empty : OrderedMap κ α).Holds [] where
  keys := rfl
  nodup := List.nodup_nil
  value _ := rfl

/-- The entries that a map holds have each key once. -/
theorem Holds.nodup_entries (h : m.Holds entries) : (entries.map Prod.fst).Nodup :=
  h.keys ▸ h.nodup

/-- The items of a map are the entries that it holds. -/
theorem Holds.items_eq (h : m.Holds entries) : m.items = entries := by
  refine Eq.trans ?_ (Entries.eq_filterMap_keys h.nodup_entries)
  simp only [items, h.keys, h.value]

/-- Setting a key of a map inserts it into the entries. -/
theorem Holds.set (h : m.Holds entries) (k : κ) (v : α) :
    (m.set k v).Holds (Entries.insert k v entries) where
  keys := by rw [Entries.keys_insert, h.keys, OrderedMap.set]
  nodup := by
    show (if k ∈ m.keys then m.keys else m.keys ++ [k]).Nodup
    by_cases hk : k ∈ m.keys
    · rw [if_pos hk]
      exact h.nodup
    · rw [if_neg hk]
      exact List.nodup_append.mpr ⟨h.nodup, List.nodup_singleton k, by
        rintro k' hk' _ hmem rfl
        exact hk (List.mem_singleton.mp hmem ▸ hk')⟩
  value k' := by rw [Entries.get?_insert, h.value, OrderedMap.set]

/-- Deleting a key of a map erases it from the entries. -/
theorem Holds.delete (h : m.Holds entries) (k : κ) :
    (m.delete k).Holds (Entries.erase k entries) where
  keys := by rw [Entries.keys_erase h.nodup_entries, h.keys, OrderedMap.delete]
  nodup := h.nodup.filter _
  value k' := by rw [Entries.get?_erase h.nodup_entries, h.value, OrderedMap.delete]

/-- Setting pairs one after the other inserts them all. -/
theorem Holds.setAll (h : m.Holds entries) (pairs : List (κ × α)) :
    (m.setAll pairs).Holds (Entries.insertAll entries pairs) := by
  induction pairs generalizing m entries with
  | nil => exact h
  | cons p pairs ih => exact ih (h.set p.1 p.2)

/-- What pairs make is what is left of them as entries. -/
theorem items_ofPairs (pairs : List (κ × α)) :
    (ofPairs pairs).items = Entries.ofList pairs :=
  (holds_empty.setAll pairs).items_eq

end OrderedMap

namespace Headers

variable {α : Type}

/-! ## Operations -/

/-- An operation on headers, with others that are kept aside.  Pairs come as
    two lists, the second of which wins. -/
inductive Step (α : Type) where
  | build (pairs named : List (Text × α))
  | rebuild
  | set (name : Text) (value : α)
  | delete (name : Text)
  | getItem (name : Text)
  | get (name : Text) (fallback : α)
  | contains (name : Text)
  | pop (name : Text) (fallback : α)
  | setDefault (name : Text) (value : α)
  | update (pairs named : List (Text × α))
  | updateFromKept
  | iterate
  | items
  | values
  | size
  | copy
  | swap

/-- What an operation gives.  A field that is missing is named as it was
    looked for. -/
inductive Answer (α : Type) where
  | done
  | missing (name : Text)
  | value (v : α)
  | flag (b : Bool)
  | names (names : List Text)
  | items (pairs : List (Text × α))
  | values (vs : List α)
  | count (n : Nat)
deriving DecidableEq

namespace Step

/-- The names that an operation is given. -/
def names : Step α → List Text
  | build pairs named => (pairs ++ named).map Prod.fst
  | set name _ => [name]
  | delete name => [name]
  | getItem name => [name]
  | get name _ => [name]
  | contains name => [name]
  | pop name _ => [name]
  | setDefault name _ => [name]
  | update pairs named => (pairs ++ named).map Prod.fst
  | _ => []

/-- Does an operation to headers: the current ones, and those kept aside. -/
def perform : Step α → Headers α × Headers α → Answer α × Headers α × Headers α
  | build pairs named, (_, kept) => (.done, ofList (pairs ++ named), kept)
  | rebuild, (h, kept) =>
      match h.reread with
      | .ok pairs => (.done, ofList pairs, kept)
      | .error name => (.missing name, h, kept)
  | set name value, (h, kept) => (.done, h.insert name value, kept)
  | delete name, (h, kept) =>
      if h.contains name then (.done, h.erase name, kept)
      else (.missing (Text.lower name), h, kept)
  | getItem name, (h, kept) =>
      match h.get? name with
      | some v => (.value v, h, kept)
      | none => (.missing (Text.lower name), h, kept)
  | get name fallback, (h, kept) => (.value ((h.get? name).getD fallback), h, kept)
  | contains name, (h, kept) => (.flag (h.contains name), h, kept)
  | pop name fallback, (h, kept) =>
      (.value ((h.get? name).getD fallback), h.erase name, kept)
  | setDefault name value, (h, kept) =>
      let h := h.insertIfNew name value
      (.value ((h.get? name).getD value), h, kept)
  | update pairs named, (h, kept) => (.done, h.update (pairs ++ named), kept)
  | updateFromKept, (h, kept) =>
      match kept.reread with
      | .ok pairs => (.done, h.update pairs, kept)
      | .error name => (.missing name, h, kept)
  | iterate, (h, kept) => (.names h.names, h, kept)
  | items, (h, kept) => (.items h.toList, h, kept)
  | values, (h, kept) => (.values h.values, h, kept)
  | size, (h, kept) => (.count h.size, h, kept)
  | copy, (h, _) => (.done, h.copy, h)
  | swap, (h, kept) => (.done, kept, h)

/-- The entries of a plain map of pairs, with the names in lower case. -/
def folded (pairs : List (Text × α)) : List (Text × α) :=
  (OrderedMap.ofPairs pairs).items.map fun p => (Text.toAsciiLower p.1, p.2)

/-- Does an operation to maps whose keys are names in lower case. -/
def expected : Step α → OrderedMap Text α × OrderedMap Text α →
    Answer α × OrderedMap Text α × OrderedMap Text α
  | build pairs named, (_, kept) =>
      (.done, OrderedMap.empty.setAll (folded (pairs ++ named)), kept)
  | rebuild, (m, kept) => (.done, m, kept)
  | set name value, (m, kept) => (.done, m.set (Text.toAsciiLower name) value, kept)
  | delete name, (m, kept) =>
      match m.value (Text.toAsciiLower name) with
      | some _ => (.done, m.delete (Text.toAsciiLower name), kept)
      | none => (.missing (Text.toAsciiLower name), m, kept)
  | getItem name, (m, kept) =>
      match m.value (Text.toAsciiLower name) with
      | some v => (.value v, m, kept)
      | none => (.missing (Text.toAsciiLower name), m, kept)
  | get name fallback, (m, kept) =>
      (.value ((m.value (Text.toAsciiLower name)).getD fallback), m, kept)
  | contains name, (m, kept) =>
      (.flag (m.value (Text.toAsciiLower name)).isSome, m, kept)
  | pop name fallback, (m, kept) =>
      (.value ((m.value (Text.toAsciiLower name)).getD fallback),
        m.delete (Text.toAsciiLower name), kept)
  | setDefault name value, (m, kept) =>
      match m.value (Text.toAsciiLower name) with
      | some v => (.value v, m, kept)
      | none => (.value value, m.set (Text.toAsciiLower name) value, kept)
  | update pairs named, (m, kept) => (.done, m.setAll (folded (pairs ++ named)), kept)
  | updateFromKept, (m, kept) => (.done, m.setAll kept.items, kept)
  | iterate, (m, kept) => (.names (m.keys.map displayName), m, kept)
  | items, (m, kept) =>
      (.items (m.items.map fun p => (displayName p.1, p.2)), m, kept)
  | values, (m, kept) => (.values (m.items.map Prod.snd), m, kept)
  | size, (m, kept) => (.count m.keys.length, m, kept)
  | copy, (m, _) => (.done, m, m)
  | swap, (m, kept) => (.done, kept, m)

end Step

/-- Does operations one after the other, and collects what they give. -/
def runSteps {σ : Type} (perform : Step α → σ → Answer α × σ) :
    List (Step α) → σ → List (Answer α) × σ
  | [], s => ([], s)
  | step :: steps, s =>
      let (answer, s) := perform step s
      let (answers, s) := runSteps perform steps s
      (answer :: answers, s)

/-- What operations come to, from empty headers on. -/
def run (steps : List (Step α)) : List (Answer α) × Headers α × Headers α :=
  runSteps Step.perform steps (empty, empty)

/-- What they come to on maps. -/
def expectedRun (steps : List (Step α)) :
    List (Answer α) × OrderedMap Text α × OrderedMap Text α :=
  runSteps Step.expected steps (.empty, .empty)

/-! ## Headers that mirror a map -/

/-- Headers hold what a map holds, and their names are stored in lower
    case. -/
structure Mirrors (h : Headers α) (m : OrderedMap Text α) : Prop where
  holds : m.Holds h.entries
  stored : ∀ name ∈ m.keys, IsStored name

section

variable {h kept : Headers α} {m mkept : OrderedMap Text α} {name : Text}
  {pairs : List (Text × α)}

theorem mirrors_empty : Mirrors (empty : Headers α) .empty where
  holds := OrderedMap.holds_empty
  stored _ hname := absurd hname List.not_mem_nil

/-- Headers find under any spelling of a name what the map has under its
    lower-case form. -/
theorem Mirrors.get? (hm : h.Mirrors m) (hname : name.isAscii) :
    h.get? name = m.value (Text.toAsciiLower name) := by
  rw [Headers.get?, Text.lower_of_isAscii hname, hm.holds.value]

theorem Mirrors.contains (hm : h.Mirrors m) (hname : name.isAscii) :
    h.contains name = (m.value (Text.toAsciiLower name)).isSome := by
  rw [Headers.contains, hm.get? hname]

/-- Inserting under any spelling sets the lower-case name. -/
theorem Mirrors.insert (hm : h.Mirrors m) (hname : name.isAscii) (v : α) :
    (h.insert name v).Mirrors (m.set (Text.toAsciiLower name) v) where
  holds := by
    rw [Headers.insert, Text.lower_of_isAscii hname]
    exact hm.holds.set _ v
  stored name' hname' := by
    rw [OrderedMap.set] at hname'
    dsimp only at hname'
    split at hname'
    · exact hm.stored name' hname'
    · obtain hname' | hname' := List.mem_append.mp hname'
      · exact hm.stored name' hname'
      · rw [List.mem_singleton.mp hname']
        exact isStored_toAsciiLower hname

/-- Erasing under any spelling deletes the lower-case name. -/
theorem Mirrors.erase (hm : h.Mirrors m) (hname : name.isAscii) :
    (h.erase name).Mirrors (m.delete (Text.toAsciiLower name)) where
  holds := by
    rw [Headers.erase, Text.lower_of_isAscii hname]
    exact hm.holds.delete _
  stored name' hname' := hm.stored name' (List.mem_filter.mp hname').1

/-- Inserting pairs sets the lower-case names one after the other. -/
theorem Mirrors.insertAll (hm : h.Mirrors m) (hpairs : ∀ p ∈ pairs, p.1.isAscii) :
    (h.insertAll pairs).Mirrors
      (m.setAll (pairs.map fun p => (Text.toAsciiLower p.1, p.2))) := by
  induction pairs generalizing h m with
  | nil => exact hm
  | cons p pairs ih =>
      rw [List.forall_mem_cons] at hpairs
      exact ih (hm.insert hpairs.1 p.2) hpairs.2

/-- A plain map of the pairs is set in, entry by entry. -/
theorem Mirrors.update (hm : h.Mirrors m) (hpairs : ∀ p ∈ pairs, p.1.isAscii) :
    (h.update pairs).Mirrors (m.setAll (Step.folded pairs)) := by
  rw [Headers.update, Step.folded, OrderedMap.items_ofPairs]
  refine hm.insertAll ?_
  intro p hp
  exact hpairs p (Entries.mem_of_mem_ofList hp)

/-! ## Shown names -/

/-- Headers that mirror a map have its items as their entries. -/
theorem Mirrors.entries_eq (hm : h.Mirrors m) : h.entries = m.items :=
  hm.holds.items_eq.symm

/-- Names are stored in lower case. -/
theorem Mirrors.isStored_of_mem (hm : h.Mirrors m) {p : Text × α} (hp : p ∈ h.entries) :
    IsStored p.1 :=
  hm.stored p.1 (hm.holds.keys ▸ List.mem_map_of_mem hp)

/-- Shown names, looked up, are the names that are stored. -/
theorem Mirrors.lower_names (hm : h.Mirrors m) : h.names.map Text.lower = m.keys := by
  rw [← hm.holds.keys, names, List.map_map]
  refine List.map_congr_left ?_
  intro p hp
  exact (hm.isStored_of_mem hp).lower_displayName

/-- The name that is shown finds the field that it is shown for. -/
theorem Mirrors.get?_displayName (hm : h.Mirrors m) {p : Text × α} (hp : p ∈ h.entries) :
    h.get? (displayName p.1) = some p.2 := by
  rw [Headers.get?, (hm.isStored_of_mem hp).lower_displayName]
  exact Entries.get?_of_mem hm.holds.nodup_entries hp

/-- Fields are read again by the names that are shown. -/
theorem Mirrors.reread (hm : h.Mirrors m) : h.reread = .ok h.toList := by
  rw [Headers.reread, names, List.mapM_map, toList]
  refine Url.mapM_of_forall ?_
  intro p hp
  rw [Function.comp_apply, hm.get?_displayName hp]

/-- Pairs are the fields of headers, but for the case of their names. -/
def Spells (pairs : List (Text × α)) (h : Headers α) : Prop :=
  pairs.map (fun p => (Text.toAsciiLower p.1, p.2)) = h.entries

/-- The entries spell the headers in lower case. -/
theorem Mirrors.spells_entries (hm : h.Mirrors m) : Spells h.entries h := by
  refine (List.map_congr_left ?_).trans (List.map_id _)
  intro p hp
  show (Text.toAsciiLower p.1, p.2) = p
  rw [(hm.isStored_of_mem hp).lower]

/-- What is shown spells the headers in capitalized names. -/
theorem Mirrors.spells_toList (hm : h.Mirrors m) : Spells h.toList h := by
  rw [Spells, toList, List.map_map]
  refine (List.map_congr_left ?_).trans (List.map_id _)
  intro p hp
  have hstored := hm.isStored_of_mem hp
  show (Text.toAsciiLower (displayName p.1), p.2) = p
  rw [toAsciiLower_displayName hstored.ascii, hstored.lower]

/-- Any spelling of the names is in ASCII. -/
theorem Mirrors.isAscii_of_spells (hm : h.Mirrors m) (hpairs : Spells pairs h) :
    ∀ p ∈ pairs, p.1.isAscii := by
  intro p hp
  have hmem : (Text.toAsciiLower p.1, p.2) ∈ h.entries :=
    hpairs ▸ List.mem_map_of_mem hp
  exact Text.isAscii_of_toAsciiLower (hm.isStored_of_mem hmem).ascii

/-- Names that differ when their case is folded differ, so nothing is lost
    when the pairs become a plain map. -/
theorem Mirrors.folded_of_spells (hm : h.Mirrors m) (hpairs : Spells pairs h) :
    Step.folded pairs = m.items := by
  have hnodup : (pairs.map Prod.fst).Nodup := by
    refine List.Nodup.of_map Text.toAsciiLower ?_
    have hkeys := hm.holds.nodup_entries
    rw [← hpairs, List.map_map] at hkeys
    rw [List.map_map]
    exact hkeys
  rw [Step.folded, OrderedMap.items_ofPairs, Entries.ofList_of_nodup hnodup, ← hm.entries_eq]
  exact hpairs

/-- Fields that are set in are those of a map that is set in. -/
theorem Mirrors.update_of_spells (hm : h.Mirrors m) (hkept : kept.Mirrors mkept)
    (hpairs : Spells pairs kept) : (h.update pairs).Mirrors (m.setAll mkept.items) := by
  rw [← hkept.folded_of_spells hpairs]
  exact hm.update (hkept.isAscii_of_spells hpairs)

/-- Fields that are built anew are the same fields. -/
theorem Mirrors.ofList_of_spells (hm : h.Mirrors m) (hpairs : Spells pairs h) :
    ofList pairs = h := by
  have hbuilt := (mirrors_empty.update_of_spells hm hpairs).entries_eq
  have hsame : (OrderedMap.empty.setAll m.items).items = h.entries := by
    show (OrderedMap.ofPairs m.items).items = _
    rw [OrderedMap.items_ofPairs, ← hm.entries_eq,
      Entries.ofList_of_nodup hm.holds.nodup_entries]
  cases h
  exact congrArg Headers.mk (hbuilt.trans hsame)

/-- A copy, which reads the shown names, is the same headers. -/
theorem Mirrors.copy_eq (hm : h.Mirrors m) : h.copy = h :=
  hm.ofList_of_spells hm.spells_entries

/-! ## Tidy headers -/

/-- What holds of headers whatever was done to them: their names are stored in
    lower case and each of them once; the names that are shown differ by more
    than their case, and each finds its own value; and headers that are built
    from the headers are the same. -/
structure IsTidy (h : Headers α) : Prop where
  stored : ∀ p ∈ h.entries, IsStored p.1
  distinct : (h.entries.map Prod.fst).Nodup
  shown : (h.names.map Text.lower).Nodup
  own : ∀ p ∈ h.entries, h.get? (displayName p.1) = some p.2
  rebuilt : ∃ pairs, h.reread = .ok pairs ∧ ofList pairs = h

/-- Headers that mirror a map are tidy. -/
theorem Mirrors.isTidy (hm : h.Mirrors m) : h.IsTidy where
  stored _ hp := hm.isStored_of_mem hp
  distinct := hm.holds.nodup_entries
  shown := hm.lower_names ▸ hm.holds.nodup
  own _ hp := hm.get?_displayName hp
  rebuilt := ⟨h.toList, hm.reread, hm.ofList_of_spells hm.spells_toList⟩

/-! ## Steps and runs -/

/-- **A step on headers mirrors one on maps**: it gives the same answer, and
    what it leaves mirrors what the other leaves. -/
theorem mirrors_perform {step : Step α} (hstep : ∀ name ∈ step.names, name.isAscii)
    (hm : h.Mirrors m) (hkept : kept.Mirrors mkept) :
    (step.perform (h, kept)).1 = (step.expected (m, mkept)).1
      ∧ (step.perform (h, kept)).2.1.Mirrors (step.expected (m, mkept)).2.1
      ∧ (step.perform (h, kept)).2.2.Mirrors (step.expected (m, mkept)).2.2 := by
  have hname : ∀ {name}, name ∈ step.names → Text.lower name = Text.toAsciiLower name :=
    fun hmem => Text.lower_of_isAscii (hstep _ hmem)
  cases step with
  | build pairs named =>
      have hpairs : ∀ p ∈ pairs ++ named, p.1.isAscii :=
        fun p hp => hstep p.1 (List.mem_map_of_mem hp)
      exact ⟨rfl, mirrors_empty.update hpairs, hkept⟩
  | rebuild =>
      -- the names that are read are the shown ones, which fold to those stored
      rw [Step.perform, hm.reread]
      refine ⟨rfl, ?_, hkept⟩
      show (ofList h.toList).Mirrors m
      rw [hm.ofList_of_spells hm.spells_toList]
      exact hm
  | set name value =>
      exact ⟨rfl, hm.insert (hstep name List.mem_cons_self) value, hkept⟩
  | delete name =>
      have hascii := hstep name List.mem_cons_self
      rw [Step.perform, Step.expected, hm.contains hascii, hname List.mem_cons_self]
      cases m.value (Text.toAsciiLower name) with
      | none => exact ⟨rfl, hm, hkept⟩
      | some v => exact ⟨rfl, hm.erase hascii, hkept⟩
  | getItem name =>
      rw [Step.perform, Step.expected, hm.get? (hstep name List.mem_cons_self),
        hname List.mem_cons_self]
      cases m.value (Text.toAsciiLower name) with
      | none => exact ⟨rfl, hm, hkept⟩
      | some v => exact ⟨rfl, hm, hkept⟩
  | get name fallback =>
      rw [Step.perform, Step.expected, hm.get? (hstep name List.mem_cons_self)]
      exact ⟨rfl, hm, hkept⟩
  | contains name =>
      rw [Step.perform, Step.expected, hm.contains (hstep name List.mem_cons_self)]
      exact ⟨rfl, hm, hkept⟩
  | pop name fallback =>
      have hascii := hstep name List.mem_cons_self
      rw [Step.perform, Step.expected, hm.get? hascii]
      exact ⟨rfl, hm.erase hascii, hkept⟩
  | setDefault name value =>
      have hascii := hstep name List.mem_cons_self
      have hinsert := hm.insert hascii value
      rw [Step.perform, Step.expected, insertIfNew, hm.contains hascii]
      cases hvalue : m.value (Text.toAsciiLower name) with
      | none =>
          refine ⟨?_, hinsert, hkept⟩
          show Answer.value (((h.insert name value).get? name).getD value) = _
          rw [hinsert.get? hascii, OrderedMap.value_set_self]
          rfl
      | some v =>
          refine ⟨?_, hm, hkept⟩
          show Answer.value ((h.get? name).getD value) = _
          rw [hm.get? hascii, hvalue]
          rfl
  | update pairs named =>
      have hpairs : ∀ p ∈ pairs ++ named, p.1.isAscii :=
        fun p hp => hstep p.1 (List.mem_map_of_mem hp)
      exact ⟨rfl, hm.update hpairs, hkept⟩
  | updateFromKept =>
      rw [Step.perform, hkept.reread]
      exact ⟨rfl, hm.update_of_spells hkept hkept.spells_toList, hkept⟩
  | iterate =>
      refine ⟨?_, hm, hkept⟩
      show Answer.names h.names = .names (m.keys.map displayName)
      rw [← hm.holds.keys, List.map_map]
      rfl
  | items =>
      refine ⟨?_, hm, hkept⟩
      show Answer.items h.toList = .items (m.items.map fun p => (displayName p.1, p.2))
      rw [← hm.entries_eq, toList]
  | values =>
      refine ⟨?_, hm, hkept⟩
      show Answer.values h.values = .values (m.items.map Prod.snd)
      rw [← hm.entries_eq, Headers.values]
  | size =>
      refine ⟨?_, hm, hkept⟩
      show Answer.count h.size = .count m.keys.length
      rw [← hm.holds.keys, List.length_map, Headers.size]
  | copy =>
      refine ⟨rfl, ?_, hm⟩
      show h.copy.Mirrors m
      rw [hm.copy_eq]
      exact hm
  | swap => exact ⟨rfl, hkept, hm⟩

/-- What any number of steps gives and leaves. -/
theorem mirrors_runSteps {steps : List (Step α)}
    (hsteps : ∀ step ∈ steps, ∀ name ∈ step.names, name.isAscii)
    (hm : h.Mirrors m) (hkept : kept.Mirrors mkept) :
    let actual := runSteps Step.perform steps (h, kept)
    let expected := runSteps Step.expected steps (m, mkept)
    actual.1 = expected.1 ∧ actual.2.1.Mirrors expected.2.1
      ∧ actual.2.2.Mirrors expected.2.2 := by
  induction steps generalizing h kept m mkept with
  | nil => exact ⟨rfl, hm, hkept⟩
  | cons step steps ih =>
      rw [List.forall_mem_cons] at hsteps
      obtain ⟨hanswer, hm, hkept⟩ := mirrors_perform hsteps.1 hm hkept
      obtain ⟨hanswers, hafter⟩ := ih hsteps.2 hm hkept
      exact ⟨congrArg₂ List.cons hanswer hanswers, hafter⟩

end

/-- **Headers are a map in the order of insertion**: whatever is done to them,
    with names in ASCII, they answer as a plain map does whose keys are the
    names in lower case, they hold the same fields in the same order, and they
    are tidy.  The same goes for those that were kept aside. -/
theorem agrees_run (steps : List (Step α))
    (hsteps : ∀ step ∈ steps, ∀ name ∈ step.names, name.isAscii) :
    (run steps).1 = (expectedRun steps).1
      ∧ (run steps).2.1.entries = (expectedRun steps).2.1.items
      ∧ (run steps).2.2.entries = (expectedRun steps).2.2.items
      ∧ (run steps).2.1.IsTidy ∧ (run steps).2.2.IsTidy := by
  obtain ⟨hanswers, hm, hkept⟩ := mirrors_runSteps hsteps mirrors_empty mirrors_empty
  exact ⟨hanswers, hm.entries_eq, hkept.entries_eq, hm.isTidy, hkept.isTidy⟩

/-- Names that differ in case are one, a copy goes its own way, and a name
    that is missing is looked for in lower case. -/
theorem agrees_run_of_mixed :
    let steps : List (Step Nat) := [
      .build [(text "ETag", 1), (text "content-TYPE", 2), (text "etag", 3)] [],
      .copy, .set (text "x-te-te") 4, .delete (text "ETAG"), .getItem (text "eTag"),
      .updateFromKept, .setDefault (text "X-Te-TE") 5, .swap, .pop (text "Missing") 6,
      .swap, .iterate, .size]
    (∀ step ∈ steps, ∀ name ∈ step.names, name.isAscii)
      ∧ (run steps).1 = (expectedRun steps).1
      ∧ (run steps).2.1.IsTidy
      ∧ (expectedRun steps).1 = [.done, .done, .done, .done, .missing (text "etag"), .done,
        .value 4, .done, .value 6, .done,
        .names [text "Content-Type", text "X-TE-Te", text "ETag"], .count 3] := by
  intro steps
  have hsteps : ∀ step ∈ steps, ∀ name ∈ step.names, name.isAscii := by decide +kernel
  obtain ⟨hanswers, -, -, htidy, -⟩ := agrees_run steps hsteps
  exact ⟨hsteps, hanswers, htidy, by decide +kernel⟩

end Headers

end CouchClient
