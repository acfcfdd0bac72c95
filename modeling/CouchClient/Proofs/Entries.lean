import CouchClient.Entries
import Mathlib.Data.List.Nodup

/-! # Entries — what a map keeps of the pairs it was made from

    A key may come more than once among pairs.  The map that they make
    keeps one value for it:

    * `Entries.last?` — the value that comes last;
    * `get?_insert`, `get?_insertAll` — what insertions make of a value;
    * `get?_ofList` — so the map of some pairs has the last values;
    * `ofList_of_nodup` — and it is the pairs, if no key comes twice;
    * `keys_insert`, `keys_erase`, `get?_erase` — keys and their order;
    * `flatMap_perm`, `flatMap_insert_perm` — what a map of lists holds,
      apart from its other keys. -/

namespace CouchClient.Entries

variable {α β γ : Type} [DecidableEq α] {k : α} {v : β}
  {m pairs : List (α × β)}

/-- The value that a key has the last time that it comes. -/
def last? (k : α) (pairs : List (α × β)) : Option β := get? k pairs.reverse

/-! ## Values -/

/-- A key is looked up in the first list and then in the second. -/
theorem get?_append (l m : List (α × β)) :
    get? k (l ++ m) = (get? k l).or (get? k m) := by
  induction l with
  | nil => rfl
  | cons p l ih =>
      obtain ⟨k', v⟩ := p
      rw [List.cons_append, get?, get?]
      by_cases hk : k' = k
      · rw [if_pos hk, if_pos hk, Option.some_or]
      · rw [if_neg hk, if_neg hk, ih]

/-- The value that is found under a key is there with it. -/
theorem mem_of_get? (h : get? k m = some v) : (k, v) ∈ m := by
  induction m with
  | nil => cases h
  | cons p m ih =>
      obtain ⟨k', v'⟩ := p
      rw [get?] at h
      by_cases hk : k' = k
      · rw [if_pos hk] at h
        cases h
        subst hk
        exact List.mem_cons_self
      · rw [if_neg hk] at h
        exact List.mem_cons_of_mem _ (ih h)

/-- A key that comes once has the value that it comes with. -/
theorem get?_of_mem (hnodup : (m.map Prod.fst).Nodup) (h : (k, v) ∈ m) :
    get? k m = some v := by
  induction m with
  | nil => cases h
  | cons p m ih =>
      obtain ⟨k', v'⟩ := p
      rw [List.map_cons, List.nodup_cons] at hnodup
      rw [get?]
      rcases List.mem_cons.mp h with h | h
      · cases h
        exact if_pos rfl
      · have hk : k' ≠ k := by
          rintro rfl
          exact hnodup.1 (List.mem_map.mpr ⟨_, h, rfl⟩)
        rw [if_neg hk]
        exact ih hnodup.2 h

/-- Looking a key up in mapped values maps what is found. -/
theorem get?_map (g : β → γ) :
    get? k (m.map fun p => (p.1, g p.2)) = (get? k m).map g := by
  induction m with
  | nil => rfl
  | cons p m ih =>
      obtain ⟨k', v⟩ := p
      rw [List.map_cons, get?, get?]
      by_cases hk : k' = k
      · rw [if_pos hk, if_pos hk]
        rfl
      · rw [if_neg hk, if_neg hk]
        exact ih

/-! ## Insertions -/

/-- An inserted value is found under its key, and nothing else changes. -/
theorem get?_insert (k' : α) :
    get? k (insert k' v m) = if k' = k then some v else get? k m := by
  induction m with
  | nil => rfl
  | cons p m ih =>
      obtain ⟨k'', v'⟩ := p
      rw [insert, get?]
      by_cases hk' : k'' = k'
      · subst hk'
        rw [if_pos rfl, get?]
        by_cases hk : k'' = k
        · rw [if_pos hk, if_pos hk]
        · rw [if_neg hk, if_neg hk, if_neg hk]
      · rw [if_neg hk', get?]
        by_cases hk : k'' = k
        · rw [if_pos hk, if_pos hk, if_neg]
          rintro rfl
          exact hk' hk
        · rw [if_neg hk, if_neg hk, ih]

/-- The first of some pairs counts if its key does not come again. -/
theorem last?_cons (k' : α) :
    last? k ((k', v) :: pairs)
      = (last? k pairs).or (if k' = k then some v else none) := by
  rw [last?, List.reverse_cons, get?_append]
  rfl

/-- Of each key that is inserted the last value stands. -/
theorem get?_insertAll :
    get? k (insertAll m pairs) = (last? k pairs).or (get? k m) := by
  induction pairs generalizing m with
  | nil => rfl
  | cons p pairs ih =>
      obtain ⟨k', v⟩ := p
      rw [last?_cons, Option.or_assoc]
      refine (@ih (insert k' v m)).trans ?_
      rw [get?_insert]
      by_cases hk : k' = k
      · rw [if_pos hk, if_pos hk, Option.some_or]
      · rw [if_neg hk, if_neg hk, Option.none_or]

/-- The map of some pairs has the last value of each key. -/
theorem get?_ofList : get? k (ofList pairs) = last? k pairs := by
  rw [ofList, get?_insertAll]
  exact Option.or_none

theorem last?_map (g : β → γ) :
    last? k (pairs.map fun p => (p.1, g p.2)) = (last? k pairs).map g := by
  rw [last?, ← List.map_reverse, get?_map, last?]

theorem mem_of_last? (h : last? k pairs = some v) : (k, v) ∈ pairs :=
  List.mem_reverse.mp (mem_of_get? h)

/-- A key that is new comes last. -/
theorem insert_of_not_mem (h : k ∉ m.map Prod.fst) : insert k v m = m ++ [(k, v)] := by
  induction m with
  | nil => rfl
  | cons p m ih =>
      rw [List.map_cons, List.mem_cons, not_or] at h
      rw [insert, if_neg (Ne.symm h.1), ih h.2]
      rfl

/-- Inserting pairs whose keys are new puts them at the end. -/
theorem insertAll_of_nodup (h : ((m ++ pairs).map Prod.fst).Nodup) :
    insertAll m pairs = m ++ pairs := by
  induction pairs generalizing m with
  | nil => exact (List.append_nil m).symm
  | cons p pairs ih =>
      have hnew : p.1 ∉ m.map Prod.fst := by
        intro hmem
        rw [List.map_append, List.nodup_append] at h
        exact h.2.2 p.1 hmem p.1 List.mem_cons_self rfl
      rw [List.append_cons] at h ⊢
      rw [← ih h, ← insert_of_not_mem hnew]
      rfl

/-- Pairs with different keys are the map that they make. -/
theorem ofList_of_nodup (h : (pairs.map Prod.fst).Nodup) : ofList pairs = pairs :=
  insertAll_of_nodup h

/-- What is there after an insertion was inserted or was there before. -/
theorem mem_insert {k' : α} {v' : β} (h : (k', v') ∈ insert k v m) :
    (k' = k ∧ v' = v) ∨ (k', v') ∈ m := by
  induction m with
  | nil =>
      cases List.mem_singleton.mp h
      exact Or.inl ⟨rfl, rfl⟩
  | cons p m ih =>
      obtain ⟨k'', v''⟩ := p
      rw [insert] at h
      by_cases hk : k'' = k
      · rw [if_pos hk] at h
        rcases List.mem_cons.mp h with h | h
        · cases h
          exact Or.inl ⟨hk, rfl⟩
        · exact Or.inr (List.mem_cons_of_mem _ h)
      · rw [if_neg hk] at h
        rcases List.mem_cons.mp h with h | h
        · cases h
          exact Or.inr List.mem_cons_self
        · exact (ih h).imp_right (List.mem_cons_of_mem _)

/-- The map of some pairs holds no other ones. -/
theorem mem_of_mem_ofList {p : α × β} : p ∈ ofList pairs → p ∈ pairs := by
  suffices hall : ∀ m : List (α × β), p ∈ insertAll m pairs →
      p ∈ m ∨ p ∈ pairs by
    intro h
    exact (hall [] h).resolve_left List.not_mem_nil
  induction pairs with
  | nil =>
      intro m h
      exact Or.inl h
  | cons first rest ih =>
      intro m h
      rcases ih _ h with h | h
      · rcases mem_insert h with ⟨hk, hv⟩ | h
        · refine Or.inr (List.mem_cons.mpr (Or.inl ?_))
          exact Prod.ext hk hv
        · exact Or.inl h
      · exact Or.inr (List.mem_cons_of_mem first h)

/-! ## Keys -/

/-- A key that is there keeps its place, and a new one comes last. -/
theorem keys_insert :
    (insert k v m).map Prod.fst
      = if k ∈ m.map Prod.fst then m.map Prod.fst else m.map Prod.fst ++ [k] := by
  by_cases hk : k ∈ m.map Prod.fst
  · rw [if_pos hk]
    induction m with
    | nil => cases hk
    | cons p m ih =>
        obtain ⟨k', v'⟩ := p
        rw [insert]
        by_cases hsame : k' = k
        · rw [if_pos hsame]
          rfl
        · rw [if_neg hsame, List.map_cons, List.map_cons]
          rw [ih ((List.mem_cons.mp hk).resolve_left (Ne.symm hsame))]
  · rw [if_neg hk, insert_of_not_mem hk, List.map_append]
    rfl

/-- Erasing a key takes it from the keys. -/
theorem keys_erase (hnodup : (m.map Prod.fst).Nodup) :
    (erase k m).map Prod.fst = (m.map Prod.fst).filter (· ≠ k) := by
  induction m with
  | nil => rfl
  | cons p m ih =>
      obtain ⟨k', v'⟩ := p
      rw [List.map_cons, List.nodup_cons] at hnodup
      rw [erase, List.map_cons]
      by_cases hk : k' = k
      · subst hk
        rw [if_pos rfl, List.filter_cons_of_neg (by simp), List.filter_eq_self.mpr]
        intro k hk
        refine decide_eq_true ?_
        rintro rfl
        exact hnodup.1 hk
      · rw [if_neg hk, List.map_cons, ih hnodup.2, List.filter_cons_of_pos (by simpa using hk)]

/-- Nothing is found just under what is no key. -/
theorem get?_eq_none_iff : get? k m = none ↔ k ∉ m.map Prod.fst := by
  induction m with
  | nil => simp [get?]
  | cons p m ih =>
      obtain ⟨k', v'⟩ := p
      rw [get?, List.map_cons, List.mem_cons, not_or]
      by_cases hk : k' = k
      · simp [hk]
      · rw [if_neg hk, ih]
        simp [Ne.symm hk]

/-- Without a key, the other keys have their values. -/
theorem get?_erase (hnodup : (m.map Prod.fst).Nodup) (k' : α) :
    get? k (erase k' m) = if k' = k then none else get? k m := by
  by_cases hk : k' = k
  · subst hk
    rw [if_pos rfl, get?_eq_none_iff, keys_erase hnodup]
    simp
  · rw [if_neg hk]
    clear hnodup
    induction m with
    | nil => rfl
    | cons p m ih =>
        obtain ⟨k'', v⟩ := p
        rw [erase, get?]
        by_cases hk' : k'' = k'
        · rw [if_pos hk', if_neg]
          rintro rfl
          exact hk hk'.symm
        · rw [if_neg hk', get?, ih]

/-- A map whose keys come once is what it has for each of its keys. -/
theorem eq_filterMap_keys (hnodup : (m.map Prod.fst).Nodup) :
    (m.map Prod.fst).filterMap (fun k => (get? k m).map (k, ·)) = m := by
  rw [List.filterMap_map]
  refine (List.filterMap_congr ?_).trans List.filterMap_some
  intro p hp
  show (get? p.1 m).map (p.1, ·) = some p
  rw [get?_of_mem hnodup (Prod.eta p ▸ hp)]
  rfl

/-! ## Maps of lists -/

/-- A map of lists holds what it has for a key, and what it holds without
    the key. -/
theorem flatMap_perm (k : α) (m : List (α × List γ)) :
    (m.flatMap Prod.snd).Perm
      ((get? k m).getD [] ++ (erase k m).flatMap Prod.snd) := by
  induction m with
  | nil => exact List.Perm.nil
  | cons p m ih =>
      obtain ⟨k', cs⟩ := p
      rw [get?, erase]
      by_cases hk : k' = k
      · rw [if_pos hk, if_pos hk]
        exact List.Perm.refl _
      · rw [if_neg hk, if_neg hk, List.flatMap_cons, List.flatMap_cons]
        refine (ih.append_left cs).trans ?_
        rw [← List.append_assoc, ← List.append_assoc]
        exact List.perm_append_comm.append_right _

/-- The values after an insertion are the new one and those of the other keys,
    in some order. -/
theorem flatMap_insert_perm (k : α) (cs : List γ) (m : List (α × List γ)) :
    ((insert k cs m).flatMap Prod.snd).Perm
      (cs ++ (erase k m).flatMap Prod.snd) := by
  induction m with
  | nil => exact List.Perm.refl _
  | cons p m ih =>
      obtain ⟨k', cs'⟩ := p
      rw [insert, erase]
      by_cases hk : k' = k
      · rw [if_pos hk, if_pos hk]
        exact List.Perm.refl _
      · rw [if_neg hk, if_neg hk, List.flatMap_cons, List.flatMap_cons]
        refine (ih.append_left cs').trans ?_
        rw [← List.append_assoc, ← List.append_assoc]
        exact List.perm_append_comm.append_right _

end CouchClient.Entries
