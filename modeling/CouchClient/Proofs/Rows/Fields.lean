import CouchClient.Proofs.Entries
import CouchClient.Proofs.Rows.Listing
import Mathlib.Logic.Function.Basic

/-! # Fields — what a listing is, said of its entries alone

    A listing is read field by field, and a field that comes again is read
    again.  What the reading knows at the end can be said of the entries of
    the listing, without the order in which they were read.

    * `IsListing`, `ListingInfo.ofListing` — which objects are listings, and
      what they say about their rows;
    * `Lists` — the elements under a name, as they are written;
    * `fieldsGive_iff` — what fields give. -/

namespace CouchClient

open Json (Written ArrayAt ObjectAt entriesOf)

/-! ## Entries of a listing -/

namespace Json

/-- The value of an entry; one that is missing counts as null. -/
def entryOf (d : List (Text × Json)) (name : Text) : Json :=
  (Entries.get? name d).getD .null

/-- The elements of an array; nothing else has any. -/
def itemsOf : Json → List Json
  | .arr items => items
  | _ => []

/-- Null or a list of objects. -/
def IsRows : Json → Prop
  | .null => True
  | .arr items => ∀ item ∈ items, ∃ o, item = .obj o
  | _ => False

/-- Null or a whole number. -/
def IsCount : Json → Prop
  | .null => True
  | .int _ => True
  | _ => False

/-- Null, a string, or a whole number. -/
def IsSeq : Json → Prop
  | .null => True
  | .str _ => True
  | .int _ => True
  | _ => False

/-- Null or a string. -/
def IsWarning : Json → Prop
  | .null => True
  | .str _ => True
  | _ => False

/-- The number that stands for a count. -/
def count : Json → Int
  | .int n => n
  | _ => 0

/-- The text that stands for an update sequence: of a whole number its
    decimal text. -/
def seq : Json → Text
  | .str t => t
  | .int n => Text.ofInt n
  | _ => []

/-- The text that stands for a warning. -/
def warning : Json → Text
  | .str t => t
  | _ => []

end Json

/-- An object is a listing, `f` being the name of the field that holds the
    rows: of the other names four have a meaning, and the rest have none. -/
structure IsListing (f : Text) (d : List (Text × Json)) : Prop where
  rows : (Json.entryOf d f).IsRows
  totalRows : text "total_rows" ≠ f →
    (Json.entryOf d (text "total_rows")).IsCount
  offset : text "offset" ≠ f → (Json.entryOf d (text "offset")).IsCount
  updateSeq : text "update_seq" ≠ f →
    (Json.entryOf d (text "update_seq")).IsSeq
  warning : text "warning" ≠ f →
    (Json.entryOf d (text "warning")).IsWarning

namespace ListingInfo

/-- What is said by fields with the given values. -/
def ofFields (g : Text → Json) : ListingInfo where
  totalRows := (g (text "total_rows")).count
  offset := (g (text "offset")).count
  updateSeq := (g (text "update_seq")).seq
  warning := (g (text "warning")).warning

/-- What a listing says about its rows.  The field that holds them says
    nothing more. -/
def ofListing (f : Text) (d : List (Text × Json)) : ListingInfo :=
  ofFields fun name => if name = f then .null else Json.entryOf d name

/-- Whether the field with a name may have a value. -/
def Takes (name : Text) (v : Json) : Prop :=
  (name = text "total_rows" ∨ name = text "offset" → v.IsCount)
    ∧ (name = text "update_seq" → v.IsSeq)
    ∧ (name = text "warning" → v.IsWarning)

/-! ## Taking note of a field -/

/-- A count is read just from what is one. -/
theorem countOf_eq_ok_iff {name : Text} {v : Json} {n : Int} :
    countOf name v = .ok n ↔ v.IsCount ∧ n = v.count := by
  cases v with
  | null => exact ⟨fun h => ⟨trivial, (Except.ok.inj h).symm⟩, fun h => h.2 ▸ rfl⟩
  | int m => exact ⟨fun h => ⟨trivial, (Except.ok.inj h).symm⟩, fun h => h.2 ▸ rfl⟩
  | _ =>
      refine ⟨?_, fun h => h.1.elim⟩
      intro h
      cases h

/-- An update sequence is read just from what is one. -/
theorem updateSeqText_eq_ok_iff {v : Json} {t : Text} :
    updateSeqText v.toValue = .ok t ↔ v.IsSeq ∧ t = v.seq := by
  cases v with
  | null => exact ⟨fun h => ⟨trivial, (Except.ok.inj h).symm⟩, fun h => h.2 ▸ rfl⟩
  | str s => exact ⟨fun h => ⟨trivial, (Except.ok.inj h).symm⟩, fun h => h.2 ▸ rfl⟩
  | int m => exact ⟨fun h => ⟨trivial, (Except.ok.inj h).symm⟩, fun h => h.2 ▸ rfl⟩
  | _ =>
      rw [Json.toValue]
      refine ⟨?_, fun h => h.1.elim⟩
      intro h
      cases h

/-- A warning is read just from what is one. -/
theorem warningOf_eq_ok_iff {v : Json} {t : Text} :
    warningOf v = .ok t ↔ v.IsWarning ∧ t = v.warning := by
  cases v with
  | null => exact ⟨fun h => ⟨trivial, (Except.ok.inj h).symm⟩, fun h => h.2 ▸ rfl⟩
  | str s => exact ⟨fun h => ⟨trivial, (Except.ok.inj h).symm⟩, fun h => h.2 ▸ rfl⟩
  | _ =>
      refine ⟨?_, fun h => h.1.elim⟩
      intro h
      cases h

theorem bind_return_eq_ok_iff {ε α β : Type} {x : Except ε α} {g : α → β}
    {b : β} : (do return g (← x)) = .ok b ↔ ∃ a, x = .ok a ∧ b = g a := by
  cases x with
  | error e =>
      refine iff_of_false ?_ ?_
      · intro h
        cases h
      · rintro ⟨_, h, -⟩
        cases h
  | ok a =>
      constructor
      · intro h
        cases h
        exact ⟨a, rfl, rfl⟩
      · rintro ⟨a', ha, rfl⟩
        cases ha
        rfl

/-- A field is noted exactly if it may have its value, which then stands for
    the field. -/
theorem note_ofFields_eq_ok_iff {g : Text → Json} {name : Text} {v : Json}
    {info : ListingInfo} :
    (ofFields g).note name v = .ok info
      ↔ Takes name v ∧ info = ofFields (Function.update g name v) := by
  have hto : text "total_rows" ≠ text "offset" := by decide
  have htu : text "total_rows" ≠ text "update_seq" := by decide
  have htw : text "total_rows" ≠ text "warning" := by decide
  have hou : text "offset" ≠ text "update_seq" := by decide
  have how : text "offset" ≠ text "warning" := by decide
  have huw : text "update_seq" ≠ text "warning" := by decide
  rw [note, Takes, ofFields, ofFields]
  by_cases ht : name = text "total_rows"
  · subst ht
    rw [if_pos rfl, bind_return_eq_ok_iff]
    simp only [countOf_eq_ok_iff, and_assoc, exists_and_left, exists_eq_left,
      Function.update_self, Function.update_of_ne hto.symm,
      Function.update_of_ne htu.symm, Function.update_of_ne htw.symm, htu, htw,
      true_or, true_implies, false_implies, true_and]
  rw [if_neg ht, Function.update_of_ne (Ne.symm ht)]
  by_cases ho : name = text "offset"
  · subst ho
    rw [if_pos rfl, bind_return_eq_ok_iff]
    simp only [countOf_eq_ok_iff, and_assoc, exists_and_left, exists_eq_left,
      Function.update_self, Function.update_of_ne hou.symm,
      Function.update_of_ne how.symm, hou, how, or_true, true_implies,
      false_implies, true_and]
  rw [if_neg ho, Function.update_of_ne (Ne.symm ho)]
  by_cases hu : name = text "update_seq"
  · subst hu
    rw [if_pos rfl, bind_return_eq_ok_iff]
    simp only [updateSeqText_eq_ok_iff, and_assoc, exists_and_left,
      exists_eq_left, Function.update_self, Function.update_of_ne huw.symm, huw,
      ht, ho, or_self, true_implies, false_implies, true_and]
  rw [if_neg hu, Function.update_of_ne (Ne.symm hu)]
  by_cases hw : name = text "warning"
  · subst hw
    rw [if_pos rfl, bind_return_eq_ok_iff]
    simp only [warningOf_eq_ok_iff, and_assoc, exists_and_left, exists_eq_left,
      Function.update_self, ht, ho, hu, or_self, true_implies, false_implies,
      true_and]
  · rw [if_neg hw, Function.update_of_ne (Ne.symm hw)]
    simp only [ht, ho, hu, hw, or_self, false_implies, true_and]
    exact ⟨fun h => (Except.ok.inj h).symm, fun h => congrArg _ h.symm⟩

end ListingInfo

/-! ## Elements under a name -/

/-- The elements of the arrays that stand under a name, one field after the
    other; null has none. -/
inductive Lists (f : Text) : List (Text × Written) → List Written → Prop
  | nil : Lists f [] []
  | null {w : Written} {fields : List (Text × Written)} {ws : List Written}
      (hnull : w.value = .null) (hmore : Lists f fields ws) :
      Lists f ((f, w) :: fields) ws
  | array {w : Written} {fields : List (Text × Written)} {ws ws' : List Written}
      (harray : ArrayAt (w.raw ++ w.after) ws w.after)
      (hmore : Lists f fields ws') : Lists f ((f, w) :: fields) (ws ++ ws')
  | other {name : Text} {w : Written} {fields : List (Text × Written)}
      {ws : List Written} (hname : name ≠ f) (hmore : Lists f fields ws) :
      Lists f ((name, w) :: fields) ws

/-- The elements under a name: those of all its values, in their order. -/
def itemsUnder (f : Text) (entries : List (Text × Json)) : List Json :=
  (entries.filter fun e => e.1 = f).flatMap fun e => e.2.itemsOf

section
variable {f name : Text} {v : Json} {entries : List (Text × Json)}

theorem itemsUnder_cons_self :
    itemsUnder f ((f, v) :: entries) = v.itemsOf ++ itemsUnder f entries := by
  rw [itemsUnder, List.filter_cons_of_pos, List.flatMap_cons, itemsUnder]
  exact decide_eq_true rfl

theorem itemsUnder_cons_of_ne (hname : name ≠ f) :
    itemsUnder f ((name, v) :: entries) = itemsUnder f entries := by
  rw [itemsUnder, List.filter_cons_of_neg, itemsUnder]
  exact fun h => hname (of_decide_eq_true h)

end

section
variable {f : Text} {fields : List (Text × Written)} {ws : List Written}

/-- The elements of the listed arrays are written where they stand. -/
theorem Lists.opens (h : Lists f fields ws) :
    ∀ w ∈ ws, w.Opens (w.raw ++ w.after) := by
  induction h with
  | nil => exact fun w hw => (List.not_mem_nil hw).elim
  | null _ _ ih => exact ih
  | array harray _ ih =>
      intro w hw
      rcases List.mem_append.mp hw with hw | hw
      · exact harray.opens w hw
      · exact ih w hw
  | other _ _ ih => exact ih

/-- The value of a written array is the values of its elements. -/
theorem value_of_arrayAt {w : Written} (hopens : w.Opens (w.raw ++ w.after))
    (harray : ArrayAt (w.raw ++ w.after) ws w.after) :
    w.value = .arr (ws.map Written.value) := by
  have hparse := Json.parse_eq_arr_iff.mpr ⟨ws, harray, rfl⟩
  exact congrArg Prod.fst (Except.ok.inj (hopens.reads.symm.trans hparse))

/-- The elements as they are written have the values under the name. -/
theorem Lists.map_value (h : Lists f fields ws)
    (hopens : ∀ m ∈ fields, m.2.Opens (m.2.raw ++ m.2.after)) :
    ws.map Written.value = itemsUnder f (entriesOf fields) := by
  induction h with
  | nil => rfl
  | @null w fields ws hnull _ ih =>
      show _ = itemsUnder f ((f, w.value) :: entriesOf fields)
      rw [itemsUnder_cons_self, hnull,
        ih fun m hm => hopens m (List.mem_cons_of_mem _ hm)]
      rfl
  | @array w fields ws ws' harray _ ih =>
      show _ = itemsUnder f ((f, w.value) :: entriesOf fields)
      rw [itemsUnder_cons_self, List.map_append,
        value_of_arrayAt (hopens _ List.mem_cons_self) harray,
        ih fun m hm => hopens m (List.mem_cons_of_mem _ hm)]
      rfl
  | @other name w fields ws hname _ ih =>
      show _ = itemsUnder f ((name, w.value) :: entriesOf fields)
      rw [itemsUnder_cons_of_ne hname,
        ih fun m hm => hopens m (List.mem_cons_of_mem _ hm)]

/-- Fields whose elements are objects hold rows. -/
theorem isRows_of_lists
    (hopens : ∀ m ∈ fields, m.2.Opens (m.2.raw ++ m.2.after)) {ws : List Written}
    (hws : Lists f fields ws) (hobjects : ∀ w ∈ ws, ∃ o, w.value = .obj o) :
    ∀ m ∈ fields, m.1 = f → m.2.value.IsRows := by
  induction hws with
  | nil => exact fun m hm => (List.not_mem_nil hm).elim
  | null hnull _ ih =>
      intro m hm hname
      rcases List.mem_cons.mp hm with rfl | hm
      · rw [hnull]
        trivial
      · exact ih (fun m hm => hopens m (List.mem_cons_of_mem _ hm)) hobjects m
          hm hname
  | array harray _ ih =>
      intro m hm hname
      rcases List.mem_cons.mp hm with rfl | hm
      · rw [value_of_arrayAt (hopens _ List.mem_cons_self) harray]
        intro item hitem
        obtain ⟨w, hw, rfl⟩ := List.mem_map.mp hitem
        exact hobjects w (List.mem_append_left _ hw)
      · exact ih (fun m hm => hopens m (List.mem_cons_of_mem _ hm))
          (fun w hw => hobjects w (List.mem_append_right _ hw)) m hm hname
  | other hne _ ih =>
      intro m hm hname
      rcases List.mem_cons.mp hm with rfl | hm
      · exact (hne hname).elim
      · exact ih (fun m hm => hopens m (List.mem_cons_of_mem _ hm)) hobjects m
          hm hname

/-- Where each field of the rows holds some, their elements can be listed. -/
theorem exists_lists_of_isRows
    (hopens : ∀ m ∈ fields, m.2.Opens (m.2.raw ++ m.2.after))
    (hrows : ∀ m ∈ fields, m.1 = f → m.2.value.IsRows) :
    ∃ ws, Lists f fields ws ∧ ∀ w ∈ ws, ∃ o, w.value = .obj o := by
  induction fields with
  | nil => exact ⟨[], .nil, fun w hw => (List.not_mem_nil hw).elim⟩
  | cons m fields ih =>
      obtain ⟨name, w⟩ := m
      obtain ⟨ws, hws, hobjects⟩ :=
        ih (fun m hm => hopens m (List.mem_cons_of_mem _ hm))
          fun m hm => hrows m (List.mem_cons_of_mem _ hm)
      by_cases hname : name = f
      · subst hname
        have hvalue : w.value.IsRows := hrows _ List.mem_cons_self rfl
        have hopens' : w.Opens _ := hopens _ List.mem_cons_self
        cases hcase : w.value with
        | null => exact ⟨ws, .null hcase hws, hobjects⟩
        | arr items =>
            -- the elements are read off the text of the array
            have hreads := hopens'.reads
            rw [hcase] at hvalue hreads
            obtain ⟨ws', harray, rfl⟩ := Json.parse_eq_arr_iff.mp hreads
            refine ⟨ws' ++ ws, .array harray hws, ?_⟩
            intro w' hw'
            rcases List.mem_append.mp hw' with hw' | hw'
            · exact hvalue _ (List.mem_map_of_mem hw')
            · exact hobjects w' hw'
        | _ =>
            rw [hcase] at hvalue
            exact hvalue.elim
      · exact ⟨ws, .other hname hws, hobjects⟩

/-- The elements under a name are objects exactly if all its values are
    rows. -/
theorem exists_lists_iff
    (hopens : ∀ m ∈ fields, m.2.Opens (m.2.raw ++ m.2.after)) :
    (∃ ws, Lists f fields ws ∧ ∀ w ∈ ws, ∃ o, w.value = .obj o)
      ↔ ∀ m ∈ fields, m.1 = f → m.2.value.IsRows := by
  constructor
  · rintro ⟨ws, hws, hobjects⟩
    exact isRows_of_lists hopens hws hobjects
  · intro hrows
    exact exists_lists_of_isRows hopens hrows

end

/-! ## What fields give -/

namespace Reading

variable {f : Text} {fields : List (Text × Written)} {rows : List (Row × Text)}
  {info : ListingInfo}

/-- The members of an element fit, if it is an object. -/
def MembersFit [L : Limits] (w : Written) : Prop :=
  ∀ ms, ObjectAt (w.raw ++ w.after) ms w.after → ∀ m ∈ ms, m.2.Fits

/-- Elements write rows exactly if they are objects whose members fit. -/
theorem exists_writesRow_iff [L : Limits] {ws : List Written}
    (hopens : ∀ w ∈ ws, w.Opens (w.raw ++ w.after)) :
    (∃ rows, List.Forall₂ WritesRow ws rows)
      ↔ (∀ w ∈ ws, ∃ o, w.value = .obj o) ∧ ∀ w ∈ ws, MembersFit w := by
  constructor
  · rintro ⟨rows, hrows⟩
    induction hrows with
    | nil => exact ⟨List.forall_mem_nil _, List.forall_mem_nil _⟩
    | cons hwrites _ ih =>
        rw [List.forall_mem_cons] at hopens
        obtain ⟨hobjects, hmembers⟩ := ih hopens.2
        obtain ⟨ms, hms, hfit, -⟩ := hwrites
        have hparse := Json.parse_eq_obj_iff.mpr ⟨ms, hms, rfl⟩
        have hvalue := congrArg Prod.fst
          (Except.ok.inj (hopens.1.reads.symm.trans hparse))
        refine ⟨List.forall_mem_cons.mpr ⟨⟨_, hvalue⟩, hobjects⟩,
          List.forall_mem_cons.mpr ⟨?_, hmembers⟩⟩
        intro ms' hms'
        obtain ⟨rfl, -⟩ := hms.unique hms'
        exact hfit
  · rintro ⟨hobjects, hmembers⟩
    induction ws with
    | nil => exact ⟨[], .nil⟩
    | cons w ws ih =>
        rw [List.forall_mem_cons] at hopens hobjects hmembers
        obtain ⟨rows, hrows⟩ := ih hopens.2 hobjects.2 hmembers.2
        obtain ⟨o, ho⟩ := hobjects.1
        have hreads := hopens.1.reads
        rw [ho] at hreads
        obtain ⟨ms, hms, -⟩ := Json.parse_eq_obj_iff.mp hreads
        exact ⟨_, .cons ⟨ms, hms, hmembers.1 ms hms, rfl⟩ hrows⟩

/-- The values of the fields of a listing once all have been read: a field
    under the name of the rows changes none, and of the others the last one
    with a name counts. -/
def settle (f : Text) (fields : List (Text × Written)) (g : Text → Json) :
    Text → Json := fun name =>
  if name = f then g name
  else (Entries.last? name (entriesOf fields)).getD (g name)

theorem settle_cons_self {w : Written} {g : Text → Json} :
    settle f ((f, w) :: fields) g = settle f fields g := by
  funext name
  rw [settle, settle]
  by_cases hname : name = f
  · rw [if_pos hname, if_pos hname]
  · rw [if_neg hname, if_neg hname, entriesOf, List.map_cons,
      Entries.last?_cons, if_neg (Ne.symm hname), Option.or_none, entriesOf]

/-- A field of another name settles its name, unless it comes again. -/
theorem settle_cons_of_ne {name : Text} {w : Written} {g : Text → Json}
    (hname : name ≠ f) : settle f ((name, w) :: fields) g
      = settle f fields (Function.update g name w.value) := by
  funext name'
  rw [settle, settle]
  by_cases hname' : name' = f
  · subst hname'
    rw [if_pos rfl, if_pos rfl, Function.update_of_ne hname.symm]
  · rw [if_neg hname', if_neg hname', entriesOf, List.map_cons,
      Entries.last?_cons, ← entriesOf]
    cases Entries.last? name' (entriesOf fields) with
    | some v => rfl
    | none =>
        rw [Option.none_or]
        by_cases hsame : name = name'
        · subst hsame
          rw [if_pos rfl, Function.update_self]
          rfl
        · rw [if_neg hsame, Function.update_of_ne (Ne.symm hsame)]

/-- Where the rows are due there is null, or an array of elements that write
    them. -/
theorem rowsAt_iff [L : Limits] {w : Written} (hopens : w.Opens (w.raw ++ w.after)) :
    RowsAt (w.raw ++ w.after) rows w.after
      ↔ w.value = .null ∧ rows = []
        ∨ ∃ ws, ArrayAt (w.raw ++ w.after) ws w.after
          ∧ List.Forall₂ WritesRow ws rows := by
  constructor
  · intro h
    generalize ht : w.raw ++ w.after = t at h hopens
    generalize hrest : w.after = rest at h
    cases h with
    | null hopens' hnull =>
        cases hopens'.unique hopens
        exact .inl ⟨hnull, rfl⟩
    | array harray hrows => exact .inr ⟨_, harray, hrows⟩
  · rintro (⟨hnull, rfl⟩ | ⟨ws, harray, hrows⟩)
    · exact .null hopens hnull
    · exact .array harray hrows

/-- What fields give: the rows that the elements under the name of the rows
    write, and what the other fields say, if they fit and may have their
    values. -/
theorem fieldsGive_iff [L : Limits] {g : Text → Json}
    (hopens : ∀ m ∈ fields, m.2.Opens (m.2.raw ++ m.2.after)) :
    FieldsGive f (.ofFields g) fields rows info
      ↔ (∃ ws, Lists f fields ws ∧ List.Forall₂ WritesRow ws rows)
        ∧ (∀ m ∈ fields, m.1 ≠ f →
          m.2.Fits ∧ ListingInfo.Takes m.1 m.2.value)
        ∧ info = .ofFields (settle f fields g) := by
  induction fields generalizing g rows info with
  | nil =>
      have hsettle : settle f [] g = g := funext fun name => ite_self (g name)
      rw [hsettle]
      constructor
      · intro h
        cases h
        exact ⟨⟨[], .nil, .nil⟩, fun m hm => (List.not_mem_nil hm).elim, rfl⟩
      · rintro ⟨⟨ws, hws, hrows⟩, -, rfl⟩
        cases hws
        cases hrows
        exact .nil
  | cons m fields ih =>
      obtain ⟨name, w⟩ := m
      have hw : w.Opens _ := hopens _ List.mem_cons_self
      have hmore : ∀ m ∈ fields, m.2.Opens (m.2.raw ++ m.2.after) :=
        fun m hm => hopens m (List.mem_cons_of_mem _ hm)
      constructor
      · intro h
        cases h with
        | cons hfield hrest =>
            cases hfield with
            | rows hat =>
                obtain ⟨⟨ws, hws, hrs⟩, htakes, hinfo⟩ := (ih hmore).mp hrest
                rw [settle_cons_self]
                refine ⟨?_, ?_, hinfo⟩
                · rcases (rowsAt_iff hw).mp hat with
                    ⟨hnull, rfl⟩ | ⟨ws', harray, hrows⟩
                  · exact ⟨ws, .null hnull hws, hrs⟩
                  · exact ⟨_, .array harray hws, List.rel_append hrows hrs⟩
                · intro m hm hne
                  rcases List.mem_cons.mp hm with rfl | hm
                  · exact (hne rfl).elim
                  · exact htakes m hm hne
            | note hname hfits hnote =>
                obtain ⟨htake, rfl⟩ :=
                  ListingInfo.note_ofFields_eq_ok_iff.mp hnote
                obtain ⟨⟨ws, hws, hrs⟩, htakes, hinfo⟩ := (ih hmore).mp hrest
                rw [settle_cons_of_ne hname]
                refine ⟨⟨ws, .other hname hws, hrs⟩, ?_, hinfo⟩
                intro m hm hne
                rcases List.mem_cons.mp hm with rfl | hm
                · exact ⟨hfits, htake⟩
                · exact htakes m hm hne
      · rintro ⟨⟨ws, hws, hrs⟩, htakes, rfl⟩
        have htakes' : ∀ m ∈ fields, m.1 ≠ f →
            m.2.Fits ∧ ListingInfo.Takes m.1 m.2.value :=
          fun m hm => htakes m (List.mem_cons_of_mem _ hm)
        cases hws with
        | null hnull hws =>
            have hfield : FieldGives f (.ofFields g) f w [] (.ofFields g) :=
              .rows ((rowsAt_iff hw).mpr (.inl ⟨hnull, rfl⟩))
            rw [settle_cons_self]
            exact .cons hfield ((ih hmore).mpr ⟨⟨ws, hws, hrs⟩, htakes', rfl⟩)
        | @array _ _ ws ws' harray hws =>
            -- the first rows are those of this value, the others come later
            have hfirst := (List.forall₂_take_append _ _ _ hrs.flip).flip
            have hothers := (List.forall₂_drop_append _ _ _ hrs.flip).flip
            have hfield : FieldGives f (.ofFields g) f w (rows.take ws.length)
                (.ofFields g) :=
              .rows ((rowsAt_iff hw).mpr (.inr ⟨ws, harray, hfirst⟩))
            rw [settle_cons_self, ← List.take_append_drop ws.length rows]
            exact .cons hfield
              ((ih hmore).mpr ⟨⟨ws', hws, hothers⟩, htakes', rfl⟩)
        | other hname hws =>
            obtain ⟨hfits, htake⟩ := htakes _ List.mem_cons_self hname
            have hfield : FieldGives f (.ofFields g) name w []
                (.ofFields (Function.update g name w.value)) :=
              .note hname hfits
                (ListingInfo.note_ofFields_eq_ok_iff.mpr ⟨htake, rfl⟩)
            rw [settle_cons_of_ne hname]
            exact .cons hfield ((ih hmore).mpr ⟨⟨ws, hws, hrs⟩, htakes', rfl⟩)

end Reading

/-! ## Listings -/

section
variable {f name : Text} {fields : List (Text × Written)}

theorem entryOf_ofList : Json.entryOf (Entries.ofList (entriesOf fields)) name
    = (Entries.last? name (entriesOf fields)).getD .null := by
  rw [Json.entryOf, Entries.get?_ofList]

/-- The value of an entry is null or that of a field with its name. -/
theorem entryOf_cases (fields : List (Text × Written)) (name : Text) :
    Json.entryOf (Entries.ofList (entriesOf fields)) name = .null
      ∨ ∃ m ∈ fields, m.1 = name
        ∧ Json.entryOf (Entries.ofList (entriesOf fields)) name = m.2.value := by
  rw [entryOf_ofList]
  cases hlast : Entries.last? name (entriesOf fields) with
  | none => exact .inl rfl
  | some v =>
      obtain ⟨m, hm, hv⟩ := List.mem_map.mp (Entries.mem_of_last? hlast)
      cases hv
      exact .inr ⟨m, hm, rfl, rfl⟩

/-- Fields that all may have their values make a listing. -/
theorem isListing_of_fields
    (hrows : ∀ m ∈ fields, m.1 = f → m.2.value.IsRows)
    (htakes : ∀ m ∈ fields, m.1 ≠ f → ListingInfo.Takes m.1 m.2.value) :
    IsListing f (Entries.ofList (entriesOf fields)) := by
  have htake (name : Text) (hname : name ≠ f) : ListingInfo.Takes name
      (Json.entryOf (Entries.ofList (entriesOf fields)) name) := by
    rcases entryOf_cases fields name with hnull | ⟨m, hm, rfl, hvalue⟩
    · rw [hnull]
      exact ⟨fun _ => trivial, fun _ => trivial, fun _ => trivial⟩
    · rw [hvalue]
      exact htakes m hm hname
  constructor
  · rcases entryOf_cases fields f with hnull | ⟨m, hm, hname, hvalue⟩
    · rw [hnull]
      trivial
    · rw [hvalue]
      exact hrows m hm hname
  · exact fun hname => (htake _ hname).1 (.inl rfl)
  · exact fun hname => (htake _ hname).1 (.inr rfl)
  · exact fun hname => (htake _ hname).2.1 rfl
  · exact fun hname => (htake _ hname).2.2 rfl

/-- The information on a listing is what its fields settle. -/
theorem ofListing_eq : ListingInfo.ofListing f (Entries.ofList (entriesOf fields))
    = .ofFields (Reading.settle f fields fun _ => .null) := by
  rw [ListingInfo.ofListing]
  congr 1
  funext name
  rw [Reading.settle, entryOf_ofList]

end

end CouchClient
