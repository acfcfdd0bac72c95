import CouchClient.Http.Headers
import CouchClient.Proofs.Text.Pieces
import CouchClient.Proofs.Url.Encodable

/-! # Names — the names of fields, stored and shown

    A name is stored in lower case and shown in a spelling of its own.  In
    ASCII the two differ in the case of letters only, so the name that is
    shown finds the field that is stored.

    * `CodePoint.exists_of_isAscii` — ASCII, sign by sign;
    * `Text.lower_of_isAscii`, `Text.toAsciiLower_capitalize` — what the case
      of a text does not change;
    * `Headers.IsStored` — names as they are stored;
    * `Headers.lower_displayName` — the name that is shown is looked up as the
      one that is stored. -/

namespace CouchClient

/-! ## Case -/

namespace CodePoint

variable {c : CodePoint}

/-- What holds of the first 128 characters holds of all ASCII. -/
theorem exists_of_isAscii (h : c.isAscii) :
    ∃ n : Fin 0x80, c = .char (Char.ofNat n.val) := by
  have hlow : c.toNat < 0x80 := of_decide_eq_true h
  cases c with
  | char c => exact ⟨⟨c.toNat, hlow⟩, congrArg CodePoint.char (Char.ofNat_toNat c).symm⟩
  | surrogate s =>
      simp only [toNat, Surrogate.toNat] at hlow
      omega

theorem isAscii_toAsciiLower (h : c.isAscii) : c.toAsciiLower.isAscii := by
  obtain ⟨n, rfl⟩ := exists_of_isAscii h
  revert n
  decide

theorem toAsciiLower_toAsciiLower (h : c.isAscii) :
    c.toAsciiLower.toAsciiLower = c.toAsciiLower := by
  obtain ⟨n, rfl⟩ := exists_of_isAscii h
  revert n
  decide

/-- The case of a letter is lost in lower case. -/
theorem toAsciiLower_toAsciiUpper (h : c.isAscii) :
    c.toAsciiUpper.toAsciiLower = c.toAsciiLower := by
  obtain ⟨n, rfl⟩ := exists_of_isAscii h
  revert n
  decide

/-- Only the capitals of ASCII have another lower case here. -/
theorem isAscii_of_toAsciiLower (h : c.toAsciiLower.isAscii) : c.isAscii := by
  cases c with
  | surrogate s => exact h
  | char c =>
      by_cases hcapital : c.val ≥ 'A'.val ∧ c.val ≤ 'Z'.val
      · have hlast : c.toNat ≤ 'Z'.toNat := UInt32.le_iff_toNat_le.mp hcapital.2
        exact decide_eq_true (Nat.lt_of_le_of_lt hlast (by decide))
      · have hsame : c.toLower = c := dif_neg hcapital
        rw [toAsciiLower, hsame] at h
        exact h

end CodePoint

namespace Text

variable {t u : Text}

theorem isAscii_iff : t.isAscii ↔ ∀ c ∈ t, c.isAscii := by
  simp [isAscii]

/-- A part of an ASCII text is in ASCII. -/
theorem isAscii_of_subset (h : t ⊆ u) (hu : u.isAscii) : t.isAscii := by
  rw [isAscii_iff] at hu ⊢
  intro c hc
  exact hu c (h hc)

theorem isAscii_toAsciiLower (h : t.isAscii) : (toAsciiLower t).isAscii := by
  rw [isAscii_iff] at h ⊢
  intro c hc
  obtain ⟨c', hc', rfl⟩ := List.mem_map.mp hc
  exact CodePoint.isAscii_toAsciiLower (h c' hc')

/-- A text whose lower-case form is in ASCII is so itself. -/
theorem isAscii_of_toAsciiLower (h : (toAsciiLower t).isAscii) : t.isAscii := by
  rw [isAscii_iff] at h ⊢
  intro c hc
  exact CodePoint.isAscii_of_toAsciiLower (h _ (List.mem_map_of_mem hc))

theorem toAsciiLower_toAsciiLower (h : t.isAscii) :
    toAsciiLower (toAsciiLower t) = toAsciiLower t := by
  rw [isAscii_iff] at h
  rw [toAsciiLower, toAsciiLower, List.map_map]
  refine List.map_congr_left ?_
  intro c hc
  exact CodePoint.toAsciiLower_toAsciiLower (h c hc)

/-- In ASCII the lower-case form is letter by letter. -/
theorem lower_of_isAscii (h : t.isAscii) : lower t = toAsciiLower t := if_pos h

/-- A capital at the start goes with the case. -/
theorem toAsciiLower_capitalize (h : t.isAscii) :
    toAsciiLower (capitalize t) = toAsciiLower t := by
  cases t with
  | nil => rfl
  | cons c rest =>
      rw [capitalize, if_pos h]
      rw [isAscii_iff, List.forall_mem_cons] at h
      show c.toAsciiUpper.toAsciiLower :: toAsciiLower (toAsciiLower rest) = _
      rw [CodePoint.toAsciiLower_toAsciiUpper h.1,
        toAsciiLower_toAsciiLower (isAscii_iff.mpr h.2)]
      rfl

/-- The sign between the pieces has no case. -/
theorem toAsciiLower_join {sep : CodePoint} (hsep : sep.toAsciiLower = sep)
    (pieces : List Text) :
    toAsciiLower (join [sep] pieces) = join [sep] (pieces.map toAsciiLower) := by
  induction pieces with
  | nil => rfl
  | cons piece pieces ih =>
      cases pieces with
      | nil => rw [List.map_singleton, join_singleton, join_singleton]
      | cons next pieces =>
          rw [List.map_cons] at ih
          rw [List.map_cons, List.map_cons, join_cons_cons, join_cons_cons, ← ih, toAsciiLower,
            List.map_append, List.map_cons, hsep]
          rfl

/-- Pieces joined by the separator are the text that was split. -/
theorem join_splitOn (sep : CodePoint) (t : Text) : join [sep] (splitOn sep t) = t := by
  rw [splitOn_eq]
  exact List.intercalate_splitOn sep

end Text

/-! ## Shown names -/

namespace Headers

variable {name : Text}

/-- A name as it is stored: ASCII in lower case. -/
structure IsStored (name : Text) : Prop where
  ascii : name.isAscii
  lower : Text.toAsciiLower name = name

/-- The lower-case form of an ASCII name is a stored name. -/
theorem isStored_toAsciiLower (h : name.isAscii) : IsStored (Text.toAsciiLower name) :=
  ⟨Text.isAscii_toAsciiLower h, Text.toAsciiLower_toAsciiLower h⟩

/-- A word in the place of one that differs in case only. -/
theorem map_toAsciiLower_replaceFirst {old new : Text}
    (h : Text.toAsciiLower old = Text.toAsciiLower new) (words : List Text) :
    (replaceFirst old new words).map Text.toAsciiLower
      = words.map Text.toAsciiLower := by
  induction words with
  | nil => rfl
  | cons w words ih =>
      rw [replaceFirst]
      by_cases hw : w = old
      · rw [if_pos hw, List.map_cons, List.map_cons, hw, h]
      · rw [if_neg hw, List.map_cons, List.map_cons, ih]

/-- Spelling words in another case changes none of their lower-case forms. -/
theorem map_toAsciiLower_spell {pairs : List (Text × Text)}
    (h : ∀ s ∈ pairs, Text.toAsciiLower s.1 = Text.toAsciiLower s.2) (words : List Text) :
    (pairs.foldl (fun words s => replaceFirst s.1 s.2 words) words).map Text.toAsciiLower
      = words.map Text.toAsciiLower := by
  induction pairs generalizing words with
  | nil => rfl
  | cons s pairs ih =>
      rw [List.forall_mem_cons] at h
      rw [List.foldl_cons, ih h.2, map_toAsciiLower_replaceFirst h.1]

/-- A name is shown in the letters that it has. -/
theorem toAsciiLower_displayName (h : name.isAscii) :
    Text.toAsciiLower (displayName name) = Text.toAsciiLower name := by
  have hspellings : ∀ s ∈ spellings, Text.toAsciiLower s.1 = Text.toAsciiLower s.2 := by
    decide
  have hwords : ((Text.splitOn (.char '-') name).map Text.capitalize).map Text.toAsciiLower
      = (Text.splitOn (.char '-') name).map Text.toAsciiLower := by
    rw [List.map_map]
    refine List.map_congr_left ?_
    intro word hword
    exact Text.toAsciiLower_capitalize
      (Text.isAscii_of_subset (Text.subset_of_mem_splitOn _ name word hword) h)
  calc Text.toAsciiLower (displayName name)
      = Text.join [.char '-'] ((Text.splitOn (.char '-') name).map Text.toAsciiLower) := by
        rw [displayName, Text.toAsciiLower_join rfl, map_toAsciiLower_spell hspellings, hwords]
    _ = Text.toAsciiLower (Text.join [.char '-'] (Text.splitOn (.char '-') name)) :=
        (Text.toAsciiLower_join rfl _).symm
    _ = Text.toAsciiLower name := by rw [Text.join_splitOn]

/-- The name that is shown is looked up as the name that it shows. -/
theorem lower_displayName (h : name.isAscii) :
    Text.lower (displayName name) = Text.toAsciiLower name := by
  have hshown := toAsciiLower_displayName h
  have hascii : (displayName name).isAscii := by
    refine Text.isAscii_of_toAsciiLower ?_
    rw [hshown]
    exact Text.isAscii_toAsciiLower h
  rw [Text.lower_of_isAscii hascii, hshown]

/-- Of a name that is stored, this is the name itself. -/
theorem IsStored.lower_displayName (h : IsStored name) :
    Text.lower (displayName name) = name := by
  rw [Headers.lower_displayName h.ascii, h.lower]

end Headers

end CouchClient
