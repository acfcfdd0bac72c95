import CouchClient.Proofs.Text.Pieces
import CouchClient.Proofs.Url.Encodable
import Mathlib.Data.List.TakeWhile

/-! # Quoting — what is quoted is read back

    A text without surrogates is quoted by its UTF-8 bytes, in paths and in
    queries.  Quoted text holds none of the signs that delimit the parts of a
    URL, so a path is taken apart into its segments again, and a query into
    its pairs.

    * `quoted`, `quotedQuery`, `writtenPath`, `writtenQuery` — quoted texts,
      and what paths and queries are made of them;
    * `unquote_quoted`, `unquoteQuery_quotedQuery` — quoting is undone;
    * `segments_writtenPath`, `readQuery_writtenQuery` — paths and queries
      are read back;
    * `AreWritable`, `pathPart`, `extend_of_areWritable` — the parts that URLs
      are built from, and the URLs. -/

namespace CouchClient

namespace Url

variable {t : Text}

/-! ## Quoted bytes -/

theorem toNat_charOf (b : UInt8) : (Char.ofNat b.toNat).toNat = b.toNat := by
  have hb := b.toNat_lt
  exact Utf8.toNat_char (Or.inl (by omega))

/-- A hexadecimal digit is read as its value. -/
theorem hexValue?_hexDigit (n : Nat) : (hexDigit n).hexValue? = some (n % 16) := by
  have h : ∀ d : Fin 16, (CodePoint.char d.val.digitChar.toUpper).hexValue?
      = some d.val := by decide
  exact h ⟨n % 16, Nat.mod_lt n (by decide)⟩

/-- The signs that quoted text is made of. -/
def isQuotedSign : CodePoint → Bool
  | .char c => c.isAlphanum || c == '_' || c == '.' || c == '-' || c == '~'
      || c == '%'
  | .surrogate _ => false

theorem isQuotedSign_hexDigit (n : Nat) : isQuotedSign (hexDigit n) := by
  have h : ∀ d : Fin 16, isQuotedSign (.char d.val.digitChar.toUpper) := by
    decide
  exact h ⟨n % 16, Nat.mod_lt n (by decide)⟩

/-- A byte is quoted in signs that need no quoting, and the percent sign. -/
theorem isQuotedSign_of_mem_quoteByte {b : UInt8} {c : CodePoint}
    (h : c ∈ quoteByte b) : isQuotedSign c := by
  rw [quoteByte] at h
  split at h
  · next hunreserved =>
      rw [List.mem_singleton.mp h]
      exact Bool.or_eq_true_iff.mpr (Or.inl hunreserved)
  · rw [percent, List.mem_cons, List.mem_cons, List.mem_singleton] at h
    obtain rfl | rfl | rfl := h
    · rfl
    · exact isQuotedSign_hexDigit _
    · exact isQuotedSign_hexDigit _

/-- A sign that is not a percent sign stands for itself. -/
theorem unquoteRun_cons {c : CodePoint} (h : c ≠ .char '%') (rest : Text) :
    unquoteRun (c :: rest) = .ofNat c.toNat :: unquoteRun rest := by
  rw [unquoteRun]
  rintro _ _ _ rfl
  exact absurd rfl h

/-- A byte behind a percent sign is read as itself. -/
theorem unquoteRun_percent (b : UInt8) (rest : Text) :
    unquoteRun (percent b ++ rest) = b :: unquoteRun rest := by
  have hb := b.toNat_lt
  show unquoteRun (.char '%' :: hexDigit (b.toNat / 16) :: hexDigit b.toNat
    :: rest) = _
  rw [unquoteRun, hexValue?_hexDigit, hexValue?_hexDigit]
  dsimp only
  rw [show b.toNat / 16 % 16 * 16 + b.toNat % 16 = b.toNat by omega,
    UInt8.ofNat_toNat]

/-- A quoted byte is read as itself. -/
theorem unquoteRun_quoteByte (b : UInt8) (rest : Text) :
    unquoteRun (quoteByte b ++ rest) = b :: unquoteRun rest := by
  rw [quoteByte]
  split
  · next hunreserved =>
      have hsign : CodePoint.char (Char.ofNat b.toNat) ≠ .char '%' := by
        intro h
        rw [isUnreserved, CodePoint.char.inj h] at hunreserved
        exact absurd hunreserved (by decide)
      rw [List.singleton_append, unquoteRun_cons hsign]
      show UInt8.ofNat (Char.ofNat b.toNat).toNat :: _ = _
      rw [toNat_charOf, UInt8.ofNat_toNat]
  · exact unquoteRun_percent b rest

/-! ## Quoted texts -/

/-- A text without surrogates as it stands in a path. -/
def quoted (t : Text) : Text := (Utf8.bytes t).flatMap quoteByte

/-- A text without surrogates as it stands in a query. -/
def quotedQuery (t : Text) : Text := (Utf8.bytes t).flatMap quoteQueryByte

theorem toNat_of_isAlphanum {c : Char} (h : c.isAlphanum) : c.toNat < 0x80 := by
  have hbound {last : UInt32} (h : c.val ≤ last) (hlast : last.toNat < 0x80) :
      c.toNat < 0x80 :=
    Nat.lt_of_le_of_lt (UInt32.le_iff_toNat_le.mp h) hlast
  obtain hletter | hdigit := Bool.or_eq_true_iff.mp h
  · obtain hupper | hlower := Bool.or_eq_true_iff.mp hletter
    · exact hbound (of_decide_eq_true hupper).2 (by decide)
    · exact hbound (of_decide_eq_true (Bool.and_eq_true_iff.mp hlower).2) (by decide)
  · exact hbound (of_decide_eq_true (Bool.and_eq_true_iff.mp hdigit).2) (by decide)

/-- What stands in quoted texts is in ASCII. -/
theorem isAscii_of_isQuotedSign {c : CodePoint} (h : isQuotedSign c) :
    c.isAscii := by
  cases c with
  | surrogate s => cases h
  | char c =>
      simp only [isQuotedSign, Bool.or_eq_true, beq_iff_eq] at h
      obtain ((((h | rfl) | rfl) | rfl) | rfl) | rfl := h
      · exact decide_eq_true (toNat_of_isAlphanum h)
      all_goals rfl

/-- A quoted text is made of the signs that stand in quoted texts. -/
theorem isQuotedSign_of_mem_quoted {c : CodePoint} (h : c ∈ quoted t) :
    isQuotedSign c := by
  obtain ⟨b, -, hb⟩ := List.mem_flatMap.mp h
  exact isQuotedSign_of_mem_quoteByte hb

/-- A query holds plus signs, which stand for spaces, beside the signs of
    quoted text. -/
theorem isQuotedSign_of_mem_quotedQuery {c : CodePoint} (h : c ∈ quotedQuery t) :
    c = .char '+' ∨ isQuotedSign c := by
  obtain ⟨b, -, hb⟩ := List.mem_flatMap.mp h
  rw [quoteQueryByte] at hb
  split at hb
  · exact Or.inl (List.mem_singleton.mp hb)
  · exact Or.inr (isQuotedSign_of_mem_quoteByte hb)

/-- No other sign stands in a quoted text. -/
theorem not_mem_quoted {c : CodePoint} (h : isQuotedSign c = false) :
    c ∉ quoted t := by
  intro hc
  rw [isQuotedSign_of_mem_quoted hc] at h
  cases h

/-- No other sign but a plus stands in a text quoted for a query. -/
theorem not_mem_quotedQuery {c : CodePoint} (h : isQuotedSign c = false)
    (hplus : c ≠ .char '+') : c ∉ quotedQuery t := by
  intro hc
  obtain hc | hc := isQuotedSign_of_mem_quotedQuery hc
  · exact hplus hc
  · rw [hc] at h
    cases h

/-! ## Reading quoted texts -/

/-- A text in ASCII is one run. -/
theorem unquote_of_isAscii (h : ∀ c ∈ t, CodePoint.isAscii c) :
    unquote t = Utf8.readLossy (unquoteRun t) := by
  cases t with
  | nil =>
      rw [unquote, unquoteRun, Utf8.readLossy, Utf8.readLossyOnto]
      rfl
  | cons c rest =>
      have hrest : ∀ c ∈ rest, CodePoint.isAscii c := by
        intro c' hc'
        exact h c' (List.mem_cons_of_mem c hc')
      rw [unquote, if_pos (h c List.mem_cons_self),
        List.takeWhile_eq_self_iff.mpr hrest, List.dropWhile_eq_nil_iff.mpr hrest,
        unquote, List.append_nil]

/-- Bytes that are each read back are all read back. -/
theorem unquoteRun_flatMap {quoteOne : UInt8 → Text}
    (h : ∀ b rest, unquoteRun (quoteOne b ++ rest) = b :: unquoteRun rest)
    (bs : Bytes) : unquoteRun (bs.flatMap quoteOne) = bs := by
  induction bs with
  | nil => rw [List.flatMap_nil, unquoteRun]
  | cons b bs ih => rw [List.flatMap_cons, h, ih]

/-- Unquoting a quoted text gives the text. -/
theorem unquote_quoted (h : t.isWellFormed) : unquote (quoted t) = t := by
  have hascii : ∀ c ∈ quoted t, CodePoint.isAscii c := by
    intro c hc
    exact isAscii_of_isQuotedSign (isQuotedSign_of_mem_quoted hc)
  rw [unquote_of_isAscii hascii, quoted, unquoteRun_flatMap unquoteRun_quoteByte,
    Utf8.readLossy_bytes h]

/-- Quoting leaves something of a text that is not empty. -/
theorem quoted_ne_nil (h : t.isWellFormed) (hne : t ≠ []) : quoted t ≠ [] := by
  intro hnil
  have hread := unquote_quoted h
  -- an empty text is read back as one
  rw [hnil, unquote] at hread
  exact hne hread.symm

/-- The space that a plus sign of a query stands for. -/
def spaceOf (c : CodePoint) : CodePoint :=
  if c = .char '+' then .char ' ' else c

theorem spaceOf_of_isQuotedSign {c : CodePoint} (h : isQuotedSign c) :
    spaceOf c = c := by
  refine if_neg ?_
  rintro rfl
  cases h

/-- A byte quoted for a query is read as itself, its plus as a space. -/
theorem unquoteRun_spaceOf (b : UInt8) (rest : Text) :
    unquoteRun ((quoteQueryByte b).map spaceOf ++ rest) = b :: unquoteRun rest := by
  rw [quoteQueryByte]
  split
  · next hspace =>
      rw [hspace]
      exact unquoteRun_cons (by decide) rest
  · have hsame : (quoteByte b).map spaceOf = (quoteByte b).map id := by
      refine List.map_congr_left ?_
      intro c hc
      exact spaceOf_of_isQuotedSign (isQuotedSign_of_mem_quoteByte hc)
    rw [hsame, List.map_id, unquoteRun_quoteByte]

/-- Unquoting a text quoted for a query gives the text. -/
theorem unquoteQuery_quotedQuery (h : t.isWellFormed) :
    unquoteQuery (quotedQuery t) = t := by
  show unquote ((quotedQuery t).map spaceOf) = t
  have hascii : ∀ c ∈ (quotedQuery t).map spaceOf, CodePoint.isAscii c := by
    intro c hc
    obtain ⟨c', hc', rfl⟩ := List.mem_map.mp hc
    obtain rfl | hc' := isQuotedSign_of_mem_quotedQuery hc'
    · rfl
    · rw [spaceOf_of_isQuotedSign hc']
      exact isAscii_of_isQuotedSign hc'
  rw [unquote_of_isAscii hascii, quotedQuery, List.map_flatMap,
    unquoteRun_flatMap unquoteRun_spaceOf, Utf8.readLossy_bytes h]

/-! ## Paths and queries -/

/-- The path of segments without surrogates. -/
def writtenPath (segments : List Text) : Text :=
  Text.join [.char '/'] (segments.map quoted)

/-- A pair of a query, without surrogates. -/
def writtenPair (p : Text × Text) : Text :=
  quotedQuery p.1 ++ .char '=' :: quotedQuery p.2

/-- The query of pairs without surrogates. -/
def writtenQuery (pairs : List (Text × Text)) : Text :=
  Text.join [.char '&'] (pairs.map writtenPair)

variable {segments : List Text} {pairs : List (Text × Text)}

/-- A path holds no sign that ends it, or that no URL has. -/
theorem mem_writtenPath {c : CodePoint} (h : c ∈ writtenPath segments) :
    c = .char '/' ∨ isQuotedSign c := by
  obtain rfl | ⟨piece, hpiece, hc⟩ := Text.mem_join h
  · exact Or.inl rfl
  · obtain ⟨segment, -, rfl⟩ := List.mem_map.mp hpiece
    exact Or.inr (isQuotedSign_of_mem_quoted hc)

/-- A written query is made of quoted texts and its three separators. -/
theorem mem_writtenQuery {c : CodePoint} (h : c ∈ writtenQuery pairs) :
    c = .char '&' ∨ c = .char '=' ∨ c = .char '+' ∨ isQuotedSign c := by
  obtain rfl | ⟨piece, hpiece, hc⟩ := Text.mem_join h
  · exact Or.inl rfl
  obtain ⟨p, -, rfl⟩ := List.mem_map.mp hpiece
  obtain hc | hc := List.mem_append.mp hc
  · exact Or.inr (Or.inr (isQuotedSign_of_mem_quotedQuery hc))
  obtain rfl | hc := List.mem_cons.mp hc
  · exact Or.inr (Or.inl rfl)
  · exact Or.inr (Or.inr (isQuotedSign_of_mem_quotedQuery hc))

/-- A written path splits at its slashes into the quoted segments. -/
theorem splitOn_writtenPath (hne : segments ≠ []) :
    Text.splitOn (.char '/') (writtenPath segments) = segments.map quoted := by
  refine Text.splitOn_join (by simpa using hne) ?_
  intro piece hpiece
  obtain ⟨segment, -, rfl⟩ := List.mem_map.mp hpiece
  exact not_mem_quoted rfl

theorem map_map_eq_self {α γ : Type} {f : α → γ} {g : γ → α} {l : List α}
    (h : ∀ a ∈ l, g (f a) = a) : (l.map f).map g = l := by
  rw [List.map_map]
  exact (List.map_congr_left h).trans (List.map_id l)

/-- The segments of a path are found again. -/
theorem segments_writtenPath (hne : segments ≠ [])
    (h : ∀ segment ∈ segments, Text.isWellFormed segment) :
    (Text.splitOn (.char '/') (writtenPath segments)).map unquote = segments := by
  rw [splitOn_writtenPath hne]
  refine map_map_eq_self ?_
  intro segment hsegment
  exact unquote_quoted (h segment hsegment)

/-- A written pair is read as the pair. -/
theorem readPair_writtenPair {p : Text × Text} (hname : p.1.isWellFormed)
    (hvalue : p.2.isWellFormed) : readPair (writtenPair p) = p := by
  rw [readPair, writtenPair, Text.cut_append_cons (not_mem_quotedQuery rfl (by decide))]
  show (unquoteQuery (quotedQuery p.1), unquoteQuery (quotedQuery p.2)) = p
  rw [unquoteQuery_quotedQuery hname, unquoteQuery_quotedQuery hvalue]

/-- No other sign but a plus and the equals sign stands in a written pair. -/
theorem not_mem_writtenPair {c : CodePoint} (h : isQuotedSign c = false)
    (hplus : c ≠ .char '+') (heq : c ≠ .char '=') (p : Text × Text) :
    c ∉ writtenPair p := by
  simp [writtenPair, not_mem_quotedQuery h hplus, heq]

/-- A written query splits at its ampersands into the written pairs. -/
theorem splitOn_writtenQuery (hne : pairs ≠ []) :
    Text.splitOn (.char '&') (writtenQuery pairs) = pairs.map writtenPair := by
  refine Text.splitOn_join (by simpa using hne) ?_
  intro piece hpiece
  obtain ⟨p, -, rfl⟩ := List.mem_map.mp hpiece
  exact not_mem_writtenPair rfl (by decide) (by decide) p

/-- The pairs of a query are found again, those with an empty name or value
    among them. -/
theorem readQuery_writtenQuery
    (h : ∀ p ∈ pairs, p.1.isWellFormed ∧ p.2.isWellFormed) :
    readQuery (writtenQuery pairs) = pairs := by
  by_cases hne : pairs = []
  · rw [hne]
    rfl
  have hpieces : ∀ piece ∈ pairs.map writtenPair, !List.isEmpty piece := by
    intro piece hpiece
    obtain ⟨p, -, rfl⟩ := List.mem_map.mp hpiece
    simp [writtenPair]
  rw [readQuery, splitOn_writtenQuery hne, List.filter_eq_self.mpr hpieces]
  refine map_map_eq_self ?_
  intro p hp
  exact readPair_writtenPair (h p hp).1 (h p hp).2

/-! ## URLs -/

/-- A text without surrogates is quoted. -/
theorem quote_of_isWellFormed (h : t.isWellFormed) : quote t = .ok (quoted t) := by
  rw [quote, Utf8.encode, (Utf8.firstSurrogates_eq_none_iff 0).mpr h]
  rfl

theorem quoteQuery_of_isWellFormed (h : t.isWellFormed) :
    quoteQuery t = .ok (quotedQuery t) := by
  rw [quoteQuery, Utf8.encode, (Utf8.firstSurrogates_eq_none_iff 0).mpr h]
  rfl

/-- A pair without surrogates is written. -/
theorem writePair_of_isWellFormed {p : Text × Text} (hname : p.1.isWellFormed)
    (hvalue : p.2.isWellFormed) : writePair p = .ok (writtenPair p) := by
  rw [writePair, quoteQuery_of_isWellFormed hname,
    quoteQuery_of_isWellFormed hvalue]
  rfl

/-- Where no step fails, mapping with failures is mapping. -/
theorem mapM_of_forall {α γ ε : Type} {f : α → Except ε γ} {g : α → γ}
    {l : List α} (h : ∀ a ∈ l, f a = .ok (g a)) : l.mapM f = .ok (l.map g) := by
  induction l with
  | nil => rfl
  | cons a l ih =>
      rw [List.forall_mem_cons] at h
      rw [List.mapM_cons, h.1, ih h.2]
      rfl

/-- Pairs without surrogates are written as a query. -/
theorem writeQuery_of_isWellFormed
    (h : ∀ p ∈ pairs, p.1.isWellFormed ∧ p.2.isWellFormed) :
    writeQuery pairs = .ok (writtenQuery pairs) := by
  rw [writeQuery, mapM_of_forall (g := writtenPair)]
  · rfl
  · intro p hp
    exact writePair_of_isWellFormed (h p hp).1 (h p hp).2

/-- The slash between a base and a path, unless the base ends in one. -/
def slashAfter (base : Text) : Text :=
  if base.endsWith (.char '/') then [] else [.char '/']

/-- The query after a path, if there are pairs. -/
def queryPart (pairs : List (Text × Text)) : Text :=
  if pairs.isEmpty then [] else .char '?' :: writtenQuery pairs

/-- Segments without surrogates are written as a path, behind one slash. -/
theorem pathAfter_of_isWellFormed (base : Text) (hne : segments ≠ [])
    (h : ∀ segment ∈ segments, Text.isWellFormed segment) :
    pathAfter base segments = .ok (slashAfter base ++ writtenPath segments) := by
  have hquoted : segments.mapM quote = .ok (segments.map quoted) := by
    refine mapM_of_forall ?_
    intro segment hsegment
    exact quote_of_isWellFormed (h segment hsegment)
  rw [pathAfter, if_neg (by simpa using hne), hquoted, slashAfter]
  split
  · rfl
  · rfl

/-- Pairs without surrogates are written behind a question mark. -/
theorem queryAfter_of_isWellFormed
    (h : ∀ p ∈ pairs, p.1.isWellFormed ∧ p.2.isWellFormed) :
    queryAfter pairs = .ok (queryPart pairs) := by
  rw [queryAfter, queryPart, writeQuery_of_isWellFormed h]
  split
  · rfl
  · rfl

/-- A URL is its base, a path and a query. -/
theorem extend_of_isWellFormed (base : Text) (hne : segments ≠ [])
    (hsegments : ∀ segment ∈ segments, Text.isWellFormed segment)
    (hpairs : ∀ p ∈ pairs, p.1.isWellFormed ∧ p.2.isWellFormed) :
    extend base segments pairs
      = .ok (base ++ slashAfter base ++ writtenPath segments ++ queryPart pairs) := by
  rw [extend, pathAfter_of_isWellFormed base hne hsegments,
    queryAfter_of_isWellFormed hpairs, List.append_assoc base]
  rfl

/-! ## URLs -/

/-- No segment and no pair holds a surrogate. -/
structure AreWritable (segments : List Text) (pairs : List (Text × Text)) :
    Prop where
  segments : ∀ segment ∈ segments, Text.isWellFormed segment
  pairs : ∀ p ∈ pairs, p.1.isWellFormed ∧ p.2.isWellFormed

/-- A URL can be extended just by what is writable. -/
theorem exists_extend_iff_areWritable (base : Text) :
    (∃ url, extend base segments pairs = .ok url) ↔ AreWritable segments pairs := by
  rw [exists_extend_iff]
  constructor
  · rintro ⟨hsegments, hpairs⟩
    exact ⟨hsegments, hpairs⟩
  · intro h
    exact ⟨h.segments, h.pairs⟩

/-- The path of segments behind a base; without segments there is none. -/
def pathPart (base : Text) (segments : List Text) : Text :=
  if segments.isEmpty then [] else slashAfter base ++ writtenPath segments

/-- Segments are added as their path behind one slash. -/
theorem pathPart_of_ne_nil (base : Text) (hne : segments ≠ []) :
    pathPart base segments = slashAfter base ++ writtenPath segments := by
  rw [pathPart, if_neg]
  simpa using hne

/-- What is writable is added behind the base. -/
theorem extend_of_areWritable (base : Text) (h : AreWritable segments pairs) :
    extend base segments pairs
      = .ok (base ++ pathPart base segments ++ queryPart pairs) := by
  by_cases hne : segments = []
  · subst hne
    rw [extend, queryAfter_of_isWellFormed h.pairs]
    rfl
  · rw [extend_of_isWellFormed base hne h.segments h.pairs, pathPart_of_ne_nil base hne,
      List.append_assoc base]

theorem mem_slashAfter {base : Text} {c : CodePoint} (h : c ∈ slashAfter base) :
    c = .char '/' := by
  rw [slashAfter] at h
  split at h
  · cases h
  · exact List.mem_singleton.mp h

/-- With the slash behind it, a base ends in one. -/
theorem exists_append_slashAfter (base : Text) :
    ∃ before, base ++ slashAfter base = before ++ [.char '/'] := by
  rw [slashAfter]
  split
  · next hend =>
      obtain ⟨before, hbefore⟩ := List.getLast?_eq_some_iff.mp (beq_iff_eq.mp hend)
      exact ⟨before, (List.append_nil base).trans hbefore⟩
  · exact ⟨base, rfl⟩

/-- An added path is made of slashes and quoted texts. -/
theorem mem_pathPart {base : Text} {c : CodePoint} (h : c ∈ pathPart base segments) :
    c = .char '/' ∨ isQuotedSign c := by
  rw [pathPart] at h
  split at h
  · cases h
  · obtain h | h := List.mem_append.mp h
    · exact Or.inl (mem_slashAfter h)
    · exact mem_writtenPath h

end Url

end CouchClient
