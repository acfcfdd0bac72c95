import CouchClient.Proofs.Url.Quoting
import CouchClient.Session.Basic
import CouchClient.Url.Resolve

/-! # Web URLs — the URLs that a session can ask for

    A session makes connections for two schemes.  A URL of one of them stays
    one, whatever path and query are put behind it.  What a reference stands
    for beside such a URL may have another scheme, or a network location that
    is none, but it always says of which scheme it is.

    * `schemeOf`, `netlocOf` — what of a URL decides where it leads;
    * `IsWeb`, `isWeb_iff` — the URLs that a session can ask for;
    * `isWeb_append_iff`, `IsWeb.extend` — what is put behind them;
    * `schemeOf_ne_nil_of_resolve` — the URLs of references. -/

namespace CouchClient.Url

/-! ## Schemes and network locations -/

/-- The scheme that a URL names, or nothing if it names none. -/
def schemeOf (url : Text) : Text := (splitScheme [] (clean url)).1

/-- The network location of a URL. -/
def netlocOf (url : Text) : Text :=
  (splitNetloc (splitScheme [] (clean url)).2).1

/-- A network location is in order. -/
def IsLocation (netloc : Text) : Prop :=
  checkBrackets netloc = .ok () ∧ checkNetloc netloc = .ok ()

/-- A URL can be taken apart, and a session makes connections for its
    scheme. -/
def IsWeb (url : Text) : Prop :=
  ∃ parts, split [] url = .ok parts ∧ Session.isSupported parts.scheme = true

variable {url base added t : Text} {c : CodePoint}

/-- A URL names a scheme, or it has the default. -/
theorem splitScheme_cases (t : Text) :
    (∃ scheme rest, scheme ≠ [] ∧ ∀ fallback, splitScheme fallback t = (scheme, rest))
      ∨ ∀ fallback, splitScheme fallback t = (fallback, t) := by
  obtain ⟨-, hcut⟩ | ⟨before, behind, -, -, hcut⟩ := Text.cut_cases (.char ':') t
  · refine Or.inr ?_
    intro fallback
    rw [splitScheme, hcut]
  · cases hscheme : isScheme before with
    | true =>
        refine Or.inl ⟨Text.toAsciiLower before, behind, ?_, ?_⟩
        · cases before with
          | nil => cases hscheme
          | cons c before => exact List.cons_ne_nil _ _
        · intro fallback
          rw [splitScheme, hcut]
          exact if_pos hscheme
    | false =>
        refine Or.inr ?_
        intro fallback
        rw [splitScheme, hcut]
        exact if_neg (ne_true_of_eq_false hscheme)

/-- Where a scheme is named, the default does not matter. -/
theorem split_of_schemeOf_ne_nil (h : schemeOf url ≠ []) (fallback : Text) :
    split fallback url = split [] url := by
  obtain ⟨scheme, rest, -, hcases⟩ | hcases := splitScheme_cases (clean url)
  · simp only [split, hcases]
  · rw [schemeOf, hcases] at h
    exact absurd rfl h

/-- A URL can be taken apart if its network location is in order. -/
theorem split_cases (fallback url : Text) :
    let taken := splitScheme fallback (clean url)
    let netloc := (splitNetloc taken.2).1
    (∃ e, split fallback url = .error e ∧ ¬ IsLocation netloc)
      ∨ ∃ parts, split fallback url = .ok parts ∧ parts.scheme = taken.1
          ∧ IsLocation netloc := by
  intro taken netloc
  have hsplit : split fallback url = (do
      checkBrackets netloc
      checkNetloc netloc
      let behind := Text.cut (.char '#') (splitNetloc taken.2).2
      let path := Text.cut (.char '?') behind.1
      return ⟨taken.1, netloc, path.1, path.2.getD [], behind.2.getD []⟩) := rfl
  rw [hsplit]
  cases hbrackets : checkBrackets netloc with
  | error e =>
      refine Or.inl ⟨e, rfl, ?_⟩
      rintro ⟨hok, -⟩
      cases hok.symm.trans hbrackets
  | ok _ =>
      cases hnetloc : checkNetloc netloc with
      | error e =>
          refine Or.inl ⟨e, rfl, ?_⟩
          rintro ⟨-, hok⟩
          cases hok.symm.trans hnetloc
      | ok _ => exact Or.inr ⟨_, rfl, rfl, hbrackets, hnetloc⟩

/-- The parts of a URL whose network location is in order. -/
theorem split_of_isLocation (fallback url : Text)
    (h : IsLocation (splitNetloc (splitScheme fallback (clean url)).2).1) :
    split fallback url = .ok
      (let taken := splitScheme fallback (clean url)
       let located := splitNetloc taken.2
       let behind := Text.cut (.char '#') located.2
       let path := Text.cut (.char '?') behind.1
       ⟨taken.1, located.1, path.1, path.2.getD [], behind.2.getD []⟩) := by
  rw [split]
  simp only [h.1, h.2]
  rfl

/-- A web URL is one whose scheme is supported and whose netloc is a location. -/
theorem isWeb_iff :
    IsWeb url ↔ Session.isSupported (schemeOf url) = true
      ∧ IsLocation (netlocOf url) := by
  rw [IsWeb]
  obtain ⟨e, herror, hnot⟩ | ⟨parts, hok, hscheme, hlocation⟩ := split_cases [] url
  · refine iff_of_false ?_ fun h => hnot h.2
    rintro ⟨parts, hok, -⟩
    cases hok.symm.trans herror
  · rw [show schemeOf url = parts.scheme from hscheme.symm]
    constructor
    · rintro ⟨parts', hok', hsupported⟩
      cases hok.symm.trans hok'
      exact ⟨hsupported, hlocation⟩
    · rintro ⟨hsupported, -⟩
      exact ⟨parts, hok, hsupported⟩

theorem IsWeb.schemeOf_ne_nil (h : IsWeb url) : schemeOf url ≠ [] := by
  intro hnone
  rw [isWeb_iff, hnone] at h
  exact absurd h.1 (by decide)

/-- A scheme that is not the default is named. -/
theorem schemeOf_ne_nil_of_split {fallback : Text} {parts : Parts}
    (h : split fallback url = .ok parts) (hne : parts.scheme ≠ fallback) :
    schemeOf url ≠ [] := by
  obtain ⟨scheme, rest, hscheme, hcases⟩ | hcases := splitScheme_cases (clean url)
  · rw [schemeOf, hcases]
    exact hscheme
  · obtain ⟨e, herror, -⟩ | ⟨parts', hok, hparts, -⟩ := split_cases fallback url
    · cases herror.symm.trans h
    · cases hok.symm.trans h
      rw [hcases] at hparts
      exact absurd hparts hne

/-- A URL with a scheme is not empty. -/
theorem ne_nil_of_schemeOf_ne_nil (h : schemeOf url ≠ []) : url ≠ [] := by
  rintro rfl
  exact h rfl

/-! ## What is put behind a URL -/

/-- The signs of paths and queries. -/
def isPlainSign (c : CodePoint) : Bool :=
  isQuotedSign c || c == .char '/' || c == .char '?' || c == .char '&'
    || c == .char '=' || c == .char '+'

/-- A text of such signs ends the network location before it, if it ends
    there at all. -/
structure IsBehind (base added : Text) : Prop where
  plain : ∀ c ∈ added, isPlainSign c
  start : added = [] ∨ base.endsWith (.char '/')
    ∨ ∃ c rest, added = c :: rest ∧ endsNetloc c

/-- Plain signs are in ASCII. -/
theorem isAscii_of_isPlainSign (h : isPlainSign c) : c.isAscii := by
  simp only [isPlainSign, Bool.or_eq_true, beq_iff_eq] at h
  obtain ((((h | rfl) | rfl) | rfl) | rfl) | rfl := h
  · exact isAscii_of_isQuotedSign h
  all_goals rfl

/-- Such signs are visible, and none of them marks a scheme or an address. -/
theorem bounds_of_isPlainSign (h : isPlainSign c) :
    0x20 < c.toNat ∧ c.toNat < 0x80 ∧ c ≠ .char ':' ∧ c ≠ .char '['
      ∧ c ≠ .char ']' := by
  have hall : ∀ n : Fin 0x80, isPlainSign (.char (Char.ofNat n.val)) →
      0x20 < n.val ∧ n.val ≠ 0x3A ∧ n.val ≠ 0x5B ∧ n.val ≠ 0x5D := by
    decide
  have hascii : c.toNat < 0x80 := of_decide_eq_true (isAscii_of_isPlainSign h)
  cases c with
  | surrogate s => cases h
  | char c =>
      rw [← Char.ofNat_toNat c] at h
      obtain ⟨hlow, hcolon, hopening, hclosing⟩ := hall ⟨c.toNat, hascii⟩ h
      refine ⟨hlow, hascii, ?_, ?_, ?_⟩
      · rintro ⟨⟩
        exact hcolon rfl
      · rintro ⟨⟩
        exact hopening rfl
      · rintro ⟨⟩
        exact hclosing rfl

/-- Signs that are visible are no blanks at the start, and no line ends. -/
theorem clean_parts_of_visible (h : ∀ c ∈ t, 0x20 < c.toNat) :
    t.dropWhile (fun c => decide (c.toNat ≤ 0x20)) = t
      ∧ (t.filter fun c => c != .char '\t' && c != .char '\r' && c != .char '\n') = t := by
  constructor
  · cases t with
    | nil => rfl
    | cons c rest =>
        have hc := h c List.mem_cons_self
        exact List.dropWhile_cons_of_neg (by simpa using hc)
  · rw [List.filter_eq_self]
    intro c hc
    have hne : ∀ w : Char, w.toNat ≤ 0x20 → c ≠ .char w := by
      rintro w hw rfl
      exact Nat.not_lt.mpr hw (h _ hc)
    simp [hne '\t' (by decide), hne '\r' (by decide), hne '\n' (by decide)]

/-- There is nothing to strip from a text of visible characters. -/
theorem clean_of_visible (h : ∀ c ∈ t, 0x20 < c.toNat) : clean t = t := by
  obtain ⟨hfront, hkept⟩ := clean_parts_of_visible h
  rw [clean, hfront, hkept]

/-- Plain signs at the end are not stripped. -/
theorem clean_append (base : Text) (h : ∀ c ∈ added, isPlainSign c) :
    clean (base ++ added) = clean base ++ added := by
  obtain ⟨hfront, hkept⟩ := clean_parts_of_visible
    fun c hc => (bounds_of_isPlainSign (h c hc)).1
  rw [clean, clean, List.dropWhile_append, hfront]
  split
  · next hnone =>
      rw [List.isEmpty_iff.mp hnone, hkept]
      rfl
  · rw [List.filter_append, hkept]

/-- What is put behind a URL goes behind its scheme. -/
theorem splitScheme_append (t : Text) (h : ∀ c ∈ added, isPlainSign c)
    (fallback : Text) :
    splitScheme fallback (t ++ added)
      = ((splitScheme fallback t).1, (splitScheme fallback t).2 ++ added) := by
  have hcolon : .char ':' ∉ added := by
    intro hc
    exact (bounds_of_isPlainSign (h _ hc)).2.2.1 rfl
  obtain ⟨hnot, hcut⟩ | ⟨before, behind, rfl, hbefore, hcut⟩ :=
    Text.cut_cases (.char ':') t
  · rw [splitScheme, splitScheme, hcut, Text.cut_of_not_mem (by simp [hnot, hcolon])]
  · rw [splitScheme, splitScheme, hcut, List.append_assoc, List.cons_append,
      Text.cut_append_cons hbefore]
    dsimp only
    split
    · rfl
    · rw [List.append_assoc, List.cons_append]

/-- Without two slashes in front there is no netloc. -/
theorem splitNetloc_of_ne {c d : CodePoint} (h : c ≠ .char '/' ∨ d ≠ .char '/')
    (rest : Text) : (splitNetloc (c :: d :: rest)).1 = [] := by
  rw [splitNetloc.eq_def]
  split
  · next heq =>
      cases heq
      simp at h
  · rfl

/-- The netloc is a part of what is behind the two slashes. -/
theorem splitNetloc_subset (t : Text) : (splitNetloc t).1 ⊆ t.drop 2 := by
  rw [splitNetloc.eq_def]
  split
  · exact List.takeWhile_subset _
  · exact List.nil_subset _

/-- The netloc ends where it ended, with more behind it. -/
theorem takeWhile_append_of_isBehind (h : IsBehind t added) :
    (t ++ added).takeWhile (!endsNetloc ·) = t.takeWhile (!endsNetloc ·) := by
  rw [List.takeWhile_append]
  split
  · next hall =>
      have hwhole : t.takeWhile (!endsNetloc ·) = t :=
        (List.takeWhile_prefix _).eq_of_length hall
      obtain rfl | hslash | ⟨c, rest, rfl, hends⟩ := h.start
      · rw [List.takeWhile_nil, List.append_nil, hwhole]
      · -- a text that ends in a slash is not all taken
        have hkept := List.takeWhile_eq_self_iff.mp hwhole
        have hlast : .char '/' ∈ t := List.mem_of_getLast? (beq_iff_eq.mp hslash)
        exact absurd (hkept _ hlast) (by decide)
      · rw [List.takeWhile_cons_of_neg (by simpa using hends), List.append_nil,
          hwhole]
  · rfl

/-- What is put behind a URL leaves the network location as it is, unless
    there was none. -/
theorem splitNetloc_append (h : IsBehind t added) :
    (splitNetloc (t ++ added)).1 = (splitNetloc t).1
      ∨ ((splitNetloc t).1 = [] ∧ (splitNetloc (t ++ added)).1 ⊆ added) := by
  have hadded := splitNetloc_subset (t ++ added)
  rcases t with _ | ⟨c, _ | ⟨d, rest⟩⟩
  · exact Or.inr ⟨rfl, List.Subset.trans hadded (List.drop_subset 2 added)⟩
  · have hnone : (splitNetloc [c]).1 = [] := List.subset_nil.mp (splitNetloc_subset [c])
    exact Or.inr ⟨hnone, List.Subset.trans hadded (List.drop_subset 1 added)⟩
  · by_cases hslashes : c = .char '/' ∧ d = .char '/'
    · obtain ⟨rfl, rfl⟩ := hslashes
      rcases rest with _ | ⟨e, rest⟩
      · exact Or.inr ⟨rfl, hadded⟩
      · refine Or.inl (takeWhile_append_of_isBehind ⟨h.plain, ?_⟩)
        exact h.start
    · have hne : c ≠ .char '/' ∨ d ≠ .char '/' := by
        rwa [← not_and_or]
      exact Or.inl ((splitNetloc_of_ne hne _).trans (splitNetloc_of_ne hne _).symm)

/-- A network location in ASCII without brackets is in order. -/
theorem isLocation_of_ascii {netloc : Text}
    (h : ∀ c ∈ netloc, c.toNat < 0x80 ∧ c ≠ .char '[' ∧ c ≠ .char ']') :
    IsLocation netloc := by
  have hopening : netloc.contains (.char '[') = false := by
    rw [List.contains_eq_mem, decide_eq_false_iff_not]
    exact fun hmem => (h _ hmem).2.1 rfl
  have hclosing : netloc.contains (.char ']') = false := by
    rw [List.contains_eq_mem, decide_eq_false_iff_not]
    exact fun hmem => (h _ hmem).2.2 rfl
  have hforms : ∀ n ∈ delimiterForms, 0x80 ≤ n := by decide
  constructor
  · rw [checkBrackets, hopening, hclosing]
  · rw [checkNetloc, if_neg]
    rw [List.any_eq_true]
    rintro ⟨c, hc, hform⟩
    have hhigh := hforms _ (List.contains_iff_mem.mp hform)
    have hlow := (h c hc).1
    omega

/-- Signs of paths and queries are no trouble in a network location. -/
theorem isLocation_of_isPlainSign {netloc : Text}
    (h : ∀ c ∈ netloc, isPlainSign c) : IsLocation netloc := by
  refine isLocation_of_ascii ?_
  intro c hc
  obtain ⟨-, hlow, -, hopening, hclosing⟩ := bounds_of_isPlainSign (h c hc)
  exact ⟨hlow, hopening, hclosing⟩

/-- What is put behind a URL does not change whether a session can ask for
    it. -/
theorem isWeb_append_iff (h : IsBehind base added) :
    IsWeb (base ++ added) ↔ IsWeb base := by
  let taken := splitScheme [] (clean base)
  have htaken : splitScheme [] (clean (base ++ added)) = (taken.1, taken.2 ++ added) := by
    rw [clean_append base h.plain, splitScheme_append _ h.plain]
  have hbehind : IsBehind taken.2 added := by
    refine ⟨h.plain, ?_⟩
    obtain hnil | hslash | hends := h.start
    · exact Or.inl hnil
    · -- the last sign of the URL stands behind its scheme
      obtain ⟨front, rfl⟩ := List.getLast?_eq_some_iff.mp (beq_iff_eq.mp hslash)
      have hsign : ∀ c ∈ [CodePoint.char '/'], isPlainSign c := by decide
      refine Or.inr (Or.inl (beq_iff_eq.mpr ?_))
      show (splitScheme [] (clean (front ++ [.char '/']))).2.getLast? = _
      rw [clean_append front hsign, splitScheme_append _ hsign]
      exact List.getLast?_concat
    · exact Or.inr (Or.inr hends)
  rw [isWeb_iff, isWeb_iff, schemeOf, netlocOf, htaken]
  refine and_congr_right fun _ => ?_
  obtain hsame | ⟨hnone, hsubset⟩ := splitNetloc_append hbehind
  · exact iff_of_eq (congrArg IsLocation hsame)
  · refine iff_of_true (isLocation_of_isPlainSign ?_) ?_
    · intro c hc
      exact h.plain c (hsubset hc)
    · rw [netlocOf, hnone]
      exact isLocation_of_isPlainSign (by simp)

/-- A written path is made of plain signs. -/
theorem isPlainSign_of_mem_writtenPath {segments : List Text}
    (h : c ∈ writtenPath segments) : isPlainSign c := by
  obtain rfl | hc := mem_writtenPath h
  · rfl
  · simp [isPlainSign, hc]

/-- An added query is made of plain signs. -/
theorem isPlainSign_of_mem_queryPart {pairs : List (Text × Text)}
    (h : c ∈ queryPart pairs) : isPlainSign c := by
  rw [queryPart] at h
  split at h
  · cases h
  · obtain rfl | h := List.mem_cons.mp h
    · rfl
    · obtain rfl | rfl | rfl | hc := mem_writtenQuery h
      · rfl
      · rfl
      · rfl
      · simp [isPlainSign, hc]

/-- An added path is made of plain signs. -/
theorem isPlainSign_of_mem_pathPart {segments : List Text}
    (h : c ∈ pathPart base segments) : isPlainSign c := by
  obtain rfl | hc := mem_pathPart h
  · rfl
  · simp [isPlainSign, hc]

/-- The path and the query of a URL stand behind its base. -/
theorem exists_isBehind_of_extend {segments : List Text}
    {pairs : List (Text × Text)} (h : extend base segments pairs = .ok url) :
    ∃ added, url = base ++ added ∧ IsBehind base added := by
  have hwritable := (exists_extend_iff_areWritable base).mp ⟨url, h⟩
  cases (extend_of_areWritable base hwritable).symm.trans h
  refine ⟨pathPart base segments ++ queryPart pairs, List.append_assoc _ _ _, ?_, ?_⟩
  · intro c hc
    obtain hc | hc := List.mem_append.mp hc
    · exact isPlainSign_of_mem_pathPart hc
    · exact isPlainSign_of_mem_queryPart hc
  · rw [pathPart]
    split
    · rw [List.nil_append, queryPart]
      split
      · exact Or.inl rfl
      · exact Or.inr (Or.inr ⟨_, _, rfl, rfl⟩)
    · rw [slashAfter]
      split
      · next hslash => exact Or.inr (Or.inl hslash)
      · exact Or.inr (Or.inr ⟨_, _, rfl, rfl⟩)

/-- A path and a query below a web URL make one. -/
theorem IsWeb.extend {segments : List Text} {pairs : List (Text × Text)}
    (h : IsWeb base) (hextend : extend base segments pairs = .ok url) : IsWeb url := by
  obtain ⟨added, rfl, hbehind⟩ := exists_isBehind_of_extend hextend
  exact (isWeb_append_iff hbehind).mpr h

/-! ## References -/

/-- The supported schemes are `http` and `https`. -/
theorem scheme_of_isSupported {scheme : Text}
    (h : Session.isSupported scheme = true) :
    scheme = text "http" ∨ scheme = text "https" := by
  simpa [Session.isSupported] using h

/-- What is written with such a scheme names it. -/
theorem schemeOf_write_ne_nil {parts : Parts}
    (h : Session.isSupported parts.scheme = true) : schemeOf parts.write ≠ [] := by
  obtain ⟨scheme, netloc, path, query, fragment⟩ := parts
  obtain rfl | rfl := scheme_of_isSupported h
  · intro hnone
    cases hnone
  · intro hnone
    cases hnone

/-- A URL that a reference stands for beside a web URL names a scheme. -/
theorem schemeOf_ne_nil_of_resolve {reference : Text} (hbase : IsWeb base)
    (h : resolve base reference = .ok url) : schemeOf url ≠ [] := by
  have hnames := hbase.schemeOf_ne_nil
  obtain ⟨b, hb, hsupported⟩ := hbase
  rw [resolve, if_neg (by simpa using ne_nil_of_schemeOf_ne_nil hnames)] at h
  split at h
  · cases h
    exact hnames
  rw [hb] at h
  simp only [bind, Except.bind] at h
  cases hr : split b.scheme reference with
  | error e =>
      rw [hr] at h
      cases h
  | ok r =>
      rw [hr] at h
      dsimp only at h
      split at h
      · next hown =>
          -- the reference is a URL of its own
          cases h
          refine schemeOf_ne_nil_of_split hr ?_
          intro hsame
          obtain hne | hrelative := hown
          · exact hne hsame
          · rw [hsame] at hrelative
            obtain hscheme | hscheme := scheme_of_isSupported hsupported
            · rw [hscheme] at hrelative
              exact absurd hrelative (by decide)
            · rw [hscheme] at hrelative
              exact absurd hrelative (by decide)
      · next hown =>
          -- the parts are put together with the scheme of the base
          have hsame : r.scheme = b.scheme :=
            Decidable.not_not.mp (not_or.mp hown).1
          rw [← hsame] at hsupported
          split at h
          · cases h
            exact schemeOf_write_ne_nil hsupported
          · split at h
            · cases h
              exact schemeOf_write_ne_nil hsupported
            · cases h
              exact schemeOf_write_ne_nil hsupported

end CouchClient.Url
