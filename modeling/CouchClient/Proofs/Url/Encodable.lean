import CouchClient.Proofs.Text.Utf8
import CouchClient.Url.Build

/-! # Encodable URLs — which parts a URL can have

    The segments and pairs of a URL are written by their UTF-8 bytes.  Lone
    surrogates have none, and all else has some, so a URL can be built
    exactly if its parts hold no surrogate.  To take a text apart, or to
    unquote it, brings in no surrogate.

    * `Text.isWellFormed_of_subset`, `Text.subset_of_mem_splitOn`,
      `Text.subset_of_cut` — texts without surrogates, and what they are
      taken apart into;
    * `Utf8.isWellFormed_readLossy`, `Url.isWellFormed_unquote` — what
      unquoting gives;
    * `Url.exists_extend_iff` — which URLs can be built. -/

namespace CouchClient

/-! ## Texts without surrogates -/

namespace Text

variable {t u : Text}

/-- A text is well-formed just when no code point of it is a surrogate. -/
theorem isWellFormed_iff :
    t.isWellFormed ↔ ∀ c ∈ t, c.isSurrogate = false := by
  simp [isWellFormed]

/-- What holds nothing else holds no surrogate either. -/
theorem isWellFormed_of_subset (h : t ⊆ u) (hu : u.isWellFormed) :
    t.isWellFormed := by
  rw [isWellFormed_iff] at hu ⊢
  intro c hc
  exact hu c (h hc)

/-- Characters are no surrogates. -/
theorem isWellFormed_ofChars (s : List Char) : (ofChars s).isWellFormed := by
  rw [isWellFormed_iff]
  intro c hc
  obtain ⟨c', -, rfl⟩ := List.mem_map.mp hc
  rfl

theorem isWellFormed_text (s : String) : (text s).isWellFormed :=
  isWellFormed_ofChars s.toList

/-- A written integer holds no surrogate. -/
theorem isWellFormed_ofInt (n : Int) : (ofInt n).isWellFormed := by
  cases n with
  | ofNat n => exact isWellFormed_ofChars _
  | negSucc n => exact isWellFormed_ofChars ('-' :: _)

/-! ## Parts of a text -/

/-- The pieces of a text are parts of it. -/
theorem subset_of_mem_splitOn (sep : CodePoint) (t : Text) :
    ∀ piece ∈ splitOn sep t, piece ⊆ t := by
  induction t with
  | nil =>
      intro piece hpiece
      rw [List.mem_singleton.mp hpiece]
      exact List.nil_subset []
  | cons c t ih =>
      rw [splitOn]
      split
      · intro piece hpiece
        rcases List.mem_cons.mp hpiece with rfl | hpiece
        · exact List.nil_subset _
        · exact List.subset_cons_of_subset c (ih piece hpiece)
      · -- the first piece has the code point before it
        cases hsplit : splitOn sep t with
        | nil => simp
        | cons first rest =>
            rw [hsplit] at ih
            intro piece hpiece
            rcases List.mem_cons.mp hpiece with rfl | hpiece
            · exact List.cons_subset_cons c (ih first List.mem_cons_self)
            · exact List.subset_cons_of_subset c
                (ih piece (List.mem_cons_of_mem first hpiece))

/-- Both parts of a text that is cut are parts of it. -/
theorem subset_of_cut (sep : CodePoint) (t : Text) :
    (cut sep t).1 ⊆ t ∧ ∀ rest, (cut sep t).2 = some rest → rest ⊆ t := by
  induction t with
  | nil =>
      refine ⟨List.nil_subset _, ?_⟩
      intro rest hrest
      cases hrest
  | cons c t ih =>
      obtain ⟨hfirst, hrest⟩ := ih
      rw [cut]
      split
      · refine ⟨List.nil_subset _, ?_⟩
        intro rest heq
        cases heq
        exact List.subset_cons_self c t
      · refine ⟨List.cons_subset_cons c hfirst, ?_⟩
        intro rest heq
        exact List.subset_cons_of_subset c (hrest rest heq)

theorem strip_subset (p : CodePoint → Bool) (t : Text) : strip p t ⊆ t := by
  intro c hc
  have hback := (List.dropWhile_suffix p).subset (List.mem_reverse.mp hc)
  exact (List.dropWhile_suffix p).subset (List.mem_reverse.mp hback)

end Text

/-! ## Unquoted texts -/

/-- Reading bytes with replacements adds no surrogate. -/
theorem Utf8.isWellFormed_readLossyOnto (read : Text) (bs : Bytes) :
    read.isWellFormed → (readLossyOnto read bs).isWellFormed := by
  fun_induction readLossyOnto read bs with
  | case1 =>
      intro h
      exact h
  | case2 read _ _ c _ _ ih =>
      intro h
      exact ih h
  | case3 read _ _ _ _ _ ih =>
      intro h
      exact ih h

theorem Utf8.isWellFormed_readLossy (bs : Bytes) :
    (readLossy bs).isWellFormed :=
  Text.isWellFormed_of_subset (List.reverse_subset.mpr (List.Subset.refl _))
    (isWellFormed_readLossyOnto [] bs rfl)

namespace Url

variable {t : Text}

/-- Unquoting keeps what stands outside of ASCII and reads the rest. -/
theorem isWellFormed_unquote (t : Text) :
    t.isWellFormed → (unquote t).isWellFormed := by
  fun_induction unquote t with
  | case1 =>
      intro h
      exact h
  | case2 c rest hascii ih =>
      intro h
      have hrest := Text.isWellFormed_of_subset
        (List.subset_cons_of_subset c
          (List.dropWhile_suffix CodePoint.isAscii).subset) h
      exact Utf8.isWellFormed_append.mpr
        ⟨Utf8.isWellFormed_readLossy _, ih hrest⟩
  | case3 c rest hascii ih =>
      intro h
      obtain ⟨hc, hrest⟩ := Utf8.isWellFormed_append.mp
        (show Text.isWellFormed ([c] ++ rest) from h)
      exact Utf8.isWellFormed_append.mpr ⟨hc, ih hrest⟩

/-- Unquoting a text of a query brings no surrogate into it. -/
theorem isWellFormed_unquoteQuery (h : t.isWellFormed) :
    (unquoteQuery t).isWellFormed := by
  refine isWellFormed_unquote _ ?_
  rw [Text.isWellFormed_iff] at h ⊢
  intro c hc
  obtain ⟨c', hc', rfl⟩ := List.mem_map.mp hc
  split
  · rfl
  · exact h c' hc'

/-- The pairs of a query hold nothing that it does not hold. -/
theorem isWellFormed_of_mem_readQuery (h : t.isWellFormed) :
    ∀ p ∈ readQuery t, p.1.isWellFormed ∧ p.2.isWellFormed := by
  intro p hp
  obtain ⟨piece, hpiece, rfl⟩ := List.mem_map.mp hp
  have hwf : Text.isWellFormed piece := Text.isWellFormed_of_subset
    (Text.subset_of_mem_splitOn _ t piece (List.mem_filter.mp hpiece).1) h
  obtain ⟨hname, hvalue⟩ := Text.subset_of_cut (.char '=') piece
  refine ⟨isWellFormed_unquoteQuery (Text.isWellFormed_of_subset hname hwf),
    isWellFormed_unquoteQuery ?_⟩
  cases hrest : (Text.cut (.char '=') piece).2 with
  | none => rfl
  | some value => exact Text.isWellFormed_of_subset (hvalue value hrest) hwf

end Url

/-! ## Writing -/

/-- No surrogate is found just where there is none. -/
theorem Utf8.firstSurrogates_eq_none_iff {t : Text} :
    ∀ position, firstSurrogates position t = none ↔ t.isWellFormed := by
  induction t with
  | nil => simp [firstSurrogates, Text.isWellFormed]
  | cons c t ih =>
      intro position
      cases c with
      | char c => exact ih (position + 1)
      | surrogate s =>
          simp [firstSurrogates, Text.isWellFormed, CodePoint.isSurrogate]

/-- The texts that have UTF-8 bytes. -/
theorem Utf8.exists_encode_iff {t : Text} :
    (∃ bs, encode t = .ok bs) ↔ t.isWellFormed := by
  rw [← firstSurrogates_eq_none_iff 0, encode]
  cases firstSurrogates 0 t with
  | none => simp
  | some stretch => simp

namespace Url

variable {t : Text} {segments : List Text} {pairs : List (Text × Text)}

/-- Parts are written one by one, and each has to be written. -/
theorem exists_mapM_iff {α γ ε : Type} {f : α → Except ε γ} {l : List α} :
    (∃ parts, l.mapM f = .ok parts) ↔ ∀ a ∈ l, ∃ part, f a = .ok part := by
  induction l with
  | nil => simp [List.mapM_nil, pure, Except.pure]
  | cons a l ih =>
      rw [List.mapM_cons, List.forall_mem_cons, ← ih]
      cases f a with
      | error e => simp [bind, Except.bind]
      | ok part =>
          cases l.mapM f with
          | error e => simp [bind, Except.bind]
          | ok parts => simp [bind, Except.bind, pure, Except.pure]

/-- A text can be quoted just when it holds no surrogate. -/
theorem exists_quote_iff : (∃ q, quote t = .ok q) ↔ t.isWellFormed := by
  rw [← Utf8.exists_encode_iff, quote]
  cases Utf8.encode t with
  | error e => simp [bind, Except.bind]
  | ok bs => simp [bind, Except.bind, pure, Except.pure]

/-- A text can be quoted for a query just when it holds no surrogate. -/
theorem exists_quoteQuery_iff :
    (∃ q, quoteQuery t = .ok q) ↔ t.isWellFormed := by
  rw [← Utf8.exists_encode_iff, quoteQuery]
  cases Utf8.encode t with
  | error e => simp [bind, Except.bind]
  | ok bs => simp [bind, Except.bind, pure, Except.pure]

/-- A pair can be written just when neither text holds a surrogate. -/
theorem exists_writePair_iff {p : Text × Text} :
    (∃ q, writePair p = .ok q) ↔ p.1.isWellFormed ∧ p.2.isWellFormed := by
  rw [← exists_quoteQuery_iff, ← exists_quoteQuery_iff, writePair]
  cases quoteQuery p.1 with
  | error e => simp [bind, Except.bind]
  | ok name =>
      cases quoteQuery p.2 with
      | error e => simp [bind, Except.bind]
      | ok value => simp [bind, Except.bind, pure, Except.pure]

/-- A path can be written just when no segment holds a surrogate. -/
theorem exists_pathAfter_iff (base : Text) :
    (∃ path, pathAfter base segments = .ok path)
      ↔ ∀ segment ∈ segments, Text.isWellFormed segment := by
  simp only [← exists_quote_iff]
  rw [← exists_mapM_iff, pathAfter]
  cases segments with
  | nil => simp [List.mapM_nil, pure, Except.pure]
  | cons segment segments =>
      cases (segment :: segments).mapM quote with
      | error e => simp [bind, Except.bind]
      | ok parts => simp [bind, Except.bind, pure, Except.pure]

/-- A query can be written just when no text of its pairs holds a surrogate. -/
theorem exists_queryAfter_iff :
    (∃ query, queryAfter pairs = .ok query)
      ↔ ∀ p ∈ pairs, p.1.isWellFormed ∧ p.2.isWellFormed := by
  simp only [← exists_writePair_iff]
  rw [← exists_mapM_iff, queryAfter, writeQuery]
  cases pairs with
  | nil => simp [List.mapM_nil, pure, Except.pure]
  | cons p pairs =>
      cases (p :: pairs).mapM writePair with
      | error e => simp [bind, Except.bind]
      | ok parts => simp [bind, Except.bind, pure, Except.pure]

/-- The URLs that can be built, on whatever base. -/
theorem exists_extend_iff (base : Text) :
    (∃ url, extend base segments pairs = .ok url)
      ↔ (∀ segment ∈ segments, Text.isWellFormed segment)
        ∧ ∀ p ∈ pairs, p.1.isWellFormed ∧ p.2.isWellFormed := by
  rw [← exists_pathAfter_iff base, ← exists_queryAfter_iff, extend]
  cases pathAfter base segments with
  | error e => simp [bind, Except.bind]
  | ok path =>
      cases queryAfter pairs with
      | error e => simp [bind, Except.bind]
      | ok query => simp [bind, Except.bind, pure, Except.pure]

end Url

end CouchClient
