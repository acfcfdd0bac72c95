import CouchClient.Proofs.Url.Web

/-! # Joined URLs — a base, segments and pairs, told apart again

    A URL is joined from a base, segments and pairs by signs that quoting
    keeps out of the parts.  So behind the base the segments and the pairs
    can be read off again, empty ones among them, and no two choices of them
    make the same URL.

    * `Url.build_eq_ok_iff`, `exists_build_eq_error` — what is joined, and what
      is refused;
    * `Url.ReadsBack` — the parts are read off what stands behind the base;
    * `Url.build_told_apart` — whatever is joined is told apart. -/

namespace CouchClient.Url

variable {base rest : Text} {segments segments' : List Text}
  {pairs pairs' : List (Text × Text)}

/-! ## Joining -/

/-- A URL with segments is the one that `extend` makes. -/
theorem build_some (base : Text) (segments : List Text) (pairs : List (Text × Text)) :
    build base (some segments) pairs
      = (extend base segments pairs).mapError .unencodable := rfl

/-- A URL is built just when it is extended. -/
theorem build_eq_ok_iff {url : Text} :
    build base (some segments) pairs = .ok url
      ↔ extend base segments pairs = .ok url := by
  rw [build_some]
  cases extend base segments pairs with
  | error e => simp [Except.mapError]
  | ok built => simp [Except.mapError]

/-- What cannot be joined is refused for its surrogates. -/
theorem exists_build_eq_error (base : Text) (h : ¬ AreWritable segments pairs) :
    ∃ e, build base (some segments) pairs = .error (.unencodable e) := by
  rw [build_some]
  cases hextend : extend base segments pairs with
  | error e => exact ⟨e, rfl⟩
  | ok url => exact absurd ((exists_extend_iff_areWritable base).mp ⟨url, hextend⟩) h

/-! ## What stands behind the base -/

/-- Where the path holds no question mark, the first one opens the query. -/
theorem cut_queryPart {path : Text} (h : .char '?' ∉ path) (pairs : List (Text × Text)) :
    Text.cut (.char '?') (path ++ queryPart pairs)
      = (path, if pairs.isEmpty then none else some (writtenQuery pairs)) := by
  rw [queryPart]
  split
  · rw [List.append_nil, Text.cut_of_not_mem h]
  · exact Text.cut_append_cons h _

/-- No question mark is in a written path. -/
theorem not_mem_writtenPath (segments : List Text) :
    .char '?' ∉ writtenPath segments := by
  intro hmem
  obtain hslash | hsign := mem_writtenPath hmem
  · cases hslash
  · cases hsign

/-- Segments and pairs are read off a text: it is cut at the first question
    mark, if it has one, and what is before that is split at the slashes. -/
structure ReadsBack (segments : List Text) (pairs : List (Text × Text))
    (rest : Text) : Prop where
  ascii : ∀ c ∈ rest, c.isAscii
  path : (Text.splitOn (.char '/') (Text.cut (.char '?') rest).1).map unquote
    = segments
  query : readQuery ((Text.cut (.char '?') rest).2.getD []) = pairs
  marked : (Text.cut (.char '?') rest).2 = none ↔ pairs = []

/-- What is read off a text is settled by the text. -/
theorem ReadsBack.eq (h : ReadsBack segments pairs rest)
    (h' : ReadsBack segments' pairs' rest) : segments' = segments ∧ pairs' = pairs :=
  ⟨h'.path.symm.trans h.path, h'.query.symm.trans h.query⟩

/-- The written path and query are read back as segments and pairs. -/
theorem readsBack_written (hne : segments ≠ []) (h : AreWritable segments pairs) :
    ReadsBack segments pairs (writtenPath segments ++ queryPart pairs) := by
  have hcut := cut_queryPart (not_mem_writtenPath segments) pairs
  constructor
  · intro c hc
    obtain hc | hc := List.mem_append.mp hc
    · exact isAscii_of_isPlainSign (isPlainSign_of_mem_writtenPath hc)
    · exact isAscii_of_isPlainSign (isPlainSign_of_mem_queryPart hc)
  · rw [hcut]
    exact segments_writtenPath hne h.segments
  · rw [hcut]
    cases pairs with
    | nil => rfl
    | cons p pairs => exact readQuery_writtenQuery h.pairs
  · rw [hcut]
    cases pairs with
    | nil => simp
    | cons p pairs => simp

/-- What is joined with at least one segment is its base, a slash, and a text
    from which the parts are read off. -/
theorem exists_readsBack (base : Text) (hne : segments ≠ [])
    (h : AreWritable segments pairs) :
    ∃ rest, build base (some segments) pairs = .ok (base ++ slashAfter base ++ rest)
      ∧ ReadsBack segments pairs rest := by
  refine ⟨writtenPath segments ++ queryPart pairs, ?_, readsBack_written hne h⟩
  rw [build_eq_ok_iff, extend_of_isWellFormed base hne h.segments h.pairs]
  simp only [List.append_assoc]

/-- **Joining can be undone**: behind the base, and a slash unless the base
    ends in one, there stands a text in ASCII from which the segments and the
    pairs are read off, so no other parts make the same URL.  Parts that hold
    a surrogate make none. -/
theorem build_told_apart (base : Text) (segments : List Text)
    (pairs : List (Text × Text)) :
    (segments ≠ [] → AreWritable segments pairs →
        ∃ rest, build base (some segments) pairs = .ok (base ++ slashAfter base ++ rest)
          ∧ ReadsBack segments pairs rest)
      ∧ (segments ≠ [] → ∀ url segments' pairs', segments' ≠ [] →
          build base (some segments) pairs = .ok url →
          build base (some segments') pairs' = .ok url →
          segments' = segments ∧ pairs' = pairs)
      ∧ (¬ AreWritable segments pairs →
          ∃ e, build base (some segments) pairs = .error (.unencodable e)) := by
  refine ⟨exists_readsBack base, ?_, exists_build_eq_error base⟩
  intro hne url segments' pairs' hne' hbuild hbuild'
  have hwritable : ∀ {segments pairs}, build base (some segments) pairs = .ok url →
      AreWritable segments pairs := by
    intro segments pairs hbuild
    exact (exists_extend_iff_areWritable base).mp ⟨url, build_eq_ok_iff.mp hbuild⟩
  obtain ⟨rest, hrest, hreads⟩ := exists_readsBack base hne (hwritable hbuild)
  obtain ⟨rest', hrest', hreads'⟩ := exists_readsBack base hne' (hwritable hbuild')
  -- both texts stand behind the same base in the same URL
  have hsame : rest' = rest := by
    have hurl := Except.ok.inj (hrest.symm.trans hbuild)
    have hurl' := Except.ok.inj (hrest'.symm.trans hbuild')
    exact List.append_cancel_left (hurl'.trans hurl.symm)
  rw [hsame] at hreads'
  exact hreads.eq hreads'

/-- An empty segment, a slash in a segment, and empty names and values are
    told apart. -/
theorem build_told_apart_of_empty :
    let base := text "http://h/db/"
    let segments := [[], text "a/b", text "é ?"]
    let pairs := [(text "k", text "a b+"), ([], [])]
    let url := text "http://h/db//a%2Fb/%C3%A9%20%3F?k=a+b%2B&="
    segments ≠ [] ∧ AreWritable segments pairs
      ∧ build base (some segments) pairs = .ok url
      ∧ (∃ rest, build base (some segments) pairs = .ok (base ++ slashAfter base ++ rest)
        ∧ ReadsBack segments pairs rest)
      ∧ (∀ segments' pairs', segments' ≠ [] →
        build base (some segments') pairs' = .ok url →
        segments' = segments ∧ pairs' = pairs)
      ∧ ¬ AreWritable [[.surrogate ⟨0⟩]] []
      ∧ ∃ e, build base (some [[.surrogate ⟨0⟩]]) [] = .error (.unencodable e) := by
  intro base segments pairs url
  have hne : segments ≠ [] := List.cons_ne_nil _ _
  have hwritable : AreWritable segments pairs := by
    constructor
    · decide +kernel
    · decide +kernel
  have hsurrogate : ¬ AreWritable [[.surrogate ⟨0⟩]] [] := by
    intro h
    exact absurd (h.segments _ List.mem_cons_self) (by decide)
  have hbuild : build base (some segments) pairs = .ok url := by decide +kernel
  obtain ⟨hreads, hown, -⟩ := build_told_apart base segments pairs
  refine ⟨hne, hwritable, hbuild, hreads hne hwritable, ?_, hsurrogate,
    (build_told_apart base _ _).2.2 hsurrogate⟩
  intro segments' pairs' hne' hbuild'
  exact hown hne url segments' pairs' hne' hbuild hbuild'

end CouchClient.Url
