import CouchClient.Proofs.Database.Addresses

/-! # Paths — the two ways to name a listing

    A listing is named by the segments of its path, or by a text in which
    they are quoted, with any slashes around them and perhaps with a query.
    Both ways lead to the same request.

    * `Database.targetOf` — the text that names a listing;
    * `segmentsOf_surrounded`, `cut_targetOf` — its parts are found again;
    * `rowsAtWritten_targetOf` — what a listing that is so named asks for;
    * `Lists`, `ListsWith` — what is asked for a listing, with options;
    * `lists_targetOf` — it is what the segments and the pairs ask for. -/

namespace CouchClient

variable {segments : List Text} {p : List (Text × Text)}

/-! ## The ends of a path -/

/-- No character of a quoted text is a slash. -/
theorem Url.ne_slash_of_mem_quoted {t : Text} {c : CodePoint}
    (h : c ∈ quoted t) : c ≠ .char '/' := by
  rintro rfl
  exact not_mem_quoted rfl h

/-- A path whose first segment is not empty starts with no slash. -/
theorem Url.exists_cons_writtenPath (hne : segments ≠ [])
    (hfirst : segments.head? ≠ some [])
    (h : ∀ segment ∈ segments, Text.isWellFormed segment) :
    ∃ c more, writtenPath segments = c :: more ∧ c ≠ .char '/' := by
  obtain ⟨first, rest, rfl⟩ := List.exists_cons_of_ne_nil hne
  have hne : first ≠ [] := by
    rintro rfl
    exact hfirst rfl
  obtain ⟨c, more, hquoted⟩ := List.exists_cons_of_ne_nil
    (quoted_ne_nil (h first List.mem_cons_self) hne)
  have hmem : c ∈ quoted first := by
    rw [hquoted]
    exact List.mem_cons_self
  obtain ⟨behind, hbehind⟩ := Text.join_cons (.char '/') (quoted first)
    (rest.map quoted)
  refine ⟨c, more ++ behind, ?_, ne_slash_of_mem_quoted hmem⟩
  rw [writtenPath, List.map_cons, hbehind, hquoted, List.cons_append]

/-- Nor does it end with one, if its last segment is not empty. -/
theorem Url.getLast?_writtenPath (hlast : segments.getLast? ≠ some [])
    (h : ∀ segment ∈ segments, Text.isWellFormed segment) :
    ∀ c, (writtenPath segments).getLast? = some c → c ≠ .char '/' := by
  intro c hc
  obtain rfl | ⟨front, last, rfl⟩ := List.eq_nil_or_concat' segments
  · cases hc
  have hmem : last ∈ front ++ [last] :=
    List.mem_append_right front (List.mem_singleton_self last)
  have hne : last ≠ [] := by
    rintro rfl
    exact hlast List.getLast?_concat
  obtain ⟨before, hbefore⟩ := Text.join_concat (.char '/') (front.map quoted)
    (quoted last)
  rw [writtenPath, List.map_append, List.map_singleton, hbefore,
    List.getLast?_append_of_ne_nil _ (quoted_ne_nil (h last hmem) hne)] at hc
  exact ne_slash_of_mem_quoted (List.mem_of_getLast? hc)

/-! ## Reading what names a listing -/

namespace Database

/-- The path of a text that names a listing: quoted segments, with slashes
    before and behind. -/
def surrounded (before behind : Nat) (path : Text) : Text :=
  List.replicate before (.char '/') ++ path ++ List.replicate behind (.char '/')

/-- The text that names a listing by quoted segments and a query. -/
def targetOf (before behind : Nat) (pieces : List Text) (query : Option Text) :
    Text :=
  surrounded before behind (Text.join [.char '/'] pieces)
    ++ (query.map (.char '?' :: ·)).getD []

/-- The slashes around a path are no segments of it. -/
theorem segmentsOf_surrounded (before behind : Nat) (hne : segments ≠ [])
    (hfirst : segments.head? ≠ some []) (hlast : segments.getLast? ≠ some [])
    (h : ∀ segment ∈ segments, Text.isWellFormed segment) :
    segmentsOf (surrounded before behind (Url.writtenPath segments))
      = segments := by
  have hslash (n : Nat) :
      ∀ c ∈ List.replicate n (CodePoint.char '/'), (c == .char '/') := by
    intro c hc
    rw [List.eq_of_mem_replicate hc]
    rfl
  obtain ⟨c, more, hpath, hc⟩ := Url.exists_cons_writtenPath hne hfirst h
  have hstrip : Text.strip (· == .char '/')
      (surrounded before behind (Url.writtenPath segments))
        = Url.writtenPath segments := by
    refine Text.strip_surrounded ?_ (hslash before) (hslash behind) ?_ ?_
    · simp [hpath]
    · simp [hpath, hc]
    · intro c hc
      exact beq_false_of_ne (Url.getLast?_writtenPath hlast h c hc)
  rw [segmentsOf, hstrip, Url.segments_writtenPath hne h]

/-- The query of a text that names a listing is what is behind the first
    question mark. -/
theorem cut_targetOf (before behind : Nat) (query : Option Text) :
    Text.cut (.char '?')
        (targetOf before behind (segments.map Url.quoted) query)
      = (surrounded before behind (Url.writtenPath segments), query) := by
  have hmark : .char '?' ∉ surrounded before behind (Url.writtenPath segments) := by
    intro hmem
    simp only [surrounded, List.mem_append, List.mem_replicate] at hmem
    obtain (⟨-, h⟩ | h) | ⟨-, h⟩ := hmem
    · cases h
    · obtain h | h := Url.mem_writtenPath h
      · cases h
      · cases h
    · cases h
  cases query with
  | none =>
      rw [targetOf]
      exact (congrArg _ (List.append_nil _)).trans (Text.cut_of_not_mem hmark)
  | some query => exact Text.cut_append_cons hmark query

/-- The query of a text that names a listing: none if there are no pairs. -/
def queryOf? (p : List (Text × Text)) (query : Text) : Option Text :=
  if p.isEmpty then none else some query

/-- The query of a target is read back as the pairs that were written. -/
theorem readQuery_queryOf? (h : ∀ pair ∈ p, pair.1.isWellFormed ∧ pair.2.isWellFormed) :
    Url.readQuery ((queryOf? p (Url.writtenQuery p)).getD []) = p := by
  cases p with
  | nil => rfl
  | cons pair rest => exact Url.readQuery_writtenQuery h

variable {β ω : Type} [Transport β ω] {options : List (Text × Value)}

/-- A listing that is named by a text is asked for by its segments, and the
    pairs of its query come first. -/
theorem rowsAtWritten_targetOf [L : Limits] (db : Database)
    (before behind : Nat)
    (hne : segments ≠ []) (hfirst : segments.head? ≠ some [])
    (hlast : segments.getLast? ≠ some [])
    (h : ∀ segment ∈ segments, Text.isWellFormed segment)
    (hp : ∀ pair ∈ p, pair.1.isWellFormed ∧ pair.2.isWellFormed) :
    (db.rowsAtWritten (targetOf before behind (segments.map Url.quoted)
        (queryOf? p (Url.writtenQuery p))) options : Action ω (RowStream β))
      = (do
          .ofExcept (checkListingNames options)
          let pairs ← .ofExcept (QueryOption.encode options)
          db.listing segments (p ++ pairs)) := by
  rw [rowsAtWritten, cut_targetOf]
  dsimp only
  rw [segmentsOf_surrounded before behind hne hfirst hlast h,
    readQuery_queryOf? hp]

/-- An action gives the rows of the listing at a path, by the request for
    the path with the pairs. -/
structure Lists [L : Limits] (db : Database) (segments : List Text)
    (pairs : List (Text × Text)) (act : Action (Ledger β ω) (RowStream Nat)) : Prop where
  rows : act = do
    let response ← db.resource.get segments [] pairs
    return .ofFeed (.body response.data) rowsField
  request : ∃ call, act.Makes call
    ∧ (db.resource.get segments [] pairs
      : Action (Ledger β ω) (Response (Body Nat))).Makes call

/-- An action gives the rows of the listing at a path, by the request with the
    pairs of a query and those of options; or it raises the error of the
    options, of which a number is too long, and does nothing. -/
inductive ListsWith [L : Limits] (db : Database) (segments : List Text)
    (p : List (Text × Text)) (options : List (Text × Value))
    (act : Action (Ledger β ω) (RowStream Nat)) : Prop
  | listed {pairs} (hencode : QueryOption.encode options = .ok pairs)
      (hlists : db.Lists segments (p ++ pairs) act)
  | tooLong {e} (hrejects : QueryOption.Rejects options (.tooLong e))
      (hencode : QueryOption.encode options = .error (.tooLong e))
      (hact : act = .ofExcept (.error (.tooLong e)))

/-- A listing asks for the URL of its path and pairs and streams the reply. -/
theorem lists_listing [L : Limits] (db : Database) (hne : segments ≠ [])
    (h : ∀ segment ∈ segments, Text.isWellFormed segment)
    (hp : ∀ pair ∈ p, pair.1.isWellFormed ∧ pair.2.isWellFormed) :
    db.Lists segments p
      (db.listing segments p : Action (Ledger β ω) (RowStream Nat)) := by
  have hurl := db.resource.urlOf_of_isWellFormed hne h hp
  have hget : (db.resource.get segments [] p
      : Action (Ledger β ω) (Response (Body Nat))).Makes
        (db.resource.callOf (text "GET") _ none []) :=
    Resource.makes_request hurl
  exact ⟨rfl, _, hget.bind fun r => Action.isQuiet_pure _, hget⟩

/-- **The two forms of a path agree**: the quoted segments, with slashes
    around them and a query, name the listing that the segments and the pairs
    of the query name, for any options that can be sent. -/
theorem lists_targetOf [L : Limits] (db : Database) (hne : segments ≠ [])
    (hfirst : segments.head? ≠ some []) (hlast : segments.getLast? ≠ some [])
    (hp : ∀ pair ∈ p, pair.1.isWellFormed ∧ pair.2.isWellFormed)
    (hnames : (Operation.rowsAt segments options).NamesAccepted)
    (hsupported : (Operation.rowsAt segments options).IsSupported)
    (hencodable : (Operation.rowsAt segments options).IsEncodable) :
    ∃ pieces query, segments.mapM Url.quote = .ok pieces
      ∧ Url.writeQuery p = .ok query
      ∧ ∀ before behind, ∀ target,
        target = targetOf before behind pieces (queryOf? p query) →
        db.ListsWith segments p options (db.rowsAtWritten target options
            : Action (Ledger β ω) (RowStream Nat))
          ∧ (p = [] → (db.rowsAtWritten target options
              : Action (Ledger β ω) (RowStream Nat))
            = db.rowsAt segments options) := by
  have hsegments : ∀ segment ∈ segments, Text.isWellFormed segment := by
    intro segment hsegment
    exact hencodable.name hsegment (List.Subset.refl segment)
  have hquoted : segments.mapM Url.quote = .ok (segments.map Url.quoted) := by
    refine Url.mapM_of_forall ?_
    intro segment hsegment
    exact Url.quote_of_isWellFormed (hsegments segment hsegment)
  have haccepted : checkListingNames options = .ok () :=
    Operation.checkNames_of_accepted hnames rfl
  refine ⟨_, _, hquoted, Url.writeQuery_of_isWellFormed hp, ?_⟩
  rintro before behind target rfl
  have htarget : (db.rowsAtWritten _ options : Action (Ledger β ω) (RowStream Nat))
      = _ := rowsAtWritten_targetOf db before behind hne hfirst hlast hsegments hp
  have hpairs : ∀ pair ∈ p ++ QueryOption.written options,
      pair.1.isWellFormed ∧ pair.2.isWellFormed := by
    intro pair hpair
    obtain hpair | hpair := List.mem_append.mp hpair
    · exact hp pair hpair
    · exact hencodable.written hsupported pair hpair
  rw [haccepted] at htarget
  constructor
  · have hvalues : ∀ o ∈ options, (OptionValue.ofValue? o.2).isSome := hsupported
    obtain hencode | ⟨e, hrejects, hencode⟩ :=
      QueryOption.encode_of_supported hvalues
    · refine .listed hencode ?_
      rw [htarget, hencode]
      exact lists_listing db hne hsegments hpairs
    · refine .tooLong hrejects hencode ?_
      rw [htarget, hencode]
      rfl
  · rintro rfl
    rw [rowsAt, haccepted]
    exact htarget

/-- A path with an empty segment in it, a query with empty names and values,
    and slashes around the path. -/
theorem lists_targetOf_of_view :
    let db : Database := ⟨.ofUrl (text "http://h/db") defaultFields⟩
    let segments := [text "_design", text "a/b?", [], text "é"]
    let p := [(text "a b", []), ([], text "&=+")]
    let options := [(text "limit", Value.int 1), (text "keys", .list [.str [], .str []])]
    let target := text "//_design/a%2Fb%3F//%C3%A9/?a+b=&=%26%3D%2B"
    let L : Ledger Nat Replay := .ofWorld (.ofPrepared [] none)
    segments ≠ [] ∧ segments.head? ≠ some [] ∧ segments.getLast? ≠ some []
      ∧ (∀ pair ∈ p, Text.isWellFormed pair.1 ∧ Text.isWellFormed pair.2)
      ∧ (Operation.rowsAt segments options).NamesAccepted
      ∧ (Operation.rowsAt segments options).IsSupported
      ∧ (Operation.rowsAt segments options).IsEncodable
      ∧ db.ListsWith segments p options (db.rowsAtWritten target options
          : Action (Ledger Nat Replay) (RowStream Nat))
      ∧ (db.perform (.rowsAtWritten target options) L).2.calls.map Call.url = [text
        "http://h/db/_design/a%2Fb%3F//%C3%A9?a+b=&=%26%3D%2B&limit=1&keys=&keys="] := by
  intro db segments p options target L
  have hne : segments ≠ [] := by decide
  have hfirst : segments.head? ≠ some [] := by decide
  have hlast : segments.getLast? ≠ some [] := by decide
  have hp : ∀ pair ∈ p, Text.isWellFormed pair.1 ∧ Text.isWellFormed pair.2 := by
    decide
  have hnames : (Operation.rowsAt segments options).NamesAccepted := by
    simp [Operation.NamesAccepted, Operation.options, Operation.parameters,
      options, text]
  have hsupported : (Operation.rowsAt segments options).IsSupported := by
    simp [Operation.IsSupported, Operation.options, OptionValue.ofValue?,
      OptionValue.allTexts?, options]
  have hencodable : (Operation.rowsAt segments options).IsEncodable := by
    unfold Operation.IsEncodable
    decide +kernel
  obtain ⟨pieces, query, hpieces, hquery, hlists⟩ :=
    @lists_targetOf segments p Nat Replay _ options _ db hne hfirst hlast hp
      hnames hsupported hencodable
  have htarget : target = targetOf 2 1 pieces (queryOf? p query) := by
    cases hpieces
    cases hquery
    decide +kernel
  refine ⟨hne, hfirst, hlast, hp, hnames, hsupported, hencodable, ?_, ?_⟩
  · exact (hlists 2 1 target htarget).1
  · decide +kernel

/-- An option that has the name of the receiver of the method is refused,
    though the pairs of the options can be sent. -/
theorem exists_refused_receiver :
    let db : Database := ⟨.ofUrl (text "http://h/db") defaultFields⟩
    let options := [(text "self", Value.str (text "x"))]
    let L : Ledger Nat Replay := .ofWorld (.ofPrepared [] none)
    (∀ o ∈ options, o.1 ≠ text "path")
      ∧ [text "a"].mapM Url.quote = .ok [text "a"]
      ∧ QueryOption.encode options = .ok [(text "self", text "x")]
      ∧ (db.rowsAtWritten (text "a") options L).2.calls = []
      ∧ (db.resource.get [text "a"] [] [(text "self", text "x")] L).2.calls.map
          Call.url = [text "http://h/db/a?self=x"] := by
  intro db options L
  refine ⟨?_, rfl, rfl, rfl, ?_⟩
  · simp [options, text]
  · decide +kernel

end Database

end CouchClient
