import CouchClient.Proofs.Database.Calls
import CouchClient.Proofs.Database.Requests

/-! # Addresses — the URLs of documents

    A document is addressed by a path below its database, and an operation on
    it may send a query.  The path is read back as the identifier, and the
    query as the pairs that were sent, so neither can be mistaken for the
    other, nor one identifier for another.

    * `QueryOption.written`, `encode_of_supported`, `encode_of_fit` — the
      pairs of options;
    * `join_docPath`, `length_docPath` — the segments of an identifier;
    * `Url.IsPathTo`, `Url.IsQueryOf` — what holds of the two parts;
    * `asks_get`, `asks_put`, `asks_delete` — the URL of each operation;
    * `address_of_document` — what is asked for, and what it stands for. -/

namespace CouchClient

/-! ## Options -/

/-- The texts that stand for an option in a query: of a list there is one for
    each element. -/
def OptionValue.written : OptionValue → List Text
  | .str t => [t]
  | .bool b => [if b then text "true" else text "false"]
  | .int n => [Text.ofInt n]
  | .texts items => items

namespace QueryOption

/-- The texts that stand for a value; there are none if it is not
    supported. -/
def writtenValue (v : Value) : List Text :=
  ((OptionValue.ofValue? v).map OptionValue.written).getD []

/-- The pairs of a map of options, each text with the name of its option. -/
def written (options : List (Text × Value)) : List (Text × Text) :=
  (Entries.ofList options).flatMap fun o => (writtenValue o.2).map (o.1, ·)

/-- The pairs that an option gives are its written texts under its name. -/
theorem eq_written_of_pairs [L : Limits] {o : QueryOption}
    {pairs : List (Text × Text)} (h : o.pairs = .ok pairs) :
    pairs = o.value.written.map (o.name, ·) := by
  obtain ⟨name, value⟩ := o
  cases value with
  | int n =>
      rw [pairs_int] at h
      cases htext : Limits.textOf n with
      | error e =>
          rw [htext] at h
          cases h
      | ok t =>
          rw [htext] at h
          cases h
          rw [(Limits.textOf_eq_ok_iff.mp htext).2]
          rfl
  | _ =>
      cases h
      rfl

/-- Options that are supported are written in their order, unless a number is
    too long. -/
theorem encodeAll_of_supported [L : Limits] {options : List (Text × Value)}
    (h : ∀ o ∈ options, (OptionValue.ofValue? o.2).isSome) :
    encodeAll options
        = .ok (options.flatMap fun o => (writtenValue o.2).map (o.1, ·))
      ∨ ∃ e, Rejects options (.tooLong e)
        ∧ encodeAll options = .error (.tooLong e) := by
  induction options with
  | nil => exact Or.inl rfl
  | cons o rest ih =>
      obtain ⟨hvalue, hrest⟩ := List.forall_mem_cons.mp h
      obtain ⟨value, hvalue⟩ := Option.isSome_iff_exists.mp hvalue
      cases hpairs : (QueryOption.mk o.1 value).pairs with
      | error e =>
          obtain ⟨n, rfl, hlong⟩ := pairs_eq_error hpairs
          exact Or.inr ⟨e, .tooLong List.mem_cons_self hvalue hlong,
            encodeAll_of_tooLong hvalue hpairs⟩
      | ok pairs =>
          have hcons : encodeAll (o :: rest)
              = (encodeAll rest).map (pairs ++ ·) :=
            encodeAll_of_pairs hvalue hpairs
          obtain hrest | ⟨e, hrejects, hrest⟩ := ih hrest
          · refine Or.inl ?_
            rw [hcons, hrest, List.flatMap_cons, writtenValue, hvalue,
              eq_written_of_pairs hpairs]
            rfl
          · rw [hrest] at hcons
            exact Or.inr
              ⟨e, hrejects.subset (List.subset_cons_self o rest), hcons⟩

section
variable {options : List (Text × Value)}

/-- Options of supported types are all written, unless one of them is a number
    that is too long. -/
theorem encode_of_supported [L : Limits]
    (h : ∀ o ∈ options, (OptionValue.ofValue? o.2).isSome) :
    encode options = .ok (written options)
      ∨ ∃ e, Rejects options (.tooLong e)
        ∧ encode options = .error (.tooLong e) := by
  obtain hok | ⟨e, hrejects, herror⟩ :=
    encodeAll_of_supported fun o ho => h o (Entries.mem_of_mem_ofList ho)
  · exact Or.inl hok
  · exact Or.inr
      ⟨e, hrejects.subset fun o => Entries.mem_of_mem_ofList, herror⟩

/-- No number in the options is too long. -/
def Fit [L : Limits] (options : List (Text × Value)) : Prop :=
  ∀ o ∈ options, ∀ n, OptionValue.ofValue? o.2 = some (.int n) →
    Limits.excess? n = none

/-- Options that fit are not rejected for their length. -/
theorem Fit.not_rejects [L : Limits] (h : Fit options) (e : TooLong) :
    ¬ Rejects options (.tooLong e) := by
  intro hrejects
  cases hrejects with
  | tooLong ho hvalue hlong => cases (h _ ho _ hvalue).symm.trans hlong

/-- Without limits all options fit. -/
theorem fit_unlimited : Fit (L := .unlimited) options :=
  fun _ _ n _ => Limits.excess?_unlimited n

/-- Options that are supported and fit are written. -/
theorem encode_of_fit [L : Limits]
    (h : ∀ o ∈ options, (OptionValue.ofValue? o.2).isSome) (hfit : Fit options) :
    encode options = .ok (written options) := by
  obtain hok | ⟨e, hrejects, -⟩ := encode_of_supported h
  · exact hok
  · exact (hfit.not_rejects e hrejects).elim

end

end QueryOption

/-! ## Identifiers -/

/-- The path of a document has at least one segment. -/
theorem docPath_ne_nil (id : Text) : docPath id ≠ [] := by
  unfold docPath
  split
  · split
    · simp
    · simp
  · simp

/-- The segments of a document's path make up its identifier again. -/
theorem join_docPath (id : Text) : Text.join [.char '/'] (docPath id) = id := by
  unfold docPath
  split
  · obtain ⟨-, hcut⟩ | ⟨first, rest, hid, -, hcut⟩ := Text.cut_cases (.char '/') id
    · rw [hcut]
      exact Text.join_singleton _ id
    · rw [hcut]
      dsimp only
      rw [Text.join_cons_cons, Text.join_singleton, ← hid]
  · exact Text.join_singleton _ id

/-- Only the first slash of an identifier that starts with an underscore parts
    it. -/
theorem length_docPath (id : Text) :
    (docPath id).length
      = if id.head? = some (.char '_') ∧ .char '/' ∈ id then 2 else 1 := by
  unfold docPath
  split
  · next hhead =>
      obtain ⟨hnone, hcut⟩ | ⟨first, rest, hid, -, hcut⟩ :=
        Text.cut_cases (.char '/') id
      · rw [hcut, if_neg]
        · rfl
        · rintro ⟨-, hsome⟩
          exact hnone hsome
      · rw [hcut, if_pos ⟨hhead, by simp [hid]⟩]
        rfl
  · next hhead =>
      rw [if_neg]
      · rfl
      · rintro ⟨h, -⟩
        exact hhead h

/-! ## The parts of an address -/

namespace Url

/-- A path stands for an identifier: it holds no other delimiter, it has a
    second piece if the identifier names a reserved segment and something
    below it, and its pieces are read back as the identifier. -/
structure IsPathTo (id path : Text) : Prop where
  unmarked : .char '?' ∉ path ∧ .char '#' ∉ path
  pieces : (Text.splitOn (.char '/') path).length
    = if id.head? = some (.char '_') ∧ .char '/' ∈ id then 2 else 1
  readBack : Text.join [.char '/']
    ((Text.splitOn (.char '/') path).map unquote) = id

/-- A query stands for pairs: it holds none of the delimiters, and it is
    read back as the pairs. -/
structure IsQueryOf (pairs : List (Text × Text)) (query : Text) : Prop where
  unmarked : .char '/' ∉ query ∧ .char '?' ∉ query ∧ .char '#' ∉ query
  readBack : readQuery query = pairs

/-- The path that is written for a document leads to it. -/
theorem isPathTo_writtenPath {id : Text} (h : id.isWellFormed) :
    IsPathTo id (writtenPath (docPath id)) := by
  have hnot {c : CodePoint} (hslash : c ≠ .char '/') (hc : isQuotedSign c = false) :
      c ∉ writtenPath (docPath id) := by
    intro hmem
    obtain hmem | hmem := mem_writtenPath hmem
    · exact hslash hmem
    · rw [hmem] at hc
      cases hc
  constructor
  · exact ⟨hnot (by decide) rfl, hnot (by decide) rfl⟩
  · rw [splitOn_writtenPath (docPath_ne_nil id), List.length_map, length_docPath]
  · rw [segments_writtenPath (docPath_ne_nil id), join_docPath]
    intro segment hsegment
    exact Text.isWellFormed_of_subset (Operation.subset_of_mem_docPath hsegment) h

/-- The query that is written for pairs is read back as these pairs. -/
theorem isQueryOf_writtenQuery {pairs : List (Text × Text)}
    (h : ∀ p ∈ pairs, p.1.isWellFormed ∧ p.2.isWellFormed) :
    IsQueryOf pairs (writtenQuery pairs) := by
  have hnot {c : CodePoint} (hc : c ≠ .char '&' ∧ c ≠ .char '=' ∧ c ≠ .char '+')
      (hquoted : isQuotedSign c = false) : c ∉ writtenQuery pairs := by
    intro hmem
    obtain hmem | hmem | hmem | hmem := mem_writtenQuery hmem
    · exact hc.1 hmem
    · exact hc.2.1 hmem
    · exact hc.2.2 hmem
    · rw [hmem] at hquoted
      cases hquoted
  constructor
  · exact ⟨hnot (by decide) rfl, hnot (by decide) rfl, hnot (by decide) rfl⟩
  · exact readQuery_writtenQuery h

/-- Paths that are read back as different identifiers are different. -/
theorem IsPathTo.ne {id other path path' : Text} (h : IsPathTo id path)
    (h' : IsPathTo other path') (hne : other ≠ id) : path' ≠ path := by
  rintro rfl
  exact hne (h'.readBack.symm.trans h.readBack)

end Url

/-! ## What is asked for -/

namespace Operation

/-- The identifier of the document that an operation is about. -/
def subject? : Operation → Option Text
  | get id _ => some id
  | put id _ _ => some id
  | delete id _ => some id
  | _ => none

/-- Every option has a value of a supported type. -/
def IsSupported (op : Operation) : Prop :=
  ∀ o ∈ op.options, (OptionValue.ofValue? o.2).isSome

/-- Options are sent as pairs, in their order, unless a number is too long to
    be written. -/
def SendsOptions [L : Limits] (options : List (Text × Value))
    (pairs : List (Text × Text)) : Prop :=
  pairs = QueryOption.written options
    ∧ (QueryOption.encode options = .ok pairs
      ∨ ∃ e, QueryOption.Rejects options (.tooLong e))

/-- An operation on a document sends the pairs of its options, and a deletion
    sends the revision, or an empty text for none. -/
def Sends [L : Limits] (pairs : List (Text × Text)) : Operation → Prop
  | get _ options => SendsOptions options pairs
  | put _ _ options => SendsOptions options pairs
  | delete _ rev => pairs = [(text "rev", rev.getD [])]
  | _ => False

/-- The document of an operation cannot be written, or a number in its options
    is too long. -/
def IsUnwritable [L : Limits] (op : Operation) : Prop :=
  (∃ document e, op.document? = some document
      ∧ document.encodeBytes = .error e)
    ∨ ∃ e, QueryOption.Rejects op.options (.tooLong e)

variable {β ω : Type} {op : Operation} {id : Text}

/-- An operation makes one call, for a URL, or its document or its options
    cannot be written and it makes none. -/
def AsksFor [L : Limits] (op : Operation) (act : Action (Ledger β ω) (Answer Nat))
    (url : Text) : Prop :=
  (∃ call : Call, act.Makes call ∧ call.url = url)
    ∨ op.IsUnwritable ∧ act.IsQuiet

/-- A document has one address: below the base, a path that stands for its
    identifier and for no other, and a query that stands for the pairs that
    are sent, if there are any. -/
structure IsAddressed [L : Limits] (op : Operation) (act : Action (Ledger β ω) (Answer Nat))
    (base id : Text) (pairs : List (Text × Text)) : Prop where
  sends : op.Sends pairs
  asks : op.AsksFor act (base ++ Url.slashAfter base
    ++ Url.writtenPath (docPath id) ++ Url.queryPart pairs)
  path : Url.IsPathTo id (Url.writtenPath (docPath id))
  query : Url.IsQueryOf pairs (Url.writtenQuery pairs)
  own : ∀ other, Text.isWellFormed other → other ≠ id →
    Url.writtenPath (docPath other) ≠ Url.writtenPath (docPath id)

/-- An operation that asks for the document's URL addresses the document. -/
theorem isAddressed_of_asks [L : Limits] {act : Action (Ledger β ω) (Answer Nat)} {base : Text}
    {pairs : List (Text × Text)} (hid : id.isWellFormed)
    (hpairs : ∀ p ∈ pairs, p.1.isWellFormed ∧ p.2.isWellFormed)
    (hsends : op.Sends pairs)
    (hasks : op.AsksFor act (base ++ Url.slashAfter base
      ++ Url.writtenPath (docPath id) ++ Url.queryPart pairs)) :
    op.IsAddressed act base id pairs := by
  have hpath := Url.isPathTo_writtenPath hid
  refine ⟨hsends, hasks, hpath, Url.isQueryOf_writtenQuery hpairs, ?_⟩
  intro other hother hne
  exact hpath.ne (Url.isPathTo_writtenPath hother) hne

/-- Options whose names are no arguments pass the check of the names. -/
theorem checkNames_of_accepted {operation : String} {arguments : List String}
    (h : op.NamesAccepted) (harguments : arguments = op.parameters) :
    Database.checkNames operation arguments op.options = .ok () := by
  have hnone : (op.options.find? fun o => (arguments.map text).contains o.1)
      = none := by
    refine List.find?_eq_none.mpr ?_
    intro o ho hcontains
    obtain ⟨argument, hargument, hname⟩ :=
      List.mem_map.mp (List.contains_iff_mem.mp hcontains)
    rw [harguments] at hargument
    exact h o ho argument hargument hname.symm
  rw [Database.checkNames, hnone]

/-- An identifier that is not empty is accepted. -/
theorem requiredId_of_ne_nil (h : id ≠ []) :
    Database.requiredId id = .ok () := by
  rw [Database.requiredId, Database.required, if_neg]
  simpa using h

/-- The URL of the document below the database, with the pairs of a query. -/
theorem urlOf_docPath (db : Database) {pairs : List (Text × Text)}
    (hencodable : op.IsEncodable) (hid : id ∈ op.names)
    (hpairs : ∀ p ∈ pairs, p.1.isWellFormed ∧ p.2.isWellFormed) :
    db.resource.urlOf (docPath id) pairs
      = .ok (db.resource.url ++ Url.slashAfter db.resource.url
          ++ Url.writtenPath (docPath id) ++ Url.queryPart pairs) :=
  db.resource.urlOf_of_isWellFormed (docPath_ne_nil id)
    (hencodable.docPath hid) hpairs

/-- The pairs of options are well-formed, also where a number in them is too
    long. -/
theorem IsEncodable.written (h : op.IsEncodable) (hsupported : op.IsSupported) :
    ∀ p ∈ QueryOption.written op.options,
      p.1.isWellFormed ∧ p.2.isWellFormed :=
  h.pairs (L := .unlimited)
    (QueryOption.encode_of_fit (L := .unlimited) hsupported
      QueryOption.fit_unlimited)

/-- Options of supported types send what is written for them. -/
theorem IsSupported.sends [L : Limits] (h : op.IsSupported) :
    SendsOptions op.options (QueryOption.written op.options) := by
  refine ⟨rfl, ?_⟩
  obtain hok | ⟨e, hrejects, -⟩ := QueryOption.encode_of_supported h
  · exact Or.inl hok
  · exact Or.inr ⟨e, hrejects⟩

variable [Transport β ω] {db : Database}

/-- Getting a document asks for its URL, with the options in the query. -/
theorem asks_get [L : Limits] {options : List (Text × Value)} (hid : id ≠ [])
    (hnames : (get id options).NamesAccepted)
    (hsupported : (get id options).IsSupported)
    (hencodable : (get id options).IsEncodable) :
    (get id options).AsksFor
      (db.perform (get id options) : Action (Ledger β ω) (Answer Nat))
      (db.resource.url ++ Url.slashAfter db.resource.url
        ++ Url.writtenPath (docPath id)
        ++ Url.queryPart (QueryOption.written options)) := by
  have hurl := urlOf_docPath db hencodable List.mem_cons_self
    (hencodable.written hsupported)
  obtain hencode | ⟨e, hrejects, hencode⟩ :=
    QueryOption.encode_of_supported hsupported
  · refine Or.inl ⟨db.resource.callOf (text "GET") _ none [], ?_, rfl⟩
    refine Action.Makes.bind ?_ fun _ => Action.isQuiet_pure _
    exact Database.makes_get (checkNames_of_accepted hnames rfl)
      (requiredId_of_ne_nil hid) hencode hurl
  · refine Or.inr ⟨Or.inr ⟨e, hrejects⟩, ?_⟩
    exact (Database.isQuiet_get hencode).bind fun _ => Action.isQuiet_pure _

/-- Putting a document asks for its URL, with the options in the query. -/
theorem asks_put [L : Limits] {document : Value}
    {options : List (Text × Value)}
    (hid : id ≠ []) (hnames : (put id document options).NamesAccepted)
    (hsupported : (put id document options).IsSupported)
    (hencodable : (put id document options).IsEncodable) :
    (put id document options).AsksFor
      (db.perform (put id document options)
        : Action (Ledger β ω) (Answer Nat))
      (db.resource.url ++ Url.slashAfter db.resource.url
        ++ Url.writtenPath (docPath id)
        ++ Url.queryPart (QueryOption.written options)) := by
  have hurl := urlOf_docPath db hencodable List.mem_cons_self
    (hencodable.written hsupported)
  obtain ⟨fields, hfields⟩ : ∃ fields, Resource.jsonFields [] = .ok fields :=
    ⟨_, rfl⟩
  -- options and document are written before anything is asked for
  obtain hencode | ⟨e, hrejects, hencode⟩ :=
    QueryOption.encode_of_supported hsupported
  · obtain ⟨e, e', hdocument, herror⟩ | ⟨body, hbody⟩ :=
      Resource.documentBody_cases document
    · refine Or.inr ⟨Or.inl ⟨document, e, rfl, hdocument⟩, ?_⟩
      exact (Database.isQuiet_put herror).bind fun _ => Action.isQuiet_pure _
    · refine Or.inl ⟨db.resource.callOf (text "PUT") _ body fields, ?_, rfl⟩
      refine Action.Makes.bind ?_ fun _ => Action.isQuiet_pure _
      exact Database.makes_put (checkNames_of_accepted hnames rfl)
        (requiredId_of_ne_nil hid) hencode hbody hfields hurl
  · refine Or.inr ⟨Or.inr ⟨e, hrejects⟩, ?_⟩
    exact (Database.isQuiet_put_of_options hencode).bind fun _ =>
      Action.isQuiet_pure _

/-- Deleting a document asks for its URL, with the revision in the query. -/
theorem asks_delete [L : Limits] {rev : Option Text} (hid : id ≠ [])
    (hencodable : (delete id rev).IsEncodable) :
    (delete id rev).AsksFor
      (db.perform (delete id rev) : Action (Ledger β ω) (Answer Nat))
      (db.resource.url ++ Url.slashAfter db.resource.url
        ++ Url.writtenPath (docPath id)
        ++ Url.queryPart [(text "rev", rev.getD [])]) := by
  have hurl := urlOf_docPath db hencodable List.mem_cons_self
    hencodable.revision
  refine Or.inl ⟨db.resource.callOf (text "DELETE") _ none [], ?_, rfl⟩
  refine Action.Makes.bind ?_ fun _ => Action.isQuiet_pure _
  exact Database.makes_delete (requiredId_of_ne_nil hid) hurl

/-- **Documents are addressed faithfully**: an operation on a document, with
    options that can be sent, asks for the address of the document. -/
theorem address_of_document [L : Limits] (db : Database)
    (hsubject : op.subject? = some id)
    (hid : id ≠ []) (hnames : op.NamesAccepted) (hsupported : op.IsSupported)
    (hencodable : op.IsEncodable) :
    ∃ pairs, op.IsAddressed
      (db.perform op : Action (Ledger β ω) (Answer Nat)) db.resource.url id
      pairs := by
  cases op with
  | get id options =>
      cases hsubject
      have hwell := hencodable.name List.mem_cons_self (List.Subset.refl id)
      exact ⟨_, isAddressed_of_asks hwell (hencodable.written hsupported)
        hsupported.sends (asks_get hid hnames hsupported hencodable)⟩
  | put id document options =>
      cases hsubject
      have hwell := hencodable.name List.mem_cons_self (List.Subset.refl id)
      exact ⟨_, isAddressed_of_asks hwell (hencodable.written hsupported)
        hsupported.sends (asks_put hid hnames hsupported hencodable)⟩
  | delete id rev =>
      cases hsubject
      have hwell := hencodable.name List.mem_cons_self (List.Subset.refl id)
      exact ⟨_, isAddressed_of_asks hwell hencodable.revision rfl
        (asks_delete hid hencodable)⟩
  | _ => cases hsubject

/-- A design document is put, with an option that has several texts. -/
theorem address_of_document_of_design :
    let db : Database := ⟨.ofUrl (text "http://h/db/") Database.defaultFields⟩
    let id := text "_design/a/b ?#%é"
    let op := put id (.mapping [])
      [(text "rev", .list [.str (text "1-&="), .str []]), (text "batch", .bool true)]
    let L : Ledger Nat Replay := .ofWorld (.ofPrepared [] none)
    op.subject? = some id ∧ id ≠ [] ∧ op.NamesAccepted ∧ op.IsSupported
      ∧ op.IsEncodable
      ∧ (∃ pairs, op.IsAddressed (db.perform op : Action (Ledger Nat Replay) _)
        db.resource.url id pairs)
      ∧ (db.perform op L).2.calls.map Call.url = [text
        "http://h/db/_design/a%2Fb%20%3F%23%25%C3%A9?rev=1-%26%3D&rev=&batch=true"] := by
  intro db id op L
  have hnames : op.NamesAccepted := by
    simp [NamesAccepted, op, options, parameters, text]
  have hsupported : op.IsSupported := by
    simp [IsSupported, op, options, OptionValue.ofValue?, OptionValue.allTexts?]
  have hencodable : op.IsEncodable := by
    unfold IsEncodable
    decide +kernel
  have hid : id ≠ [] := by decide
  exact ⟨rfl, hid, hnames, hsupported, hencodable,
    address_of_document db rfl hid hnames hsupported hencodable,
    by decide +kernel⟩

end Operation

end CouchClient
