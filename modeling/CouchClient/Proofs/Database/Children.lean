import CouchClient.Proofs.Database.Paths
import CouchClient.Proofs.Http.Fields

/-! # Children — resources below resources

    A resource at a path below another is built from a URL that is joined
    already and from fields that are read by the names that they show.  It
    stands for its path: what is asked of it at a further path is asked of the
    resource above at both paths in a row, however many steps led there.

    * `Text.endsWith_append`, `Url.pathPart_pathPart` — paths behind paths;
    * `Headers.IsFaithful` — fields that are found again by the names that
      they show, and so are the same when they are built anew;
    * `Resource.StandsFor`, `standsFor_child` — a resource for a path;
    * `Resource.StandsFor.child_eq`, `StandsFor.request_eq` — what is below it,
      and what is asked of it;
    * `Resource.child_append` — paths compose. -/

namespace CouchClient

/-! ## Paths behind paths -/

/-- The end of a text is that of what stands last in it, if anything does. -/
theorem Text.endsWith_append {t u : Text} {c : CodePoint}
    (ht : t.endsWith c = false) (hu : ∀ c', u.getLast? = some c' → c' ≠ c) :
    (t ++ u).endsWith c = false := by
  rw [Text.endsWith] at ht ⊢
  rcases hlast : u.getLast? with _ | c'
  · rw [List.getLast?_eq_none_iff] at hlast
    rw [hlast, List.append_nil]
    exact ht
  · rw [List.getLast?_append, hlast]
    simpa using hu c' hlast

namespace Url

variable {base : Text} {p q : List Text}

theorem writtenPath_singleton (segment : Text) : writtenPath [segment] = quoted segment :=
  Text.join_singleton _ _

theorem writtenPath_cons_cons (segment next : Text) (p : List Text) :
    writtenPath (segment :: next :: p)
      = quoted segment ++ .char '/' :: writtenPath (next :: p) :=
  Text.join_cons_cons _ _ _

/-- Segments in a row: their paths with a slash between them. -/
theorem writtenPath_append (hp : p ≠ []) (hq : q ≠ []) :
    writtenPath (p ++ q) = writtenPath p ++ .char '/' :: writtenPath q := by
  obtain ⟨first, q, rfl⟩ := List.exists_cons_of_ne_nil hq
  induction p with
  | nil => exact absurd rfl hp
  | cons segment p ih =>
      cases p with
      | nil =>
          show writtenPath (segment :: first :: q) = _
          rw [writtenPath_cons_cons, writtenPath_singleton]
      | cons next p =>
          have hrest := ih (List.cons_ne_nil next p)
          show writtenPath (segment :: next :: (p ++ first :: q)) = _
          rw [writtenPath_cons_cons, writtenPath_cons_cons, List.append_assoc]
          exact congrArg (fun t => quoted segment ++ .char '/' :: t) hrest

/-- A path behind a base without a final slash begins with one. -/
theorem pathPart_of_endsWith (hbase : base.endsWith (.char '/') = false) (hne : p ≠ []) :
    pathPart base p = .char '/' :: writtenPath p := by
  rw [pathPart_of_ne_nil base hne, slashAfter, hbase]
  rfl

/-- A path does not end in a slash, unless its last segment is empty. -/
theorem endsWith_pathPart (hbase : base.endsWith (.char '/') = false)
    (hlast : p.getLast? ≠ some []) (hp : ∀ segment ∈ p, Text.isWellFormed segment) :
    (base ++ pathPart base p).endsWith (.char '/') = false := by
  refine Text.endsWith_append hbase ?_
  intro c hc
  by_cases hne : p = []
  · subst hne
    cases hc
  -- the first segment is not empty either if there is no other
  have hsegment : writtenPath p ≠ [] := by
    intro hnil
    have hsegments := segments_writtenPath hne hp
    rw [hnil] at hsegments
    have hempty : unquote [] = [] := unquote_quoted (t := []) rfl
    exact hlast (hsegments ▸ congrArg some hempty)
  rw [pathPart_of_endsWith hbase hne, ← List.singleton_append,
    List.getLast?_append_of_ne_nil _ hsegment] at hc
  exact getLast?_writtenPath hlast hp c hc

/-- What stands behind a path is what stands behind the base after it. -/
theorem pathPart_pathPart (hbase : base.endsWith (.char '/') = false)
    (hlast : p.getLast? ≠ some []) (hp : ∀ segment ∈ p, Text.isWellFormed segment)
    (q : List Text) :
    base ++ pathPart base p ++ pathPart (base ++ pathPart base p) q
      = base ++ pathPart base (p ++ q) := by
  have hend := endsWith_pathPart hbase hlast hp
  by_cases hne : p = []
  · subst hne
    rw [show pathPart base [] = [] from rfl, List.append_nil, List.nil_append]
  by_cases hqne : q = []
  · subst hqne
    rw [show pathPart (base ++ pathPart base p) [] = [] from rfl, List.append_nil,
      List.append_nil]
  have hboth : p ++ q ≠ [] := List.append_ne_nil_of_left_ne_nil hne q
  rw [pathPart_of_endsWith hend hqne, pathPart_of_endsWith hbase hne,
    pathPart_of_endsWith hbase hboth, writtenPath_append hne hqne, List.append_assoc]
  rfl

end Url

/-! ## Fields that are found again -/

namespace Headers

variable {α : Type} {h : Headers α}

/-- Each name is there once, and the name that is shown for it is looked up as
    the name that is stored. -/
structure IsFaithful (h : Headers α) : Prop where
  distinct : (h.entries.map Prod.fst).Nodup
  shown : ∀ e ∈ h.entries, Text.lower (displayName e.1) = e.1

/-- Names in ASCII are. -/
theorem isFaithful_ofList {pairs : List (Text × α)} (hpairs : ∀ p ∈ pairs, p.1.isAscii) :
    (ofList pairs).IsFaithful := by
  have hm : (ofList pairs).Mirrors _ := mirrors_empty.update hpairs
  constructor
  · exact hm.holds.nodup_entries
  · intro e he
    exact (hm.isStored_of_mem he).lower_displayName

/-- Every field is found by the name that is shown for it. -/
theorem IsFaithful.reread (hh : h.IsFaithful) : h.reread = .ok h.toList := by
  rw [Headers.reread, names, List.mapM_map, toList]
  refine Url.mapM_of_forall ?_
  intro e he
  rw [Function.comp_apply, Headers.get?, hh.shown e he, Entries.get?_of_mem hh.distinct he]

/-- What is stored under shown names is what was stored. -/
theorem IsFaithful.map_toList (hh : h.IsFaithful) :
    h.toList.map (fun p => (Text.lower p.1, p.2)) = h.entries := by
  rw [toList, List.map_map]
  refine (List.map_congr_left ?_).trans (List.map_id _)
  intro e he
  show (Text.lower (displayName e.1), e.2) = e
  rw [hh.shown e he]

/-- Inserting into headers inserts under the lower-case names. -/
theorem entries_insertAll (pairs : List (Text × α)) (h : Headers α) :
    (h.insertAll pairs).entries
      = Entries.insertAll h.entries (pairs.map fun p => (Text.lower p.1, p.2)) := by
  induction pairs generalizing h with
  | nil => rfl
  | cons p pairs ih => exact ih (h.insert p.1 p.2)

/-- Fields that are built from what is shown of them are the same. -/
theorem IsFaithful.ofList_toList (hh : h.IsFaithful) : ofList h.toList = h := by
  -- names that are shown alike would be stored alike
  have hshown : (h.toList.map Prod.fst).Nodup := by
    refine List.Nodup.of_map Text.lower ?_
    have hkeys := hh.distinct
    rw [← hh.map_toList, List.map_map] at hkeys
    rw [List.map_map]
    exact hkeys
  have hentries : (ofList h.toList).entries = h.entries := by
    rw [ofList, update, Entries.ofList_of_nodup hshown, entries_insertAll, hh.map_toList]
    exact Entries.ofList_of_nodup hh.distinct
  cases h
  exact congrArg Headers.mk hentries

end Headers

/-! ## A resource for a path -/

namespace Resource

variable {r c : Resource} {p q : List Text} {pairs : List (Text × Text)}

/-- There is no slash to take off a URL that does not end with one. -/
theorem withoutSlash_of_endsWith {url : Text} (h : url.endsWith (.char '/') = false) :
    withoutSlash url = url := by
  rw [withoutSlash, h]
  rfl

/-- A resource has the fields of another, and what stands behind its URL
    stands behind a path of the other. -/
structure StandsFor (c r : Resource) (p : List Text) : Prop where
  headers : c.headers = r.headers
  url : ∀ q, c.url ++ Url.pathPart c.url q = r.url ++ Url.pathPart r.url (p ++ q)

/-- The resource at a path is there if its URL can be written. -/
theorem child_of_isFaithful (hnames : r.headers.IsFaithful)
    (hp : ∀ segment ∈ p, Text.isWellFormed segment) :
    r.child p = .ok ⟨withoutSlash (r.url ++ Url.pathPart r.url p), r.headers⟩ := by
  have hurl : r.urlOf p [] = .ok (r.url ++ Url.pathPart r.url p) := by
    rw [r.urlOf_of_areWritable ⟨hp, by simp⟩]
    exact congrArg Except.ok (List.append_nil _)
  have hfields : reread r.headers = .ok r.headers.toList := by
    rw [Resource.reread, hnames.reread]
    rfl
  rw [child, hurl, hfields]
  show Except.ok (ofUrl _ r.headers.toList) = _
  rw [ofUrl, hnames.ofList_toList]

/-- The resource at a path stands for it. -/
theorem standsFor_child (hslash : r.url.endsWith (.char '/') = false)
    (hnames : r.headers.IsFaithful) (hlast : p.getLast? ≠ some [])
    (hp : ∀ segment ∈ p, Text.isWellFormed segment) :
    ∃ c, r.child p = .ok c ∧ c.StandsFor r p := by
  have hend := Url.endsWith_pathPart hslash hlast hp
  have hchild := child_of_isFaithful hnames hp
  rw [withoutSlash_of_endsWith hend] at hchild
  refine ⟨_, hchild, rfl, ?_⟩
  intro q
  exact Url.pathPart_pathPart hslash hlast hp q

/-- What is below it is below both paths. -/
theorem StandsFor.child_eq (h : c.StandsFor r p) (hnames : r.headers.IsFaithful)
    (hp : ∀ segment ∈ p, Text.isWellFormed segment)
    (hq : ∀ segment ∈ q, Text.isWellFormed segment) :
    c.child q = r.child (p ++ q) := by
  have hboth : ∀ segment ∈ p ++ q, Text.isWellFormed segment :=
    List.forall_mem_append.mpr ⟨hp, hq⟩
  rw [child_of_isFaithful (h.headers ▸ hnames) hq, child_of_isFaithful hnames hboth,
    h.url, h.headers]

/-- The URL of a path below it is the URL of both paths. -/
theorem StandsFor.urlOf_eq (h : c.StandsFor r p)
    (hp : ∀ segment ∈ p, Text.isWellFormed segment) (hq : Url.AreWritable q pairs) :
    c.urlOf q pairs = r.urlOf (p ++ q) pairs := by
  have hboth : Url.AreWritable (p ++ q) pairs :=
    ⟨List.forall_mem_append.mpr ⟨hp, hq.segments⟩, hq.pairs⟩
  rw [c.urlOf_of_areWritable hq, r.urlOf_of_areWritable hboth, h.url]

/-- What is asked of it is asked of the other. -/
theorem StandsFor.request_eq [Limits] {β ω : Type} [Transport β ω]
    (h : c.StandsFor r p)
    (hp : ∀ segment ∈ p, Text.isWellFormed segment) (hq : Url.AreWritable q pairs)
    (method : Text) (body : Option Bytes) (fields : List (Text × Text)) :
    (c.request method q body fields pairs : Action ω (Response (Body β)))
      = r.request method (p ++ q) body fields pairs := by
  rw [request, request, h.urlOf_eq hp hq, h.headers]

/-- **Paths compose**: below a resource whose URL does not end in a slash and
    whose fields are found by the names that they show, the resource at a path
    has the same fields, and the resource below it is the one at both paths.  A
    request at the second path, made of the first resource, is the request at
    both paths, made of the one above: it makes the same call, and the same
    comes of it. -/
theorem child_append [Limits] {β ω : Type} [Transport β ω] (r : Resource)
    (hslash : r.url.endsWith (.char '/') = false) (hnames : r.headers.IsFaithful)
    (hlast : p.getLast? ≠ some []) (hp : ∀ segment ∈ p, Text.isWellFormed segment)
    (hq : ∀ segment ∈ q, Text.isWellFormed segment) :
    ∃ c, r.child p = .ok c ∧ c.headers = r.headers
      ∧ (∃ d, c.child q = .ok d ∧ r.child (p ++ q) = .ok d ∧ d.headers = r.headers)
      ∧ ∀ pairs : List (Text × Text), (∀ s ∈ pairs, s.1.isWellFormed ∧ s.2.isWellFormed) →
        ∃ url, c.urlOf q pairs = .ok url ∧ r.urlOf (p ++ q) pairs = .ok url
          ∧ ∀ (method : Text) (body : Option Bytes) (fields : List (Text × Text)),
            (c.request method q body fields pairs : Action ω (Response (Body β)))
                = r.request method (p ++ q) body fields pairs
              ∧ (c.request method q body fields pairs
                  : Action (Ledger β ω) (Response (Body Nat))).Makes
                  (r.callOf method url body fields)
              ∧ (r.request method (p ++ q) body fields pairs
                  : Action (Ledger β ω) (Response (Body Nat))).Makes
                  (r.callOf method url body fields) := by
  obtain ⟨c, hchild, hstands⟩ := standsFor_child hslash hnames hlast hp
  have hboth : ∀ segment ∈ p ++ q, Text.isWellFormed segment :=
    List.forall_mem_append.mpr ⟨hp, hq⟩
  refine ⟨c, hchild, hstands.headers, ?_, ?_⟩
  · have hbelow := child_of_isFaithful hnames hboth
    exact ⟨_, (hstands.child_eq hnames hp hq).trans hbelow, hbelow, rfl⟩
  · intro pairs hpairs
    have hq : Url.AreWritable q pairs := ⟨hq, hpairs⟩
    have hboth : Url.AreWritable (p ++ q) pairs := ⟨hboth, hpairs⟩
    have hurl := r.urlOf_of_areWritable hboth
    refine ⟨_, (hstands.urlOf_eq hp hq).trans hurl, hurl, ?_⟩
    intro method body fields
    have hmakes : (r.request method (p ++ q) body fields pairs
        : Action (Ledger β ω) (Response (Body Nat))).Makes _ := makes_request hurl
    refine ⟨hstands.request_eq hp hq method body fields, ?_, hmakes⟩
    rw [hstands.request_eq hp hq method body fields]
    exact hmakes

/-- Empty segments and slashes within segments, a query, and fields that
    differ in case. -/
theorem child_append_of_mixed :
    let r : Resource := .ofUrl (text "http://h/db/")
      [(text "x-te", text "1"), (text "ETag", text "2")]
    let p := [text "a/b", [], text "é"]
    let q := [[], text "c d", []]
    r.url.endsWith (.char '/') = false ∧ r.headers.IsFaithful ∧ p.getLast? ≠ some []
      ∧ (∀ segment ∈ p, Text.isWellFormed segment)
      ∧ (∀ segment ∈ q, Text.isWellFormed segment)
      ∧ ∃ c, r.child p = .ok c ∧ c.url = text "http://h/db/a%2Fb//%C3%A9"
        ∧ (c.request (text "PUT") q none [(text "X-TE", text "3")] [(text "r", [])]
          : Action (Ledger Nat Replay) (Response (Body Nat))).Makes
          (r.callOf (text "PUT") (text "http://h/db/a%2Fb//%C3%A9//c%20d/?r=") none
            [(text "X-TE", text "3")]) := by
  intro r p q
  have hslash : r.url.endsWith (.char '/') = false := by decide
  have hnames : r.headers.IsFaithful := Headers.isFaithful_ofList (by decide)
  have hlast : p.getLast? ≠ some [] := by decide
  have hp : ∀ segment ∈ p, Text.isWellFormed segment := by decide
  have hq : ∀ segment ∈ q, Text.isWellFormed segment := by decide
  refine ⟨hslash, hnames, hlast, hp, hq, ?_⟩
  obtain ⟨c, hchild, -, -, hrequest⟩ :=
    @child_append p q _ Nat Replay _ r hslash hnames hlast hp hq
  obtain ⟨url, -, hurl, hmakes⟩ := hrequest [(text "r", [])] (by decide)
  have hshown : r.urlOf (p ++ q) [(text "r", [])]
      = .ok (text "http://h/db/a%2Fb//%C3%A9//c%20d/?r=") := by rfl
  cases hurl.symm.trans hshown
  refine ⟨c, hchild, ?_, (hmakes _ _ _).2.1⟩
  cases (child_of_isFaithful hnames hp).symm.trans hchild
  rfl

/-- A field whose name is shown as another is not found again, so nothing is
    below a resource that has it. -/
theorem exists_childless :
    let r : Resource := .ofUrl (text "http://h/db") [(text "ß", text "x")]
    r.url.endsWith (.char '/') = false ∧ [text "a"].getLast? ≠ some []
      ∧ (∀ segment ∈ [text "a"], Text.isWellFormed segment)
      ∧ r.child [text "a"] = .error (.fault (.missingField (text "ss"))) := by
  intro r
  have hreread : r.headers.reread = .error (text "ss") := by decide +kernel
  refine ⟨by decide, by decide, by decide, ?_⟩
  have hurl : r.urlOf [text "a"] [] = .ok (text "http://h/db/a") := by rfl
  rw [child, hurl, reread, hreread]
  rfl

end Resource

end CouchClient
