import CouchClient.Proofs.Database.Children

/-! # Naming — databases that are known by a name

    A text that is the URL of no server names a database on a given one.
    Whatever the name holds, slashes and percent signs included, is quoted, so
    that it is one segment behind the URL of the server.  The name is read off
    that segment again, and no two names make the same URL.

    * `Database.IsName` — the texts that name a database;
    * `Database.ofUrl_of_isName` — the database with a name;
    * `Database.IsNamed`, `name_of_url` — a database whose name is read off its
      URL;
    * `Database.named_ofUrl` — names survive, and tell databases apart. -/

namespace CouchClient

/-! ## Ends of texts -/

/-- A text ends as what stands last in it. -/
theorem Text.endsWith_append_of_ne_nil {u : Text} (hne : u ≠ []) (t : Text)
    (c : CodePoint) : (t ++ u).endsWith c = u.endsWith c := by
  rw [Text.endsWith, Text.endsWith, List.getLast?_append_of_ne_nil t hne]

/-- A text without a character does not end with it. -/
theorem Text.endsWith_of_not_mem {t : Text} {c : CodePoint} (h : c ∉ t) :
    t.endsWith c = false := by
  rw [Text.endsWith, beq_eq_false_iff_ne]
  intro hlast
  exact h (List.mem_of_getLast? hlast)

namespace Database

variable {db db' : Database} {server s : Text}

/-! ## Names -/

/-- A text names a database: it is not empty, holds no surrogate, and is taken
    apart as a URL that has another scheme than those of servers, or none. -/
structure IsName (s : Text) : Prop where
  ne_nil : s ≠ []
  isWellFormed : s.isWellFormed
  elsewhere : ∃ parts, Url.split [] s = .ok parts
    ∧ parts.scheme ≠ text "http" ∧ parts.scheme ≠ text "https"

/-- A database has a name on a server: the name can be read off it, and its URL
    is that of the server, a slash unless there is one, and the quoted name,
    which holds no slash. -/
structure IsNamed (db : Database) (server s : Text) : Prop where
  name : db.name = s
  url : ∃ q, Url.quote s = .ok q ∧ .char '/' ∉ q
    ∧ db.resource.url = server ++ Url.slashAfter server ++ q

/-- Quoting leaves no slash. -/
theorem slash_not_mem_quoted (s : Text) : .char '/' ∉ Url.quoted s :=
  Url.not_mem_quoted rfl

/-- What is quoted behind the last slash is the name. -/
theorem name_of_url (hs : s.isWellFormed)
    (hurl : db.resource.url = server ++ Url.slashAfter server ++ Url.quoted s) :
    db.name = s := by
  obtain ⟨before, hbefore⟩ := Url.exists_append_slashAfter server
  have hurl : db.resource.url = before ++ .char '/' :: Url.quoted s := by
    rw [hurl, hbefore, List.append_assoc, List.singleton_append]
  have hlast := Text.getLast?_splitOn (slash_not_mem_quoted s) before
  rw [name, hurl, hlast, Option.getD_some, Url.unquote_quoted hs]

/-- The URL of a server with a quoted name behind it loses no slash. -/
theorem withoutSlash_named (hs : s.isWellFormed) (hne : s ≠ []) (base : Text) :
    Resource.withoutSlash (base ++ Url.quoted s) = base ++ Url.quoted s := by
  refine Resource.withoutSlash_of_endsWith ?_
  rw [Text.endsWith_append_of_ne_nil (Url.quoted_ne_nil hs hne)]
  exact Text.endsWith_of_not_mem (slash_not_mem_quoted s)

/-- The URL of a database is the server's with the quoted name behind it. -/
theorem extend_named (hs : s.isWellFormed) (server : Text) :
    Url.extend server [s] []
      = .ok (server ++ Url.slashAfter server ++ Url.quoted s) := by
  have hsegments : ∀ segment ∈ [s], Text.isWellFormed segment := by simpa using hs
  rw [Url.extend_of_isWellFormed server (List.cons_ne_nil s []) hsegments (by simp),
    Url.writtenPath_singleton]
  exact congrArg Except.ok (List.append_nil _)

/-- The database with a name is there, and its resource has the URL of the
    server with the quoted name behind it. -/
theorem ofUrl_of_isName (h : IsName s) (server : Text) :
    ofUrl server s = .ok ⟨⟨server ++ Url.slashAfter server ++ Url.quoted s,
      .ofList defaultFields⟩⟩ := by
  obtain ⟨parts, hparts, hhttp, hhttps⟩ := h.elsewhere
  rw [ofUrl, hparts]
  dsimp only
  rw [if_neg (not_or.mpr ⟨hhttp, hhttps⟩), extend_named h.isWellFormed]
  dsimp only
  rw [Resource.ofUrl, withoutSlash_named h.isWellFormed h.ne_nil]

/-- Every name is that of some database on every server. -/
theorem exists_isNamed (h : IsName s) (server : Text) :
    ∃ db, ofUrl server s = .ok db ∧ db.IsNamed server s := by
  refine ⟨_, ofUrl_of_isName h server, name_of_url h.isWellFormed rfl, ?_⟩
  exact ⟨_, Url.quote_of_isWellFormed h.isWellFormed, slash_not_mem_quoted s, rfl⟩

/-- The name of a database is settled by its URL. -/
theorem name_eq_of_url_eq (h : db'.resource.url = db.resource.url) :
    db'.name = db.name := by
  rw [name, name, h]

/-- **Names survive the URL**: on whatever server, the database with a name is
    there, its URL ends in the quoted name, and the name is read off it again.
    Two databases with two names have two URLs, even on two servers. -/
theorem named_ofUrl (h : IsName s) (server : Text) :
    ∃ db, ofUrl server s = .ok db ∧ db.IsNamed server s
      ∧ ∀ server' s', IsName s' → s' ≠ s →
        ∃ db', ofUrl server' s' = .ok db' ∧ db'.IsNamed server' s'
          ∧ db'.resource.url ≠ db.resource.url := by
  obtain ⟨db, hdb, hnamed⟩ := exists_isNamed h server
  refine ⟨db, hdb, hnamed, ?_⟩
  intro server' s' h' hne
  obtain ⟨db', hdb', hnamed'⟩ := exists_isNamed h' server'
  refine ⟨db', hdb', hnamed', ?_⟩
  intro hurl
  have hname : s' = s := by
    calc s' = db'.name := hnamed'.name.symm
      _ = db.name := name_eq_of_url_eq hurl
      _ = s := hnamed.name
  exact hne hname

/-- A name that looks like a URL, with a slash, a percent sign and a plus sign,
    and the name that its unquoted form would be. -/
theorem named_ofUrl_of_lookalike :
    let server := text "http://localhost:5984/"
    let s := text "dav://a/b%2F+é"
    let s' := text "dav://a/b/+é"
    IsName s ∧ IsName s' ∧ s' ≠ s
      ∧ ∃ db, ofUrl server s = .ok db ∧ db.name = s
        ∧ db.resource.url = text "http://localhost:5984/dav%3A%2F%2Fa%2Fb%252F%2B%C3%A9"
        ∧ ∃ db', ofUrl (text "http://h") s' = .ok db' ∧ db'.name = s'
          ∧ db'.resource.url = text "http://h/dav%3A%2F%2Fa%2Fb%2F%2B%C3%A9" := by
  intro server s s'
  have hs : IsName s := by
    refine ⟨by decide, by decide, ⟨⟨text "dav", text "a", text "/b%2F+é", [], []⟩, ?_⟩⟩
    decide +kernel
  have hs' : IsName s' := by
    refine ⟨by decide, by decide, ⟨⟨text "dav", text "a", text "/b/+é", [], []⟩, ?_⟩⟩
    decide +kernel
  have hne : s' ≠ s := by decide
  refine ⟨hs, hs', hne, ?_⟩
  obtain ⟨db, hdb, ⟨hname, q, hq, -, hurl⟩, hothers⟩ := named_ofUrl hs server
  obtain ⟨db', hdb', ⟨hname', q', hq', -, hurl'⟩, -⟩ := hothers (text "http://h") s' hs' hne
  have hquote : Url.quote s = .ok (text "dav%3A%2F%2Fa%2Fb%252F%2B%C3%A9") := by
    decide +kernel
  have hquote' : Url.quote s' = .ok (text "dav%3A%2F%2Fa%2Fb%2F%2B%C3%A9") := by
    decide +kernel
  cases hq.symm.trans hquote
  cases hq'.symm.trans hquote'
  refine ⟨db, hdb, hname, hurl.trans ?_, db', hdb', hname', hurl'.trans ?_⟩
  all_goals decide +kernel

end Database

end CouchClient
