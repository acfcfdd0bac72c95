import CouchClient.Http.Request
import CouchClient.Proofs.Url.Joining

/-! # Targets — what a server is asked for

    A URL is joined from its parts by one set of rules, taken apart by
    another, and a part of it is put together again for the server.  The
    server is found by the scheme and the network location that the URL was
    joined from, and it is asked for the path and the query of the URL as
    they are.  This holds of a path that starts with two slashes too, though
    a URL without a scheme would lose its first segment to the network
    location.

    * `Url.Base` — the URL of a server with a path on it;
    * `Url.Base.pathTo`, `Url.Base.split_joined` — what is joined behind it,
      and how the URL is taken apart;
    * `Url.Parts.selector_eq` — what is put together again;
    * `Request.asks_for_joined` — the server and the target of a request. -/

namespace CouchClient

namespace Url

/-! ## Bases -/

/-- The signs of host names, addresses and ports. -/
def isHostSign : CodePoint → Bool
  | .char c => c.isAlphanum || c == '.' || c == '-' || c == ':'
  | .surrogate _ => false

/-- The signs of a path that is quoted already. -/
def isPathSign (c : CodePoint) : Bool := isQuotedSign c || c == .char '/'

/-- The URL of a server that can be asked, with a path on it. -/
structure Base where
  scheme : Text
  netloc : Text
  path : Text
  isSupported : scheme = text "http" ∨ scheme = text "https"
  netloc_ne : netloc ≠ []
  netloc_signs : ∀ c ∈ netloc, isHostSign c
  path_start : path = [] ∨ path.head? = some (.char '/')
  path_signs : ∀ c ∈ path, isPathSign c

variable {c : CodePoint} {segments : List Text} {pairs : List (Text × Text)}

/-- The signs of a path need no quoting. -/
theorem isPlainSign_of_isPathSign (h : isPathSign c) : isPlainSign c := by
  obtain hquoted | hslash := Bool.or_eq_true_iff.mp h
  · simp [isPlainSign, hquoted]
  · simp [isPlainSign, hslash]

/-- A path in which such signs stand opens no query and no fragment. -/
theorem not_mem_of_isPathSign {path : Text} (h : ∀ c ∈ path, isPathSign c)
    (hc : isPathSign c = false) : c ∉ path := by
  intro hmem
  rw [h c hmem] at hc
  cases hc

/-- The signs of hosts are visible ASCII, and none of them ends a network
    location or needs brackets. -/
theorem bounds_of_isHostSign (h : isHostSign c) :
    0x20 < c.toNat ∧ c.toNat < 0x80 ∧ endsNetloc c = false ∧ c ≠ .char '['
      ∧ c ≠ .char ']' := by
  have hascii : c.isAscii := by
    cases c with
    | surrogate s => cases h
    | char c =>
        simp only [isHostSign, Bool.or_eq_true, beq_iff_eq] at h
        obtain ((h | rfl) | rfl) | rfl := h
        · exact decide_eq_true (toNat_of_isAlphanum h)
        all_goals rfl
  have hall : ∀ n : Fin 0x80, isHostSign (.char (Char.ofNat n.val)) →
      0x20 < n.val ∧ endsNetloc (.char (Char.ofNat n.val)) = false
        ∧ n.val ≠ 0x5B ∧ n.val ≠ 0x5D := by
    decide
  have hlow : c.toNat < 0x80 := of_decide_eq_true hascii
  cases c with
  | surrogate s => cases h
  | char c =>
      rw [← Char.ofNat_toNat c] at h
      obtain ⟨hvisible, hends, hopening, hclosing⟩ := hall ⟨c.toNat, hlow⟩ h
      rw [Char.ofNat_toNat] at hends
      refine ⟨hvisible, hlow, hends, ?_, ?_⟩
      · rintro ⟨⟩
        exact hopening rfl
      · rintro ⟨⟩
        exact hclosing rfl

namespace Base

/-- What stands before the path of a URL. -/
def server (b : Base) : Text := b.scheme ++ text "://" ++ b.netloc

/-- The URL itself. -/
def url (b : Base) : Text := b.server ++ b.path

/-- The path of a URL with segments behind the base. -/
def pathTo (b : Base) (segments : List Text) : Text :=
  b.path ++ pathPart b.url segments

variable (b : Base)

/-- A base without a path does not end with a slash. -/
theorem endsWith_slash_of_nil (h : b.path = []) : b.url.endsWith (.char '/') = false := by
  obtain ⟨front, last, hlast⟩ := List.eq_nil_or_concat b.netloc |>.resolve_left b.netloc_ne
  have hsign : isHostSign last := b.netloc_signs last (by simp [hlast])
  have hurl : b.url = b.scheme ++ text "://" ++ front ++ [last] := by
    rw [url, server, h, hlast]
    simp
  rw [hurl, Text.endsWith, List.getLast?_concat, beq_eq_false_iff_ne]
  rintro ⟨⟩
  cases hsign

/-- A path behind a base starts with a slash, if there is one. -/
theorem head?_pathTo (segments : List Text) :
    b.pathTo segments = [] ∨ (b.pathTo segments).head? = some (.char '/') := by
  obtain hnil | hslash := b.path_start
  · rw [pathTo, hnil, List.nil_append, pathPart, slashAfter,
      b.endsWith_slash_of_nil hnil]
    split
    · exact Or.inl rfl
    · exact Or.inr rfl
  · refine Or.inr ?_
    rw [pathTo, List.head?_append, hslash]
    rfl

/-- Every character of the joined path is a sign of a path. -/
theorem isPathSign_of_mem_pathTo (h : c ∈ b.pathTo segments) : isPathSign c := by
  obtain hc | hc := List.mem_append.mp h
  · exact b.path_signs c hc
  obtain rfl | hc := mem_pathPart hc
  · rfl
  · simp [isPathSign, hc]

/-- The URL that is joined is the server, a path and a query. -/
theorem build_url (h : AreWritable segments pairs) :
    build b.url (some segments) pairs
      = .ok (b.server ++ (b.pathTo segments ++ queryPart pairs)) := by
  rw [build_eq_ok_iff, extend_of_areWritable b.url h]
  simp only [url, pathTo, List.append_assoc]

/-! ## Taking apart -/

/-- The netloc of a joined URL ends where its path or its query begins. -/
theorem splitNetloc_joined (segments : List Text) (pairs : List (Text × Text)) :
    splitNetloc (text "//" ++ (b.netloc ++ (b.pathTo segments ++ queryPart pairs)))
      = (b.netloc, b.pathTo segments ++ queryPart pairs) := by
  have hnetloc : ∀ c ∈ b.netloc, (!endsNetloc c) = true := by
    intro c hc
    rw [(bounds_of_isHostSign (b.netloc_signs c hc)).2.2.1]
    rfl
  -- what stands behind the network location ends it
  have hbehind : ∀ c, (b.pathTo segments ++ queryPart pairs).head? = some c →
      (!endsNetloc c) = false := by
    intro c hc
    obtain hnil | hslash := b.head?_pathTo segments
    · rw [hnil, List.nil_append, queryPart] at hc
      split at hc
      · cases hc
      · cases hc
        rfl
    · rw [List.head?_append, hslash] at hc
      cases hc
      rfl
  show ((b.netloc ++ _).takeWhile (!endsNetloc ·), (b.netloc ++ _).dropWhile (!endsNetloc ·)) = _
  rw [List.takeWhile_append_of_pos hnetloc, Text.dropWhile_append_of_head hnetloc hbehind]
  cases hrest : b.pathTo segments ++ queryPart pairs with
  | nil => simp
  | cons c rest =>
      have hc := hbehind c (by rw [hrest]; rfl)
      rw [List.takeWhile_cons_of_neg (by simpa using hc), List.append_nil]

/-- There is nothing to strip from a joined URL. -/
theorem clean_joined (segments : List Text) (pairs : List (Text × Text)) :
    clean (b.server ++ (b.pathTo segments ++ queryPart pairs))
      = b.server ++ (b.pathTo segments ++ queryPart pairs) := by
  refine clean_of_visible ?_
  intro c hc
  have hscheme : ∀ c ∈ b.scheme ++ text "://", 0x20 < c.toNat := by
    obtain hscheme | hscheme := b.isSupported
    · rw [hscheme]
      decide
    · rw [hscheme]
      decide
  obtain hc | hc := List.mem_append.mp hc
  · obtain hc | hc := List.mem_append.mp hc
    · exact hscheme c hc
    · exact (bounds_of_isHostSign (b.netloc_signs c hc)).1
  obtain hc | hc := List.mem_append.mp hc
  · exact (bounds_of_isPlainSign
      (isPlainSign_of_isPathSign (b.isPathSign_of_mem_pathTo hc))).1
  · exact (bounds_of_isPlainSign (isPlainSign_of_mem_queryPart hc)).1

/-- The scheme of a joined URL is that of its base. -/
theorem splitScheme_server (fallback rest : Text) :
    splitScheme fallback (b.server ++ rest) = (b.scheme, text "//" ++ (b.netloc ++ rest)) := by
  have hserver : b.server ++ rest
      = b.scheme ++ .char ':' :: (text "//" ++ (b.netloc ++ rest)) := by
    rw [server, List.append_assoc, List.append_assoc]
    rfl
  have hcolon : .char ':' ∉ b.scheme := by
    obtain hscheme | hscheme := b.isSupported
    · rw [hscheme]
      decide
    · rw [hscheme]
      decide
  rw [splitScheme, hserver, Text.cut_append_cons hcolon]
  obtain hscheme | hscheme := b.isSupported
  · rw [hscheme]
    rfl
  · rw [hscheme]
    rfl

/-- A query of pairs holds no mark of a fragment. -/
theorem not_mem_joined (segments : List Text) (pairs : List (Text × Text)) :
    .char '#' ∉ b.pathTo segments ++ queryPart pairs := by
  intro hmem
  obtain hmem | hmem := List.mem_append.mp hmem
  · exact not_mem_of_isPathSign (fun c => b.isPathSign_of_mem_pathTo) rfl hmem
  · cases isPlainSign_of_mem_queryPart hmem

/-- The URL that is joined has the parts that it was joined from. -/
theorem split_joined (fallback : Text) (segments : List Text)
    (pairs : List (Text × Text)) :
    split fallback (b.server ++ (b.pathTo segments ++ queryPart pairs))
      = .ok ⟨b.scheme, b.netloc, b.pathTo segments, writtenQuery pairs, []⟩ := by
  have hlocation : IsLocation b.netloc := by
    refine isLocation_of_ascii ?_
    intro c hc
    obtain ⟨-, hlow, -, hopening, hclosing⟩ := bounds_of_isHostSign (b.netloc_signs c hc)
    exact ⟨hlow, hopening, hclosing⟩
  have hpath : .char '?' ∉ b.pathTo segments :=
    not_mem_of_isPathSign (fun c => b.isPathSign_of_mem_pathTo) rfl
  have hscheme := b.splitScheme_server fallback (b.pathTo segments ++ queryPart pairs)
  have hnetloc := b.splitNetloc_joined segments pairs
  have hclean := b.clean_joined segments pairs
  rw [split_of_isLocation]
  · simp only [hclean, hscheme, hnetloc]
    rw [Text.cut_of_not_mem (b.not_mem_joined segments pairs)]
    dsimp only
    rw [cut_queryPart hpath]
    cases pairs with
    | nil => rfl
    | cons p pairs => rfl
  · rw [hclean, hscheme, hnetloc]
    exact hlocation

end Base

/-! ## Putting together -/

/-- Pairs are written as something. -/
theorem writtenQuery_ne_nil (h : pairs ≠ []) : writtenQuery pairs ≠ [] := by
  obtain ⟨p, pairs, rfl⟩ := List.exists_cons_of_ne_nil h
  obtain ⟨behind, hbehind⟩ := Text.join_cons (.char '&') (writtenPair p)
    (pairs.map writtenPair)
  rw [writtenQuery, List.map_cons, hbehind, writtenPair]
  simp

/-- What stands behind a path is a mark and the query, if there are pairs. -/
theorem after_writtenQuery (pairs : List (Text × Text)) :
    after '?' (writtenQuery pairs) = queryPart pairs := by
  by_cases h : pairs = []
  · subst h
    rfl
  · rw [after, queryPart, if_neg (by simpa using writtenQuery_ne_nil h),
      if_neg (by simpa using h)]

/-- A path and its query are put together as they are: without a scheme and a
    network location nothing stands before them, whatever they start with. -/
theorem Parts.selector_eq (parts : Parts) :
    parts.selector = parts.path ++ after '?' parts.query := by
  show [] ++ parts.path ++ after '?' parts.query ++ [] = _
  rw [List.append_nil, List.nil_append]

end Url

/-! ## Requests -/

namespace Request

open Url

variable {segments : List Text} {pairs : List (Text × Text)}

/-- **A server is asked for what was joined**: a request for a URL that is
    joined behind a base goes to the server of the base, and asks it for the
    path and the query of the URL, character for character. -/
theorem asks_for_joined (b : Base) (h : AreWritable segments pairs) (method : Text)
    (body : Option Bytes) (fields : List (Text × Text)) :
    ∃ url r, build b.url (some segments) pairs = .ok url
      ∧ Request.make method url body fields = .ok r
      ∧ r.target.scheme = b.scheme ∧ r.target.netloc = b.netloc
      ∧ r.selector = b.pathTo segments ++ queryPart pairs
      ∧ b.scheme ++ text "://" ++ b.netloc ++ r.selector = url := by
  let parts : Parts := ⟨b.scheme, b.netloc, b.pathTo segments, writtenQuery pairs, []⟩
  have hsplit := b.split_joined (text "http") segments pairs
  have hselector : parts.selector = b.pathTo segments ++ queryPart pairs := by
    rw [parts.selector_eq, after_writtenQuery]
  refine ⟨_, ⟨method, parts, body, fieldsFor body fields⟩, b.build_url h, ?_, rfl, rfl,
    hselector, ?_⟩
  · rw [Request.make, hsplit]
    rfl
  · exact congrArg (b.server ++ ·) hselector

/-- An empty segment behind a server without a path, so that the path starts
    with two slashes, and a query. -/
theorem asks_for_joined_of_emptySegment :
    let b : Base := ⟨text "https", text "h:6984", [], by decide, by decide,
      by decide, by decide, by decide⟩
    let segments := [[], text "a b"]
    let pairs := [(text "rev", [])]
    let url := text "https://h:6984//a%20b?rev="
    AreWritable segments pairs
      ∧ ∃ r, build b.url (some segments) pairs = .ok url
        ∧ Request.make (text "GET") url none [] = .ok r
        ∧ r.selector = text "//a%20b?rev="
        ∧ b.scheme ++ text "://" ++ b.netloc ++ r.selector = url := by
  intro b segments pairs url
  have hwritable : AreWritable segments pairs := by
    constructor
    · decide +kernel
    · decide +kernel
  obtain ⟨url', r, hbuild, hmake, -, -, hselector, hexact⟩ :=
    asks_for_joined b hwritable (text "GET") none []
  have hasked : r.selector = text "//a%20b?rev=" := by
    rw [hselector]
    decide +kernel
  have hsame : url' = url := by
    rw [← hexact, hasked]
    decide +kernel
  subst hsame
  exact ⟨hwritable, r, hbuild, hmake, hasked, hexact⟩

end Request

end CouchClient
