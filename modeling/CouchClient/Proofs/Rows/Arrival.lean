import CouchClient.Proofs.Http.Portions
import CouchClient.Proofs.Rows.Truncation

/-! # Arrivals — what a scanner has taken in of its text

    A scanner reads from a stream that gives as many bytes as it is asked for.
    What has arrived of the text that it stands before is ahead, but for the
    first bytes of a character that has not arrived as a whole.  All signs of a
    listing are ASCII characters, before which no byte waits.

    * `Reading.isAscii_of_completesAt` — signs of one byte;
    * `StoredStream.Serves` — streams that give what they are asked for;
    * `Scanner.Stands` — a scanner of such a stream, and its text;
    * `Stands.length_le` — what has arrived before a sign that has not;
    * `Stands.of_fill`, `Stands.exists_peek` — reads, and the next sign. -/

namespace CouchClient

/-! ## Signs of one byte -/

theorem length_bytes_singleton {c : CodePoint} (h : c.isAscii) :
    (Utf8.bytes [c]).length = 1 := by
  have hbytes : Utf8.bytesOfNat c.toNat = [.ofNat c.toNat] := if_pos (of_decide_eq_true h)
  rw [Utf8.bytes, List.flatMap_singleton, hbytes]
  rfl

theorem length_bytes_pos {t : Text} (h : t ≠ []) : 0 < (Utf8.bytes t).length := by
  obtain ⟨c, r, rfl⟩ := List.exists_cons_of_ne_nil h
  have hone : 0 < (Utf8.bytesOfNat c.toNat).length := by
    rw [Utf8.bytesOfNat]
    repeat' split
    all_goals exact Nat.succ_pos _
  rw [Utf8.bytes, List.flatMap_cons, List.length_append]
  omega

theorem isAscii_of_isBlank {c : CodePoint} (h : Json.isBlank c = true) : c.isAscii := by
  simp only [Json.isBlank, Bool.or_eq_true, beq_iff_eq] at h
  rcases h with ((rfl | rfl) | rfl) | rfl
  all_goals rfl

theorem isAscii_of_isDigit {c : CodePoint} (h : c.isDigit = true) : c.isAscii := by
  cases c with
  | surrogate s => cases h
  | char a =>
      have hle : a.toNat ≤ '9'.toNat := by
        simp only [CodePoint.isDigit, Char.isDigit, Bool.and_eq_true, decide_eq_true_eq] at h
        exact h.2
      exact decide_eq_true (Nat.lt_of_le_of_lt hle (by decide))

/-- A word or a number starts with an ASCII character. -/
theorem isAscii_of_readScalar? {c : CodePoint} {t rest : Text} {v : Json}
    (h : Json.readScalar? (c :: t) = some (v, rest)) : c.isAscii := by
  have hunsigned {negative : Bool} (h : Json.readUnsigned? negative (c :: t) = some (v, rest)) :
      c.isAscii := by
    obtain ⟨d, r, hd, hdigit⟩ := Json.exists_digit_of_readUnsigned? h
    cases hd
    exact isAscii_of_isDigit hdigit
  rw [Json.readScalar?] at h
  split at h
  · next found hword =>
      cases h
      obtain ⟨word, hmem, -, ht⟩ := Json.readWord?_eq_some_iff.mp hword
      have hwords : ∀ w ∈ Json.words, w.1 ≠ [] ∧ w.1.all CodePoint.isAscii := by decide
      obtain ⟨hne, hascii⟩ := hwords word hmem
      obtain ⟨d, r, hd⟩ := List.exists_cons_of_ne_nil hne
      rw [hd] at ht hascii
      cases ht
      exact List.all_eq_true.mp hascii c List.mem_cons_self
  · by_cases hminus : c = .char '-'
    · rw [hminus]
      rfl
    · rw [Json.readNumber?_of_not_minus] at h
      · exact hunsigned h
      · rintro r ⟨⟩
        exact hminus rfl

/-- A value starts with an ASCII character. -/
theorem isAscii_of_parse [L : Limits] {c : CodePoint} {t rest : Text} {v : Json}
    (h : Json.parse (c :: t) = .ok (v, rest)) : c.isAscii := by
  rcases Json.parse_cases (Json.parse_unlimited h) with
    ⟨_, _, ht, _⟩ | ⟨_, harray, _⟩ | ⟨_, hobject, _⟩ | hscalar
  · cases ht
    rfl
  · cases harray <;> rfl
  · cases hobject <;> rfl
  · exact isAscii_of_readScalar? hscalar

/-- What is neither refused nor the start of a value is an ASCII character. -/
theorem Phase.isAscii_of_move {f : Text} {phase : Phase} {c : CodePoint}
    (hvalue : phase.move f (some c) ≠ .value)
    (hrefuse : ∀ expected, phase.move f (some c) ≠ .refuse expected) : c.isAscii := by
  refine Bool.not_eq_false _ ▸ fun hc => ?_
  have hne (sign : Char) (hsign : (CodePoint.char sign).isAscii) :
      some c ≠ some (.char sign) := by
    rintro ⟨⟩
    cases hsign.symm.trans hc
  have hsigns := And.intro (hne '"' rfl) <| And.intro (hne ':' rfl) <|
    And.intro (hne ',' rfl) <| And.intro (hne '{' rfl) <| And.intro (hne '}' rfl) <|
    And.intro (hne '[' rfl) <| And.intro (hne ']' rfl) (hne 'n' rfl)
  cases phase
  all_goals simp [Phase.move, Phase.nameMove, hsigns] at hvalue hrefuse

/-- The next sign of a reading that comes to its end is an ASCII character. -/
theorem Reading.isAscii_of_completesAt [L : Limits] {f t : Text} {r : Reading} {c : CodePoint}
    {rows : List (Row × Text)} {final : Reading}
    (h : CompletesAt f r c t rows final (r.phase.move f (some c))) : c.isAscii := by
  cases hmove : r.phase.move f (some c) with
  | refuse expected =>
      rw [hmove] at h
      exact h.elim
  | value =>
      rw [hmove] at h
      obtain ⟨w, hopens, -⟩ := h
      exact isAscii_of_parse (L := .unlimited) hopens.reads
  | take | giveRow =>
      have hascii := @Phase.isAscii_of_move f r.phase c
      rw [hmove] at hascii
      exact hascii (by simp) (by simp)

/-- So is the first character before it. -/
theorem exists_ascii_of_skipBlanks {c : CodePoint} {t r : Text}
    (h : Json.skipBlanks t = c :: r) (hc : c.isAscii) : ∃ d q, t = d :: q ∧ d.isAscii := by
  cases t with
  | nil => cases h
  | cons d q =>
      refine ⟨d, q, rfl, ?_⟩
      cases hblank : Json.isBlank d with
      | true => exact isAscii_of_isBlank hblank
      | false =>
          rw [Json.skipBlanks, List.dropWhile_cons, hblank] at h
          cases h
          exact hc

/-! ## Streams that give what they are asked for -/

namespace StoredStream

/-- The bytes that no read has taken. -/
def left (s : StoredStream) : Bytes := s.content.drop s.position

/-- The stream gives as many bytes of the content as it is asked for, while
    they last. -/
structure Serves (s : StoredStream) (content : Bytes) : Prop where
  content : s.content = content
  limit : s.limit = none
  failure : s.failure = none
  within : s.position ≤ s.content.length

section
variable {s : StoredStream} {content : Bytes}

/-- A new stream without limit or fault serves its content. -/
theorem serves_ofBytes (content : Bytes) : (ofBytes content none none).Serves content :=
  ⟨rfl, rfl, rfl, Nat.zero_le _⟩

/-- A read gives a beginning of what is left. -/
theorem Serves.read (h : s.Serves content) (n : Nat) :
    s.read (some n) = (.ok (s.left.take n), s.giving (some n) n) := by
  have hlimit : (s.ask (some n)).limit = none := h.limit
  have hfailure : (s.ask (some n)).failure = none := h.failure
  rw [StoredStream.read]
  dsimp only
  rw [hfailure, hlimit]
  rfl

theorem left_giving (s : StoredStream) (n : Nat) :
    (s.giving (some n) n).left = s.left.drop n := by
  show s.content.drop (s.position + (s.left.take n).length) = _
  rw [left, List.drop_drop, List.length_take]
  rcases Nat.le_total n (s.content.drop s.position).length with hle | hle
  · rw [Nat.min_eq_left hle]
  · rw [Nat.min_eq_right hle]
    rw [List.length_drop] at hle ⊢
    rw [List.drop_of_length_le (by omega), List.drop_of_length_le (by omega)]

theorem length_left_giving (s : StoredStream) (n : Nat) :
    (s.giving (some n) n).left.length = s.left.length - n := by
  rw [left_giving, List.length_drop]

/-- A stream that gave something serves the same content. -/
theorem Serves.giving (h : s.Serves content) (n : Nat) :
    (s.giving (some n) n).Serves content where
  content := h.content
  limit := h.limit
  failure := h.failure
  within := s.position_giving_le (some n) n h.within

/-- What was given and what is left make up the content. -/
theorem Serves.position_add (h : s.Serves content) :
    s.position + s.left.length = content.length := by
  have hwithin := h.within
  rw [← h.content, left, List.length_drop]
  omega

theorem Serves.reach_eq (h : s.Serves content) : s.reach = s.content := by
  rw [reach, h.failure]

/-- A stream that serves holds what is left of its content. -/
theorem Serves.holds (h : s.Serves content) : s.Holds s.left none := by
  refine ⟨by simp [h.limit], ?_, ?_, ?_⟩
  · rw [h.reach_eq]
    exact h.within
  · rw [h.reach_eq]
    rfl
  · rw [striking, h.failure]

/-- A stream holds nothing else. -/
theorem Serves.eq_of_holds (h : s.Serves content) {bs : Bytes} {fault : Option Fault}
    (hholds : s.Holds bs fault) : bs = s.left := by
  obtain ⟨-, -, hbs, -⟩ := hholds
  rw [hbs, h.reach_eq]
  rfl

end

end StoredStream

namespace Channel

/-- A feed gives what its stream gives, through either channel. -/
theorem read_feed {s s' : StoredStream} {n : Nat} {chunk : Bytes}
    (h : s.read (some n) = (.ok chunk, s')) (ch : Channel) :
    (ch.feed s).read n () = (.ok chunk, ch.feed s', ()) := by
  cases ch with
  | direct =>
      show ((s.read (some n)).1.mapError Error.fault, Feed.direct (s.read (some n)).2, ()) = _
      rw [h]
      rfl
  | body method url =>
      show (((Body.ofStream (some s) method url).read (some n) ()).1, Feed.body
        ((Body.ofStream (some s) method url).read (some n) ()).2.1, ()) = _
      rw [show Body.ofStream (some s) method url = ⟨some s, method, url, false⟩ from rfl,
        Body.read_of_ok h]
      rfl

/-- What a feed holds is held by its stream. -/
theorem holds_of_feed {s : StoredStream} {ch : Channel} {bs : Bytes} {e : Option Error}
    (h : (ch.feed s).Holds () bs e) : ∃ fault, s.Holds bs fault := by
  cases ch with
  | direct =>
      cases h with
      | direct h => exact ⟨_, h⟩
  | body method url =>
      cases h with
      | body h => exact ⟨_, h⟩

end Channel

/-! ## Scanners of such a stream -/

namespace Scanner

/-- The scanner reads from a stream of the content, and what it is supplied
    with is the given text. -/
structure Stands (s : Scanner StoredStream) (ch : Channel) (content : Bytes)
    (st : StoredStream) (t : Text) : Prop where
  feed : s.feed = ch.feed st
  serves : st.Serves content
  wellFormed : t.isWellFormed
  supplies : s.Supplies () st.closes t none

section
variable {s s' : Scanner StoredStream} {ch : Channel} {content : Bytes} {st : StoredStream}
  {t : Text}

theorem strikingAt_eq_none {e : Option Error} {waiting : Bytes}
    (h : strikingAt e waiting = none) : waiting = [] := by
  cases e with
  | some e => cases h
  | none =>
      cases waiting with
      | nil => rfl
      | cons b rest => cases h

/-- What has arrived of the text is the text ahead, and bytes that wait. -/
theorem Stands.exists_arrived (h : s.Stands ch content st t) :
    st.left.length ≤ (Utf8.bytes t).length
      ∧ (∃ u, t = s.buffer.ahead ++ u)
      ∧ ∃ waiting, Utf8.readPart ((Utf8.bytes t).take
          ((Utf8.bytes t).length - st.left.length)) = .ok (s.buffer.ahead, waiting) := by
  obtain ⟨hfeed, hserves, hwf, hsupplies⟩ := h
  have hleft {bs : Bytes} {e : Option Error} (hholds : s.feed.Holds () bs e) : bs = st.left := by
    rw [hfeed] at hholds
    obtain ⟨fault, hholds⟩ := Channel.holds_of_feed hholds
    exact hserves.eq_of_holds hholds
  generalize hlast : (none : Option Outline) = last at hsupplies
  cases hsupplies with
  | @coming bs waiting e u _ hholds _ hwaiting hread =>
      obtain rfl := hleft hholds
      obtain rfl := strikingAt_eq_none hlast.symm
      obtain ⟨-, hbytes, -⟩ := Utf8.readPart_eq_ok_iff.mp hread
      obtain ⟨-, -, hwaits⟩ := Utf8.readPart_eq_ok_iff.mp hwaiting
      rw [List.append_nil] at hbytes
      have hsplit : Utf8.bytes (s.buffer.ahead ++ u)
          = (Utf8.bytes s.buffer.ahead ++ s.buffer.waiting) ++ st.left := by
        rw [Utf8.bytes_append, ← hbytes, List.append_assoc]
      refine ⟨?_, ⟨u, rfl⟩, s.buffer.waiting, ?_⟩
      · rw [hsplit, List.length_append]
        exact Nat.le_add_left _ _
      · rw [hsplit, List.length_append, Nat.add_sub_cancel, List.take_left]
        exact Utf8.readPart_eq_ok_iff.mpr
          ⟨(Utf8.isWellFormed_append.mp hwf).1, rfl, hwaits⟩
  | done _ hholds _ =>
      have hnil := hleft hholds
      rw [← hnil]
      refine ⟨Nat.zero_le _, ⟨[], (List.append_nil _).symm⟩, [], ?_⟩
      rw [List.length_nil, Nat.sub_zero, List.take_length]
      exact Utf8.readPart_eq_ok_iff.mpr ⟨hwf, (List.append_nil _).symm, .inl rfl⟩

/-- Before an ASCII character that has not arrived, no other byte has. -/
theorem Stands.length_le (h : s.Stands ch content st t) {p q : Text} {d : CodePoint}
    (ht : t = p ++ d :: q) (hd : d.isAscii) (hshort : s.buffer.ahead.length ≤ p.length) :
    (Utf8.bytes t).length ≤ st.left.length + (Utf8.bytes p).length := by
  obtain ⟨hle, ⟨u, hu⟩, waiting, hread⟩ := h.exists_arrived
  have hnot : ¬ (Utf8.bytes (p ++ [d])).length ≤ (Utf8.bytes t).length - st.left.length := by
    rw [Utf8.length_bytes_le_iff h.wellFormed hread hu
      (by rw [ht, List.append_assoc]; rfl : t = (p ++ [d]) ++ q),
      List.length_append, List.length_singleton]
    omega
  rw [Utf8.bytes_append, List.length_append, length_bytes_singleton hd] at hnot
  omega

/-- What is ahead has arrived. -/
theorem Stands.left_lt (h : s.Stands ch content st t) {c : CodePoint} {a : Text}
    (hahead : s.buffer.ahead = c :: a) : st.left.length < (Utf8.bytes t).length := by
  obtain ⟨hle, ⟨u, hu⟩, waiting, hread⟩ := h.exists_arrived
  have hin := (Utf8.length_bytes_le_iff h.wellFormed hread hu
    (by rw [hu, hahead]; rfl : t = [c] ++ (a ++ u))).mpr
    (by rw [hahead]; exact Nat.succ_le_succ (Nat.zero_le _))
  have hpos := length_bytes_pos (List.cons_ne_nil c [])
  omega

/-- The end of a text without surrogates has none. -/
theorem isWellFormed_of_suffix {t t' : Text} (h : t.isWellFormed) (hsuffix : t' <:+ t) :
    t'.isWellFormed := by
  obtain ⟨u, rfl⟩ := hsuffix
  exact (Utf8.isWellFormed_append.mp h).2

/-- A fill that takes in text asks for the given size. -/
theorem Stands.of_fill (h : s.Stands ch content st t) {size : Nat} (hsize : 0 < size)
    {w' : Unit} (hfill : s.fill size () = (.ok true, s', w')) :
    s.Keeps s' ∧ s'.Stands ch content (st.giving (some size) size) t := by
  have hfeed : s'.feed = ch.feed (st.giving (some size) size) := by
    rw [fill] at hfill
    split at hfill
    · cases hfill
    · rw [h.feed, Channel.read_feed (h.serves.read size)] at hfill
      dsimp only at hfill
      split at hfill
      · cases hfill
      · exact (congrArg (fun r => r.2.1.feed) hfill).symm
  cases fillsTo_of_fill h.supplies hsize hfill with
  | more hkeeps hsupplies => exact ⟨hkeeps, hfeed, h.serves.giving size, h.wellFormed, hsupplies⟩

/-- Taking text takes it from the text to come. -/
theorem Stands.of_supplies (h : s.Stands ch content st t) {t' : Text} (hfeed : s'.feed = s.feed)
    (hsuffix : t' <:+ t) (hsupplies : s'.Supplies () st.closes t' none) :
    s'.Stands ch content st t' :=
  ⟨hfeed.trans h.feed, h.serves, isWellFormed_of_suffix h.wellFormed hsuffix, hsupplies⟩

/-- A peek finds the next sign.  It reads piece by piece, and only where
    nothing has arrived that was not taken. -/
theorem Stands.exists_peek (h : s.Stands ch content st t) {c : CodePoint} {r : Text}
    (ht : Json.skipBlanks t = c :: r) (hc : c.isAscii) {n : Nat}
    (hnear : (Utf8.bytes t).length ≤ st.left.length + (chunkSize + n)) :
    ∃ s' st', s.peek () = (.ok (some c), s', ()) ∧ s.Keeps s'
      ∧ (∃ a, s'.buffer.ahead = c :: a) ∧ s'.Stands ch content st' (c :: r)
      ∧ (Utf8.bytes (c :: r)).length ≤ st'.left.length + (chunkSize + n) := by
  have hsize : 0 < chunkSize := by decide
  have hskip (s : Scanner StoredStream) : s.Keeps s.skipBlanks := ⟨rfl, rfl, rfl⟩
  generalize () = w
  fun_induction peek s w generalizing st t with
  | case1 s w c' a hahead =>
      obtain ⟨t', hsupplies, -, hsame, hsuffix⟩ := h.supplies.skipBlanks
      obtain rfl := (hsame (hahead ▸ List.cons_ne_nil c' a)).trans ht
      obtain ⟨u, hu⟩ := hsupplies.exists_append
      rw [hahead, List.cons_append] at hu
      cases hu
      refine ⟨_, st, rfl, hskip s, ⟨a, hahead⟩, h.of_supplies rfl hsuffix hsupplies, ?_⟩
      obtain ⟨b, hb⟩ := hsuffix
      rw [← hb, Utf8.bytes_append, List.length_append] at hnear
      omega
  | case2 s w hahead e s' w' hfill =>
      obtain ⟨t', hsupplies, -, -⟩ := h.supplies.skipBlanks
      cases fillsTo_of_fill hsupplies hsize hfill
  | case3 s w hahead s' w' hfill =>
      obtain ⟨t', hsupplies, hblanks, -⟩ := h.supplies.skipBlanks
      cases fillsTo_of_fill hsupplies hsize hfill with
      | nothing hkeeps hall _ _ =>
          rw [hall, hahead, ht] at hblanks
          cases hblanks
  | case4 s w hahead s' w' hfill ih =>
      obtain ⟨t', hsupplies, hblanks, -, hsuffix⟩ := h.supplies.skipBlanks
      have hskipped : s.skipBlanks.Stands ch content st t' := h.of_supplies rfl hsuffix hsupplies
      obtain ⟨hkeeps, hfilled⟩ := hskipped.of_fill hsize hfill
      -- nothing is ahead, and no byte waits before an ASCII character
      obtain ⟨d, q, hd, hascii⟩ := exists_ascii_of_skipBlanks (hblanks.trans ht) hc
      have hnone := hskipped.length_le (p := []) hd hascii (by rw [hahead])
      have hleft := st.length_left_giving chunkSize
      have hnear' : (Utf8.bytes t').length
          ≤ (st.giving (some chunkSize) chunkSize).left.length + (chunkSize + n) := by
        rw [show Utf8.bytes [] = [] from rfl, List.length_nil] at hnone
        omega
      obtain ⟨s'', st', hpeek, hkeeps', hahead', hstands, hnear''⟩ :=
        ih hfilled (hblanks.trans ht) hnear'
      exact ⟨s'', st', hpeek, ((hskip s).trans hkeeps).trans hkeeps', hahead', hstands, hnear''⟩

end

end Scanner

end CouchClient
