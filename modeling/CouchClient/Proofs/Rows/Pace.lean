import CouchClient.Proofs.Rows.Arrival
import CouchClient.Proofs.Rows.Bodies
import CouchClient.Proofs.Rows.Tracing
import Mathlib.Tactic.Ring

/-! # Pace — how much is read, and how far ahead

    A row stream reads only where the text ahead does not suffice.  To complete
    a value it asks for twice as much each time, and it stops as soon as the
    value has arrived with something behind it.  So the reads of a value grow,
    all but the last one lie within the value, and what has arrived behind a row
    is bounded by a piece and the longest value.

    * `Draws` — reads that grow, and what each of them needs;
    * `Scanner.Stands.exists_readValue` — the reads of a value;
    * `Decoding.IsPaced` — a value that is decoded at its pace;
    * `Scanner.Stands.goesAtPace` — the way to the next row;
    * `Paced`, `RowStream.paced_trace` — a whole trace;
    * `RowStream.reads_at_pace` — listings that are read to their end. -/

namespace CouchClient

/-! ## Reads for a value -/

/-- The sizes of so many reads, where each is for twice as much as the one
    before it. -/
def growing (size m : Nat) : List Nat := (List.range m).map fun i => size * 2 ^ i

theorem growing_succ (size m : Nat) : growing size (m + 1) = size :: growing (2 * size) m := by
  rw [growing, List.range_succ_eq_map, List.map_cons, List.map_map, Nat.pow_zero, Nat.mul_one]
  congr 1
  refine List.map_congr_left fun i _ => ?_
  show size * 2 ^ (i + 1) = 2 * size * 2 ^ i
  rw [Nat.pow_succ]
  ring

example : growing chunkSize 3 = [8192, 16384, 32768] := by decide

/-- So many reads take one stream to the other.  The first one asks for the given
    size, each of the others for twice as much as the one before it, and none is
    made unless `n` bytes are left. -/
inductive Draws (n : Nat) : Nat → Nat → StoredStream → StoredStream → Prop
  | nothing {size : Nat} {st : StoredStream} : Draws n size 0 st st
  | more {size m : Nat} {st st' : StoredStream} (hleft : n ≤ st.left.length)
      (later : Draws n (2 * size) m (st.giving (some size) size) st') :
      Draws n size (m + 1) st st'

namespace Draws

variable {n size m : Nat} {st st' : StoredStream}

/-- What was asked for is the sizes of the reads. -/
theorem asked_eq (h : Draws n size m st st') :
    st'.asked = ((growing size m).map some).reverse ++ st.asked := by
  induction h with
  | nothing => rfl
  | @more size m st st' _ _ ih =>
      rw [ih, growing_succ, List.map_cons, List.reverse_cons, List.append_assoc]
      rfl

theorem eq_of_zero (h : Draws n size 0 st st') : st' = st := by
  cases h
  rfl

/-- All reads but the last one were given all that they asked for. -/
theorem add_le (hn : 0 < n) (h : Draws n size (m + 1) st st') :
    n + size * 2 ^ m ≤ st.left.length + size := by
  induction m generalizing size st with
  | zero =>
      cases h with
      | more hleft later =>
          rw [Nat.pow_zero, Nat.mul_one]
          omega
  | succ m ih =>
      cases h with
      | more hleft later =>
          have hlater := ih later
          -- something is left behind the first read, so it was given all
          have hpos : n ≤ (st.giving (some size) size).left.length := by
            cases later with
            | more hleft' _ => exact hleft'
          rw [StoredStream.length_left_giving] at hlater hpos
          have hpow : 2 * size * 2 ^ m = size * 2 ^ (m + 1) := by ring
          omega

/-- The last read took no more than it asked for. -/
theorem le_add (h : Draws n size (m + 1) st st') : n ≤ st'.left.length + size * 2 ^ m := by
  induction m generalizing size st with
  | zero =>
      cases h with
      | more hleft later =>
          rw [later.eq_of_zero, StoredStream.length_left_giving, Nat.pow_zero, Nat.mul_one]
          omega
  | succ m ih =>
      cases h with
      | more hleft later =>
          have hlater := ih later
          have hpow : 2 * size * 2 ^ m = size * 2 ^ (m + 1) := by ring
          omega

variable {length before : Nat}

/-- Where the `n` bytes follow a value that has begun to arrive, all reads but the
    last one ask for less than the value is long. -/
theorem lt_length (hn : 0 < n) (h : Draws n size m st st')
    (hleft : st.left.length < length + n) : 1 ≤ m → size * (2 ^ (m - 1) - 1) < length := by
  intro hm
  obtain ⟨k, rfl⟩ := Nat.exists_eq_add_of_le' hm
  have hadd := h.add_le hn
  have hone := Nat.le_mul_of_pos_right size (Nat.two_pow_pos k)
  show size * (2 ^ k - 1) < length
  rw [Nat.mul_sub, Nat.mul_one]
  omega

/-- What has arrived behind the value is less than a piece and the value, or than
    what had arrived before. -/
theorem lt_left (hn : 0 < n) (h : Draws n size m st st') (hlength : 0 < length)
    (hleft : st.left.length < length + n)
    (hnear : length + n ≤ st.left.length + (size + before)) :
    n < st'.left.length + (size + max before length) := by
  have hmax := Nat.le_max_left before length
  have hmax' := Nat.le_max_right before length
  cases m with
  | zero =>
      -- nothing was read, and the value itself was taken
      rw [h.eq_of_zero]
      omega
  | succ k =>
      have hle := h.le_add
      have hlt : size * (2 ^ k - 1) < length :=
        h.lt_length hn hleft (Nat.succ_le_succ (Nat.zero_le k))
      rw [Nat.mul_sub, Nat.mul_one] at hlt
      omega

end Draws

namespace Scanner

section
variable {s : Scanner StoredStream} {ch : Channel} {content : Bytes} {st : StoredStream}
  {t : Text}

/-- Where the text ahead does not settle the value, the value has not arrived as
    a whole, and nothing behind it has. -/
theorem Stands.le_left [L : Limits] (h : s.Stands ch content st t) {w : Json.Written}
    {d : CodePoint} {q : Text} (hopens : w.Opens t) (hfits : w.Fits) (hafter : w.after = d :: q)
    (hd : d.isAscii) (hend : standsInNumber d = false)
    (hopen : ∀ v rest, Json.parse s.buffer.ahead = .ok (v, rest) → mayGoOn v rest = true) :
    (Utf8.bytes w.after).length ≤ st.left.length := by
  obtain ⟨u, hu⟩ := h.supplies.exists_append
  have hsplit := hopens.split
  have hshort : s.buffer.ahead.length ≤ w.raw.length := by
    refine Nat.le_of_not_lt fun hlt => ?_
    have hlen := congrArg List.length (hu.symm.trans hsplit)
    rw [List.length_append, List.length_append] at hlen
    have hreads := (Json.Written.opens_and_fits_iff.mp ⟨hopens, hfits⟩).2
    rw [hu] at hreads
    obtain ⟨rest, hrest, hparse⟩ := Json.parse_of_append hreads (by omega)
    -- the value is there with something behind it, which cannot stand in a number
    have hall := Reading.all_of_mayGoOn (hopen _ _ hparse)
    rw [hrest] at hlen
    cases rest with
    | nil =>
        rw [List.nil_append] at hlen
        omega
    | cons d' rest =>
        cases hafter.symm.trans hrest
        rw [List.all_cons, hend] at hall
        cases hall
  have hle := h.length_le (hafter ▸ hsplit) hd hshort
  rw [hsplit, Utf8.bytes_append, List.length_append] at hle
  omega

/-- The value is completed by reads that grow. -/
theorem Stands.exists_readValue [L : Limits] (h : s.Stands ch content st t) {w : Json.Written}
    {d : CodePoint} {q : Text} (hopens : w.Opens t) (hfits : w.Fits)
    (hafter : w.after = d :: q) (hd : d.isAscii) (hend : standsInNumber d = false)
    {size : Nat} (hsize : 0 < size) :
    ∃ s' st' m, s.readValue size () = (.ok (w.value, w.raw), s', ()) ∧ s.Keeps s'
      ∧ s'.Stands ch content st' w.after
      ∧ Draws (Utf8.bytes w.after).length size m st st' := by
  have hreads := (Json.Written.opens_and_fits_iff.mp ⟨hopens, hfits⟩).2
  generalize hworld : () = world
  fun_induction readValue s size world generalizing st with
  | case1 s size world flaw hparse what hdeep =>
      -- what is too deep stays so, but the whole value can be read
      obtain ⟨u, hu⟩ := h.supplies.exists_append
      have hwhole := Json.parse_append_of_tooDeep hparse (by simp [hdeep]) u
      cases hreads.symm.trans (hu ▸ hwhole)
  | case2 s size world flaw hparse _ e s' world' hfill =>
      cases fillsTo_of_fill h.supplies hsize hfill
  | case3 s size world flaw hparse _ s' world' hfill ih =>
      obtain ⟨hkeeps, hfilled⟩ := h.of_fill hsize hfill
      have hleft := h.le_left hopens hfits hafter hd hend fun v rest hok => by
        cases hparse.symm.trans hok
      obtain ⟨s'', st', m, hread, hkeeps', hstands, hdraws⟩ := ih hfilled (by omega) rfl
      exact ⟨s'', st', m + 1, hread, hkeeps.trans hkeeps', hstands, .more hleft hdraws⟩
  | case4 s size world flaw hparse _ s' world' hfill =>
      -- all of the text is ahead, and the value in it
      cases fillsTo_of_fill h.supplies hsize hfill with
      | nothing _ hall _ _ =>
          rw [← hall] at hparse
          cases hparse.symm.trans hreads
  | case5 s size world v rest hparse hgo e s' world' hfill =>
      cases fillsTo_of_fill h.supplies hsize hfill
  | case6 s size world v rest hparse hgo s' world' hfill ih =>
      obtain ⟨hkeeps, hfilled⟩ := h.of_fill hsize hfill
      have hleft := h.le_left hopens hfits hafter hd hend fun v' rest' hok => by
        cases hparse.symm.trans hok
        exact hgo
      obtain ⟨s'', st', m, hread, hkeeps', hstands, hdraws⟩ := ih hfilled (by omega) rfl
      exact ⟨s'', st', m + 1, hread, hkeeps.trans hkeeps', hstands, .more hleft hdraws⟩
  | case7 s size world v rest hparse hgo s' world' hfill =>
      cases fillsTo_of_fill h.supplies hsize hfill with
      | nothing _ hall _ _ =>
          rw [← hall] at hparse
          cases hparse.symm.trans hreads
          have hhead := Reading.all_of_mayGoOn hgo
          rw [hafter, List.all_cons, hend] at hhead
          cases hhead
  | case8 s size world v rest hparse hgo =>
      have hreads := readsValue_takeValue h.supplies hparse (.inl (Bool.not_eq_true _ ▸ hgo))
      simp only [takeValue] at hreads ⊢
      cases hreads with
      | value hkeeps hvalue hsupplies =>
          obtain ⟨hsame, -⟩ := Reading.valueAt_none_eq_ok_iff.mp hvalue
          obtain rfl := hsame.unique hopens
          refine ⟨_, st, 0, rfl, hkeeps, h.of_supplies rfl ?_ hsupplies, .nothing⟩
          exact Json.suffix_of_parse hreads

end

end Scanner

/-! ## Values at their pace -/

/-- The value was completed by some reads behind its first sign, each for twice
    as much as the one before it.  Without the last one they ask for less than
    the value is long, so their number grows with the logarithm of its
    length. -/
def Decoding.IsPaced (ch : Channel) (d : Decoding StoredStream) : Prop :=
  ∃ (st st' : StoredStream) (m : Nat), d.before = ch.feed st ∧ d.after = ch.feed st'
    ∧ st'.asked = ((growing chunkSize m).map some).reverse ++ st.asked
    ∧ (1 ≤ m → chunkSize * (2 ^ (m - 1) - 1) < d.length)
    ∧ m ≤ (d.length / chunkSize + 1).log2 + 1

/-- Sizes that double within a length are at most its logarithm in number. -/
theorem le_log_of_lt {m n : Nat} (h : 1 ≤ m → chunkSize * (2 ^ (m - 1) - 1) < n) :
    m ≤ (n / chunkSize + 1).log2 + 1 := by
  cases m with
  | zero => exact Nat.zero_le _
  | succ k =>
      have hlt : chunkSize * (2 ^ k - 1) < n := h (Nat.succ_le_succ (Nat.zero_le k))
      have hle : 2 ^ k - 1 ≤ n / chunkSize := by
        rw [Nat.le_div_iff_mul_le (by decide), Nat.mul_comm]
        exact Nat.le_of_lt hlt
      have hpow : 2 ^ k ≤ n / chunkSize + 1 := by omega
      exact Nat.succ_le_succ ((Nat.le_log2 (Nat.succ_ne_zero _)).mpr hpow)

/-- Where a value has ended, an ASCII character follows that does not stand in a
    number. -/
theorem Reading.exists_end_of_completes [L : Limits] {f t : Text} {phase : Phase}
    {info : ListingInfo} {rows : List (Row × Text)} {final : Reading} (hphase : phase.IsAfterValue)
    (h : Completes f ⟨phase, info, t⟩ rows final) :
    ∃ d q, t = d :: q ∧ d.isAscii ∧ Scanner.standsInNumber d = false := by
  obtain ⟨c, r, hc, hat⟩ := (completes_iff hphase.ne_finish).mp h
  obtain ⟨d, q, rfl, hd⟩ := exists_ascii_of_skipBlanks hc (isAscii_of_completesAt hat)
  refine ⟨d, q, rfl, hd, Bool.eq_false_iff.mpr fun hnumber => ?_⟩
  exact not_completes_of_number hphase rfl hnumber h

namespace Scanner

section
variable {s : Scanner StoredStream} {ch : Channel} {content : Bytes} {st : StoredStream}
  {t r : Text} {c : CodePoint} {n : Nat} {rows : List (Row × Text)} {final : Reading}

/-- Ahead of the scanner is a sign, at which the reading goes on and comes to its
    end.  Of what follows, no more has arrived than a piece and `n` bytes. -/
structure AtSign [L : Limits] (s : Scanner StoredStream) (ch : Channel) (content : Bytes)
    (n : Nat) (st : StoredStream) (c : CodePoint) (r : Text) (rows : List (Row × Text))
    (final : Reading) : Prop where
  ascii : c.isAscii
  ahead : ∃ a, s.buffer.ahead = c :: a
  stands : s.Stands ch content st (c :: r)
  completes : Reading.CompletesAt s.rowsField (s.reading (c :: r)) c r rows final
    (s.phase.move s.rowsField (some c))
  near : (Utf8.bytes (c :: r)).length ≤ st.left.length + (chunkSize + n)

/-- Before its end, a reading that comes to it goes on at the sign that a peek
    finds. -/
theorem Stands.exists_atSign [L : Limits] (h : s.Stands ch content st t)
    (hphase : s.phase ≠ .finish)
    (hrows : Reading.Completes s.rowsField (s.reading t) rows final)
    (hnear : (Utf8.bytes t).length < st.left.length + (chunkSize + n)) :
    ∃ c r s' st', s.peek () = (.ok (some c), s', ()) ∧ s'.rowsField = s.rowsField
      ∧ s'.AtSign ch content n st' c r rows final := by
  obtain ⟨c, r, hc, hat⟩ := (Reading.completes_iff hphase).mp hrows
  have hascii := Reading.isAscii_of_completesAt hat
  obtain ⟨s', st', hpeek, hkeeps, hahead, hstands, hnear'⟩ :=
    h.exists_peek hc hascii (Nat.le_of_lt hnear)
  refine ⟨c, r, s', st', hpeek, hkeeps.rowsField, hascii, hahead, hstands, ?_, hnear'⟩
  -- a move does not look at the text that the reading stands before
  rw [reading, hkeeps.phase, hkeeps.rowsField, hkeeps.info]
  dsimp only [reading] at hat
  cases hmove : s.phase.move s.rowsField (some c) with
  | _ =>
      rw [hmove] at hat
      exact hat

/-- Taking the sign takes a byte of what has arrived. -/
theorem AtSign.take [L : Limits] (h : s.AtSign ch content n st c r rows final)
    (s' : Scanner StoredStream)
    (hfeed : s'.feed = s.feed) (hwaiting : s'.buffer.waiting = s.buffer.waiting)
    (hended : s'.buffer.ended = s.buffer.ended)
    (htaken : s'.buffer.ahead = s.buffer.ahead.drop 1) :
    s'.Stands ch content st r ∧ (Utf8.bytes r).length < st.left.length + (chunkSize + n) := by
  obtain ⟨hc, ⟨a, hahead⟩, hstands, -, hnear⟩ := h
  constructor
  · refine hstands.of_supplies hfeed (List.suffix_cons c r)
      (hstands.supplies.drop s' (k := 1) hfeed hwaiting hended htaken ?_)
    rw [hahead]
    exact Nat.le_add_left 1 a.length
  · rw [show c :: r = [c] ++ r from rfl, Utf8.bytes_append, List.length_append,
      length_bytes_singleton hc] at hnear
    omega

/-- A value that is due is decoded at its pace, and less has arrived behind it
    than a piece and the longest value. -/
theorem AtSign.exists_passValue [L : Limits] (h : s.AtSign ch content n st c r rows final)
    (hmove : s.phase.move s.rowsField (some c) = .value) :
    ∃ v raw t found s' st', s.readValue chunkSize () = (.ok (v, raw), found, ())
      ∧ s.passValue () = (.ok (), s', ()) ∧ s'.rowsField = s.rowsField
      ∧ Decoding.IsPaced ch ⟨raw, s.feed, found.feed⟩ ∧ s'.Stands ch content st' t
      ∧ Reading.Completes s'.rowsField (s'.reading t) rows final
      ∧ (Utf8.bytes t).length
        < st'.left.length + (chunkSize + max n (Utf8.bytes raw).length) := by
  obtain ⟨-, ⟨a, hahead⟩, h, hat, hnear⟩ := h
  rw [hmove] at hat
  obtain ⟨w, hopens, hfits, phase, info, hnext, hmore⟩ := hat
  obtain ⟨d, q, hafter, hd, hend⟩ := Reading.exists_end_of_completes
    (Phase.isAfterValue_of_afterValue hmove hnext) hmore
  obtain ⟨found, st', m, hread, hkeeps, hstands, hdraws⟩ :=
    h.exists_readValue hopens hfits hafter hd hend (by decide : 0 < chunkSize)
  have hpass : s.passValue () = (.ok (), { found with phase, info }, ()) := by
    rw [passValue, hread]
    dsimp only
    rw [hkeeps.phase, hkeeps.rowsField, hkeeps.info]
    dsimp only [reading] at hnext
    rw [hnext]
  have hleft := h.left_lt hahead
  have hlen : (Utf8.bytes (c :: r)).length
      = (Utf8.bytes w.raw).length + (Utf8.bytes w.after).length := by
    rw [hopens.split, Utf8.bytes_append, List.length_append]
  have hpos : 0 < (Utf8.bytes w.after).length :=
    length_bytes_pos (hafter ▸ List.cons_ne_nil d q)
  have hstands' : Scanner.Stands { found with phase, info } ch content st' w.after :=
    ⟨hstands.feed, hstands.serves, hstands.wellFormed, hstands.supplies.drop _ (k := 0)
      rfl rfl rfl rfl (Nat.zero_le _)⟩
  have hraw : 0 < (Utf8.bytes w.raw).length := by
    refine length_bytes_pos fun hnil => ?_
    have hlt := hopens.length_after
    rw [hopens.split, hnil] at hlt
    exact Nat.lt_irrefl _ hlt
  rw [hlen] at hleft hnear
  have hgrows := hdraws.lt_length hpos hleft
  exact ⟨w.value, w.raw, w.after, found, _, st', hread, hpass, hkeeps.rowsField,
    ⟨st, st', m, h.feed, hstands.feed, hdraws.asked_eq, hgrows, le_log_of_lt hgrows⟩, hstands',
    hkeeps.rowsField ▸ hmore, hdraws.lt_left hpos hraw hleft hnear⟩

end

end Scanner

/-! ## Rows at their pace -/

namespace Scanner

/-- Values are decoded at their pace, and then a row may come, behind which less
    has arrived than a piece and the longest value. -/
inductive GoesAtPace [L : Limits] (f : Text) (ch : Channel) (content : Bytes)
    (final : Reading) (n : Nat) (rows : List (Row × Text)) (ds : List (Decoding StoredStream)) :
    Except Error (Option Row) → Scanner StoredStream → Prop
  | row {s : Scanner StoredStream} {row : Row} {st : StoredStream} {t : Text}
      {rows' : List (Row × Text)} (hvalues : ∀ d ∈ ds, d.IsPaced ch)
      (hrows : rows = (row, t) :: rows') (hfield : s.rowsField = f)
      (hstands : s.Stands ch content st t)
      (hmore : Reading.Completes f (s.reading t) rows' final)
      (hnear : (Utf8.bytes t).length
        < st.left.length + (chunkSize + max n (longest (ds.map .value)))) :
      GoesAtPace f ch content final n rows ds (.ok (some row)) s
  | nothing {result : Except Error (Option Row)} {s : Scanner StoredStream}
      (hvalues : ∀ d ∈ ds, d.IsPaced ch) (hno : ∀ row, result ≠ .ok (some row)) :
      GoesAtPace f ch content final n rows ds result s

section
variable {f : Text} {s : Scanner StoredStream} {ch : Channel} {content : Bytes}
  {st : StoredStream} {t : Text} {n : Nat} {rows : List (Row × Text)} {final : Reading}

/-- Every decoding on the way is paced. -/
theorem GoesAtPace.values [L : Limits] {ds : List (Decoding StoredStream)}
    {result : Except Error (Option Row)} (h : GoesAtPace f ch content final n rows ds result s) :
    ∀ d ∈ ds, d.IsPaced ch := by
  cases h with
  | row hvalues => exact hvalues
  | nothing hvalues => exact hvalues

/-- A paced decoding before what goes at pace goes at pace. -/
theorem GoesAtPace.of_value [L : Limits] {d : Decoding StoredStream}
    {ds : List (Decoding StoredStream)} {result : Except Error (Option Row)} (hd : d.IsPaced ch)
    (h : GoesAtPace f ch content final (max n d.length) rows ds result s) :
    GoesAtPace f ch content final n rows (d :: ds) result s := by
  have hall (hvalues : ∀ d ∈ ds, d.IsPaced ch) : ∀ d' ∈ d :: ds, d'.IsPaced ch := by
    intro d' hd'
    rcases List.mem_cons.mp hd' with rfl | hd'
    · exact hd
    · exact hvalues d' hd'
  cases h with
  | row hvalues hrows hfield hstands hmore hnear =>
      rw [Nat.max_assoc] at hnear
      exact .row (hall hvalues) hrows hfield hstands hmore hnear
  | nothing hvalues hno => exact .nothing (hall hvalues) hno

/-- The way to the next row is gone at its pace. -/
theorem Stands.goesAtPace [L : Limits] (h : s.Stands ch content st t)
    (hrows : Reading.Completes s.rowsField (s.reading t) rows final)
    (hnear : (Utf8.bytes t).length < st.left.length + (chunkSize + n)) :
    GoesAtPace s.rowsField ch content final n rows (s.decodings ()) (s.next ()).1
      (s.next ()).2.1 := by
  have hnone : ∀ d ∈ ([] : List (Decoding StoredStream)), d.IsPaced ch :=
    fun d hd => (List.not_mem_nil hd).elim
  generalize () = w
  fun_induction next s w generalizing st t n with
  | case1 s w hphase e s' w' hdrain =>
      rw [decodings_of_finish hphase]
      exact .nothing hnone (by simp)
  | case2 s w hphase s' w' hdrain =>
      rw [decodings_of_finish hphase]
      exact .nothing hnone (by simp)
  | case3 s w e s' w' hpeek hphase =>
      obtain ⟨_, _, _, _, hsign, -⟩ := h.exists_atSign hphase hrows hnear
      cases hpeek.symm.trans hsign
  | case4 s w c s' w' hpeek expected hmove hphase =>
      obtain ⟨_, _, _, _, hsign, -, hat⟩ := h.exists_atSign hphase hrows hnear
      cases hpeek.symm.trans hsign
      have hrefused := hat.completes
      rw [hmove] at hrefused
      exact hrefused.elim
  | case5 s w c s' w' hpeek members hmove hphase =>
      obtain ⟨_, _, _, _, hsign, hfield, hat⟩ := h.exists_atSign hphase hrows hnear
      cases hpeek.symm.trans hsign
      have hgiven := hat.completes
      rw [hmove] at hgiven
      obtain ⟨rows', hrows', hmore⟩ := hgiven
      obtain ⟨hstands, hlt⟩ := hat.take s'.endRow rfl (waiting_compact _) (ended_compact _)
        (ahead_compact _)
      rw [decodings_of_giveRow hphase hpeek hmove, ← hfield]
      exact .row hnone hrows' rfl hstands hmore (by simpa [longest] using hlt)
  | case6 s w c s' w' hpeek phase hmove hphase ih =>
      obtain ⟨_, _, _, _, hsign, hfield, hat⟩ := h.exists_atSign hphase hrows hnear
      cases hpeek.symm.trans hsign
      have hmore := hat.completes
      rw [hmove] at hmore
      obtain ⟨hstands, hlt⟩ := hat.take (s'.take phase) rfl rfl rfl rfl
      rw [decodings_of_take hphase hpeek hmove, ← hfield]
      exact ih hstands hmore hlt
  | case7 s w c s' w' hpeek hmove e s'' w'' hpass hphase =>
      obtain ⟨_, _, _, _, hsign, -, hat⟩ := h.exists_atSign hphase hrows hnear
      cases hpeek.symm.trans hsign
      obtain ⟨_, _, _, _, _, _, -, hpass', -⟩ := hat.exists_passValue hmove
      cases hpass.symm.trans hpass'
  | case8 s w c s' w' hpeek hmove s'' w'' hpass hphase ih =>
      obtain ⟨_, _, _, _, hsign, hfield, hat⟩ := h.exists_atSign hphase hrows hnear
      cases hpeek.symm.trans hsign
      obtain ⟨_, _, _, _, _, _, hread, hpass', hfield', hpaced, hstands, hmore, hlt⟩ :=
        hat.exists_passValue hmove
      cases hpass.symm.trans hpass'
      have hlater := ih hstands hmore hlt
      rw [hfield'] at hlater
      rw [decodings_of_value hphase hpeek hmove hread hpass, ← hfield]
      exact hlater.of_value hpaced

end

end Scanner

/-! ## Traces at their pace -/

/-- What is met while the given rows are read, each with the text after it, where
    the longest value before is so long: values at their pace, and rows behind
    which less has arrived than a piece and the longest value. -/
inductive Paced (ch : Channel) (content : Bytes) :
    Nat → List (Row × Text) → List (Occurrence StoredStream) → Prop
  | done {n : Nat} {rows : List (Row × Text)} : Paced ch content n rows []
  | value {n : Nat} {rows : List (Row × Text)} {d : Decoding StoredStream}
      {later : List (Occurrence StoredStream)} (hvalue : d.IsPaced ch)
      (hlater : Paced ch content (max n d.length) rows later) :
      Paced ch content n rows (.value d :: later)
  | row {n : Nat} {row : Row} {rest : Text} {rows : List (Row × Text)} {st : StoredStream}
      {later : List (Occurrence StoredStream)}
      (hposition : st.position < offsetBefore content rest + chunkSize + n)
      (hlater : Paced ch content n rows later) :
      Paced ch content n ((row, rest) :: rows) (.row row (ch.feed st) :: later)

section
variable {ch : Channel} {content : Bytes} {n : Nat} {rows : List (Row × Text)}
  {met : List (Occurrence StoredStream)}

/-- Paced decodings before a paced trace are paced. -/
theorem Paced.of_values {ds : List (Decoding StoredStream)} (hvalues : ∀ d ∈ ds, d.IsPaced ch) :
    Paced ch content (max n (longest (ds.map .value))) rows met →
      Paced ch content n rows (ds.map .value ++ met) := by
  induction ds generalizing n with
  | nil =>
      intro h
      rwa [show longest (List.map Occurrence.value []) = 0 from rfl, Nat.max_zero] at h
  | cons d ds ih =>
      intro h
      rw [List.map_cons, longest_cons, ← Nat.max_assoc] at h
      exact .value (hvalues d List.mem_cons_self)
        (ih (fun d' hd' => hvalues d' (List.mem_cons_of_mem d hd')) h)

/-- Every decoding of a paced trace is paced. -/
theorem Paced.isPaced (h : Paced ch content n rows met) {d : Decoding StoredStream} :
    .value d ∈ met → d.IsPaced ch := by
  induction h with
  | done =>
      intro hd
      exact (List.not_mem_nil hd).elim
  | value hvalue _ ih =>
      intro hd
      rcases List.mem_cons.mp hd with hd | hd
      · cases hd
        exact hvalue
      · exact ih hd
  | row _ _ ih =>
      intro hd
      rcases List.mem_cons.mp hd with hd | hd
      · cases hd
      · exact ih hd

/-- Each row is given at its place, before which no value is longer than the
    longest one up to there. -/
theorem Paced.position_lt {earlier later : List (Occurrence StoredStream)} {row : Row}
    {feed : Feed StoredStream} (h : Paced ch content n rows (earlier ++ .row row feed :: later)) :
    ∃ st rest, feed = ch.feed st ∧ rows[(rowsOf earlier).length]? = some (row, rest)
      ∧ st.position < offsetBefore content rest + chunkSize + max n (longest earlier) := by
  induction earlier generalizing n rows with
  | nil =>
      cases h with
      | row hposition _ => exact ⟨_, _, rfl, rfl, by simpa [longest] using hposition⟩
  | cons m earlier ih =>
      rw [longest_cons, ← Nat.max_assoc]
      cases h with
      | value _ hlater => exact ih hlater
      | row _ hlater =>
          obtain ⟨st, rest, hfeed, hrow, hposition⟩ := ih hlater
          exact ⟨st, rest, hfeed, hrow, by simpa [Occurrence.length] using hposition⟩

end

namespace RowStream

section
variable {s s' : RowStream StoredStream} {ch : Channel} {content : Bytes} {st : StoredStream}
  {t : Text} {n : Nat} {rows : List (Row × Text)} {final : Reading}

/-- How far a stream has been read, where so much has arrived behind a place. -/
theorem position_lt {s : Scanner StoredStream} (h : s.Stands ch content st t) {k : Nat}
    (hnear : (Utf8.bytes t).length < st.left.length + k) :
    st.position < offsetBefore content t + k := by
  have hposition := h.serves.position_add
  obtain ⟨hle, -⟩ := h.exists_arrived
  rw [offsetBefore]
  omega

/-- All that is met is met at its pace. -/
theorem paced_trace [L : Limits] (hopen : s.closed = false) (h : s.scanner.Stands ch content st t)
    (hrows : Reading.Completes s.scanner.rowsField (s.scanner.reading t) rows final)
    (hnear : (Utf8.bytes t).length < st.left.length + (chunkSize + n)) :
    Paced ch content n rows (s.trace ()) := by
  have hends {s : RowStream StoredStream} {w : Unit} (hopen : s.closed = false)
      (hno : ∀ row, (s.next w).1 ≠ .ok (some row))
      (hvalues : ∀ d ∈ s.scanner.decodings w, d.IsPaced ch) {n : Nat}
      {rows : List (Row × Text)} : Paced ch content n rows (s.trace w) := by
    rw [trace_of_no_row hopen hno, ← List.append_nil (List.map _ _)]
    exact .of_values hvalues .done
  generalize () = w
  induction s, w using rest.induct generalizing st t n rows with
  | case1 s w e s' w' hnext =>
      exact hends hopen (by simp [hnext]) (h.goesAtPace hrows hnear).values
  | case2 s w s' w' hnext =>
      exact hends hopen (by simp [hnext]) (h.goesAtPace hrows hnear).values
  | case3 s w row s' w' hnext rows' ending s'' w'' hrest ih =>
      obtain ⟨hscanner, hopen'⟩ := scanner_of_row hnext
      have hpace := h.goesAtPace hrows hnear
      rw [hscanner] at hpace
      rw [trace_of_row hopen hnext]
      cases hpace with
      | nothing _ hno => exact (hno row rfl).elim
      | row hvalues hrows' hfield hstands hmore hlt =>
          refine .of_values hvalues ?_
          rw [hrows', hstands.feed]
          refine .row ?_ (ih hopen' hstands (hfield ▸ hmore) hlt)
          rw [Nat.add_assoc]
          exact position_lt hstands hlt

end

/-! ## Before the first row -/

/-- What is read from is the stream as it was, closed any number of times. -/
def IsUnread (st : StoredStream) (f : Feed StoredStream) : Prop :=
  ∃ k, f.stream? = some { st with closes := k }

theorem IsUnread.close {st : StoredStream} {f : Feed StoredStream} (h : IsUnread st f) :
    IsUnread st (f.close ()).1 := by
  obtain ⟨k, h⟩ := h
  cases f with
  | direct s =>
      cases h
      exact ⟨k + 1, rfl⟩
  | body b =>
      obtain ⟨stream, method, url, closed⟩ := b
      cases h
      cases closed with
      | true => exact ⟨k, rfl⟩
      | false => exact ⟨k + 1, rfl⟩

/-- Closing a stream and showing it read nothing. -/
theorem IsUnread.after [L : Limits] {st : StoredStream} {steps : List StreamStep}
    (hsteps : ∀ step ∈ steps, step = .close ∨ step = .display) {s : RowStream StoredStream} :
    IsUnread st s.scanner.feed → IsUnread st (s.after () steps).1.scanner.feed := by
  induction steps generalizing s with
  | nil => exact id
  | cons step steps ih =>
      intro h
      refine ih (fun step' hstep' => hsteps step' (List.mem_cons_of_mem step hstep')) ?_
      rcases hsteps step List.mem_cons_self with rfl | rfl
      · show IsUnread st (s.close ()).1.scanner.feed
        rw [RowStream.close]
        split
        · exact h
        · exact h.close
      · exact h

/-! ## Listings that are read to their end -/

/-- **Reads grow, and little is read ahead.**  For bytes that are read to the
    end of a listing, and a stream that gives as many of them as it is asked for:

    * before the first row is asked for, nothing is read;
    * each value is decoded at its pace: behind its first sign, `m` reads ask
      for `chunkSize`, twice that, and so on, and all but the last of them for
      less than the value is long;
    * when a row is given, less has been read behind its end than a piece and
      the longest value that was decoded by then. -/
theorem reads_at_pace [L : Limits] (ch : Channel) (f : Text) (content : Bytes)
    (hends : ((RowStream.ofFeed (ch.feed (StoredStream.ofBytes content none none)) f).rest
      ()).1.2 = .ok ()) :
    let s := RowStream.ofFeed (ch.feed (StoredStream.ofBytes content none none)) f
    (∀ steps, (∀ step ∈ steps, step = .close ∨ step = .display) →
        ∃ st, (s.after () steps).1.scanner.feed.stream? = some st
          ∧ st.asked = [] ∧ st.position = 0)
      ∧ ∃ t fields rest ws rows, Utf8.read content = .ok t
        ∧ Json.ObjectAt (Json.skipBlanks t) fields rest ∧ Lists f fields ws
        ∧ List.Forall₂ ShowsAt ws rows
        ∧ (s.rest ()).1.1 = rows.map Prod.fst ∧ rowsOf (s.trace ()) = rows.map Prod.fst
        ∧ (∀ d, .value d ∈ s.trace () → d.IsPaced ch)
        ∧ ∀ earlier row feed later, s.trace () = earlier ++ .row row feed :: later →
          ∃ st after, feed = ch.feed st ∧ rows[(rowsOf earlier).length]? = some (row, after)
            ∧ st.position < offsetBefore content after + chunkSize + longest earlier := by
  intro s
  have hserves := StoredStream.serves_ofBytes content
  have hholds : Delivery.holds (StoredStream.ofBytes content none none, ()) content none :=
    hserves.holds
  obtain ⟨t, hread, rows, final, hcompletes⟩ := exists_completes_of_rest hholds hends
  obtain ⟨hwf, rfl⟩ := Utf8.read_eq_ok_iff.mp hread
  have hpart : Utf8.readPart (Utf8.bytes t) = .ok (t, []) :=
    Utf8.readPart_eq_ok_iff.mpr ⟨hwf, (List.append_nil _).symm, .inl rfl⟩
  have hshows := shows_ofFeed hholds hpart ch f
  have hstands : s.scanner.Stands ch (Utf8.bytes t)
      (StoredStream.ofBytes (Utf8.bytes t) none none) t :=
    ⟨rfl, hserves, hwf, .coming (s := s.scanner) rfl (ch.holds_feed hholds)
      (ch.closings_feed _ ()) (Utf8.readPart_eq_ok_iff.mpr ⟨rfl, rfl, .inl rfl⟩) hpart⟩
  have hgiven : (s.rest ()).1.1 = rows.map Prod.fst := by
    have hview := congrArg Prod.fst (shows_rest hshows).1
    rw [View.rest] at hview
    exact hview.trans (congrArg (fun run => run.1.1.map Prod.fst) hcompletes)
  have hpaced : Paced ch (Utf8.bytes t) 0 rows (s.trace ()) := by
    refine paced_trace rfl hstands hcompletes ?_
    show (Utf8.bytes t).length < ((Utf8.bytes t).drop 0).length + (chunkSize + 0)
    rw [List.drop_zero]
    exact Nat.lt_add_of_pos_right (by decide)
  obtain ⟨fields, rest, ws, hobject, -, hlists, -, hrows, -⟩ :=
    isListing_of_completes hcompletes
  refine ⟨?_, t, fields, rest, ws, rows, hread, hobject, hlists, hrows, hgiven,
    (rowsOf_trace s ()).trans hgiven, fun d hd => hpaced.isPaced hd, ?_⟩
  · intro steps hsteps
    obtain ⟨k, hstream⟩ := IsUnread.after hsteps (s := s)
      (⟨0, by cases ch <;> rfl⟩ : IsUnread (.ofBytes (Utf8.bytes t) none none) s.scanner.feed)
    exact ⟨_, hstream, rfl, rfl⟩
  · intro earlier row feed later htrace
    rw [htrace] at hpaced
    obtain ⟨st, after, hfeed, hrow, hposition⟩ := hpaced.position_lt
    rw [Nat.zero_max] at hposition
    exact ⟨st, after, hfeed, hrow, hposition⟩

/-- A listing of one row, which is shown before it is read. -/
theorem reads_at_pace_of_oneRow :
    let start := StoredStream.ofBytes (Utf8.bytes oneRow) none none
    let s := RowStream.ofFeed (Channel.direct.feed start) (text "rows")
    (s.rest ()).1.2 = .ok ()
      ∧ (∃ st, (s.after () [.display]).1.scanner.feed.stream? = some st ∧ st.asked = [])
      ∧ (∀ d, .value d ∈ s.trace () → d.IsPaced .direct)
      ∧ ∃ rows : List (Row × Text), rowsOf (s.trace ()) = rows.map Prod.fst
        ∧ ∀ earlier row feed later, s.trace () = earlier ++ .row row feed :: later →
          ∃ st after, feed = Channel.direct.feed st
            ∧ rows[(rowsOf earlier).length]? = some (row, after)
            ∧ st.position
              < offsetBefore (Utf8.bytes oneRow) after + chunkSize + longest earlier := by
  intro start s
  have hok : (s.rest ()).1.2.isOk = true := by decide +kernel
  have hends : (s.rest ()).1.2 = .ok () := by
    cases hrest : (s.rest ()).1.2 with
    | ok u => rfl
    | error e =>
        rw [hrest] at hok
        cases hok
  obtain ⟨hunread, t, fields, rest, ws, rows, -, -, -, -, -, hrows, hpaced, hposition⟩ :=
    reads_at_pace .direct (text "rows") (Utf8.bytes oneRow) hends
  obtain ⟨st, hstream, hasked, -⟩ := hunread [.display] (by simp)
  exact ⟨hends, ⟨st, hstream, hasked⟩, hpaced, rows, hrows, hposition⟩

end RowStream

end CouchClient
