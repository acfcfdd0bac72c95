import CouchClient.Text.Utf8

/-! # UTF-8 in pieces

    Bytes that arrive in pieces are read piece by piece, and what a piece
    leaves waiting is read with the next one.  This file shows that nothing
    depends on where the pieces end.  The route:

    * `head_bytesOfNat`, `bytes_of_head` — one sequence is read exactly if
      it is what the code point is written as;
    * `readChars_eq_iff` — so the reading of characters splits the bytes at
      the first place where no character stands;
    * `readPart_eq_ok_iff`, `read_eq_ok_iff` — what has arrived is the bytes
      of a text and bytes that wait;
    * `readPart_append`, `readPart_of_append` — pieces can be joined and
      split;
    * `length_bytes_le_iff` — how much text stands in the first so many
      bytes. -/

namespace CouchClient.Utf8

/-! ## One sequence -/

theorem toNat_char {n : Nat} (h : n.isValidChar) :
    (Char.ofNat n).toNat = n := by
  rw [Char.ofNat, dif_pos h]
  rfl

private theorem ofNat_eq {b : UInt8} {n : Nat} (h : n = b.toNat) :
    UInt8.ofNat n = b := by
  rw [h, UInt8.ofNat_toNat]

private theorem toNat_byte {n : Nat} (h : n < 256) : (UInt8.ofNat n).toNat = n :=
  UInt8.toNat_ofNat_of_lt' h

/-- Six bits behind the mark `10` are a continuation byte. -/
private theorem isContinuation_byte {n : Nat} (h : n < 64) :
    isContinuation (.ofNat (0x80 + n)) := by
  rw [isContinuation, toNat_byte (by omega), decide_eq_true_eq]
  omega

private theorem payload_byte {n : Nat} (h : n < 64) :
    payload (.ofNat (0x80 + n)) = n := by
  rw [payload, toNat_byte (by omega)]
  omega

/-- A continuation byte may follow a lead, within the bounds that some leads
    set. -/
private theorem mayFollow_byte (lead n : Nat) (h : n < 64)
    (hE0 : lead = 0xE0 → 32 ≤ n) (hED : lead = 0xED → n < 32)
    (hF0 : lead = 0xF0 → 16 ≤ n) (hF4 : lead = 0xF4 → n < 16) :
    mayFollow lead (.ofNat (0x80 + n)) = true := by
  have hbyte := toNat_byte (n := 0x80 + n) (by omega)
  simp only [mayFollow, isContinuation_byte h, hbyte, Bool.true_and,
    Bool.and_eq_true, Bool.or_eq_true, bne_iff_ne, decide_eq_true_eq]
  omega

/-- A lead of two bytes and its continuation are one character. -/
private theorem head_two {b b₁ : UInt8} {rest : Bytes}
    (hlow : 0xC2 ≤ b.toNat) (hhigh : b.toNat < 0xE0)
    (h₁ : mayFollow b.toNat b₁ = true) :
    head b (b₁ :: rest)
      = .char (Char.ofNat (b.toNat % 32 * 64 + payload b₁)) rest := by
  simp only [head]
  rw [if_neg (by omega), if_neg (by omega), h₁, if_neg (by decide),
    if_pos hhigh]

/-- A lead of three bytes and its continuations are one character. -/
private theorem head_three {b b₁ b₂ : UInt8} {rest : Bytes}
    (hlow : 0xE0 ≤ b.toNat) (hhigh : b.toNat < 0xF0)
    (h₁ : mayFollow b.toNat b₁ = true) (h₂ : isContinuation b₂ = true) :
    head b (b₁ :: b₂ :: rest)
      = .char (Char.ofNat (b.toNat % 16 * 4096 + payload b₁ * 64
          + payload b₂)) rest := by
  simp only [head]
  rw [if_neg (by omega), if_neg (by omega), h₁, if_neg (by decide),
    if_neg (by omega), h₂, if_neg (by decide), if_pos hhigh]

/-- A lead of four bytes and its continuations are one character. -/
private theorem head_four {b b₁ b₂ b₃ : UInt8} {rest : Bytes}
    (hlow : 0xF0 ≤ b.toNat) (hhigh : b.toNat < 0xF5)
    (h₁ : mayFollow b.toNat b₁ = true) (h₂ : isContinuation b₂ = true)
    (h₃ : isContinuation b₃ = true) :
    head b (b₁ :: b₂ :: b₃ :: rest)
      = .char (Char.ofNat (b.toNat % 8 * 262144 + payload b₁ * 4096
          + payload b₂ * 64 + payload b₃)) rest := by
  simp only [head]
  rw [if_neg (by omega), if_neg (by omega), h₁, if_neg (by decide),
    if_neg (by omega), h₂, if_neg (by decide), if_neg (by omega), h₃,
    if_neg (by decide)]

/-- The bytes that a character is written as are read as it. -/
theorem head_bytesOfNat (c : Char) (rest : Bytes) :
    ∃ b more, bytesOfNat c.toNat ++ rest = b :: more
      ∧ head b more = .char c rest := by
  have hv : c.toNat < 0xD800 ∨ 0xDFFF < c.toNat ∧ c.toNat < 0x110000 := c.valid
  have hc := Char.ofNat_toNat c
  generalize c.toNat = n at hv hc ⊢
  -- one case for each width of a sequence
  by_cases h1 : n < 0x80
  · refine ⟨_, _, by rw [bytesOfNat, if_pos h1]; rfl, ?_⟩
    simp only [head, toNat_byte (n := n) (by omega)]
    rw [if_pos h1, hc]
    rfl
  by_cases h2 : n < 0x800
  · have hlead := toNat_byte (n := 0xC0 + n / 64) (by omega)
    have hfirst := mayFollow_byte (0xC0 + n / 64) (n % 64)
      (by omega) (by omega) (by omega) (by omega) (by omega)
    rw [← hlead] at hfirst
    refine ⟨_, _, by rw [bytesOfNat, if_neg h1, if_pos h2]; rfl, ?_⟩
    refine (head_two (by omega) (by omega) hfirst).trans ?_
    rw [payload_byte (by omega), hlead,
      show (0xC0 + n / 64) % 32 * 64 + n % 64 = n by omega, hc]
    rfl
  by_cases h3 : n < 0x10000
  · have hlead := toNat_byte (n := 0xE0 + n / 4096) (by omega)
    have hfirst := mayFollow_byte (0xE0 + n / 4096) (n / 64 % 64)
      (by omega) (by omega) (by omega) (by omega) (by omega)
    rw [← hlead] at hfirst
    refine ⟨_, _, by rw [bytesOfNat, if_neg h1, if_neg h2, if_pos h3]; rfl, ?_⟩
    refine (head_three (by omega) (by omega) hfirst
      (isContinuation_byte (by omega))).trans ?_
    rw [payload_byte (by omega), payload_byte (by omega), hlead,
      show (0xE0 + n / 4096) % 16 * 4096 + n / 64 % 64 * 64 + n % 64 = n
        by omega, hc]
    rfl
  · have hlead := toNat_byte (n := 0xF0 + n / 262144) (by omega)
    have hfirst := mayFollow_byte (0xF0 + n / 262144)
      (n / 4096 % 64)
      (by omega) (by omega) (by omega) (by omega) (by omega)
    rw [← hlead] at hfirst
    refine ⟨_, _, by rw [bytesOfNat, if_neg h1, if_neg h2, if_neg h3]; rfl, ?_⟩
    refine (head_four (by omega) (by omega) hfirst
      (isContinuation_byte (by omega)) (isContinuation_byte (by omega))).trans ?_
    rw [payload_byte (by omega), payload_byte (by omega),
      payload_byte (by omega), hlead,
      show (0xF0 + n / 262144) % 8 * 262144 + n / 4096 % 64 * 4096
        + n / 64 % 64 * 64 + n % 64 = n by omega, hc]
    rfl

/-- What is read as a character is what the character is written as. -/
theorem bytes_of_head {b : UInt8} {rest rest' : Bytes} {c : Char}
    (h : head b rest = .char c rest') :
    bytesOfNat c.toNat ++ rest' = b :: rest := by
  have hb := b.toNat_lt
  simp only [head] at h
  split at h
  · -- one byte
    next hlead =>
      cases h
      rw [toNat_char (.inl (by omega)), bytesOfNat, if_pos hlead,
        UInt8.ofNat_toNat]
      rfl
  split at h
  · cases h
  next hlow hlead =>
  split at h
  · cases h
  next b₁ rest₁ =>
  split at h
  · cases h
  next hfirst =>
  have h₁ := b₁.toNat_lt
  simp only [Bool.not_eq_true', Bool.not_eq_false, mayFollow, isContinuation,
    Bool.and_eq_true, Bool.or_eq_true, bne_iff_ne, decide_eq_true_eq,
    payload] at hfirst h
  split at h
  · -- two bytes
    cases h
    rw [toNat_char (.inl (by omega)), bytesOfNat, if_neg (by omega),
      if_pos (by omega), ofNat_eq (b := b) (by omega),
      ofNat_eq (b := b₁) (by omega)]
    rfl
  split at h
  · cases h
  next b₂ rest₂ =>
  have h₂ := b₂.toNat_lt
  split at h
  · cases h
  next hsecond =>
  simp only [Bool.not_eq_false, decide_eq_true_eq] at hsecond
  split at h
  · -- three bytes: `mayFollow` keeps the surrogates out
    cases h
    have hv : (b.toNat % 16 * 4096 + b₁.toNat % 64 * 64
        + b₂.toNat % 64).isValidChar := by
      rw [Nat.isValidChar]
      omega
    rw [toNat_char hv, bytesOfNat, if_neg (by omega), if_neg (by omega),
      if_pos (by omega), ofNat_eq (b := b) (by omega),
      ofNat_eq (b := b₁) (by omega), ofNat_eq (b := b₂) (by omega)]
    rfl
  split at h
  · cases h
  next b₃ rest₃ =>
  have h₃ := b₃.toNat_lt
  split at h
  · cases h
  next hthird =>
  simp only [Bool.not_eq_false, decide_eq_true_eq] at hthird
  -- four bytes: `mayFollow` keeps the value below the greatest code point
  cases h
  rw [toNat_char (.inr (by omega)), bytesOfNat, if_neg (by omega),
    if_neg (by omega), if_neg (by omega), ofNat_eq (b := b) (by omega),
    ofNat_eq (b := b₁) (by omega), ofNat_eq (b := b₂) (by omega),
    ofNat_eq (b := b₃) (by omega)]
  rfl

/-! ## Texts and their bytes -/

theorem bytes_append (t u : Text) : bytes (t ++ u) = bytes t ++ bytes u :=
  List.flatMap_append

/-- A text holds no surrogate just when its parts hold none. -/
theorem isWellFormed_append {t u : Text} :
    (t ++ u).isWellFormed ↔ t.isWellFormed ∧ u.isWellFormed := by
  rw [Text.isWellFormed, List.all_append, Bool.and_eq_true]
  exact Iff.rfl

/-- The bytes that are left where the reading of characters stops. -/
def leftOf : Option (UInt8 × Bytes × Nat × Reason) → Bytes
  | none => []
  | some (b, rest, _, _) => b :: rest

/-- Whether the reading of characters stops there: no character stands at
    what is left. -/
def IsStop (stop : Option (UInt8 × Bytes × Nat × Reason)) : Prop :=
  ∀ b rest width reason, stop = some (b, rest, width, reason) →
    head b rest = .malformed width reason

theorem isStop_none : IsStop none := by
  intro b rest width reason h
  cases h

/-- Reading takes the bytes of a text as the text. -/
theorem readOnto_bytes {t : Text} (h : t.isWellFormed) (read : Text)
    (bs : Bytes) :
    readOnto read (bytes t ++ bs) = readOnto (t.reverse ++ read) bs := by
  induction t generalizing read with
  | nil => rfl
  | cons c t ih =>
      rw [Text.isWellFormed, List.all_cons, Bool.and_eq_true] at h
      cases c with
      | surrogate s => cases h.1
      | char c =>
          obtain ⟨b, more, heq, hhead⟩ := head_bytesOfNat c (bytes t ++ bs)
          rw [bytes, List.flatMap_cons, List.append_assoc]
          show readOnto read (bytesOfNat c.toNat ++ (bytes t ++ bs)) = _
          rw [heq, readOnto, hhead]
          show readOnto (.char c :: read) (bytes t ++ bs) = _
          rw [ih h.2, List.reverse_cons, List.append_assoc]
          rfl

/-- The bytes of a text are read as the text also where what is no UTF-8 would
    be replaced. -/
theorem readLossyOnto_bytes {t : Text} (h : t.isWellFormed) (read : Text) :
    readLossyOnto read (bytes t) = t.reverse ++ read := by
  induction t generalizing read with
  | nil => rw [bytes, List.flatMap_nil, readLossyOnto]; rfl
  | cons c t ih =>
      rw [Text.isWellFormed, List.all_cons, Bool.and_eq_true] at h
      cases c with
      | surrogate s => cases h.1
      | char c =>
          obtain ⟨b, more, heq, hhead⟩ := head_bytesOfNat c (bytes t)
          rw [bytes, List.flatMap_cons]
          show readLossyOnto read (bytesOfNat c.toNat ++ bytes t) = _
          rw [heq, readLossyOnto, hhead]
          show readLossyOnto (.char c :: read) (bytes t) = _
          rw [ih h.2, List.reverse_cons, List.append_assoc]
          rfl

/-- The bytes of a text without surrogates are read as that text. -/
theorem readLossy_bytes {t : Text} (h : t.isWellFormed) :
    readLossy (bytes t) = t := by
  rw [readLossy, readLossyOnto_bytes h, List.append_nil, List.reverse_reverse]

/-- Reading takes a text whose bytes stand before the stop. -/
theorem readOnto_split (read : Text) (bs : Bytes) :
    ∃ t : Text, t.isWellFormed
      ∧ (readOnto read bs).1 = t.reverse ++ read
      ∧ bs = bytes t ++ leftOf (readOnto read bs).2
      ∧ IsStop (readOnto read bs).2 := by
  fun_induction readOnto read bs with
  | case1 read => exact ⟨[], rfl, rfl, rfl, isStop_none⟩
  | case2 read b rest c rest' hhead ih =>
      obtain ⟨t, hwf, hread, hbytes, hstop⟩ := ih
      refine ⟨.char c :: t, hwf, ?_, ?_, hstop⟩
      · rw [hread, List.reverse_cons, List.append_assoc]
        rfl
      · rw [← bytes_of_head hhead]
        show _ = bytesOfNat c.toNat ++ bytes t ++ _
        rw [List.append_assoc, ← hbytes]
  | case3 read b rest width reason hhead =>
      refine ⟨[], rfl, rfl, rfl, ?_⟩
      intro b' rest' width' reason' h
      cases h
      exact hhead

/-- What stopped a reading stops it again, with nothing read. -/
theorem readOnto_leftOf {stop : Option (UInt8 × Bytes × Nat × Reason)}
    (h : IsStop stop) (read : Text) :
    readOnto read (leftOf stop) = (read, stop) := by
  cases stop with
  | none =>
      show readOnto read [] = _
      rw [readOnto]
  | some s =>
      obtain ⟨b, rest, width, reason⟩ := s
      show readOnto read (b :: rest) = _
      rw [readOnto, h b rest width reason rfl]

/-- The reading of characters splits the bytes where no character
    stands. -/
theorem readChars_eq_iff {bs : Bytes} {t : Text}
    {stop : Option (UInt8 × Bytes × Nat × Reason)} :
    readChars bs = (t, stop)
      ↔ t.isWellFormed ∧ bs = bytes t ++ leftOf stop ∧ IsStop stop := by
  constructor
  · intro h
    obtain ⟨u, hwf, hread, hbytes, hstop⟩ := readOnto_split [] bs
    rw [readChars] at h
    obtain ⟨ht, hs⟩ := Prod.mk.injEq .. ▸ h
    rw [hread, List.append_nil, List.reverse_reverse] at ht
    rw [← ht, ← hs]
    exact ⟨hwf, hbytes, hstop⟩
  · rintro ⟨hwf, hbytes, hstop⟩
    rw [hbytes, readChars, readOnto_bytes hwf, readOnto_leftOf hstop,
      List.append_nil]
    dsimp only
    rw [List.reverse_reverse]

/-! ## Bytes that wait -/

/-- Bytes that wait for later ones: none, or a stretch that is cut off. -/
def IsWaiting (bs : Bytes) : Prop :=
  bs = [] ∨ ∃ b rest width reason, bs = b :: rest
    ∧ head b rest = .malformed width reason ∧ waits b rest reason = true

/-- A stretch that is malformed for another reason than its end is
    malformed whatever follows. -/
theorem head_append_of_malformed {b : UInt8} {rest : Bytes} {width : Nat}
    {reason : Reason} (h : head b rest = .malformed width reason)
    (hreason : reason ≠ .unexpectedEnd) (more : Bytes) :
    head b (rest ++ more) = .malformed width reason := by
  -- the bytes that were looked at come first in the longer list as well
  simp only [head] at h
  split at h
  · cases h
  next hascii =>
  split at h
  · next hlead =>
      simp only [head]
      rw [if_neg hascii, if_pos hlead]
      exact h
  next hlead =>
  split at h
  · cases h
    exact (hreason rfl).elim
  next b₁ rest₁ =>
  simp only [List.cons_append, head]
  rw [if_neg hascii, if_neg hlead]
  split at h
  · next hfirst =>
      rw [if_pos hfirst]
      exact h
  next hfirst =>
  rw [if_neg hfirst]
  split at h
  · cases h
  next htwo =>
  rw [if_neg htwo]
  split at h
  · cases h
    exact (hreason rfl).elim
  next b₂ rest₂ =>
  simp only [List.cons_append]
  split at h
  · next hsecond =>
      rw [if_pos hsecond]
      exact h
  next hsecond =>
  rw [if_neg hsecond]
  split at h
  · cases h
  next hthree =>
  rw [if_neg hthree]
  split at h
  · cases h
    exact (hreason rfl).elim
  next b₃ rest₃ =>
  simp only [List.cons_append]
  split at h
  · next hthird =>
      rw [if_pos hthird]
      exact h
  · cases h

/-- A stretch that waits for nothing goes on waiting for nothing. -/
theorem waits_append {b : UInt8} {rest : Bytes} {width : Nat}
    {reason : Reason} (h : head b rest = .malformed width reason)
    (hwaits : waits b rest reason = false) (more : Bytes) :
    waits b (rest ++ more) reason = false := by
  cases reason with
  | unexpectedEnd => exact hwaits
  | invalidStart => rfl
  | invalidContinuation =>
      cases rest with
      | nil =>
          simp only [head] at h
          repeat' split at h
          all_goals cases h
      | cons c rest =>
          cases rest with
          | nil =>
              cases more with
              | nil => exact hwaits
              | cons c' more => rfl
          | cons c' rest => rfl

/-- What has arrived is a text and bytes that wait. -/
theorem readPart_eq_ok_iff {bs w : Bytes} {t : Text} :
    readPart bs = .ok (t, w)
      ↔ t.isWellFormed ∧ bs = bytes t ++ w ∧ IsWaiting w := by
  constructor
  · intro h
    rw [readPart] at h
    split at h
    · next u hread =>
        obtain ⟨hwf, hbytes, -⟩ := readChars_eq_iff.mp hread
        cases h
        exact ⟨hwf, hbytes, .inl rfl⟩
    · next u b rest width reason hread =>
        obtain ⟨hwf, hbytes, hstop⟩ := readChars_eq_iff.mp hread
        split at h
        · next hwaits =>
            cases h
            exact ⟨hwf, hbytes, .inr ⟨b, rest, width, reason, rfl,
              hstop b rest width reason rfl, hwaits⟩⟩
        · cases h
  · rintro ⟨hwf, hbytes, hw | ⟨b, rest, width, reason, hw, hhead, hwaits⟩⟩
    · have hread : readChars bs = (t, none) :=
        readChars_eq_iff.mpr ⟨hwf, by rw [hbytes, hw]; rfl, isStop_none⟩
      rw [readPart, hread, hw]
    · have hread : readChars bs = (t, some (b, rest, width, reason)) := by
        refine readChars_eq_iff.mpr ⟨hwf, by rw [hbytes, hw]; rfl, ?_⟩
        intro b' rest' width' reason' h
        cases h
        exact hhead
      rw [readPart, hread, hw]
      exact if_pos hwaits

/-- Bytes that are all are the bytes of a text. -/
theorem read_eq_ok_iff {bs : Bytes} {t : Text} :
    read bs = .ok t ↔ t.isWellFormed ∧ bs = bytes t := by
  constructor
  · intro h
    rw [read] at h
    split at h
    · next u hread =>
        obtain ⟨hwf, hbytes, -⟩ := readChars_eq_iff.mp hread
        cases h
        exact ⟨hwf, hbytes.trans (List.append_nil _)⟩
    · cases h
  · rintro ⟨hwf, hbytes⟩
    have hread : readChars bs = (t, none) :=
      readChars_eq_iff.mpr
        ⟨hwf, hbytes.trans (List.append_nil _).symm, isStop_none⟩
    rw [read, hread]

/-- What waits has no text in it. -/
theorem readPart_of_waiting {bs w : Bytes} {t : Text}
    (h : readPart bs = .ok (t, w)) : readPart w = .ok ([], w) :=
  readPart_eq_ok_iff.mpr ⟨rfl, rfl, (readPart_eq_ok_iff.mp h).2.2⟩

/-- Two pieces that can be read can be read as one. -/
theorem readPart_append {bs more w w' : Bytes} {t u : Text}
    (h : readPart bs = .ok (t, w)) (h' : readPart (w ++ more) = .ok (u, w')) :
    readPart (bs ++ more) = .ok (t ++ u, w') := by
  obtain ⟨hwf, hbytes, -⟩ := readPart_eq_ok_iff.mp h
  obtain ⟨hwf', hbytes', hwaiting⟩ := readPart_eq_ok_iff.mp h'
  refine readPart_eq_ok_iff.mpr
    ⟨isWellFormed_append.mpr ⟨hwf, hwf'⟩, ?_, hwaiting⟩
  rw [hbytes, bytes_append, List.append_assoc, List.append_assoc, hbytes']

/-- What can be read as one can be read in two pieces. -/
theorem readPart_of_append {bs more w' : Bytes} {v : Text}
    (h : readPart (bs ++ more) = .ok (v, w')) :
    ∃ t w u, readPart bs = .ok (t, w) ∧ readPart (w ++ more) = .ok (u, w')
      ∧ v = t ++ u := by
  -- the first piece is read up to a stop, behind which the whole goes on
  cases hread : readChars bs with
  | mk t stop =>
  obtain ⟨hwf, hbytes, hstop⟩ := readChars_eq_iff.mp hread
  cases hrest : readChars (leftOf stop ++ more) with
  | mk u stop' =>
  obtain ⟨hwf', hbytes', hstop'⟩ := readChars_eq_iff.mp hrest
  have hwhole : readChars (bs ++ more) = (t ++ u, stop') := by
    refine readChars_eq_iff.mpr
      ⟨isWellFormed_append.mpr ⟨hwf, hwf'⟩, ?_, hstop'⟩
    rw [hbytes, bytes_append, List.append_assoc, List.append_assoc, hbytes']
  have hsecond : readPart (leftOf stop ++ more) = .ok (u, w') ∧ v = t ++ u := by
    rw [readPart, hwhole] at h
    rw [readPart, hrest]
    cases stop' with
    | none =>
        cases h
        exact ⟨rfl, rfl⟩
    | some s =>
        obtain ⟨b, rest, width, reason⟩ := s
        dsimp only at h ⊢
        split at h
        · next hwaits =>
            cases h
            exact ⟨if_pos hwaits, rfl⟩
        · cases h
  refine ⟨t, leftOf stop, u, ?_, hsecond⟩
  rw [readPart, hread]
  cases stop with
  | none => rfl
  | some s =>
      obtain ⟨b, rest, width, reason⟩ := s
      have hhead := hstop b rest width reason rfl
      refine if_pos ?_
      refine Bool.not_eq_false _ ▸ fun hwaits => ?_
      -- a stretch that waits for nothing stops the whole as well
      have hne : reason ≠ .unexpectedEnd := by
        rintro rfl
        cases hwaits
      have hhead' := head_append_of_malformed hhead hne more
      have hwaits' := waits_append hhead hwaits more
      have hfail := hsecond.1
      rw [readPart, readChars, leftOf, List.cons_append, readOnto, hhead'] at hfail
      dsimp only at hfail
      rw [hwaits'] at hfail
      cases hfail

/-! ## The first bytes of a text -/

/-- A beginning of a text stands in the first so many bytes if and only if
    it is no longer than the text that is read there. -/
theorem length_bytes_le_iff {t p u c d : Text} {w : Bytes} {n : Nat}
    (h : t.isWellFormed) (hp : readPart ((bytes t).take n) = .ok (p, w))
    (hpu : t = p ++ u) (hcd : t = c ++ d) :
    (bytes c).length ≤ n ↔ c.length ≤ p.length := by
  constructor
  · intro hle
    rw [hcd, bytes_append, List.take_append, List.take_of_length_le hle] at hp
    obtain ⟨c', w', u', hc', -, hp'⟩ := readPart_of_append hp
    rw [hcd] at h
    have hc : readPart (bytes c) = .ok (c, []) :=
      readPart_eq_ok_iff.mpr
        ⟨(isWellFormed_append.mp h).1, (List.append_nil _).symm, .inl rfl⟩
    cases hc.symm.trans hc'
    rw [hp', List.length_append]
    exact Nat.le_add_right _ _
  · intro hle
    obtain ⟨e, he⟩ : c <+: p :=
      List.prefix_of_prefix_length_le ⟨d, hcd.symm⟩ ⟨u, hpu.symm⟩ hle
    have hlen := congrArg List.length (readPart_eq_ok_iff.mp hp).2.1
    rw [← he, bytes_append] at hlen
    simp only [List.length_append, List.length_take] at hlen
    omega

end CouchClient.Utf8
