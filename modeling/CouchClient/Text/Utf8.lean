import CouchClient.Text.Basic

/-! # UTF-8 — writing, reading, and the stretches that cannot be read

    Writing fails at a lone surrogate.  Reading goes from sequence to
    sequence: `head` reads the first one or says how many bytes of it
    belong to no character and why.  A sequence that the end of the bytes
    cuts off may be completed by bytes that come later, so `readPart`
    leaves it unread; `read` refuses it, and `readLossy` writes one
    replacement character for it and for every other such stretch. -/

namespace CouchClient.Utf8

/-! ## Writing -/

/-- The bytes of the code point with the given number.  A surrogate is
    written in the form of its neighbours; `encode` refuses it before. -/
def bytesOfNat (n : Nat) : Bytes :=
  if n < 0x80 then
    [.ofNat n]
  else if n < 0x800 then
    [.ofNat (0xC0 + n / 64), .ofNat (0x80 + n % 64)]
  else if n < 0x10000 then
    [.ofNat (0xE0 + n / 4096), .ofNat (0x80 + n / 64 % 64),
      .ofNat (0x80 + n % 64)]
  else
    [.ofNat (0xF0 + n / 262144), .ofNat (0x80 + n / 4096 % 64),
      .ofNat (0x80 + n / 64 % 64), .ofNat (0x80 + n % 64)]

/-- The bytes of a text. -/
def bytes (t : Text) : Bytes := t.flatMap fun c => bytesOfNat c.toNat

/-- The first run of surrogates of a text that cannot be written. -/
structure Unencodable where
  first : Surrogate
  start : Nat
  length : Nat
deriving DecidableEq

/-- The length of the run of surrogates that opens a text. -/
def surrogateRun (t : Text) : Nat :=
  (t.takeWhile CodePoint.isSurrogate).length

/-- The first run of surrogates, where the text starts at a position. -/
def firstSurrogates (position : Nat) : Text → Option Unencodable
  | [] => none
  | .char _ :: rest => firstSurrogates (position + 1) rest
  | .surrogate s :: rest => some ⟨s, position, surrogateRun rest + 1⟩

/-- The bytes of a text, unless it holds a surrogate. -/
def encode (t : Text) : Except Unencodable Bytes :=
  match firstSurrogates 0 t with
  | some stretch => .error stretch
  | none => .ok (bytes t)

/-- Names the run, and the surrogate if there is only one. -/
def Unencodable.message (e : Unencodable) : Text :=
  if e.length = 1 then
    text "'utf-8' codec can't encode character '\\u"
      ++ Text.ofHex 4 e.first.toNat ++ text "' in position "
      ++ Text.ofNat e.start ++ text ": surrogates not allowed"
  else
    text "'utf-8' codec can't encode characters in position "
      ++ Text.ofNat e.start ++ text "-" ++ Text.ofNat (e.start + e.length - 1)
      ++ text ": surrogates not allowed"

/-! ## Reading -/

/-- Why a stretch of bytes is no character. -/
inductive Reason where
  | invalidStart
  | invalidContinuation
  | unexpectedEnd
deriving DecidableEq

/-- What the first bytes are: a character and the bytes after it, or a
    stretch of so many bytes that is no character. -/
inductive Head where
  | char (c : Char) (rest : Bytes)
  | malformed (width : Nat) (reason : Reason)

/-- Whether a byte continues a sequence. -/
def isContinuation (b : UInt8) : Bool :=
  decide (0x80 ≤ b.toNat ∧ b.toNat < 0xC0)

/-- Whether a byte may follow the first byte of a sequence: overlong forms,
    surrogates and numbers beyond U+10FFFF are shut out here. -/
def mayFollow (lead : Nat) (b : UInt8) : Bool :=
  isContinuation b
    && (lead != 0xE0 || decide (0xA0 ≤ b.toNat))
    && (lead != 0xED || decide (b.toNat < 0xA0))
    && (lead != 0xF0 || decide (0x90 ≤ b.toNat))
    && (lead != 0xF4 || decide (b.toNat < 0x90))

/-- The six bits that a continuation byte carries. -/
def payload (b : UInt8) : Nat := b.toNat % 64

/-- The first sequence of the bytes `b :: rest`. -/
def head (b : UInt8) (rest : Bytes) : Head :=
  let lead := b.toNat
  if lead < 0x80 then
    .char (Char.ofNat lead) rest
  else if lead < 0xC2 ∨ 0xF5 ≤ lead then
    .malformed 1 .invalidStart
  else
    match rest with
    | [] => .malformed 1 .unexpectedEnd
    | b₁ :: rest =>
        if !mayFollow lead b₁ then
          .malformed 1 .invalidContinuation
        else if lead < 0xE0 then
          .char (Char.ofNat (lead % 32 * 64 + payload b₁)) rest
        else
          match rest with
          | [] => .malformed 2 .unexpectedEnd
          | b₂ :: rest =>
              if !isContinuation b₂ then
                .malformed 2 .invalidContinuation
              else if lead < 0xF0 then
                .char (Char.ofNat (lead % 16 * 4096 + payload b₁ * 64
                  + payload b₂)) rest
              else
                match rest with
                | [] => .malformed 3 .unexpectedEnd
                | b₃ :: rest =>
                    if !isContinuation b₃ then
                      .malformed 3 .invalidContinuation
                    else
                      .char (Char.ofNat (lead % 8 * 262144
                        + payload b₁ * 4096 + payload b₂ * 64
                        + payload b₃)) rest

/-- A character uses up at least its first byte. -/
theorem length_rest_of_head {b : UInt8} {rest : Bytes} {c : Char}
    {rest' : Bytes} (h : head b rest = .char c rest') :
    rest'.length ≤ rest.length := by
  simp only [head] at h
  repeat' split at h
  all_goals cases h
  all_goals grind

/-- Bytes that could not be read: what the first of them is, where the
    stretch stands, and why. -/
structure Undecodable where
  byte : UInt8
  start : Nat
  width : Nat
  reason : Reason
deriving DecidableEq

/-- The words for a reason. -/
def Reason.message : Reason → Text
  | .invalidStart => text "invalid start byte"
  | .invalidContinuation => text "invalid continuation byte"
  | .unexpectedEnd => text "unexpected end of data"

/-- Names the stretch, and the byte if there is only one. -/
def Undecodable.message (e : Undecodable) : Text :=
  if e.width = 1 then
    text "'utf-8' codec can't decode byte 0x" ++ Text.ofHex 2 e.byte.toNat
      ++ text " in position " ++ Text.ofNat e.start ++ text ": "
      ++ e.reason.message
  else
    text "'utf-8' codec can't decode bytes in position " ++ Text.ofNat e.start
      ++ text "-" ++ Text.ofNat (e.start + e.width - 1) ++ text ": "
      ++ e.reason.message

/-- Reads characters up to the end of the bytes or to the first stretch
    that is none; the characters come last first, before those read so
    far.  The rest of the bytes is given with what is wrong with it. -/
def readOnto (read : Text) (bs : Bytes) :
    Text × Option (UInt8 × Bytes × Nat × Reason) :=
  match bs with
  | [] => (read, none)
  | b :: rest =>
      match _h : head b rest with
      | .char c rest' => readOnto (.char c :: read) rest'
      | .malformed width reason => (read, some (b, rest, width, reason))
termination_by bs.length
decreasing_by
  have := length_rest_of_head _h
  simp only [List.length_cons]
  omega

/-- The characters at the start of the bytes and, where they are not all
    of them, what stands in the way. -/
def readChars (bs : Bytes) : Text × Option (UInt8 × Bytes × Nat × Reason) :=
  let (read, stop) := readOnto [] bs
  (read.reverse, stop)

/-- Whether bytes that are no character wait for those that come later:
    a sequence that is cut off, and the first two bytes of the form of a
    surrogate, which is refused only as a whole. -/
def waits (b : UInt8) (rest : Bytes) : Reason → Bool
  | .unexpectedEnd => true
  | .invalidContinuation =>
      match rest with
      | [c] => b == 0xED && isContinuation c
      | _ => false
  | .invalidStart => false

/-- Reads all that can be read already, and gives the bytes that wait for
    later ones. -/
def readPart (bs : Bytes) : Except Undecodable (Text × Bytes) :=
  match readChars bs with
  | (t, none) => .ok (t, [])
  | (t, some (b, rest, width, reason)) =>
      if waits b rest reason then .ok (t, b :: rest)
      else .error ⟨b, bs.length - (rest.length + 1), width, reason⟩

/-- Reads bytes that are known to be all. -/
def read (bs : Bytes) : Except Undecodable Text :=
  match readChars bs with
  | (t, none) => .ok t
  | (_, some (b, rest, width, reason)) =>
      .error ⟨b, bs.length - (rest.length + 1), width, reason⟩

/-! ## Characters are no more than bytes -/

/-- The number of bytes that are left where the reading of characters
    stops. -/
def leftAt : Option (UInt8 × Bytes × Nat × Reason) → Nat
  | none => 0
  | some (_, rest, _, _) => rest.length + 1

/-- A reading gives no more characters than it takes bytes. -/
theorem length_readOnto (read : Text) (bs : Bytes) :
    (readOnto read bs).1.length + leftAt (readOnto read bs).2
      ≤ read.length + bs.length := by
  fun_induction readOnto read bs
  case case1 => simp [leftAt]
  case case2 h ih =>
      have := length_rest_of_head h
      simp only [List.length_cons] at ih ⊢
      omega
  case case3 => simp [leftAt]

theorem length_readChars (bs : Bytes) :
    (readChars bs).1.length + leftAt (readChars bs).2 ≤ bs.length := by
  have := length_readOnto [] bs
  simp only [readChars, List.length_reverse]
  simpa using this

/-- A part is read into no more characters than it has bytes. -/
theorem length_readPart {bs waiting : Bytes} {t : Text}
    (h : readPart bs = .ok (t, waiting)) :
    t.length + waiting.length ≤ bs.length := by
  have hle := length_readChars bs
  unfold readPart at h
  split at h
  · next hread =>
      cases h
      rw [hread] at hle
      exact hle
  · next hread =>
      split at h
      · cases h
        rw [hread] at hle
        exact hle
      · exact nomatch h

/-- The character that stands for a stretch that is none. -/
def replacement : CodePoint := .char '\ufffd'

/-- Reads with one replacement character for each stretch that is no
    character, onto what was read so far, last first. -/
def readLossyOnto (read : Text) (bs : Bytes) : Text :=
  match bs with
  | [] => read
  | b :: rest =>
      match _h : head b rest with
      | .char c rest' => readLossyOnto (.char c :: read) rest'
      | .malformed width _ =>
          readLossyOnto (replacement :: read) (rest.drop (width - 1))
termination_by bs.length
decreasing_by
  · have := length_rest_of_head _h
    simp only [List.length_cons]
    omega
  · simp only [List.length_cons, List.length_drop]
    omega

/-- Reads with one replacement character for each stretch that is no
    character. -/
def readLossy (bs : Bytes) : Text := (readLossyOnto [] bs).reverse

end CouchClient.Utf8
