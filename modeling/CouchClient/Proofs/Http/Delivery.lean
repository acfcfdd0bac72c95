import CouchClient.Rows.Buffer

/-! # Deliveries — streams that give all the bytes they hold

    A stream may give its bytes in pieces of any size, and a fault may
    strike once they have been given.  What is shown of listings needs no
    more of a stream than that.

    * `Delivery` — the bytes that are still to come, and what a read makes
      of them;
    * `StoredStream` — delivers its content, up to the position of its
      fault;
    * `PacedStream` — delivers at any pace whatever;
    * `Feed.Holds` — a stream or an open body around one;
    * `Channel` — a stream that is read as it is, or through a body. -/

namespace CouchClient

/-- What a read gives of the bytes that are still to come: some of them, or
    after the last one nothing or the fault.  `holds` says of a stream what it
    holds. -/
inductive Gives {σ : Type} (holds : σ → Bytes → Option Fault → Prop) :
    Bytes → Option Fault → Except Fault Bytes → σ → Prop
  | piece {chunk rest : Bytes} {fault : Option Fault} {s : σ}
      (hchunk : chunk ≠ []) (hrest : holds s rest fault) :
      Gives holds (chunk ++ rest) fault (.ok chunk) s
  | nothing {s : σ} (hrest : holds s [] none) : Gives holds [] none (.ok []) s
  | fault {f : Fault} {s : σ} (hrest : holds s [] (some f)) :
      Gives holds [] (some f) (.error f) s

/-- What a read gives does not depend on how the stream is looked at. -/
theorem Gives.map {σ τ : Type} {holds : σ → Bytes → Option Fault → Prop}
    {holds' : τ → Bytes → Option Fault → Prop} {bs : Bytes}
    {fault : Option Fault} {result : Except Fault Bytes} {s : σ} {s' : τ}
    (h : Gives holds bs fault result s)
    (hmap : ∀ bs fault, holds s bs fault → holds' s' bs fault) :
    Gives holds' bs fault result s' := by
  cases h with
  | piece hchunk hrest => exact .piece hchunk (hmap _ _ hrest)
  | nothing hrest => exact .nothing (hmap _ _ hrest)
  | fault hrest => exact .fault (hmap _ _ hrest)

/-- Streams that give all the bytes they hold, and count how often they are
    closed. -/
class Delivery (β ω : Type) [ByteStream β ω] where
  /-- The bytes that are still to come, and the fault that strikes after
      them. -/
  holds : β × ω → Bytes → Option Fault → Prop
  /-- How often the stream was closed. -/
  closings : β × ω → Nat
  gives_read : ∀ {s : β} {w : ω} {bs : Bytes} {fault : Option Fault} {size : Nat},
    holds (s, w) bs fault → 0 < size →
      Gives holds bs fault (ByteStream.read s (some size) w).1
        (ByteStream.read s (some size) w).2
  closings_read : ∀ (s : β) (w : ω) (size : Option Nat),
    closings (ByteStream.read s size w).2 = closings (s, w)
  closings_close : ∀ (s : β) (w : ω),
    closings (ByteStream.close s w) = closings (s, w) + 1

/-! ## Stored streams -/

namespace StoredStream

/-- All that a stream ever gives: its content, up to the position of its
    fault. -/
def reach (s : StoredStream) : Bytes :=
  match s.failure with
  | none => s.content
  | some (_, after) => s.content.take after

/-- The fault that strikes, if its position is reached. -/
def striking (s : StoredStream) : Option Fault :=
  match s.failure with
  | none => none
  | some (fault, after) => if after ≤ s.content.length then some fault else none

/-- The bytes that are still to come, for a stream that gives at least one of
    them in a read. -/
def Holds (s : StoredStream) (bs : Bytes) (fault : Option Fault) : Prop :=
  s.limit ≠ some 0 ∧ s.position ≤ s.reach.length
    ∧ bs = s.reach.drop s.position ∧ fault = s.striking

/-- A stream with a limit gives at least one byte where one is asked for. -/
theorem exists_least {limit : Option Nat} (hlimit : limit ≠ some 0) {n : Nat}
    (hn : 0 < n) : ∃ k, 0 < k ∧ least limit (some n) = some k := by
  cases limit with
  | none => exact ⟨n, hn, rfl⟩
  | some m =>
      have hm : m ≠ 0 := by
        rintro rfl
        exact hlimit rfl
      exact ⟨min m n, by omega, rfl⟩

/-- The stream after it was asked for a size and gave so many bytes. -/
private def gave (s : StoredStream) (size : Option Nat) (n : Nat) :
    StoredStream :=
  { s with asked := size :: s.asked, position := s.position + n }

/-- Giving a beginning of what is held leaves the rest. -/
private theorem gives_take {s : StoredStream} {bs : Bytes}
    {fault : Option Fault} (h : s.Holds bs fault)
    (hend : bs = [] → fault = none) {k : Nat} (hk : 0 < k)
    (size : Option Nat) :
    Gives Holds bs fault (.ok (bs.take k)) (s.gave size (bs.take k).length) := by
  obtain ⟨hlimit, hposition, hbs, hfault⟩ := h
  cases hcase : bs with
  | nil =>
      have hnone := hend hcase
      rw [hcase] at hbs
      rw [hnone] at hfault ⊢
      rw [List.take_nil]
      exact Gives.nothing (s := s.gave size 0)
        ⟨hlimit, hposition, hbs, hfault⟩
  | cons b rest =>
      rw [← hcase]
      have hlen := congrArg List.length hbs
      rw [List.length_drop] at hlen
      have hsplit := List.take_append_drop k bs
      conv => arg 2; rw [← hsplit]
      refine .piece ?_ ⟨hlimit, ?_, ?_, hfault⟩
      · rw [hcase]
        obtain ⟨m, rfl⟩ := Nat.exists_eq_succ_of_ne_zero (Nat.ne_of_gt hk)
        exact List.cons_ne_nil _ _
      · show s.position + (bs.take k).length ≤ s.reach.length
        rw [List.length_take]
        omega
      · show bs.drop k = s.reach.drop (s.position + (bs.take k).length)
        rw [← List.drop_drop, ← hbs, List.length_take]
        rcases Nat.le_total k bs.length with hle | hle
        · rw [Nat.min_eq_left hle]
        · rw [Nat.min_eq_right hle, List.drop_length,
            List.drop_eq_nil_of_le hle]

/-- A read of a stored stream gives from what it holds. -/
theorem gives_read {s : StoredStream} {bs : Bytes} {fault : Option Fault}
    {size : Nat} (h : s.Holds bs fault) (hsize : 0 < size) :
    Gives Holds bs fault (s.read (some size)).1 (s.read (some size)).2 := by
  obtain ⟨k, hk, hleast⟩ := exists_least h.1 hsize
  have hhold := h
  obtain ⟨hlimit, hposition, hbs, hfault⟩ := h
  cases hfailure : s.failure with
  | none =>
      have hbs' : bs = s.content.drop s.position := by
        rw [hbs, reach, hfailure]
      have hread : s.read (some size)
          = (.ok (bs.take k), s.gave (some size) (bs.take k).length) := by
        simp only [read, ask, hleast, hfailure, take, hbs', gave]
      rw [hread]
      refine gives_take hhold ?_ hk _
      intro _
      rw [hfault, striking, hfailure]
  | some failure =>
      obtain ⟨f, after⟩ := failure
      have hreach : s.reach = s.content.take after := by
        rw [reach, hfailure]
      have hstriking : s.striking
          = if after ≤ s.content.length then some f else none := by
        rw [striking, hfailure]
      rw [hreach, List.length_take] at hposition
      by_cases hafter : after ≤ s.position
      · -- everything before the failure was given
        have hread : s.read (some size) = (.error f, s.gave (some size) 0) := by
          simp only [read, ask, hfailure, hafter, if_true, gave, Nat.add_zero]
        have hnil : s.reach.drop s.position = [] := by
          refine List.drop_eq_nil_of_le ?_
          rw [hreach, List.length_take]
          omega
        have hsome : s.striking = some f := by
          rw [hstriking, if_pos (by omega)]
        rw [hread, hfault, hsome, hbs, hnil]
        refine .fault ⟨hlimit, ?_, hnil.symm, hsome.symm⟩
        show s.position ≤ s.reach.length
        rw [hreach, List.length_take]
        exact hposition
      · -- the read stops before the failure at the latest
        have hbs' : bs = (s.content.drop s.position).take (after - s.position) := by
          rw [hbs, hreach, List.drop_take]
        have hread : s.read (some size)
            = (.ok (bs.take k), s.gave (some size) (bs.take k).length) := by
          have hboth : least (some (after - s.position)) (some k)
              = some (min (after - s.position) k) := rfl
          simp only [read, ask, hleast, hfailure, hafter, if_false, take, hboth,
            hbs', List.take_take, gave, Nat.min_comm]
        rw [hread]
        refine gives_take hhold ?_ hk _
        intro hnil
        have hlen := congrArg List.length (hbs'.symm.trans hnil)
        rw [List.length_take, List.length_drop, List.length_nil] at hlen
        rw [hfault, hstriking, if_neg (by omega)]

theorem closes_read (s : StoredStream) (size : Option Nat) :
    (s.read size).2.closes = s.closes := by
  rw [read]
  dsimp only
  split
  · rfl
  · split <;> rfl

instance : Delivery StoredStream Unit where
  holds s := s.1.Holds
  closings s := s.1.closes
  gives_read h hsize := (gives_read h hsize).map fun _ _ h => h
  closings_read s _ size := s.closes_read size
  closings_close _ _ := rfl

end StoredStream

/-! ## Paced streams -/

/-- Bytes that are still to come, a pace, the fault that strikes after the
    bytes, and how often the stream was read and closed.  The pace gives for
    each read the most bytes that it takes, if it is more than one. -/
structure PacedStream where
  content : Bytes
  pace : Nat → Nat
  failure : Option Fault
  reads : Nat
  closes : Nat

namespace PacedStream

/-- The stream of some bytes, before anything is read. -/
def ofBytes (content : Bytes) (pace : Nat → Nat) (failure : Option Fault) :
    PacedStream :=
  ⟨content, pace, failure, 0, 0⟩

/-- The number of bytes that a read of the given size takes: at least one,
    unless none are asked for. -/
def portion (s : PacedStream) (size : Option Nat) : Nat :=
  match size with
  | none => s.content.length
  | some n => min n (max 1 (s.pace s.reads))

/-- Reads at the pace of the stream; after the last byte the fault strikes,
    if there is one. -/
def read (s : PacedStream) (size : Option Nat) :
    Except Fault Bytes × PacedStream :=
  match s.content, s.failure with
  | [], some f => (.error f, { s with reads := s.reads + 1 })
  | _, _ =>
      (.ok (s.content.take (s.portion size)),
        { s with
          content := s.content.drop (s.portion size)
          reads := s.reads + 1 })

/-- Counts a closing. -/
def close (s : PacedStream) : PacedStream := { s with closes := s.closes + 1 }

/-- The stream after a read that took so many bytes. -/
private def took (s : PacedStream) (n : Nat) : PacedStream :=
  { s with content := s.content.drop n, reads := s.reads + 1 }

/-- A read of a paced stream strikes when nothing is left, or gives a portion. -/
private theorem read_cases (s : PacedStream) (size : Option Nat) :
    (s.content = [] ∧ ∃ f, s.failure = some f
        ∧ s.read size = (.error f, s.took 0))
      ∨ (s.content = [] → s.failure = none)
        ∧ s.read size
          = (.ok (s.content.take (s.portion size)), s.took (s.portion size)) := by
  obtain ⟨content, pace, failure, reads, closes⟩ := s
  cases content with
  | cons b rest => exact .inr ⟨by simp, rfl⟩
  | nil =>
      cases failure with
      | none => exact .inr ⟨fun _ => rfl, rfl⟩
      | some f => exact .inl ⟨rfl, f, rfl, rfl⟩

instance : ByteStream PacedStream Unit where
  read s size _ := ((s.read size).1, (s.read size).2, ())
  close s _ := (s.close, ())
  unread s _ := s.content.length
  unread_read := by
    intro s size w chunk s' w' h
    rcases s.read_cases size with ⟨-, f, -, hread⟩ | ⟨-, hread⟩
    · rw [hread] at h
      cases h
    · rw [hread] at h
      cases h
      rw [took, List.length_take, List.length_drop]
      omega

/-- A read of a paced stream gives from its content. -/
private theorem gives_read {s : PacedStream} {size : Nat} (hsize : 0 < size) :
    Gives (fun (s : PacedStream) bs fault => s.content = bs ∧ s.failure = fault)
      s.content s.failure (s.read (some size)).1 (s.read (some size)).2 := by
  rcases s.read_cases (some size) with ⟨hnil, f, hf, hread⟩ | ⟨hend, hread⟩
  · rw [hread, hnil, hf]
    exact .fault ⟨by rw [took, hnil]; rfl, hf⟩
  · rw [hread]
    cases hcontent : s.content with
    | nil =>
        rw [hend hcontent, List.take_nil]
        exact .nothing ⟨by rw [took, hcontent, List.drop_nil], hend hcontent⟩
    | cons b rest =>
        rw [← hcontent]
        have hportion : 0 < s.portion (some size) := by
          rw [portion]
          omega
        have hsplit := List.take_append_drop (s.portion (some size)) s.content
        conv => arg 2; rw [← hsplit]
        refine .piece ?_ ⟨rfl, rfl⟩
        rw [hcontent]
        obtain ⟨m, hm⟩ := Nat.exists_eq_succ_of_ne_zero (Nat.ne_of_gt hportion)
        rw [hm]
        exact List.cons_ne_nil _ _

private theorem closes_read (s : PacedStream) (size : Option Nat) :
    (s.read size).2.closes = s.closes := by
  rcases s.read_cases size with ⟨-, f, -, hread⟩ | ⟨-, hread⟩ <;>
    (rw [hread]; rfl)

instance : Delivery PacedStream Unit where
  holds s bs fault := s.1.content = bs ∧ s.1.failure = fault
  closings s := s.1.closes
  gives_read h hsize := by
    obtain ⟨rfl, rfl⟩ := h
    exact (gives_read hsize).map fun _ _ h => h
  closings_read s _ size := s.closes_read size
  closings_close _ _ := rfl

end PacedStream

/-! ## Feeds -/

namespace Feed

variable {β ω : Type} [ByteStream β ω] [Delivery β ω]

/-- The feed is open, holds these bytes, and gives the error after them. -/
inductive Holds : Feed β → ω → Bytes → Option Error → Prop
  | direct {s : β} {w : ω} {bs : Bytes} {fault : Option Fault}
      (h : Delivery.holds (s, w) bs fault) :
      Holds (.direct s) w bs (fault.map .fault)
  | body {s : β} {w : ω} {bs : Bytes} {fault : Option Fault}
      {method url : Option Text} (h : Delivery.holds (s, w) bs fault) :
      Holds (.body ⟨some s, method, url, false⟩) w bs
        (fault.map (Body.ofStream (some s) method url).errorOf)

/-- How often the stream that is read was closed. -/
def closings (f : Feed β) (w : ω) : Nat :=
  match f with
  | .direct s => Delivery.closings (s, w)
  | .body b =>
      match b.stream with
      | some s => Delivery.closings (s, w)
      | none => 0

/-- How often it is closed by the time that the feed is. -/
def finalClosings (f : Feed β) (w : ω) : Nat :=
  (f.close w).1.closings (f.close w).2

/-- What a read gives of a feed. -/
inductive ReadsTo (n : Nat) : Bytes → Option Error → Except Error Bytes →
    Feed β → ω → Prop
  | piece {chunk rest : Bytes} {e : Option Error} {f : Feed β} {w : ω}
      (hchunk : chunk ≠ []) (hrest : f.Holds w rest e) (hclosings : f.closings w = n) :
      ReadsTo n (chunk ++ rest) e (.ok chunk) f w
  | nothing {f : Feed β} {w : ω} (hrest : f.Holds w [] none)
      (hclosings : f.closings w = n) : ReadsTo n [] none (.ok []) f w
  | error {e : Error} {f : Feed β} {w : ω} (hclosings : f.finalClosings w = n + 1) :
      ReadsTo n [] (some e) (.error e) f w

section
variable {f : Feed β} {w : ω} {bs : Bytes} {e : Option Error}

/-- Closing a feed closes its stream once. -/
theorem finalClosings_eq (h : f.Holds w bs e) :
    f.finalClosings w = f.closings w + 1 := by
  cases h with
  | direct h => exact Delivery.closings_close _ _
  | body h => exact Delivery.closings_close _ _

/-- A read of a feed gives from what it holds and leaves it open, or ends it. -/
theorem readsTo_read {size : Nat} (h : f.Holds w bs e) (hsize : 0 < size) :
    ReadsTo (f.closings w) bs e (f.read size w).1 (f.read size w).2.1
      (f.read size w).2.2 := by
  cases h with
  | @direct s w bs fault h =>
      have hclosings := Delivery.closings_read s w (some size)
      have hgives := Delivery.gives_read h hsize
      simp only [Feed.read]
      generalize ByteStream.read s (some size) w = after at hclosings hgives
      obtain ⟨result, s', w'⟩ := after
      show ReadsTo (Delivery.closings (s, w)) bs _ (result.mapError .fault)
        (.direct s') w'
      rw [← hclosings]
      cases hgives with
      | piece hchunk hrest => exact .piece hchunk (.direct hrest) rfl
      | nothing hrest => exact .nothing (.direct hrest) rfl
      | fault hrest => exact .error (Delivery.closings_close s' w')
  | @body s w bs fault method url h =>
      have hclosings := Delivery.closings_read s w (some size)
      have hgives := Delivery.gives_read h hsize
      simp only [Feed.read, Body.read]
      generalize ByteStream.read s (some size) w = after at hclosings hgives
      obtain ⟨result, s', w'⟩ := after
      show ReadsTo (Delivery.closings (s, w)) _ _ _ _ _
      rw [← hclosings]
      cases hgives with
      | piece hchunk hrest => exact .piece hchunk (.body hrest) rfl
      | nothing hrest => exact .nothing (.body hrest) rfl
      | @fault f _ hrest =>
          -- a fault of the delivery has closed the body already
          cases hdelivery : f.isDelivery with
          | true =>
              simp only [hdelivery, if_true]
              exact .error (Delivery.closings_close s' w')
          | false =>
              simp only [hdelivery, Bool.false_eq_true, if_false]
              exact .error (Delivery.closings_close s' w')

end

end Feed

/-! ## Channels -/

/-- How a stream is read: as it is, or through the body of a reply to a
    request. -/
inductive Channel where
  | direct
  | body (method url : Option Text)

namespace Channel

/-- The feed of a stream. -/
def feed {β : Type} (s : β) : Channel → Feed β
  | direct => .direct s
  | body method url => .body (Body.ofStream (some s) method url)

/-- The error that a fault becomes. -/
def errorOf (f : Fault) : Channel → Error
  | direct => .fault f
  | body method url =>
      if f.isDelivery then .transport f method url else .fault f

variable {β ω : Type} [ByteStream β ω] [Delivery β ω]

/-- Through either channel a feed holds what the stream holds. -/
theorem holds_feed {s : β} {w : ω} {bs : Bytes} {fault : Option Fault}
    (h : Delivery.holds (s, w) bs fault) (ch : Channel) :
    (ch.feed s).Holds w bs (fault.map fun f => ch.errorOf f) := by
  cases ch with
  | direct => exact .direct h
  | body method url => exact .body h

/-- A feed is closed as often as the stream behind it. -/
theorem closings_feed (s : β) (w : ω) (ch : Channel) :
    (ch.feed s).closings w = Delivery.closings (s, w) := by
  cases ch <;> rfl

end Channel

end CouchClient
