import CouchClient.Proofs.Http.Delivery

/-! # Portions — what a body hands out

    A body is read in portions of any size, as a whole, or within a block
    that closes it.  However that is done, and wherever a fault strikes, each
    byte of the stream is handed out once and in its place, and the stream is
    closed once.

    * `StoredStream.read_cases` — what a read of a stream comes to;
    * `Body.Use`, `Body.perform`, `Body.run` — uses of a body;
    * `Body.Ends` — the uses that close it;
    * `Body.HandsOut` — what was handed out is what the stream has given, kept
      by a use (`perform_handsOut`) and by a run (`run_handsOut`);
    * `Body.hands_out_once` — the life of a body. -/

namespace CouchClient

/-! ## Reads of a stream -/

namespace StoredStream

variable (s : StoredStream) (size : Option Nat)

/-- The stream after it was asked for a size and gave the next bytes. -/
def giving (n : Nat) : StoredStream :=
  { s.ask size with
    position := s.position + ((s.content.drop s.position).take n).length }

/-- A stored stream gives a part of what is still to come. -/
theorem take_ask (limit : Option Nat) :
    ∃ n, (s.ask size).take limit
      = ((s.content.drop s.position).take n, s.giving size n) := by
  cases limit with
  | none =>
      -- all that is left is as many bytes as are left
      refine ⟨(s.content.drop s.position).length, ?_⟩
      rw [giving, List.take_length]
      rfl
  | some n => exact ⟨n, rfl⟩

/-- A read meets the fault, once its position is reached, or gives the next
    bytes. -/
theorem read_cases :
    (∃ f after, s.failure = some (f, after) ∧ after ≤ s.position
        ∧ s.read size = (.error f, s.ask size))
      ∨ ∃ n, s.read size
        = (.ok ((s.content.drop s.position).take n), s.giving size n) := by
  rw [read]
  dsimp only
  cases hfailure : (s.ask size).failure with
  | none =>
      obtain ⟨n, hn⟩ := s.take_ask size (least s.limit size)
      exact Or.inr ⟨n, congrArg (fun taken => (Except.ok taken.1, taken.2)) hn⟩
  | some failure =>
      obtain ⟨f, after⟩ := failure
      by_cases hafter : after ≤ s.position
      · exact Or.inl ⟨f, after, hfailure, hafter, if_pos hafter⟩
      · obtain ⟨n, hn⟩ := s.take_ask size
          (least (some (after - s.position)) (least s.limit size))
        exact Or.inr ⟨n, (if_neg hafter).trans
          (congrArg (fun taken => (Except.ok taken.1, taken.2)) hn)⟩

/-- The bytes that are given go on where those before them ended. -/
theorem take_giving (n : Nat) :
    s.content.take (s.giving size n).position
      = s.content.take s.position ++ (s.content.drop s.position).take n := by
  show s.content.take (s.position + ((s.content.drop s.position).take n).length) = _
  rw [List.take_add]
  congr 1
  rw [List.length_take]
  rcases Nat.le_total n (s.content.drop s.position).length with hle | hle
  · rw [Nat.min_eq_left hle]
  · rw [Nat.min_eq_right hle, List.take_length, List.take_of_length_le hle]

/-- A stream does not go beyond its content. -/
theorem position_giving_le (n : Nat) (h : s.position ≤ s.content.length) :
    (s.giving size n).position ≤ s.content.length := by
  show s.position + ((s.content.drop s.position).take n).length ≤ _
  rw [List.length_take, List.length_drop]
  omega

end StoredStream

namespace Body

/-! ## Uses -/

/-- A use of a body. -/
inductive Use where
  /-- Reads so many bytes, or all that are left. -/
  | read (size : Option Int)
  /-- Reads all that is left and closes the body. -/
  | readAll
  /-- Closes the body. -/
  | close
  /-- Reads in a block, at whose end the body is closed. -/
  | readOnce (size : Option Int)

/-- The number of bytes that a number stands for: all, if it is negative or
    there is none. -/
def portionOf : Option Int → Option Nat
  | some (.ofNat n) => some n
  | _ => none

/-- What a use reads, if it reads. -/
def Use.portion? : Use → Option (Option Nat)
  | read size => some (portionOf size)
  | readAll => some none
  | close => none
  | readOnce size => some (portionOf size)

section

variable {β ω : Type} [ByteStream β ω]

/-- The answer to a use, and the body after it. -/
def perform (b : Body β) (w : ω) : Use → Except Error Bytes × Body β × ω
  | .read size => b.readInt size w
  | .readAll => b.readAll w
  | .close => (.ok [], b.close w)
  | .readOnce size => b.readOnce size w

/-- The answers to uses, one after the other, each with its use. -/
def run (b : Body β) (w : ω) :
    List Use → List (Use × Except Error Bytes) × Body β × ω
  | [] => ([], b, w)
  | use :: uses =>
      let (answer, b, w) := b.perform w use
      let (answers, b, w) := b.run w uses
      ((use, answer) :: answers, b, w)

/-- A negative size asks for everything, as none does. -/
theorem readInt_eq (b : Body β) (size : Option Int) (w : ω) :
    b.readInt size w = b.read (portionOf size) w := by
  cases size with
  | none => rfl
  | some n => cases n <;> rfl

end

/-- The uses that close the body of a reply to a request, with their answers:
    all but reads, and of these the ones that a fault of the delivery
    strikes. -/
inductive Ends (method url : Option Text) : Use → Except Error Bytes → Prop
  | struck (size : Option Int) (f : Fault) :
      Ends method url (.read size) (.error (.transport f method url))
  | readAll (answer : Except Error Bytes) : Ends method url .readAll answer
  | close (answer : Except Error Bytes) : Ends method url .close answer
  | exit (size : Option Int) (answer : Except Error Bytes) :
      Ends method url (.readOnce size) answer

/-- A read ends a body just by the error of its delivery. -/
theorem ends_read_iff {method url : Option Text} {size : Option Int}
    {answer : Except Error Bytes} :
    Ends method url (.read size) answer ↔ ∃ f, answer = .error (.transport f method url) := by
  constructor
  · intro h
    cases h with
    | struck _ f => exact ⟨f, rfl⟩
  · rintro ⟨f, rfl⟩
    exact .struck size f

/-! ## Closed bodies -/

section

variable {β ω : Type} [ByteStream β ω] {b : Body β} {w : ω}

theorem close_of_closed (h : b.closed = true) : b.close w = (b, w) := by
  obtain ⟨stream, method, url, closed⟩ := b
  obtain rfl : closed = true := h
  rfl

/-- A closed body has nothing left. -/
theorem read_of_closed (h : b.closed = true) (size : Option Nat) :
    b.read size w = (.ok [], b, w) := by
  obtain ⟨stream, method, url, closed⟩ := b
  obtain rfl : closed = true := h
  rfl

/-- A closed body gives no bytes and stays as it is. -/
theorem perform_of_closed (h : b.closed = true) (use : Use) :
    b.perform w use = (.ok [], b, w) := by
  cases use with
  | read size =>
      show b.readInt size w = _
      rw [readInt_eq, read_of_closed h]
  | readAll =>
      show b.readAll w = _
      rw [readAll, read_of_closed h]
      show (_, b.close w) = _
      rw [close_of_closed h]
  | close =>
      show (_, b.close w) = _
      rw [close_of_closed h]
  | readOnce size =>
      show b.readOnce size w = _
      rw [readOnce, readInt_eq, read_of_closed h]
      show (_, b.close w) = _
      rw [close_of_closed h]

/-- A closed body gives nothing in any number of uses. -/
theorem run_of_closed (h : b.closed = true) (uses : List Use) :
    b.run w uses = (uses.map fun use => (use, .ok []), b, w) := by
  induction uses with
  | nil => rfl
  | cons use uses ih =>
      rw [run, perform_of_closed h]
      dsimp only
      rw [ih]
      rfl

end

/-! ## Open bodies -/

section

variable {s s' : StoredStream} {method url : Option Text}

/-- A read of an open body gives what its stream gives. -/
theorem read_of_ok {size : Option Nat} {chunk : Bytes} (h : s.read size = (.ok chunk, s')) :
    (⟨some s, method, url, false⟩ : Body StoredStream).read size ()
      = (.ok chunk, ⟨some s', method, url, false⟩, ()) := by
  have hread : ByteStream.read s size () = (.ok chunk, s', ()) := by
    show ((s.read size).1, (s.read size).2, ()) = _
    rw [h]
  simp only [Body.read, hread]

/-- A fault of the delivery closes the body, and another one leaves it open. -/
theorem read_of_error {size : Option Nat} {f : Fault} (h : s.read size = (.error f, s')) :
    (⟨some s, method, url, false⟩ : Body StoredStream).read size ()
      = if f.isDelivery then
          (.error (.transport f method url), ⟨some s'.close, method, url, true⟩, ())
        else (.error (.fault f), ⟨some s', method, url, false⟩, ()) := by
  have hread : ByteStream.read s size () = (.error f, s', ()) := by
    show ((s.read size).1, (s.read size).2, ()) = _
    rw [h]
  simp only [Body.read, hread, errorOf]
  cases f.isDelivery with
  | true => rfl
  | false => rfl

end

/-! ## What was handed out -/

/-- The bytes of an answer. -/
def bytesOf (answer : Except Error Bytes) : Bytes := answer.toOption.getD []

/-- The bytes that were handed out, in their order. -/
def handedOut (answers : List (Use × Except Error Bytes)) : Bytes :=
  answers.flatMap fun a => bytesOf a.2

/-- The body is around a stream that started as the given one.  The stream has
    given so much of its content, and was closed if the body is closed. -/
structure HandsOut (start : StoredStream) (method url : Option Text)
    (b : Body StoredStream) (s : StoredStream) (given : Bytes) : Prop where
  around : b = ⟨some s, method, url, b.closed⟩
  content : s.content = start.content
  limit : s.limit = start.limit
  failure : s.failure = start.failure
  given : given = start.content.take s.position
  within : s.position ≤ start.content.length
  closings : s.closes = if b.closed then 1 else 0

section

variable {start s : StoredStream} {method url : Option Text} {b : Body StoredStream}
  {given : Bytes}

/-- A new body has handed out nothing yet. -/
theorem handsOut_ofBytes (content : Bytes) (limit : Option Nat)
    (failure : Option (Fault × Nat)) (method url : Option Text) :
    HandsOut (.ofBytes content limit failure) method url
      (ofStream (some (.ofBytes content limit failure)) method url)
      (.ofBytes content limit failure) [] where
  around := rfl
  content := rfl
  limit := rfl
  failure := rfl
  given := List.take_zero.symm
  within := Nat.zero_le _
  closings := rfl

/-- A body that is closed has been closed once, and gave nothing with that. -/
theorem HandsOut.close (h : HandsOut start method url b s given) :
    (b.close ()).1.closed = true
      ∧ ∃ s', HandsOut start method url (b.close ()).1 s' given := by
  cases hclosed : b.closed with
  | true =>
      rw [close_of_closed hclosed]
      exact ⟨hclosed, s, h⟩
  | false =>
      have hclosings := h.closings
      rw [hclosed, if_neg Bool.false_ne_true] at hclosings
      have hclose : b.close () = (⟨some s.close, method, url, true⟩, ()) := by
        rw [h.around, hclosed]
        rfl
      rw [hclose]
      exact ⟨rfl, s.close, ⟨rfl, h.content, h.limit, h.failure, h.given, h.within,
        congrArg (· + 1) hclosings⟩⟩

/-- A read of an open body gives what its stream gives next, or raises its
    fault.  Only a fault of the delivery closes the body. -/
theorem HandsOut.read (h : HandsOut start method url b s given) (hopen : b.closed = false)
    (size : Option Nat) :
    (b.read size ()).1 = (s.read size).1.mapError (fun f => (Channel.body method url).errorOf f)
      ∧ ((b.read size ()).2.1.closed = true
        ↔ ∃ f, (b.read size ()).1 = .error (.transport f method url))
      ∧ ∃ s', HandsOut start method url (b.read size ()).2.1 s'
        (given ++ bytesOf (b.read size ()).1) := by
  have hclosings := h.closings
  have haround := h.around
  rw [hopen] at hclosings haround
  rw [haround]
  rcases s.read_cases size with ⟨f, after, -, -, hread⟩ | ⟨n, hread⟩
  · rw [hread, read_of_error hread]
    cases hdelivery : f.isDelivery with
    | true =>
        -- the fault closes the body, and with it the stream
        rw [if_pos rfl]
        refine ⟨?_, ⟨fun _ => ⟨f, rfl⟩, fun _ => rfl⟩, (s.ask size).close, rfl, h.content,
          h.limit, h.failure, (List.append_nil _).trans h.given, h.within,
          congrArg (· + 1) hclosings⟩
        show _ = Except.error ((Channel.body method url).errorOf f)
        rw [Channel.errorOf, if_pos hdelivery]
    | false =>
        rw [if_neg Bool.false_ne_true]
        refine ⟨?_, ?_, s.ask size, rfl, h.content, h.limit, h.failure,
          (List.append_nil _).trans h.given, h.within, hclosings⟩
        · show _ = Except.error ((Channel.body method url).errorOf f)
          rw [Channel.errorOf, if_neg (by rw [hdelivery]; exact Bool.false_ne_true)]
        · refine iff_of_false Bool.false_ne_true ?_
          rintro ⟨f', hf'⟩
          cases hf'
  · rw [hread, read_of_ok hread]
    have hcontent : s.content.take (s.giving size n).position = _ := s.take_giving size n
    have hwithin := s.position_giving_le size n (h.content ▸ h.within)
    rw [h.content, ← h.given] at hcontent
    rw [h.content] at hwithin
    refine ⟨rfl, ?_, s.giving size n, rfl, h.content, h.limit, h.failure, ?_, hwithin, hclosings⟩
    · refine iff_of_false Bool.false_ne_true ?_
      rintro ⟨f', hf'⟩
      cases hf'
    · rw [hcontent, h.content]
      rfl

/-- A read in a block ends with the body closed. -/
theorem HandsOut.readAndClose (h : HandsOut start method url b s given)
    (hopen : b.closed = false) (size : Option Nat) :
    ((b.read size ()).2.1.close ()).1.closed = true
      ∧ ∃ s', HandsOut start method url ((b.read size ()).2.1.close ()).1 s'
        (given ++ bytesOf (b.read size ()).1) := by
  obtain ⟨-, -, s', h'⟩ := h.read hopen size
  exact h'.close

/-- What a use of an open body comes to. -/
theorem HandsOut.perform (h : HandsOut start method url b s given) (hopen : b.closed = false)
    (use : Use) :
    (∀ portion, use.portion? = some portion →
        (b.perform () use).1
          = (s.read portion).1.mapError fun f => (Channel.body method url).errorOf f)
      ∧ ((b.perform () use).2.1.closed = true ↔ Ends method url use (b.perform () use).1)
      ∧ ∃ s', HandsOut start method url (b.perform () use).2.1 s'
        (given ++ bytesOf (b.perform () use).1) := by
  cases use with
  | read size =>
      obtain ⟨hanswer, hclosed, hnext⟩ := h.read hopen (portionOf size)
      rw [Body.perform, readInt_eq]
      refine ⟨?_, ?_, hnext⟩
      · intro portion hportion
        cases hportion
        exact hanswer
      · rw [hclosed, ends_read_iff]
  | readAll =>
      obtain ⟨hanswer, -, -⟩ := h.read hopen none
      obtain ⟨hclosed, hnext⟩ := h.readAndClose hopen none
      refine ⟨?_, ⟨fun _ => .readAll _, fun _ => hclosed⟩, hnext⟩
      intro portion hportion
      cases hportion
      exact hanswer
  | close =>
      obtain ⟨hclosed, s', hnext⟩ := h.close
      refine ⟨fun portion hportion => (nomatch hportion), ⟨fun _ => .close _, fun _ => hclosed⟩,
        s', ?_⟩
      show HandsOut start method url (b.close ()).1 s' (given ++ [])
      rwa [List.append_nil]
  | readOnce size =>
      obtain ⟨hanswer, -, -⟩ := h.read hopen (portionOf size)
      obtain ⟨hclosed, hnext⟩ := h.readAndClose hopen (portionOf size)
      rw [Body.perform, readOnce, readInt_eq]
      refine ⟨?_, ⟨fun _ => .exit size _, fun _ => hclosed⟩, hnext⟩
      intro portion hportion
      cases hportion
      exact hanswer

/-! ## Runs -/

/-- What was handed out in a run is what the stream has given. -/
theorem HandsOut.run (h : HandsOut start method url b s given) (uses : List Use) :
    ∃ s', HandsOut start method url (b.run () uses).2.1 s'
      (given ++ handedOut (b.run () uses).1) := by
  induction uses generalizing b s given with
  | nil =>
      refine ⟨s, ?_⟩
      show HandsOut start method url b s (given ++ [])
      rwa [List.append_nil]
  | cons use uses ih =>
      cases hclosed : b.closed with
      | true =>
          obtain ⟨s', hrest⟩ := ih h
          rw [run_of_closed hclosed] at hrest ⊢
          exact ⟨s', hrest⟩
      | false =>
          obtain ⟨-, -, s₁, hstep⟩ := h.perform hclosed use
          obtain ⟨s', hrest⟩ := ih hstep
          rw [List.append_assoc] at hrest
          exact ⟨s', hrest⟩

/-- A body is closed from the first answer on that closes it. -/
theorem HandsOut.closed_run_iff (h : HandsOut start method url b s given)
    (hopen : b.closed = false) (uses : List Use) :
    (b.run () uses).2.1.closed = true
      ↔ ∃ a ∈ (b.run () uses).1, Ends method url a.1 a.2 := by
  induction uses generalizing b s given with
  | nil => simp [Body.run, hopen]
  | cons use uses ih =>
      obtain ⟨-, hends, s₁, hstep⟩ := h.perform hopen use
      show ((b.perform () use).2.1.run () uses).2.1.closed = true
        ↔ ∃ a ∈ (use, (b.perform () use).1) :: ((b.perform () use).2.1.run () uses).1, _
      simp only [List.mem_cons, exists_eq_or_imp]
      cases hclosed : (b.perform () use).2.1.closed with
      | true =>
          rw [run_of_closed hclosed]
          exact ⟨fun _ => Or.inl (hends.mp hclosed), fun _ => hclosed⟩
      | false =>
          rw [ih hstep hclosed]
          refine ⟨Or.inr, fun hany => hany.resolve_left fun hfirst => ?_⟩
          exact Bool.false_ne_true (hclosed.symm.trans (hends.mpr hfirst))

/-- What is raised is the fault of the stream. -/
theorem HandsOut.error_of_perform (h : HandsOut start method url b s given) {use : Use}
    {e : Error} (he : (b.perform () use).1 = .error e) :
    ∃ f after, start.failure = some (f, after)
      ∧ e = if f.isDelivery then .transport f method url else .fault f := by
  cases hclosed : b.closed with
  | true =>
      rw [perform_of_closed hclosed] at he
      cases he
  | false =>
      obtain ⟨hanswer, -, -⟩ := h.perform hclosed use
      cases hportion : use.portion? with
      | none =>
          cases use with
          | close => cases he
          | read | readAll | readOnce => cases hportion
      | some portion =>
          rw [hanswer portion hportion] at he
          rcases s.read_cases portion with ⟨f, after, hfailure, -, hread⟩ | ⟨n, hread⟩
          · rw [hread] at he
            cases he
            exact ⟨f, after, h.failure ▸ hfailure, rfl⟩
          · rw [hread] at he
            cases he

/-- The only error of a run is the fault of the stream, as a delivery where it
    is one. -/
theorem HandsOut.error_of_run (h : HandsOut start method url b s given) (uses : List Use) :
    ∀ a ∈ (b.run () uses).1, ∀ e, a.2 = .error e → ∃ f after,
      start.failure = some (f, after)
        ∧ e = if f.isDelivery then .transport f method url else .fault f := by
  induction uses generalizing b s given with
  | nil => intro a ha; cases ha
  | cons use uses ih =>
      intro a ha e he
      cases hclosed : b.closed with
      | true =>
          rw [run_of_closed hclosed] at ha
          obtain ⟨use', -, rfl⟩ := List.mem_map.mp ha
          cases he
      | false =>
          rcases List.mem_cons.mp ha with rfl | ha
          · exact h.error_of_perform he
          · obtain ⟨-, -, s', hstep⟩ := h.perform hclosed use
            exact ih hstep a ha e he

/-- **A body hands out each byte once.**  Whatever its stream holds, however
    little a single read gives, and wherever which fault strikes, after any
    uses the bytes that were handed out are the beginning of the stream that
    was consumed, and the stream was closed once if the body is closed and not
    at all otherwise.  The body is closed from the first use on that closes it.
    While it is open it answers as its stream does, but that a fault of the
    delivery is raised with the request.  Once it is closed it gives nothing
    and consumes nothing, as a body without a stream does from the start. -/
theorem hands_out_once (content : Bytes) (limit : Option Nat)
    (failure : Option (Fault × Nat)) (method url : Option Text) (uses : List Use) :
    let start := StoredStream.ofBytes content limit failure
    let answers := ((ofStream (some start) method url).run () uses).1
    let b := ((ofStream (some start) method url).run () uses).2.1
    (∃ s, HandsOut start method url b s (handedOut answers)
        ∧ (b.closed = false → ∀ use portion, use.portion? = some portion →
          (b.perform () use).1
            = (s.read portion).1.mapError fun f => (Channel.body method url).errorOf f))
      ∧ (b.closed = true ↔ ∃ a ∈ answers, Ends method url a.1 a.2)
      ∧ (∀ a ∈ answers, ∀ e, a.2 = .error e → ∃ f after, failure = some (f, after)
        ∧ e = if f.isDelivery then .transport f method url else .fault f)
      ∧ (b.closed = true → ∀ later,
        b.run () later = (later.map fun use => (use, .ok []), b, ()))
      ∧ (ofStream none method url : Body StoredStream).closed = true
      ∧ (ofStream none method url : Body StoredStream).run () uses
        = (uses.map fun use => (use, .ok []), ofStream none method url, ()) := by
  intro start answers b
  have hstart : HandsOut start method url (ofStream (some start) method url) start [] :=
    handsOut_ofBytes content limit failure method url
  obtain ⟨s, hrun⟩ := hstart.run uses
  refine ⟨⟨s, hrun, ?_⟩, hstart.closed_run_iff rfl uses, hstart.error_of_run uses,
    fun hclosed later => run_of_closed hclosed later, rfl, run_of_closed rfl uses⟩
  intro hopen use portion hportion
  exact (hrun.perform hopen use).1 portion hportion

/-- The connection is reset within a body that gives two bytes at a time: the
    read of all that is left raises the error, and the body is closed by it. -/
theorem hands_out_once_of_reset :
    let reset : Fault := .failure ⟨⟨text "ConnectionResetError", true⟩, text "reset"⟩
    let start := StoredStream.ofBytes [1, 2, 3] (some 2) (some (reset, 2))
    let run := (ofStream (some start) (some (text "GET")) (some (text "/a"))).run ()
      [.read (some 1), .read none, .readAll]
    handedOut run.1 = [1, 2] ∧ run.2.1.closed = true
      ∧ (∃ s, run.2.1.stream = some s ∧ s.closes = 1 ∧ s.position ≤ 3)
      ∧ (∃ a ∈ run.1, Ends (some (text "GET")) (some (text "/a")) a.1 a.2)
      ∧ run.2.1.run () [.read none, .close]
        = ([(.read none, .ok []), (.close, .ok [])], run.2.1, ()) := by
  intro reset start run
  have hclosed : run.2.1.closed = true := rfl
  obtain ⟨⟨s, hhands, -⟩, hends, -, hlater, -⟩ :=
    hands_out_once [1, 2, 3] (some 2) (some (reset, 2)) (some (text "GET")) (some (text "/a"))
      [.read (some 1), .read none, .readAll]
  refine ⟨rfl, hclosed, ⟨s, ?_, ?_, hhands.within⟩, hends.mp hclosed, hlater hclosed _⟩
  · exact congrArg Body.stream hhands.around
  · exact hhands.closings.trans (if_pos hclosed)

end

end Body

end CouchClient
