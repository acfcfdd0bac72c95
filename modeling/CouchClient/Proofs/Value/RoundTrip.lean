import CouchClient.Http.Response
import CouchClient.Proofs.Entries
import CouchClient.Proofs.Json.Limits
import CouchClient.Proofs.Json.Quoted
import CouchClient.Proofs.Text.Pieces
import CouchClient.Proofs.Text.Utf8
import CouchClient.Proofs.Value.Limits

/-! # Round trips — values that are sent and received

    A value of the kinds that JSON has is written as a text that is read as
    the value again.  A tuple is received as a list, and an object that has a
    form as its form.  What is written within the limits can be read within
    them, as nothing stands deeper in the text than in the value.

    * `Value.IsPlain`, `Value.received` — the values of these kinds, and what
      is received for them;
    * `Json.Stands` — a text stands for a JSON value, inside so many others;
    * `Json.stands_bracketed`, `Json.stands_braced` — containers;
    * `Value.exists_stands` — every plain value has such a text;
    * `Value.received_of_encode` — it is sent and received;
    * `Value.exists_unsendable` — one that is too deep is not. -/

namespace CouchClient

/-! ## Plain values -/

namespace Value

/-- A key that is a text without a pair of surrogates. -/
def IsPlainKey : Value → Prop
  | .str t => t.IsUnpaired
  | _ => False

mutual

/-- A value that JSON has a text for: there are no numbers in it but whole
    ones, no pairs of surrogates, no keys but texts, and nothing of another
    kind. -/
def IsPlain : Value → Prop
  | .null => True
  | .bool _ => True
  | .int _ => True
  | .str t => t.IsUnpaired
  | .list items => ArePlain items
  | .tuple items => ArePlain items
  | .mapping entries => HavePlain entries ∧ (entries.map Prod.fst).Nodup
  | .moment _ => True
  | .formed _ form => IsPlain form
  | _ => False

/-- Every value is plain. -/
def ArePlain : List Value → Prop
  | [] => True
  | v :: rest => v.IsPlain ∧ ArePlain rest

/-- Every entry has a plain key and a plain value. -/
def HavePlain : List (Value × Value) → Prop
  | [] => True
  | (k, v) :: rest => k.IsPlainKey ∧ v.IsPlain ∧ HavePlain rest

end

mutual

/-- What is received for a value: a list for each tuple, and for each object
    what is received for its form. -/
def received : Value → Value
  | .list items => .list (receivedAll items)
  | .tuple items => .list (receivedAll items)
  | .mapping entries => .mapping (receivedEntries entries)
  | .moment m => .str m.iso
  | .formed _ form => received form
  | v => v

/-- What is received for each of several values. -/
def receivedAll : List Value → List Value
  | [] => []
  | v :: rest => v.received :: receivedAll rest

/-- What is received for entries, in their order. -/
def receivedEntries : List (Value × Value) → List (Value × Value)
  | [] => []
  | (k, v) :: rest => (k, v.received) :: receivedEntries rest

end

end Value

/-! ## Texts that stand for values -/

namespace Json

/-- A text stands for a value: it is printable, and inside of at most so many
    containers it is read as the value. -/
structure Stands [L : Limits] (depth : Nat) (t : Text) (j : Json) : Prop where
  printable : ∀ c ∈ t, isPrintable c
  reads : ∀ (stack : List Frame) (rest : Text), stack.length ≤ depth →
    IsBehind rest → run stack .value (t ++ rest) = run stack (.after j) rest

section
variable [L : Limits] {depth : Nat} {t : Text} {j : Json}

/-- What can be read at a depth can be read above it. -/
theorem Stands.mono {depth' : Nat} (h : Stands depth t j)
    (hle : depth' ≤ depth) : Stands depth' t j where
  printable := h.printable
  reads stack rest hstack := h.reads stack rest (Nat.le_trans hstack hle)

/-- What stands for a value is read as that value. -/
theorem Stands.parse_eq (h : Stands depth t j) {rest : Text}
    (hrest : IsBehind rest) : parse (t ++ rest) = .ok (j, rest) :=
  (h.reads [] rest (Nat.zero_le depth) hrest).trans run_nil

/-- What stands in a container is not preceded by blanks. -/
theorem Stands.skipBlanks_eq (h : Stands depth t j) {rest : Text}
    (hrest : IsBehind rest) : skipBlanks (t ++ rest) = t ++ rest :=
  skipBlanks_of_parse (h.parse_eq hrest)

/-- A word stands for its value. -/
theorem stands_word {word : String} (hmem : (text word, j) ∈ words)
    (h : word.toList.all fun c => isPrintable (.char c))
    (hfits : j.excess? = none) : Stands depth (text word) j := by
  refine ⟨isPrintable_text h, ?_⟩
  intro stack rest _ _
  have hword : readWord? (text word ++ rest) = some (j, rest) :=
    readWord?_eq_some_iff.mpr ⟨_, hmem, rfl, rfl⟩
  have hscalar : readScalar? (text word ++ rest) = some (j, rest) := by
    rw [readScalar?, hword]
  exact run_scalar (readScalar_eq_ok_iff.mpr ⟨hscalar, hfits⟩)

/-- A written integer stands for it, unless it is too long. -/
theorem stands_ofInt {n : Int} (hfits : Limits.excess? n = none) :
    Stands depth (Text.ofInt n) (.int n) := by
  refine ⟨fun c hc => isPrintable_of_mem_ofInt hc, ?_⟩
  intro stack rest _ hrest
  exact run_scalar (readScalar_eq_ok_iff.mpr ⟨readScalar?_ofInt n hrest, hfits⟩)

/-- A quoted text stands for it, where no two surrogates meet as a pair. -/
theorem stands_quote {t : Text} (h : t.IsUnpaired) :
    Stands depth (quote t) (.str t) := by
  refine ⟨fun c hc => isPrintable_of_mem_quote hc, ?_⟩
  intro stack rest _ _
  rw [quote, List.append_assoc]
  exact run_string (readString_quote h rest)

end

/-! ## Parts with commas between them -/

/-- A comma and the closing signs may stand behind a value. -/
theorem isBehind_cons {c : CodePoint}
    (h : c = .char ',' ∨ c = .char ']' ∨ c = .char '}') (rest : Text) :
    IsBehind (c :: rest) := by
  intro c' hc'
  cases hc'
  exact h

/-- What is printable in all its pieces, and in the sign between them, is
    printable. -/
theorem isPrintable_of_mem_join {parts : List Text} {c : CodePoint}
    (h : ∀ part ∈ parts, ∀ c ∈ part, isPrintable c)
    (hc : c ∈ Text.join [.char ','] parts) : isPrintable c := by
  obtain rfl | ⟨part, hpart, hc⟩ := Text.mem_join hc
  · rfl
  · exact h part hpart c hc

/-- What follows the first part in a container: the other parts, each behind a
    comma, and the sign that closes the container. -/
def closing (sign : CodePoint) (rest : Text) : List Text → Text
  | [] => sign :: rest
  | part :: parts => .char ',' :: (part ++ closing sign rest parts)

/-- Joined parts with a closing sign are the first part with the rest behind it. -/
theorem join_append_closing (sign : CodePoint) (rest part : Text)
    (parts : List Text) :
    Text.join [.char ','] (part :: parts) ++ sign :: rest
      = part ++ closing sign rest parts := by
  induction parts generalizing part with
  | nil => rw [Text.join_singleton, closing]
  | cons next parts ih =>
      rw [Text.join_cons_cons, List.append_assoc, List.cons_append, ih]
      rfl

/-- What closes a part may stand behind a value. -/
theorem isBehind_closing {sign : CodePoint}
    (h : sign = .char ']' ∨ sign = .char '}') (rest : Text)
    (parts : List Text) : IsBehind (closing sign rest parts) := by
  cases parts with
  | nil => exact isBehind_cons (.inr h) rest
  | cons part parts => exact isBehind_cons (.inl rfl) _

/-! ## Arrays -/

section
variable [L : Limits] {depth : Nat} {stack : List Frame}
  {items : List (Text × Json)}

/-- The elements are read one after the other, and then the array is there. -/
theorem run_elements (hdepth : stack.length < depth) {p : Text × Json}
    (hp : Stands depth p.1 p.2) (h : ∀ p ∈ items, Stands depth p.1 p.2)
    (done : List Json) (rest : Text) :
    run (.array done :: stack) .value
        (p.1 ++ closing (.char ']') rest (items.map Prod.fst))
      = run stack
          (.after (.arr (done.reverse ++ p.2 :: items.map Prod.snd))) rest := by
  have hread := hp.reads (.array done :: stack) _ hdepth
    (isBehind_closing (.inl rfl) rest (items.map Prod.fst))
  rw [hread]
  induction items generalizing p done with
  | nil =>
      rw [List.map_nil, closing, run_arrayEnd rfl, List.reverse_cons]
      rfl
  | cons q items ih =>
      obtain ⟨hq, hitems⟩ := List.forall_mem_cons.mp h
      have hbehind := isBehind_closing (.inl rfl) rest (items.map Prod.fst)
      have hnext := hq.reads (.array (p.2 :: done) :: stack) _ hdepth hbehind
      rw [List.map_cons, closing, run_arrayNext rfl, hq.skipBlanks_eq hbehind,
        hnext, ih hq hitems (p.2 :: done) hnext, List.reverse_cons,
        List.append_assoc]
      rfl

/-- The texts of elements, in brackets, stand for an array. -/
theorem stands_bracketed (hroom : ¬ Limits.isFull depth)
    (h : ∀ p ∈ items, Stands (depth + 1) p.1 p.2) :
    Stands depth (bracketed (items.map Prod.fst))
      (.arr (items.map Prod.snd)) := by
  constructor
  · intro c hc
    simp only [bracketed, List.cons_append, List.mem_cons, List.mem_append,
      List.not_mem_nil, or_false] at hc
    obtain rfl | hc | rfl := hc
    · rfl
    · refine isPrintable_of_mem_join ?_ hc
      intro part hpart
      obtain ⟨p, hp, rfl⟩ := List.mem_map.mp hpart
      exact (h p hp).printable
    · rfl
  · intro stack rest hstack _
    have hroom' : ¬ Limits.isFull stack.length := fun hfull =>
      hroom (Limits.isFull_of_le hfull hstack)
    rw [bracketed, List.append_assoc, List.cons_append, List.singleton_append]
    cases items with
    | nil => exact run_emptyArray hroom' rfl
    | cons p items =>
        obtain ⟨hp, hitems⟩ := List.forall_mem_cons.mp h
        rw [List.map_cons, join_append_closing]
        have hbehind := isBehind_closing (.inl rfl) rest (items.map Prod.fst)
        have hblanks := hp.skipBlanks_eq hbehind
        have hopen : ∀ r, skipBlanks (p.1 ++ closing (.char ']') rest
            (items.map Prod.fst)) ≠ .char ']' :: r := by
          intro r hr
          have hparse := hp.parse_eq hbehind
          rw [← hblanks, hr] at hparse
          exact ne_bracket_of_parse hparse rfl
        rw [run_array hroom' hopen, hblanks,
          run_elements (Nat.lt_succ_of_le hstack) hp hitems [] rest]
        rfl

end

/-! ## Objects -/

/-- A member of an object, with the text of its value. -/
structure Member where
  name : Text
  raw : Text
  value : Json

namespace Member

/-- The text of a member. -/
def written (m : Member) : Text := quote m.name ++ .char ':' :: m.raw

/-- The entry that a member makes. -/
def entry (m : Member) : Text × Json := (m.name, m.value)

/-- The text of a member is read as the member. -/
structure IsRead [L : Limits] (depth : Nat) (m : Member) : Prop where
  name : m.name.IsUnpaired
  value : Stands depth m.raw m.value

variable [L : Limits] {depth : Nat} {m : Member}

/-- The name of a written member is read, up to its value. -/
theorem IsRead.readName (h : m.IsRead depth) {rest : Text}
    (hrest : IsBehind rest) :
    readName (skipBlanks (m.written ++ rest)) = .ok (m.name, m.raw ++ rest) := by
  refine readName_eq_ok_iff.mpr ⟨m.name.flatMap escape ++ .char '"' :: .char ':'
    :: (m.raw ++ rest), _, m.raw ++ rest, ?_, readString_quote h.name _, rfl, ?_⟩
  · simp [written, quote, skipBlanks, isBlank]
  · exact (h.value.skipBlanks_eq hrest).symm

/-- A written member is printable. -/
theorem IsRead.printable (h : m.IsRead depth) :
    ∀ c ∈ m.written, isPrintable c := by
  intro c hc
  obtain hc | hc := List.mem_append.mp hc
  · exact isPrintable_of_mem_quote hc
  obtain rfl | hc := List.mem_cons.mp hc
  · rfl
  · exact h.value.printable c hc

end Member

section
variable [L : Limits] {depth : Nat} {stack : List Frame} {members : List Member}

/-- The members are read one after the other, and then the object is there. -/
theorem run_members (hdepth : stack.length < depth) {m : Member}
    (hm : m.IsRead depth) (h : ∀ m ∈ members, m.IsRead depth)
    (done : List (Text × Json)) (rest : Text) :
    run (.object done m.name :: stack) .value
        (m.raw ++ closing (.char '}') rest (members.map Member.written))
      = run stack (.after (.obj (Entries.ofList
          (done.reverse ++ m.entry :: members.map Member.entry)))) rest := by
  have hread := hm.value.reads (.object done m.name :: stack) _ hdepth
    (isBehind_closing (.inr rfl) rest (members.map Member.written))
  rw [hread]
  induction members generalizing m done with
  | nil =>
      rw [List.map_nil, closing, run_objectEnd rfl, List.reverse_cons]
      rfl
  | cons n members ih =>
      obtain ⟨hn, hmembers⟩ := List.forall_mem_cons.mp h
      have hbehind :=
        isBehind_closing (.inr rfl) rest (members.map Member.written)
      have hnext := hn.value.reads (.object (m.entry :: done) n.name :: stack) _
        hdepth hbehind
      rw [List.map_cons, closing, run_objectNext rfl (hn.readName hbehind)]
      refine hnext.trans ((ih hn hmembers (m.entry :: done) hnext).trans ?_)
      rw [List.reverse_cons, List.append_assoc]
      rfl

/-- The texts of members with different names, in braces, stand for an
    object. -/
theorem stands_braced (hroom : ¬ Limits.isFull depth)
    (h : ∀ m ∈ members, m.IsRead (depth + 1))
    (hnodup : (members.map Member.name).Nodup) :
    Stands depth (braced (members.map Member.written))
      (.obj (members.map Member.entry)) := by
  constructor
  · intro c hc
    simp only [braced, List.cons_append, List.mem_cons, List.mem_append,
      List.not_mem_nil, or_false] at hc
    obtain rfl | hc | rfl := hc
    · rfl
    · refine isPrintable_of_mem_join ?_ hc
      intro part hpart
      obtain ⟨m, hm, rfl⟩ := List.mem_map.mp hpart
      exact (h m hm).printable
    · rfl
  · intro stack rest hstack _
    have hroom' : ¬ Limits.isFull stack.length := fun hfull =>
      hroom (Limits.isFull_of_le hfull hstack)
    have hnames : ((members.map Member.entry).map Prod.fst).Nodup := by
      rw [List.map_map]
      exact hnodup
    rw [← Entries.ofList_of_nodup hnames, braced, List.append_assoc,
      List.cons_append, List.singleton_append]
    cases members with
    | nil => exact run_emptyObject hroom' rfl
    | cons m members =>
        obtain ⟨hm, hmembers⟩ := List.forall_mem_cons.mp h
        have hbehind :=
          isBehind_closing (.inr rfl) rest (members.map Member.written)
        rw [List.map_cons, join_append_closing,
          run_object hroom' (hm.readName hbehind),
          run_members (Nat.lt_succ_of_le hstack) hm hmembers [] rest]
        rfl

end

end Json

/-! ## Moments -/

/-- Where there are no surrogates, there are no pairs of them. -/
theorem Text.isUnpaired_of_isWellFormed {t : Text} (h : t.isWellFormed) :
    t.IsUnpaired := by
  induction t with
  | nil => exact .nil
  | cons c t ih =>
      rw [isWellFormed, List.all_cons, Bool.and_eq_true] at h
      cases t with
      | nil => exact .singleton c
      | cons d t =>
          refine List.isChain_cons_cons.mpr ⟨?_, ih h.2⟩
          intro hc
          cases c with
          | char c => cases hc
          | surrogate s => cases h.1

theorem Text.isWellFormed_ofNatPadded (width n : Nat) :
    (ofNatPadded width n).isWellFormed := by
  simp [ofNatPadded, isWellFormed, ofNat, ofChars, CodePoint.isSurrogate]

/-- A character between texts without surrogates brings none. -/
theorem Text.isWellFormed_between {t u : Text} (c : Char) (ht : t.isWellFormed)
    (hu : u.isWellFormed) : (t ++ .char c :: u).isWellFormed :=
  Utf8.isWellFormed_append.mpr ⟨ht, hu⟩

/-- A moment is written in digits and signs. -/
theorem Moment.isWellFormed_iso (m : Moment) : m.iso.isWellFormed := by
  have hpadded := Text.isWellFormed_ofNatPadded
  have hday (d : Day) : d.iso.isWellFormed :=
    Text.isWellFormed_between '-'
      (Text.isWellFormed_between '-' (hpadded 4 d.year) (hpadded 2 d.month))
      (hpadded 2 d.day)
  have hclock (c : Clock) : c.iso.isWellFormed := by
    refine Utf8.isWellFormed_append.mpr ⟨?_, ?_⟩
    · exact Text.isWellFormed_between ':'
        (Text.isWellFormed_between ':' (hpadded 2 c.hour) (hpadded 2 c.minute))
        (hpadded 2 c.second)
    · split
      · rfl
      · exact hpadded 6 c.microsecond
  cases m with
  | date d => exact hday d
  | dateTime d c => exact Text.isWellFormed_between 'T' (hday d) (hclock c)
  | time c => exact hclock c

/-! ## Every plain value -/

namespace Value

mutual

/-- A plain value has a text, which stands for what is received. -/
theorem exists_stands [L : Limits] (v : Value) {depth : Nat} (h : v.IsPlain)
    (hwithin : v.IsWithin depth) :
    ∃ t j, v.encodeAt depth = .ok t ∧ Json.Stands depth t j
      ∧ j.toValue = v.received := by
  cases v with
  | null =>
      exact ⟨_, .null, rfl,
        Json.stands_word (by simp [Json.words]) (by decide) rfl, rfl⟩
  | bool b =>
      refine ⟨_, .bool b, rfl, ?_, rfl⟩
      cases b with
      | false => exact Json.stands_word (by simp [Json.words]) (by decide) rfl
      | true => exact Json.stands_word (by simp [Json.words]) (by decide) rfl
  | int n =>
      exact ⟨_, .int n, encodeInt_of_fits hwithin, Json.stands_ofInt hwithin, rfl⟩
  | str t => exact ⟨_, .str t, rfl, Json.stands_quote h, rfl⟩
  | list items =>
      obtain ⟨parts, hencode, hstands, hvalues⟩ :=
        exists_stands_all items h hwithin.2
      refine ⟨_, _, ?_, Json.stands_bracketed hwithin.1 hstands, ?_⟩
      · rw [encodeAt, inside_of_room hwithin.1, hencode]
        rfl
      · rw [Json.toValue, hvalues, received]
  | tuple items =>
      obtain ⟨parts, hencode, hstands, hvalues⟩ :=
        exists_stands_all items h hwithin.2
      refine ⟨_, _, ?_, Json.stands_bracketed hwithin.1 hstands, ?_⟩
      · rw [encodeAt, inside_of_room hwithin.1, hencode]
        rfl
      · rw [Json.toValue, hvalues, received]
  | mapping entries =>
      obtain ⟨members, hencode, hread, hentries, hkeys⟩ :=
        exists_isRead_all entries h.1 hwithin.2
      -- different keys have different names, as they are all texts
      have hnodup : (members.map Json.Member.name).Nodup := by
        have hkeysNodup := h.2
        rw [hkeys, ← Function.comp_def, ← List.map_map] at hkeysNodup
        exact hkeysNodup.of_map _
      refine ⟨_, _, ?_, Json.stands_braced hwithin.1 hread hnodup, ?_⟩
      · rw [encodeAt, inside_of_room hwithin.1, hencode]
        rfl
      · rw [Json.toValue, hentries, received]
  | moment m =>
      have hunpaired := Text.isUnpaired_of_isWellFormed m.isWellFormed_iso
      refine ⟨_, .str m.iso, ?_, Json.stands_quote hunpaired, rfl⟩
      rw [encodeAt, inside_of_room hwithin]
  | formed name form =>
      obtain ⟨t, j, hencode, hstands, hvalue⟩ := exists_stands form h hwithin.2
      refine ⟨t, j, ?_, hstands.mono (Nat.le_succ depth), ?_⟩
      · rw [encodeAt, inside_of_room hwithin.1, hencode]
      · rw [received, hvalue]
  | _ => cases h

/-- The texts of several plain values stand for what is received for each. -/
theorem exists_stands_all [L : Limits] (items : List Value) {depth : Nat}
    (h : ArePlain items) (hwithin : AreWithin depth items) :
    ∃ parts : List (Text × Json), encodeAll depth items = .ok (parts.map Prod.fst)
      ∧ (∀ p ∈ parts, Json.Stands depth p.1 p.2)
      ∧ Json.toValues (parts.map Prod.snd) = receivedAll items := by
  cases items with
  | nil => exact ⟨[], rfl, by simp, rfl⟩
  | cons v rest =>
      obtain ⟨t, j, hencode, hstands, hvalue⟩ := exists_stands v h.1 hwithin.1
      obtain ⟨parts, hencodeAll, hstandsAll, hvalues⟩ :=
        exists_stands_all rest h.2 hwithin.2
      refine ⟨(t, j) :: parts, ?_, ?_, ?_⟩
      · rw [encodeAll, hencode, hencodeAll]
        rfl
      · exact List.forall_mem_cons.mpr ⟨hstands, hstandsAll⟩
      · rw [List.map_cons, Json.toValues, hvalues, hvalue, receivedAll]

/-- The entries of a mapping with plain keys are written as members. -/
theorem exists_isRead_all [L : Limits] (entries : List (Value × Value))
    {depth : Nat} (h : HavePlain entries) (hwithin : HaveWithin depth entries) :
    ∃ members : List Json.Member,
      encodeEntries depth entries = .ok (members.map Json.Member.written)
        ∧ (∀ m ∈ members, m.IsRead depth)
        ∧ Json.toEntries (members.map Json.Member.entry) = receivedEntries entries
        ∧ entries.map Prod.fst = members.map fun m => Value.str m.name := by
  cases entries with
  | nil => exact ⟨[], rfl, by simp, rfl, rfl⟩
  | cons entry rest =>
      obtain ⟨k, v⟩ := entry
      obtain ⟨hkey, hplain, hrest⟩ := h
      obtain ⟨t, j, hencode, hstands, hvalue⟩ :=
        exists_stands v hplain hwithin.2.1
      obtain ⟨members, hencodeAll, hread, hentries, hkeys⟩ :=
        exists_isRead_all rest hrest hwithin.2.2
      cases k with
      | str name =>
          refine ⟨⟨name, t, j⟩ :: members, ?_, ?_, ?_, ?_⟩
          · rw [encodeEntries, keyName, hencode, hencodeAll]
            rfl
          · exact List.forall_mem_cons.mpr ⟨⟨hkey, hstands⟩, hread⟩
          · rw [List.map_cons, Json.Member.entry, Json.toEntries, hentries,
              hvalue, receivedEntries]
          · rw [List.map_cons, hkeys]
            rfl
      | _ => cases hkey

end

/-! ## Sending and receiving -/

/-- Printable text has no surrogates. -/
theorem isWellFormed_of_isPrintable {t : Text} (h : ∀ c ∈ t, Json.isPrintable c) :
    t.isWellFormed := by
  refine List.all_eq_true.mpr ?_
  intro c hc
  have hprintable := of_decide_eq_true (h c hc)
  cases c with
  | char c => rfl
  | surrogate s =>
      have hlow : 0xD800 ≤ 0xD800 + s.offset.val := Nat.le_add_right _ _
      exact absurd (Nat.le_trans hlow hprintable.2) (by decide)

/-- The bytes of printable text are its signs. -/
theorem isPrintable_of_mem_bytes {t : Text} {b : UInt8}
    (h : ∀ c ∈ t, Json.isPrintable c) (hb : b ∈ Utf8.bytes t) :
    32 ≤ b.toNat ∧ b.toNat ≤ 126 := by
  obtain ⟨c, hc, hb⟩ := List.mem_flatMap.mp hb
  have hprintable := of_decide_eq_true (h c hc)
  rw [Utf8.bytesOfNat, if_pos (by omega)] at hb
  rw [List.mem_singleton.mp hb, UInt8.toNat_ofNat_of_lt' (show c.toNat < 256 by omega)]
  exact hprintable

/-- **Round trip**: a plain value within the limits is sent as printable
    ASCII, which is read as what is received for it. -/
theorem received_of_encode [L : Limits] (v : Value) (h : v.IsPlain)
    (hwithin : v.IsWithin 0) :
    ∃ t bs j, v.encode = .ok t ∧ v.encodeBytes = .ok bs
      ∧ (∀ b ∈ bs, 32 ≤ b.toNat ∧ b.toNat ≤ 126)
      ∧ Utf8.read bs = .ok t
      ∧ Json.decode t = .ok j ∧ j.toValue = v.received := by
  obtain ⟨t, j, hat, hstands, hvalue⟩ := exists_stands v h hwithin
  have hencode : v.encode = .ok t := hat
  have hbytes : v.encodeBytes = .ok (Utf8.bytes t) := by
    rw [encodeBytes, hencode]
    rfl
  have hread : Utf8.read (Utf8.bytes t) = .ok t :=
    Utf8.read_eq_ok_iff.mpr ⟨isWellFormed_of_isPrintable hstands.printable, rfl⟩
  have hparse : Json.parse t = .ok (j, []) := by
    have hnil : Json.IsBehind [] := by
      intro c hc
      cases hc
    have hreads := hstands.parse_eq hnil
    rwa [List.append_nil] at hreads
  have hdecode : Json.decode t = .ok j := by
    rw [Json.decode, Json.skipBlanks_of_parse hparse, hparse]
    rfl
  refine ⟨t, _, j, hencode, hbytes, ?_, hread, hdecode, hvalue⟩
  intro b hb
  exact isPrintable_of_mem_bytes hstands.printable hb

/-- A mapping of values of all the kinds, with a lone surrogate, a character
    beyond U+FFFF and an object whose form has a form. -/
theorem received_of_encode_of_nested :
    let lone : CodePoint := .surrogate ⟨⟨5, by decide⟩⟩
    let v : Value := .mapping [
      (.str (text "a\"\n\x7f"), .tuple [.null, .bool true, .int (-120), .list []]),
      (.str [lone, .char '😀'], .formed (text "Span") (.tuple [
        .moment (.date ⟨2024, 2, 29⟩), .formed (text "Tag") (.str [lone])])),
      (.str [], .mapping [])]
    let w : Value := .mapping [
      (.str (text "a\"\n\x7f"), .list [.null, .bool true, .int (-120), .list []]),
      (.str [lone, .char '😀'], .list [.str (text "2024-02-29"), .str [lone]]),
      (.str [], .mapping [])]
    v.IsPlain ∧ v.IsWithin 0 ∧ v.received = w
      ∧ ∃ t bs j, v.encode = .ok t ∧ v.encodeBytes = .ok bs
        ∧ (∀ b ∈ bs, 32 ≤ b.toNat ∧ b.toNat ≤ 126)
        ∧ Utf8.read bs = .ok t ∧ Json.decode t = .ok j ∧ j.toValue = w := by
  intro lone v w
  have hplain : v.IsPlain := by
    simp [v, IsPlain, HavePlain, ArePlain, IsPlainKey, Text.IsUnpaired, lone, text,
      CodePoint.isHigh, CodePoint.isLow]
  have hwithin : v.IsWithin 0 := by
    have hfits : Limits.excess? (-120) = none := by decide
    have hroom (depth : Nat) (h : depth < 9997) : Limits.isFull depth = false :=
      decide_eq_false (Nat.not_le_of_lt h)
    simp [v, IsWithin, HaveWithin, AreWithin, FitsAsKey, hroom, hfits]
  have hreceived : v.received = w := rfl
  refine ⟨hplain, hwithin, hreceived, ?_⟩
  rw [← hreceived]
  exact received_of_encode v hplain hwithin

/-- Lists inside one another are plain, however many. -/
theorem isPlain_nested (n : Nat) : (nested n .null).IsPlain := by
  induction n with
  | zero => trivial
  | succ n ih => exact ⟨ih, trivial⟩

/-- A plain value that is too deep has no text. -/
theorem exists_unsendable :
    ∃ v : Value, v.IsPlain ∧ v.encode = .error .tooDeep := by
  have hfull : Limits.isFull 99999 := by decide
  exact ⟨nested 100000 .null, isPlain_nested 100000, encode_nested .null hfull⟩

end Value

end CouchClient
