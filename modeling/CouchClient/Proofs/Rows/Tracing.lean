import CouchClient.Proofs.Rows.Lifetime

/-! # Traces — values and rows in the order in which they are met

    To find its next row, a row stream decodes names and values one after the
    other.  A trace lists the values that are decoded and the rows that are
    given, each with what is read from at that moment.

    * `Scanner.decodings` — the values that are decoded on the way to the next
      row, case by case as `Scanner.next` goes on;
    * `RowStream.trace` — the values and the rows of all that is still to come;
    * `rowsOf_trace` — its rows are the rows that are given;
    * `longest` — the length of the longest value of a trace. -/

namespace CouchClient

/-- A value that is decoded: its text, and what is read from before and after
    that.  By the time before, its first sign was found. -/
structure Decoding (β : Type) where
  raw : Text
  before : Feed β
  after : Feed β

/-- The number of bytes of the value. -/
def Decoding.length {β : Type} (d : Decoding β) : Nat := (Utf8.bytes d.raw).length

/-- What is met while a listing is read: a value that is decoded, or a row that
    is given, with what is read from after that. -/
inductive Occurrence (β : Type) where
  | value (d : Decoding β)
  | row (row : Row) (feed : Feed β)

/-! ## Values -/

namespace Scanner

variable {β ω : Type} [ByteStream β ω]

/-- The values that are decoded on the way to the next row, or to the end. -/
def decodings [L : Limits] (s : Scanner β) (w : ω) : List (Decoding β) :=
  match s.phase with
  | .finish => []
  | _ =>
      match _hp : s.peek w with
      | (.error _, _, _) => []
      | (.ok c, s, w) =>
          match _hm : s.phase.move s.rowsField c with
          | .refuse _ => []
          | .giveRow _ => []
          | .take phase => (s.take phase).decodings w
          | .value =>
              match s.readValue chunkSize w with
              | (.error _, _, _) => []
              | (.ok (_, raw), found, _) =>
                  ⟨raw, s.feed, found.feed⟩ ::
                    match _hv : s.passValue w with
                    | (.error _, _, _) => []
                    | (.ok (), s, w) => s.decodings w
termination_by s.left w
decreasing_by
  · have hpeek := left_of_peek _hp
    have hahead := hpeek.2 (Phase.isSome_of_take _hm)
    exact Nat.lt_of_lt_of_le (left_take hahead) hpeek.1
  · have := (left_of_peek _hp).1
    have := left_of_passValue _hv
    omega

section
variable {s s' s'' found : Scanner β} {w w' w'' w₀ : ω} {c : Option CodePoint}

/-- Nothing is decoded behind the end of a listing. -/
theorem decodings_of_finish [L : Limits] (h : s.phase = .finish) : s.decodings w = [] := by
  rw [decodings, h]

/-- Until a value is due, none is decoded. -/
theorem decodings_of_take [L : Limits] {phase : Phase} (hphase : s.phase ≠ .finish)
    (hpeek : s.peek w = (.ok c, s', w'))
    (hmove : s'.phase.move s'.rowsField c = .take phase) :
    s.decodings w = (s'.take phase).decodings w' := by
  rw [decodings]
  split
  · next h => exact (hphase h).elim
  · split
    · next h => cases hpeek.symm.trans h
    · next h =>
        cases hpeek.symm.trans h
        split
        all_goals
          rename_i h
          cases hmove.symm.trans h
        rfl

/-- With the end of a row nothing is decoded. -/
theorem decodings_of_giveRow [L : Limits] {members : List (Text × Member)}
    (hphase : s.phase ≠ .finish) (hpeek : s.peek w = (.ok c, s', w'))
    (hmove : s'.phase.move s'.rowsField c = .giveRow members) :
    s.decodings w = [] := by
  rw [decodings]
  split
  · next h => exact (hphase h).elim
  · split
    · next h => cases hpeek.symm.trans h
    · next h =>
        cases hpeek.symm.trans h
        split
        all_goals
          rename_i h
          cases hmove.symm.trans h
        rfl

/-- A value that is due is decoded, and then those behind it are. -/
theorem decodings_of_value [L : Limits] {v : Json} {raw : Text} (hphase : s.phase ≠ .finish)
    (hpeek : s.peek w = (.ok c, s', w'))
    (hmove : s'.phase.move s'.rowsField c = .value)
    (hread : s'.readValue chunkSize w' = (.ok (v, raw), found, w₀))
    (hpass : s'.passValue w' = (.ok (), s'', w'')) :
    s.decodings w = ⟨raw, s'.feed, found.feed⟩ :: s''.decodings w'' := by
  rw [decodings]
  split
  · next h => exact (hphase h).elim
  · split
    · next h => cases hpeek.symm.trans h
    · next h =>
        cases hpeek.symm.trans h
        split
        all_goals
          rename_i h
          cases hmove.symm.trans h
        split
        · next h => cases hread.symm.trans h
        · next h =>
            cases hread.symm.trans h
            split
            · next h => cases hpass.symm.trans h
            · next h =>
                cases hpass.symm.trans h
                rfl

end

end Scanner

/-! ## Values and rows -/

namespace RowStream

variable {β ω : Type} [ByteStream β ω]

/-- What is met until the stream is closed, if each row is asked for. -/
def trace [L : Limits] (s : RowStream β) (w : ω) : List (Occurrence β) :=
  if s.closed then []
  else
    (s.scanner.decodings w).map .value ++
      match _h : s.next w with
      | (.ok (some row), s, w) => .row row s.scanner.feed :: s.trace w
      | _ => []
termination_by s.scanner.left w
decreasing_by exact left_of_next _h

section
variable {s s' : RowStream β} {w w' : ω}

/-- A trace begins with what is decoded for the first row, and the row. -/
theorem trace_of_row [L : Limits] {row : Row} (hopen : s.closed = false)
    (hnext : s.next w = (.ok (some row), s', w')) :
    s.trace w = (s.scanner.decodings w).map .value
      ++ .row row s'.scanner.feed :: s'.trace w' := by
  rw [trace, if_neg (by rw [hopen]; exact Bool.false_ne_true)]
  congr 1
  split
  · next h =>
      cases hnext.symm.trans h
      rfl
  · next hno =>
      exact (hno _ _ _ hnext).elim

/-- Where no row is left, what is met is values. -/
theorem trace_of_no_row [L : Limits] (hopen : s.closed = false)
    (hno : ∀ row, (s.next w).1 ≠ .ok (some row)) :
    s.trace w = (s.scanner.decodings w).map .value := by
  rw [trace, if_neg (by rw [hopen]; exact Bool.false_ne_true)]
  split
  · next row _ _ h =>
      exact (hno row (congrArg Prod.fst h)).elim
  · exact List.append_nil _

theorem trace_of_closed [L : Limits] (hclosed : s.closed = true) : s.trace w = [] := by
  rw [trace, if_pos hclosed]

end

end RowStream

namespace Occurrence

variable {β : Type}

/-- The row that is given, if one is. -/
def row? : Occurrence β → Option Row
  | value _ => none
  | row r _ => some r

/-- The length of the value that is decoded, or none. -/
def length : Occurrence β → Nat
  | value d => d.length
  | row _ _ => 0

end Occurrence

section
variable {β : Type}

/-- The rows of a trace. -/
def rowsOf (met : List (Occurrence β)) : List Row := met.filterMap Occurrence.row?

/-- The length of the longest value of a trace. -/
def longest (met : List (Occurrence β)) : Nat := (met.map Occurrence.length).foldr max 0

theorem longest_cons (m : Occurrence β) (met : List (Occurrence β)) :
    longest (m :: met) = max m.length (longest met) := rfl

theorem rowsOf_append (met met' : List (Occurrence β)) :
    rowsOf (met ++ met') = rowsOf met ++ rowsOf met' :=
  List.filterMap_append

theorem rowsOf_map_value (ds : List (Decoding β)) : rowsOf (ds.map .value) = [] := by
  induction ds with
  | nil => rfl
  | cons d ds ih => exact ih

end

/-- The rows of a trace are all the rows that are given. -/
theorem rowsOf_trace [L : Limits] {β ω : Type} [ByteStream β ω] (s : RowStream β) (w : ω) :
    rowsOf (s.trace w) = (s.rest w).1.1 := by
  have hno {s s' : RowStream β} {w w' : ω} {result : Except Error (Option Row)}
      (hnext : s.next w = (result, s', w')) (hresult : ∀ row, result ≠ .ok (some row)) :
      rowsOf (s.trace w) = [] := by
    cases hclosed : s.closed with
    | true =>
        rw [RowStream.trace_of_closed hclosed]
        rfl
    | false =>
        rw [RowStream.trace_of_no_row hclosed (by rw [hnext]; exact hresult), rowsOf_map_value]
  fun_induction RowStream.rest s w with
  | case1 s w e s' w' hnext => exact hno hnext (by simp)
  | case2 s w s' w' hnext => exact hno hnext (by simp)
  | case3 s w row s' w' hnext rows ending s'' w'' hrest ih =>
      have hopen : s.closed = false := by
        cases hclosed : s.closed with
        | false => rfl
        | true => cases (RowStream.next_of_closed hclosed).symm.trans hnext
      rw [hrest] at ih
      rw [RowStream.trace_of_row hopen hnext, rowsOf_append, rowsOf_map_value]
      exact congrArg (row :: ·) ih

end CouchClient
