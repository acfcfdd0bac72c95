import CouchClient.Json.Lexeme

/-! # Reading JSON — a machine with a stack of open containers

    The machine is either due to read a value or holds one and looks for
    what follows it.  Each open container is a frame on the stack: it keeps
    what was read of the container so far.  Every move takes up text.  Where
    the stack is as high as the interpreter goes no container is opened, and
    a whole number that is too long for it is not read.

    * `Json.parse` — the value at the very start of a text, and the rest;
    * `Json.parseAt` — the same from an offset on;
    * `Json.decode` — the value of a whole text, blanks around it. -/

namespace CouchClient.Json

/-- An open container: the elements or entries read, last first, and the
    name of the entry that is being read. -/
inductive Frame where
  | array (done : List Json)
  | object (done : List (Text × Json)) (name : Text)

/-- What is due: a value, or what follows the value just read. -/
inductive Due where
  | value
  | after (v : Json)

/-- The least text that a due takes up. -/
def Due.cost : Due → Nat
  | .value => 1
  | .after _ => 0

/-- Reads the name of an entry, the colon, and the blanks around it. -/
def readName (t : Text) : Except Flaw (Text × Text) :=
  match t with
  | .char '"' :: rest =>
      match readString rest with
      | .error flaw => .error flaw
      | .ok (name, rest) =>
          match skipBlanks rest with
          | .char ':' :: rest => .ok (name, skipBlanks rest)
          | rest => .error ⟨.expectedColon, rest⟩
  | _ => .error ⟨.expectedName, t⟩

/-- A name takes at least its quotes and colon. -/
theorem length_rest_of_readName {t name rest : Text}
    (h : readName t = .ok (name, rest)) : rest.length < t.length := by
  unfold readName at h
  split at h
  · split at h
    · exact nomatch h
    · next name' rest' hs =>
        have h₁ := length_rest_of_readString hs
        have h₂ := length_skipBlanks rest'
        split at h
        · next rest'' hcolon =>
            cases h
            have h₃ := length_skipBlanks rest''
            rw [hcolon] at h₂
            simp only [List.length_cons] at h₂ ⊢
            omega
        · exact nomatch h
  · exact nomatch h

/-- What is too long about a value, if it is a whole number with too many
    digits. -/
def excess? [L : Limits] : Json → Option TooLong
  | .int n => Limits.excess? n
  | _ => none

/-- Reads a word or a number that is not too long. -/
def readScalar [L : Limits] (t : Text) : Except Flaw (Json × Text) :=
  match readScalar? t with
  | none => .error ⟨.expectedValue, t⟩
  | some (v, rest) =>
      match v.excess? with
      | some e => .error ⟨.tooLong e, t⟩
      | none => .ok (v, rest)

/-- A scalar is read just when it is one and no number that is too long. -/
theorem readScalar_eq_ok_iff [L : Limits] {t rest : Text} {v : Json} :
    readScalar t = .ok (v, rest)
      ↔ readScalar? t = some (v, rest) ∧ v.excess? = none := by
  unfold readScalar
  constructor
  · intro h
    split at h
    · cases h
    · next hs =>
        split at h
        · cases h
        · next hfits =>
            cases h
            exact ⟨hs, hfits⟩
  · rintro ⟨hs, hfits⟩
    rw [hs]
    dsimp only
    rw [hfits]

theorem length_rest_of_readScalar [Limits] {t rest : Text} {v : Json}
    (h : readScalar t = .ok (v, rest)) : rest.length < t.length :=
  length_rest_of_readScalar? (readScalar_eq_ok_iff.mp h).1

/-- Runs the machine on a text until the last container is closed. -/
def run [L : Limits] (stack : List Frame) (due : Due) (t : Text) :
    Except Flaw (Json × Text) :=
  match due with
  | .value =>
      match t with
      | .char '"' :: body =>
          match _h : readString body with
          | .error flaw => .error flaw
          | .ok (s, rest) => run stack (.after (.str s)) rest
      | .char '[' :: body =>
          if Limits.isFull stack.length then
            .error ⟨.tooDeep .readingArray, .char '[' :: body⟩
          else
            -- an empty array is a value already
            match _h : skipBlanks body with
            | .char ']' :: rest => run stack (.after (.arr [])) rest
            | rest => run (.array [] :: stack) .value rest
      | .char '{' :: body =>
          if Limits.isFull stack.length then
            .error ⟨.tooDeep .readingObject, .char '{' :: body⟩
          else
            match _h : skipBlanks body with
            | .char '}' :: rest => run stack (.after (.obj [])) rest
            | entry =>
                match _h' : readName entry with
                | .error flaw => .error flaw
                | .ok (name, rest) =>
                    run (.object [] name :: stack) .value rest
      | t =>
          match _h : readScalar t with
          | .error flaw => .error flaw
          | .ok (v, rest) => run stack (.after v) rest
  | .after v =>
      match stack with
      | [] => .ok (v, t)
      | .array done :: stack =>
          match _h : skipBlanks t with
          | .char ']' :: rest =>
              run stack (.after (.arr (v :: done).reverse)) rest
          | .char ',' :: body =>
              run (.array (v :: done) :: stack) .value (skipBlanks body)
          | rest => .error ⟨.expectedComma, rest⟩
      | .object done name :: stack =>
          match _h : skipBlanks t with
          | .char '}' :: rest =>
              run stack
                (.after (.obj (Entries.ofList ((name, v) :: done).reverse)))
                rest
          | .char ',' :: body =>
              -- a name has to follow: no comma stands before the brace
              match _h' : readName (skipBlanks body) with
              | .error flaw => .error flaw
              | .ok (name', rest) =>
                  run (.object ((name, v) :: done) name' :: stack) .value rest
          | rest => .error ⟨.expectedComma, rest⟩
termination_by t.length
decreasing_by
  · have := length_rest_of_readString _h
    simp only [List.length_cons]; omega
  · have := length_of_skipBlanks _h
    simp only [List.length_cons] at this ⊢; omega
  · have := length_of_skipBlanks _h
    simp only [List.length_cons]; omega
  · have := length_of_skipBlanks _h
    simp only [List.length_cons] at this ⊢; omega
  · have := length_of_skipBlanks _h
    have := length_rest_of_readName _h'
    simp only [List.length_cons]; omega
  · exact length_rest_of_readScalar _h
  · have := length_of_skipBlanks _h
    simp only [List.length_cons] at this; omega
  · have := length_of_skipBlanks _h
    have := length_skipBlanks body
    simp only [List.length_cons] at *; omega
  · have := length_of_skipBlanks _h
    simp only [List.length_cons] at this; omega
  · have := length_of_skipBlanks _h
    have := length_skipBlanks body
    have := length_rest_of_readName _h'
    simp only [List.length_cons] at *; omega

/-- Without a container around it, a value is what is read. -/
theorem run_nil [L : Limits] {v : Json} {t : Text} : run [] (.after v) t = .ok (v, t) := by
  rw [run]

/-- What is left after a run is no more than the text it started on, and
    less if a value was due. -/
theorem length_rest_of_run [Limits] {stack : List Frame} {due : Due} {t : Text}
    {v : Json} {rest : Text} (h : run stack due t = .ok (v, rest)) :
    rest.length + due.cost ≤ t.length := by
  fun_induction run stack due t
  case case2 hs ih =>
      have := ih h
      have := length_rest_of_readString hs
      simp only [Due.cost, List.length_cons] at *
      omega
  case case4 hs ih | case7 hs ih | case13 hs ih | case16 hs ih =>
      have := ih h
      have := length_of_skipBlanks hs
      simp only [Due.cost, List.length_cons] at *
      omega
  case case5 body _ _ ih =>
      have := ih h
      have := length_skipBlanks body
      simp only [Due.cost, List.length_cons] at *
      omega
  case case9 body _ _ _ _ hs ih =>
      have := ih h
      have := length_skipBlanks body
      have := length_rest_of_readName hs
      simp only [Due.cost, List.length_cons] at *
      omega
  case case11 hs ih =>
      have := ih h
      have := length_rest_of_readScalar hs
      simp only [Due.cost] at *
      omega
  case case12 => cases h; simp [Due.cost]
  case case14 body hs ih =>
      have := ih h
      have := length_of_skipBlanks hs
      have := length_skipBlanks body
      simp only [Due.cost, List.length_cons] at *
      omega
  case case18 body hs _ _ hn ih =>
      have := ih h
      have := length_of_skipBlanks hs
      have := length_skipBlanks body
      have := length_rest_of_readName hn
      simp only [Due.cost, List.length_cons] at *
      omega
  all_goals exact nomatch h

/-- Reads the value at the very start of a text. -/
def parse [L : Limits] (t : Text) : Except Flaw (Json × Text) := run [] .value t

/-- A value takes at least a character. -/
theorem length_rest_of_parse [Limits] {t rest : Text} {v : Json}
    (h : parse t = .ok (v, rest)) : rest.length < t.length :=
  length_rest_of_run h

/-- Reads the value at an offset of a document and gives the offset of its
    end. -/
def parseAt [L : Limits] (doc : Text) (offset : Nat) : Except SyntaxError (Json × Nat) :=
  let t := doc.drop offset
  match parse t with
  | .error flaw => .error (flaw.locate doc offset)
  | .ok (v, rest) => .ok (v, offset + (t.length - rest.length))

/-- Reads a whole document: one value, with blanks around it. -/
def decode [L : Limits] (doc : Text) : Except SyntaxError Json :=
  match parse (skipBlanks doc) with
  | .error flaw => .error (flaw.locate doc 0)
  | .ok (v, rest) =>
      match skipBlanks rest with
      | [] => .ok v
      | extra => .error (Flaw.locate doc 0 ⟨.extraData, extra⟩)

end CouchClient.Json
