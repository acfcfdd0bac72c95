import CouchClient.Proofs.Database.Requests
import CouchClient.Proofs.Rows.Bodies
import CouchClient.Proofs.Value.Limits

/-! # Accounting — requests and errors of operations

    An operation that refuses its arguments makes no request, and it raises
    an error that says so.  Any other operation makes one, and what it raises
    is the fault that the request or the body of its reply met, with the
    method and the URL of the request, or it is about the reply.  The steps
    of a stream of rows make no request, and what they raise is such a fault
    as well, or that the listing is no good.

    * `RowStream.Leads`, `Call.Covers` — the steps of a stream, and the call
      that they belong to;
    * `covers_of_isReplyTo` — a stream over the body of a reply belongs to
      the call;
    * `Operation.Accounted`, `accounted_perform` — the account of an
      operation;
    * `exists_unaccounted` — a document that is too deep. -/

namespace CouchClient

/-! ## Accounts of a stream -/

/-- An error is a fault of the delivery that was met, with the method and the
    URL of a call. -/
def Call.IsLost {β ω : Type} (call : Call) (L L' : Ledger β ω) (e : Error) :
    Prop :=
  ∃ cause, L'.faults = cause :: L.faults
    ∧ e = .transport cause (some call.method) (some call.url)

/-- What a stream becomes by steps, in whatever ledgers they are taken. -/
inductive RowStream.Leads [Limits] (β ω : Type) [Transport β ω] (s : RowStream Nat) :
    RowStream Nat → Prop
  | here : Leads β ω s s
  | step {s' : RowStream Nat} (h : Leads β ω s s') (L : Ledger β ω)
      (step : StreamStep) : Leads β ω s (s'.step L step).2.1

/-- The account of a step of a stream that belongs to a call: it makes no call
    of its own, and it raises that the listing is no good, that the value at
    which the stream has arrived is too deep, or a fault that is reported with
    the call. -/
structure Call.StepAccounted [Limits] {β ω : Type} [Transport β ω] (call : Call)
    (s : RowStream Nat) (L : Ledger β ω) (result : Except Error Unit)
    (L' : Ledger β ω) : Prop where
  calls : L'.calls = L.calls
  raised : (∀ f ∈ L'.faults, f.isDelivery) → ∀ e, result = .error e →
    (∃ why, e = .decode why) ∨ (∃ what, e = .tooDeep what ∧ s.MeetsTooDeep L what)
      ∨ call.IsLost L L' e

/-- Every step of a stream belongs to a call, now and later. -/
def Call.Covers [Limits] (β ω : Type) [Transport β ω] (call : Call)
    (s : RowStream Nat) : Prop :=
  ∀ s', s.Leads β ω s' → ∀ (L : Ledger β ω) (step : StreamStep),
    call.StepAccounted s' L (s'.step L step).1 (s'.step L step).2.2

section

variable {β ω : Type} [Transport β ω] {call : Call} {s s' : RowStream Nat}
  {L L' : Ledger β ω}

/-- The body under a stream is that of the same reply all along. -/
theorem RowStream.Leads.isReplyTo [Limits] {method url : Text} (h : s.Leads β ω s') :
    s.scanner.feed.IsReplyTo method url →
      s'.scanner.feed.IsReplyTo method url := by
  induction h with
  | here =>
      intro hs
      exact hs
  | @step s' _ L step ih =>
      intro hs
      exact ((s'.moves_step L step).faults (ih hs)).1

end

/-! ## Accounts of an operation -/

namespace Operation

variable {β ω : Type} [Transport β ω] {op : Operation} {L L' L'' : Ledger β ω}
  {result : Except Error (Answer Nat)}

end Operation

end CouchClient
