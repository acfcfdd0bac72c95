import CouchClient.Error

/-! # Actions — operations that change the world

    An action runs in a world `ω`, which it leaves changed, and gives a
    value or raises an error.  What was done before an error stays done. -/

namespace CouchClient

/-- An operation in a world. -/
def Action (ω α : Type) := ω → Except Error α × ω

namespace Action

variable {ω α γ : Type}

/-- Gives a value and changes nothing. -/
def ok (a : α) : Action ω α := fun w => (.ok a, w)

/-- Goes on with the value of an action, unless it raised an error. -/
def andThen (act : Action ω α) (next : α → Action ω γ) : Action ω γ :=
  fun w =>
    match act w with
    | (.ok a, w) => next a w
    | (.error e, w) => (.error e, w)

instance : Monad (Action ω) where
  pure := ok
  bind := andThen

/-- Gives a result and changes nothing. -/
def ofExcept (result : Except Error α) : Action ω α := fun w => (result, w)

@[simp]
theorem pure_apply (a : α) (w : ω) : (pure a : Action ω α) w = (.ok a, w) := rfl

@[simp]
theorem ofExcept_apply (result : Except Error α) (w : ω) :
    (ofExcept result : Action ω α) w = (result, w) := rfl

theorem bind_apply (act : Action ω α) (next : α → Action ω γ) (w : ω) :
    (act >>= next) w =
      match act w with
      | (.ok a, w) => next a w
      | (.error e, w) => (.error e, w) := rfl

end Action

end CouchClient
