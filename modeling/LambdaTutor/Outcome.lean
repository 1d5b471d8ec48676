/-!
# Outcomes of a bounded computation

Evaluation may run forever, so it is given a bound on its depth. An `Outcome` keeps apart the
three ways in which such a run ends: with a value, with an error that a larger bound would also
meet, or with the bound exhausted and nothing learned.
-/

namespace LambdaTutor

/-- The end of a computation whose depth is bounded. -/
inductive Outcome (ε α : Type) where
  | value (result : α)
  | error (cause : ε)
  | exhausted
deriving DecidableEq

namespace Outcome

variable {ε ε' α β : Type}

/-- Continues with the value; an error or an exhausted bound ends the whole computation. -/
@[inline] def bind : Outcome ε α → (α → Outcome ε β) → Outcome ε β
  | value result, next => next result
  | error cause, _ => error cause
  | exhausted, _ => exhausted

instance : Monad (Outcome ε) where
  pure := value
  bind := bind

@[simp] theorem pure_eq (result : α) : (pure result : Outcome ε α) = value result := rfl

@[simp] theorem value_bind (result : α) (next : α → Outcome ε β) :
    (value result >>= next) = next result := rfl

@[simp] theorem error_bind (cause : ε) (next : α → Outcome ε β) :
    (error cause >>= next) = error cause := rfl

@[simp] theorem exhausted_bind (next : α → Outcome ε β) :
    ((exhausted : Outcome ε α) >>= next) = exhausted := rfl

instance : LawfulMonad (Outcome ε) := LawfulMonad.mk' _
  (by rintro _ (_ | _ | _) <;> rfl)
  (by intros; rfl)
  (by rintro _ _ _ (_ | _ | _) _ _ <;> rfl)

/-- Restates the cause of an error and leaves the other two ends alone. -/
@[inline] def mapError (f : ε → ε') : Outcome ε α → Outcome ε' α
  | value result => value result
  | error cause => error (f cause)
  | exhausted => exhausted

@[simp] theorem mapError_value (f : ε → ε') (result : α) :
    (value result : Outcome ε α).mapError f = value result := rfl

@[simp] theorem mapError_error (f : ε → ε') (cause : ε) :
    (error cause : Outcome ε α).mapError f = error (f cause) := rfl

@[simp] theorem mapError_exhausted (f : ε → ε') :
    (exhausted : Outcome ε α).mapError f = exhausted := rfl

/-- A computation that needs no bound. -/
@[inline] def ofExcept : Except ε α → Outcome ε α
  | .ok result => value result
  | .error cause => error cause

@[simp] theorem ofExcept_ok (result : α) :
    ofExcept (.ok result : Except ε α) = value result := rfl

@[simp] theorem ofExcept_error (cause : ε) :
    ofExcept (.error cause : Except ε α) = error cause := rfl

end Outcome

end LambdaTutor
