import LambdaTutor.Proofs.Source

/-!
# Larger bounds

A bound decides whether a run ends within it and nothing else. `Outcome.PersistsIn` says so of two
computations, the second under a larger bound than the first: where the first one ends, the second
one ends in the same way. Sequences and lists of such computations are such computations again, so
whatever is put together from evaluations inherits the property from `Term.eval_eq_of_le`.
-/

namespace LambdaTutor

namespace Outcome

variable {ε α β : Type}

/-- Where the first computation ends, the second one ends in the same way. -/
def PersistsIn (outcome larger : Outcome ε α) : Prop :=
  outcome ≠ .exhausted → larger = outcome

/-- What does not depend on the bound persists. -/
theorem PersistsIn.refl (outcome : Outcome ε α) : outcome.PersistsIn outcome :=
  fun _ => rfl

/-- The end of the first computation is the end of the second. -/
theorem PersistsIn.eq {outcome larger ending : Outcome ε α} (persists : outcome.PersistsIn larger)
    (ended : outcome = ending) (ends : ending ≠ .exhausted) : larger = ending := by
  subst ended
  exact persists ends

/-- A sequence persists when its first part does and the rest does after every value. -/
theorem PersistsIn.bind {first larger : Outcome ε α} {next largerNext : α → Outcome ε β}
    (persists : first.PersistsIn larger)
    (rest : ∀ value, (next value).PersistsIn (largerNext value)) :
    (first >>= next).PersistsIn (larger >>= largerNext) := by
  intro ends
  cases first with
  | value result =>
    rw [persists (by simp)]
    exact rest result ends
  | error cause => rw [persists (by simp)]; rfl
  | exhausted => exact absurd rfl ends

/-- Computations over a list persist when they do so for every item. -/
theorem PersistsIn.mapM {compute larger : α → Outcome ε β}
    (persists : ∀ item, (compute item).PersistsIn (larger item)) (items : List α) :
    (items.mapM compute).PersistsIn (items.mapM larger) := by
  induction items with
  | nil => exact .refl _
  | cons item items ih =>
    rw [List.mapM_cons, List.mapM_cons]
    exact (persists item).bind fun value => ih.bind fun rest => .refl _

/-- So do computations that take a list item by item into a state. -/
theorem PersistsIn.foldlM {step larger : β → α → Outcome ε β}
    (persists : ∀ state item, (step state item).PersistsIn (larger state item)) (items : List α)
    (state : β) : (items.foldlM step state).PersistsIn (items.foldlM larger state) := by
  induction items generalizing state with
  | nil => exact .refl _
  | cons item items ih =>
    rw [List.foldlM_cons, List.foldlM_cons]
    exact (persists state item).bind ih

end Outcome

variable {depth deeper : Nat}

/-- Evaluation of a source text persists under a larger bound. -/
theorem evaluate_persistsIn (within : depth ≤ deeper) (text : String) (env : Environment) :
    (evaluate depth text env).PersistsIn (evaluate deeper text env) :=
  evaluate_eq_of_le within

/-- So do calls with any number of arguments. -/
theorem Closure.applyAll_persistsIn (within : depth ≤ deeper) (fn : Closure) (args : List Closure) :
    (fn.applyAll depth args).PersistsIn (fn.applyAll deeper args) :=
  Outcome.PersistsIn.foldlM (fun _ _ => Term.eval_eq_of_le within) args fn

end LambdaTutor
