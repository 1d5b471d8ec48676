import LambdaTutor.Closure
import LambdaTutor.Outcome

/-!
# Evaluation

Call by value with captured environments. An application evaluates its function, then its
argument, then the body of the function in the environment that the function captured, extended by
its parameter. A run may have no end, so every definition takes a bound on the depth of the run;
a run that stays within its bound ends in the same way under any larger one.
-/

namespace LambdaTutor

/-- The ways in which a run can fail. -/
inductive EvalError where
  | undefinedVariable (name : String)
deriving DecidableEq, Repr

/-- The message of a failed run. -/
def EvalError.message : EvalError → String
  | .undefinedVariable name => "undefined variable: " ++ name

/-- The value of a term in an environment. -/
def Term.eval : Nat → Term → Environment → Outcome EvalError Closure
  | 0, _, _ => .exhausted
  | _ + 1, .var name, env =>
    match env.get? name with
    | some closure => .value closure
    | none => .error (.undefinedVariable name)
  | _ + 1, .lam param body, env => .value (.mk param body env)
  | depth + 1, .app fn arg, env => do
    let fnValue ← fn.eval depth env
    let argValue ← arg.eval depth env
    fnValue.body.eval depth (fnValue.env.extend fnValue.param argValue)

/-- The value of a closure's body once its parameter is bound. -/
def Closure.apply (depth : Nat) (fn arg : Closure) : Outcome EvalError Closure :=
  fn.body.eval depth (fn.env.extend fn.param arg)

/-- Applies a closure to arguments from left to right. -/
def Closure.applyAll (depth : Nat) (fn : Closure) (args : List Closure) :
    Outcome EvalError Closure :=
  args.foldlM (Closure.apply depth) fn

/-- A bound on the depth that no run reaches before it exhausts the machine's memory. -/
def ampleDepth : Nat := 0x4000000000000000

namespace Term

theorem eval_succ_var (depth : Nat) (name : String) (env : Environment) :
    (var name).eval (depth + 1) env =
      (env.get? name).elim (.error (.undefinedVariable name)) .value := by
  cases found : env.get? name <;> simp [eval, found]

theorem eval_succ_lam (depth : Nat) (param : String) (body : Term) (env : Environment) :
    (lam param body).eval (depth + 1) env = .value (.mk param body env) := rfl

/-- An application is its function, its argument and then the call. -/
theorem eval_succ_app (depth : Nat) (fn arg : Term) (env : Environment) :
    (app fn arg).eval (depth + 1) env = (do
      let fnValue ← fn.eval depth env
      let argValue ← arg.eval depth env
      fnValue.apply depth argValue) := rfl

/-- A run that ends within its bound ends in the same way under any larger bound. -/
theorem eval_eq_of_le {depth deeper : Nat} (within : depth ≤ deeper) {term : Term}
    {env : Environment} (ends : term.eval depth env ≠ .exhausted) :
    term.eval deeper env = term.eval depth env := by
  induction depth generalizing deeper term env with
  | zero => exact absurd rfl ends
  | succ depth ih =>
    obtain ⟨deeper, rfl⟩ : ∃ rest, deeper = rest + 1 := ⟨deeper - 1, by omega⟩
    have within : depth ≤ deeper := by omega
    cases term with
    | var name => simp only [eval_succ_var]
    | lam param body => simp only [eval_succ_lam]
    | app fn arg =>
      simp only [eval_succ_app] at ends ⊢
      have fnEnds : fn.eval depth env ≠ .exhausted := by
        intro exhausted
        simp [exhausted] at ends
      rw [ih within fnEnds]
      cases fnRun : fn.eval depth env with
      | exhausted => exact absurd fnRun fnEnds
      | error cause => rfl
      | value fnValue =>
        simp only [fnRun, Outcome.value_bind] at ends ⊢
        have argEnds : arg.eval depth env ≠ .exhausted := by
          intro exhausted
          simp [exhausted] at ends
        rw [ih within argEnds]
        cases argRun : arg.eval depth env with
        | exhausted => exact absurd argRun argEnds
        | error cause => rfl
        | value argValue =>
          simp only [argRun, Outcome.value_bind] at ends ⊢
          exact ih within ends

end Term

end LambdaTutor
