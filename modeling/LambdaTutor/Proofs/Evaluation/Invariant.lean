import LambdaTutor.Evaluation

/-!
# Invariants of runs

A run of the evaluator visits terms, each in the environment in force, and makes closures. The
first part says what each end of a run takes; the depth only counts, so parts that end at depths
of their own always join to one run.

A `RunInvariant` states what holds of every visit and of every closure, with one condition for
each thing a run can do. `RunInvariant.of_eval_value` and `RunInvariant.of_eval_error` carry it to
the end of every run. Nothing is said of a run that exhausts its bound.
-/

namespace LambdaTutor

namespace Outcome

variable {ε α β : Type}

/-- A sequence has a value exactly when each of its parts has one. -/
theorem bind_eq_value_iff {first : Outcome ε α} {next : α → Outcome ε β} {result : β} :
    (first >>= next) = .value result ↔
      ∃ middle, first = .value middle ∧ next middle = .value result := by
  cases first <;> simp

/-- A sequence fails with the error of the first of its parts that fails. -/
theorem bind_eq_error_iff {first : Outcome ε α} {next : α → Outcome ε β} {cause : ε} :
    (first >>= next) = .error cause ↔
      first = .error cause ∨ ∃ middle, first = .value middle ∧ next middle = .error cause := by
  cases first <;> simp

theorem ofExcept_eq_value_iff {answer : Except ε α} {result : α} :
    ofExcept answer = .value result ↔ answer = .ok result := by
  cases answer <;> simp

theorem ofExcept_eq_error_iff {answer : Except ε α} {cause : ε} :
    ofExcept answer = .error cause ↔ answer = .error cause := by
  cases answer <;> simp

theorem mapError_eq_value_iff {ε' : Type} {restate : ε → ε'} {outcome : Outcome ε α} {result : α} :
    outcome.mapError restate = .value result ↔ outcome = .value result := by
  cases outcome <;> simp

/-- A restated error has a cause of its own. -/
theorem mapError_eq_error_iff {ε' : Type} {restate : ε → ε'} {outcome : Outcome ε α} {cause : ε'} :
    outcome.mapError restate = .error cause ↔
      ∃ found, outcome = .error found ∧ restate found = cause := by
  cases outcome <;> simp

end Outcome

namespace Term

variable {depth : Nat} {env : Environment} {name : String} {fn arg : Term} {closure : Closure}
  {cause : EvalError}

/-- A variable has the value that the environment binds it to. -/
theorem eval_var_eq_value_iff :
    (var name).eval (depth + 1) env = .value closure ↔ env.get? name = some closure := by
  rw [eval_succ_var]
  cases env.get? name <;> simp

/-- A variable fails exactly when it is unbound, and the error names it. -/
theorem eval_var_eq_error_iff :
    (var name).eval (depth + 1) env = .error cause ↔
      env.get? name = none ∧ cause = .undefinedVariable name := by
  rw [eval_succ_var]
  cases env.get? name <;> simp [eq_comm]

/-- An application has a value exactly when its function, its argument and the call have one. -/
theorem eval_app_eq_value_iff :
    (app fn arg).eval (depth + 1) env = .value closure ↔
      ∃ fnValue argValue, fn.eval depth env = .value fnValue ∧
        arg.eval depth env = .value argValue ∧ fnValue.apply depth argValue = .value closure := by
  simp only [eval_succ_app, Outcome.bind_eq_value_iff, exists_and_left]

/-- An application fails in its function, or else in its argument, or else in the call. -/
theorem eval_app_eq_error_iff :
    (app fn arg).eval (depth + 1) env = .error cause ↔
      fn.eval depth env = .error cause ∨
      ∃ fnValue, fn.eval depth env = .value fnValue ∧
        (arg.eval depth env = .error cause ∨
          ∃ argValue, arg.eval depth env = .value argValue ∧
            fnValue.apply depth argValue = .error cause) := by
  simp only [eval_succ_app, Outcome.bind_eq_error_iff]

/-- A value that a run reaches within one bound is reached within any larger one. -/
theorem eval_value_mono {term : Term} {deeper : Nat} (within : depth ≤ deeper)
    (run : term.eval depth env = .value closure) : term.eval deeper env = .value closure := by
  rw [← run]
  exact eval_eq_of_le within (by simp [run])

/-- A term has one value at most, whatever the bound. -/
theorem eval_value_unique {term : Term} {otherDepth : Nat} {other : Closure}
    (run : term.eval depth env = .value closure)
    (otherRun : term.eval otherDepth env = .value other) : closure = other := by
  have within := eval_value_mono (Nat.le_max_left depth otherDepth) run
  rw [eval_value_mono (Nat.le_max_right depth otherDepth) otherRun] at within
  cases within
  rfl

/-- Once function and argument have values, the run of an application ends as the call does. -/
theorem exists_eval_app_eq_apply {fnDepth argDepth callDepth : Nat} {fnValue argValue : Closure}
    (fnRun : fn.eval fnDepth env = .value fnValue)
    (argRun : arg.eval argDepth env = .value argValue)
    (callEnds : fnValue.apply callDepth argValue ≠ .exhausted) :
    ∃ depth, (app fn arg).eval depth env = fnValue.apply callDepth argValue := by
  let depth := max fnDepth (max argDepth callDepth)
  have fnRun : fn.eval depth env = .value fnValue := eval_value_mono (by omega) fnRun
  have argRun : arg.eval depth env = .value argValue := eval_value_mono (by omega) argRun
  have callRun : fnValue.apply depth argValue = fnValue.apply callDepth argValue :=
    eval_eq_of_le (by omega) callEnds
  exact ⟨depth + 1, by rw [eval_succ_app, fnRun, argRun, ← callRun]; rfl⟩

/-- The runs of a function, of its argument and of the call join to a run of the application. -/
theorem exists_eval_app {fnDepth argDepth callDepth : Nat} {fnValue argValue : Closure}
    (fnRun : fn.eval fnDepth env = .value fnValue)
    (argRun : arg.eval argDepth env = .value argValue)
    (callRun : fnValue.apply callDepth argValue = .value closure) :
    ∃ depth, (app fn arg).eval depth env = .value closure := by
  rw [← callRun]
  exact exists_eval_app_eq_apply fnRun argRun (by simp [callRun])

end Term

/-- A property of the terms that a run visits, each in its environment, and of the closures that it
makes, which no part of a run can break. -/
structure RunInvariant where
  OnTerm : Term → Environment → Prop
  OnValue : Closure → Prop
  /-- Looking a name up finds a closure with the property. -/
  lookup : ∀ {name env closure}, OnTerm (.var name) env → env.get? name = some closure →
    OnValue closure
  /-- An abstraction captures the environment in force. -/
  capture : ∀ {param body env}, OnTerm (.lam param body) env → OnValue (.mk param body env)
  /-- The function of an application is evaluated where the application is. -/
  fn : ∀ {fn arg env}, OnTerm (.app fn arg) env → OnTerm fn env
  /-- So is its argument. -/
  arg : ∀ {fn arg env}, OnTerm (.app fn arg) env → OnTerm arg env
  /-- A call evaluates the body in the captured environment, extended by the parameter. -/
  call : ∀ {fn arg : Closure}, OnValue fn → OnValue arg →
    OnTerm fn.body (fn.env.extend fn.param arg)

namespace RunInvariant

variable (invariant : RunInvariant) {depth : Nat} {term : Term} {env : Environment}
  {closure : Closure} {name : String}

/-- The value of a run that starts within the invariant has the property. -/
theorem of_eval_value (holds : invariant.OnTerm term env)
    (run : term.eval depth env = .value closure) : invariant.OnValue closure := by
  -- The call's body is no part of the application, so the induction is on the depth.
  induction depth generalizing term env closure with
  | zero => cases run
  | succ depth ih =>
    cases term with
    | var name => exact invariant.lookup holds (Term.eval_var_eq_value_iff.mp run)
    | lam param body =>
      cases run
      exact invariant.capture holds
    | app fn arg =>
      obtain ⟨fnValue, argValue, fnRun, argRun, callRun⟩ := Term.eval_app_eq_value_iff.mp run
      have onFn : invariant.OnValue fnValue := ih (invariant.fn holds) fnRun
      have onArg : invariant.OnValue argValue := ih (invariant.arg holds) argRun
      exact ih (invariant.call onFn onArg) callRun

/-- A run that starts within the invariant fails only at a visit to a name that is unbound there,
and the error names it. -/
theorem of_eval_error (holds : invariant.OnTerm term env)
    (run : term.eval depth env = .error (.undefinedVariable name)) :
    ∃ visited, invariant.OnTerm (.var name) visited ∧ visited.get? name = none := by
  induction depth generalizing term env with
  | zero => cases run
  | succ depth ih =>
    cases term with
    | var other =>
      obtain ⟨unbound, named⟩ := Term.eval_var_eq_error_iff.mp run
      cases named
      exact ⟨env, holds, unbound⟩
    | lam param body => cases run
    | app fn arg =>
      rcases Term.eval_app_eq_error_iff.mp run with
        fnFails | ⟨fnValue, fnRun, argFails | ⟨argValue, argRun, callFails⟩⟩
      · exact ih (invariant.fn holds) fnFails
      · exact ih (invariant.arg holds) argFails
      · have onFn : invariant.OnValue fnValue := invariant.of_eval_value (invariant.fn holds) fnRun
        have onArg : invariant.OnValue argValue :=
          invariant.of_eval_value (invariant.arg holds) argRun
        exact ih (invariant.call onFn onArg) callFails

end RunInvariant

end LambdaTutor
