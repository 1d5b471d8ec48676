import LambdaTutor.Proofs.Closure.Readback
import LambdaTutor.Proofs.Evaluation.Scope
import LambdaTutor.Term.CallByValue

/-!
# Closures implement substitution

Evaluation with captured environments and the substitution rules of `Term.Evaluates` give the same
values, once closures are read back as terms. The two sides are compared in a closed scope, where a
call is a substitution (`Closure.readback_call`); outside of one, substitution can capture names
and closures cannot.
-/

namespace LambdaTutor

/-- A closure is read back as an abstraction. With an argument's term substituted for the parameter,
its body is what the call evaluates, resolved where the call evaluates it. -/
theorem Closure.readback_call {fn : Closure} (closed : fn.env.HereditarilyClosed) (arg : Closure) :
    ∃ body, fn.readback [] = .lam fn.param body ∧
      body.subst fn.param (arg.readback []) =
        fn.body.resolve (fn.env.extend fn.param arg) [] := by
  refine ⟨fn.body.resolve (fn.env.without fn.param) [], ?_, ?_⟩
  · rw [Closure.readback_nil, Closure.lambda, Term.resolve_lam]
  · rw [Term.resolve_extend closed]

/-- A closure is read back as a value. -/
theorem Closure.readback_evaluates (closure : Closure) :
    (closure.readback []).Evaluates (closure.readback []) := by
  cases closure
  exact .lam _ _

theorem Closure.HereditarilyClosed.env {closure : Closure} (closed : closure.HereditarilyClosed) :
    closure.env.HereditarilyClosed := by
  cases closed with
  | intro _ inner => exact inner

namespace Term

variable {term : Term} {env : Environment}

open RunInvariant (closedScope)

/-- The values of a function and of its argument, found in a closed scope, make a call that stays in
one and that is a substitution once the function is read back. -/
theorem readback_call_of_eval {fn arg : Term} {fnDepth argDepth : Nat} {fnValue argValue : Closure}
    (scope : closedScope.OnTerm (app fn arg) env)
    (fnRun : fn.eval fnDepth env = .value fnValue)
    (argRun : arg.eval argDepth env = .value argValue) :
    closedScope.OnTerm fnValue.body (fnValue.env.extend fnValue.param argValue) ∧
      ∃ body, fnValue.readback [] = lam fnValue.param body ∧
        body.subst fnValue.param (argValue.readback []) =
          fnValue.body.resolve (fnValue.env.extend fnValue.param argValue) [] := by
  have fnClosed : fnValue.HereditarilyClosed :=
    closedScope.of_eval_value (closedScope.fn scope) fnRun
  have argClosed : argValue.HereditarilyClosed :=
    closedScope.of_eval_value (closedScope.arg scope) argRun
  exact ⟨closedScope.call fnClosed argClosed, Closure.readback_call fnClosed.env argValue⟩

/-- What a run in a closed scope returns is what the resolved term evaluates to. -/
theorem evaluates_of_eval {depth : Nat} {closure : Closure} (scope : closedScope.OnTerm term env)
    (run : term.eval depth env = .value closure) :
    (term.resolve env []).Evaluates (closure.readback []) := by
  induction depth generalizing term env closure with
  | zero => cases run
  | succ depth ih =>
    cases term with
    | var name =>
      rw [resolve_var env [] (eval_var_eq_value_iff.mp run)]
      exact closure.readback_evaluates
    | lam param body =>
      cases run
      rw [Closure.readback_nil]
      exact .lam _ _
    | app fn arg =>
      obtain ⟨fnValue, argValue, fnRun, argRun, callRun⟩ := eval_app_eq_value_iff.mp run
      obtain ⟨callScope, body, readFn, call⟩ := readback_call_of_eval scope fnRun argRun
      have fnEvaluates := ih (closedScope.fn scope) fnRun
      have argEvaluates := ih (closedScope.arg scope) argRun
      have callEvaluates := ih callScope callRun
      rw [readFn] at fnEvaluates
      rw [← call] at callEvaluates
      exact .app fnEvaluates argEvaluates callEvaluates

/-- What the resolved term evaluates to is returned by a run of the term in its closed scope. -/
theorem exists_eval_of_evaluates {target value : Term} (evaluates : target.Evaluates value)
    (scope : closedScope.OnTerm term env) (resolved : term.resolve env [] = target) :
    ∃ depth closure, term.eval depth env = .value closure ∧ closure.readback [] = value := by
  -- The rules decide the induction; the term is recovered from the shape of what it resolves to.
  induction evaluates generalizing term env with
  | lam param body =>
    cases term with
    | var name =>
      obtain ⟨closure, bound⟩ := scope.2 name (mem_freeNames_var.mpr rfl)
      rw [resolve_var env [] bound] at resolved
      exact ⟨1, closure, eval_var_eq_value_iff.mpr bound, resolved⟩
    | lam => exact ⟨1, .mk _ _ env, rfl, (Closure.readback_nil _).trans resolved⟩
    | app => cases resolved
  | app _ _ _ fnIh argIh bodyIh =>
    cases term with
    | var name =>
      obtain ⟨⟨_, _, _⟩, bound⟩ := scope.2 name (mem_freeNames_var.mpr rfl)
      rw [resolve_var env [] bound] at resolved
      cases resolved
    | lam => cases resolved
    | app fn arg =>
      rw [resolve_app] at resolved
      cases resolved
      obtain ⟨fnDepth, fnValue, fnRun, readFn⟩ := fnIh (closedScope.fn scope) rfl
      obtain ⟨argDepth, argValue, argRun, rfl⟩ := argIh (closedScope.arg scope) rfl
      obtain ⟨callScope, body, readCall, call⟩ := readback_call_of_eval scope fnRun argRun
      rw [readCall] at readFn
      cases readFn
      obtain ⟨callDepth, closure, callRun, read⟩ := bodyIh callScope call.symm
      obtain ⟨depth, run⟩ := exists_eval_app fnRun argRun callRun
      exact ⟨depth, closure, run, read⟩

/-- In a closed scope the values of runs, read back, are exactly the values that the substitution
rules give to the resolved term, with the very same names. -/
theorem eval_readback_iff_evaluates (closed : env.HereditarilyClosed)
    (bound : ∀ name ∈ term.freeNames, ∃ value, env.get? name = some value) (value : Term) :
    (∃ depth closure, term.eval depth env = .value closure ∧ closure.readback [] = value) ↔
      (term.resolve env []).Evaluates value := by
  constructor
  · rintro ⟨depth, closure, run, rfl⟩
    exact evaluates_of_eval ⟨closed, bound⟩ run
  · intro evaluates
    exact exists_eval_of_evaluates evaluates ⟨closed, bound⟩ rfl

/-- A bound function captures a name that the abstraction it is applied to takes as a parameter. -/
theorem eval_readback_iff_evaluates_nested :
    (Environment.extend .empty "twice"
      (.mk "f" (lam "x" (app (var "f") (app (var "f") (var "id"))))
        (.extend .empty "id" (.mk "x" (var "x") .empty)))).HereditarilyClosed ∧
    ((app (var "twice") (lam "id" (var "id"))).resolve
      (.extend .empty "twice" (.mk "f" (lam "x" (app (var "f") (app (var "f") (var "id"))))
        (.extend .empty "id" (.mk "x" (var "x") .empty)))) []).Evaluates
      (lam "x" (app (lam "id" (var "id")) (app (lam "id" (var "id")) (lam "x" (var "x"))))) := by
  have idClosed : (Closure.mk "x" (var "x") .empty).HereditarilyClosed :=
    .intro (by simp [Closure.lambda]) (by simp)
  have twiceClosed : (Closure.mk "f" (lam "x" (app (var "f") (app (var "f") (var "id"))))
      (.extend .empty "id" (.mk "x" (var "x") .empty))).HereditarilyClosed := by
    refine .intro ?_ (Environment.HereditarilyClosed.empty.extend "id" idClosed)
    intro name free
    obtain rfl : name = "id" := List.mem_singleton.mp free
    exact ⟨_, rfl⟩
  have closed := Environment.HereditarilyClosed.empty.extend "twice" twiceClosed
  refine ⟨closed, (eval_readback_iff_evaluates closed ?_ _).mp ⟨3, _, rfl, rfl⟩⟩
  intro name free
  obtain rfl : name = "twice" := List.mem_singleton.mp free
  exact ⟨_, rfl⟩

end Term

end LambdaTutor
