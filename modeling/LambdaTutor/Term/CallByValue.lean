import LambdaTutor.Term.Binding

/-!
# Call by value on terms

The big-step rules of call by value, stated on terms alone: no environment and no bound on the
depth. An abstraction is its own value; an application evaluates both sides and then the body with
the argument's value substituted for the parameter. A variable has no value.
-/

namespace LambdaTutor.Term

/-- A term evaluates to a term. -/
inductive Evaluates : Term → Term → Prop where
  | lam (param : String) (body : Term) : Evaluates (.lam param body) (.lam param body)
  | app {fn arg body argument result : Term} {param : String}
      (fnEvaluates : Evaluates fn (.lam param body)) (argEvaluates : Evaluates arg argument)
      (bodyEvaluates : Evaluates (body.subst param argument) result) :
      Evaluates (.app fn arg) result

end LambdaTutor.Term
