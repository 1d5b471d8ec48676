import LambdaTutor.Closure
import LambdaTutor.Term.Binding

/-!
# Scope of closures

Which names a closure leaves without a binding, here and in the closures that its environment
binds. All notions follow visible bindings only, those that `get?` finds.
-/

namespace LambdaTutor

namespace Closure

/-- Every free name of the abstraction is bound, and so it is in every closure bound there. -/
inductive HereditarilyClosed : Closure → Prop where
  | intro {closure : Closure}
      (bound : ∀ name ∈ closure.lambda.freeNames, ∃ value, closure.env.get? name = some value)
      (inner : ∀ name value, closure.env.get? name = some value → HereditarilyClosed value) :
      HereditarilyClosed closure

/-- A name is free in the abstraction and unbound in the captured environment, or it is so in a
closure that the environment binds. -/
inductive Dangling (name : String) : Closure → Prop where
  | here {closure : Closure} (free : name ∈ closure.lambda.freeNames)
      (unbound : closure.env.get? name = none) : Dangling name closure
  | inside {closure value : Closure} {binder : String}
      (bound : closure.env.get? binder = some value) (dangling : Dangling name value) :
      Dangling name closure

/-- A dangling name that is found by following free names only. -/
inductive Unresolved (name : String) : Closure → Prop where
  | here {closure : Closure} (free : name ∈ closure.lambda.freeNames)
      (unbound : closure.env.get? name = none) : Unresolved name closure
  | inside {closure value : Closure} {binder : String}
      (free : binder ∈ closure.lambda.freeNames) (bound : closure.env.get? binder = some value)
      (unresolved : Unresolved name value) : Unresolved name closure

/-- An unresolved name that is found without passing an abstraction of that very name: each variable
on the way to it stands outside of all of them. -/
inductive Exposed (name : String) : Closure → Prop where
  | here {closure : Closure} (free : name ∈ closure.lambda.freeNames)
      (unbound : closure.env.get? name = none) : Exposed name closure
  | inside {closure value : Closure} {binder : String}
      (free : binder ∈ closure.lambda.freeNamesOutside name)
      (bound : closure.env.get? binder = some value) (exposed : Exposed name value) :
      Exposed name closure

/-- A closure is found by following bindings of captured environments. -/
inductive Reaches : Closure → Closure → Prop where
  | refl (closure : Closure) : Reaches closure closure
  | step {closure value target : Closure} {binder : String}
      (bound : closure.env.get? binder = some value) (reaches : Reaches value target) :
      Reaches closure target

end Closure

namespace Environment

/-- Every bound closure is hereditarily closed. -/
def HereditarilyClosed (env : Environment) : Prop :=
  ∀ name value, env.get? name = some value → value.HereditarilyClosed

/-- A closure is found by following bindings from an environment. -/
def Reaches (env : Environment) (target : Closure) : Prop :=
  ∃ name value, env.get? name = some value ∧ value.Reaches target

end Environment

/-- A name dangles for a term in an environment. -/
def Term.Dangling (name : String) (term : Term) (env : Environment) : Prop :=
  (name ∈ term.freeNames ∧ env.get? name = none) ∨
    ∃ binder value, env.get? binder = some value ∧ value.Dangling name

mutual

/-- The closure with the given names forgotten in its environment, and in all closures there. -/
def Closure.strip (forgotten : List String) : Closure → Closure
  | .mk param body env => .mk param body (env.strip forgotten)

/-- The environment with the given names forgotten, and stripped closures for the others. -/
def Environment.strip (forgotten : List String) : Environment → Environment
  | .empty => .empty
  | .extend env name value =>
    if name ∈ forgotten then env.strip forgotten
    else .extend (env.strip forgotten) name (value.strip forgotten)

end

/-- Stripping is filtering and stripping of the view. -/
theorem Environment.get?_strip (forgotten : List String) (env : Environment) (name : String) :
    (env.strip forgotten).get? name =
      if name ∈ forgotten then none else (env.get? name).map (Closure.strip forgotten) := by
  match env with
  | .empty => simp [Environment.strip]
  | .extend env bound value =>
    have rest := get?_strip forgotten env name
    by_cases same : name = bound <;> by_cases member : bound ∈ forgotten <;>
      simp_all [Environment.strip]

end LambdaTutor
