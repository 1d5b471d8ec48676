import LambdaTutor.Closure

/-!
# Reading closures back as terms

A closure is shown as the term it stands for: the free names of its abstraction are replaced by
the terms of the closures they are bound to, each resolved in its own captured environment. Names
that a caller asks to keep symbolic are not replaced in any closure. Names bound nowhere stay.
-/

namespace LambdaTutor

mutual

/-- The abstraction that a closure stands for, with the `symbolic` names left in place. -/
def Closure.readback (symbolic : List String) : Closure → Term
  | .mk param body env =>
    .lam param (body.replace fun name =>
      if name = param ∨ name ∈ symbolic then none else env.readback? symbolic name)

/-- The term that a name of an environment stands for. -/
def Environment.readback? (symbolic : List String) : Environment → String → Option Term
  | .empty, _ => none
  | .extend env bound value, name =>
    if name = bound then some (value.readback symbolic) else env.readback? symbolic name

end

/-- A term with every name that the environment binds replaced by what it stands for. The symbolic
names are kept inside the closures that are read back, not in the term itself. -/
def Term.resolve (term : Term) (env : Environment) (symbolic : List String) : Term :=
  term.replace (env.readback? symbolic)

/-- The canonical text of a closure, with the `symbolic` names left in place. -/
def Closure.render (closure : Closure) (symbolic : List String) : String :=
  (closure.readback symbolic).print

/-- The canonical text of a closure with every bound name replaced. -/
def Closure.display (closure : Closure) : String :=
  closure.render []

/-- A name of an environment stands for the closure it is bound to. -/
theorem Environment.readback?_eq (symbolic : List String) (env : Environment) (name : String) :
    env.readback? symbolic name = (env.get? name).map (Closure.readback symbolic) := by
  match env with
  | .empty => simp [Environment.readback?]
  | .extend env bound value =>
    have rest := readback?_eq symbolic env name
    by_cases same : name = bound <;> simp [Environment.readback?, same, rest]

end LambdaTutor
