import LambdaTutor.Term

/-!
# Closures and environments

A closure is an abstraction together with the environment in force where it was evaluated; an
environment binds names to closures. Values are immutable, so an environment is its history of
bindings and the latest binding of a name is the one that counts. Everything else is defined
through the view `get?`.
-/

namespace LambdaTutor

mutual

/-- The values of the language: an abstraction with the environment it captured. -/
inductive Closure where
  | mk (param : String) (body : Term) (env : Environment)

/-- A finite map from names to closures. -/
inductive Environment where
  | empty
  | extend (env : Environment) (name : String) (value : Closure)

end

namespace Closure

/-- The parameter of the abstraction. -/
def param : Closure → String
  | mk param _ _ => param

/-- The body of the abstraction. -/
def body : Closure → Term
  | mk _ body _ => body

/-- The captured environment. -/
def env : Closure → Environment
  | mk _ _ env => env

/-- The abstraction as it was written, with nothing put in the place of its free names. -/
def lambda (closure : Closure) : Term :=
  .lam closure.param closure.body

@[simp] theorem param_mk (param : String) (body : Term) (env : Environment) :
    (mk param body env).param = param := rfl

@[simp] theorem body_mk (param : String) (body : Term) (env : Environment) :
    (mk param body env).body = body := rfl

@[simp] theorem env_mk (param : String) (body : Term) (env : Environment) :
    (mk param body env).env = env := rfl

end Closure

namespace Environment

/-- The closure that a name is bound to. -/
def get? : Environment → String → Option Closure
  | empty, _ => none
  | extend env bound value, name => if name = bound then some value else env.get? name

/-- The bound names, each once. -/
def names : Environment → List String
  | empty => []
  | extend env name _ => name :: env.names.filter (· ≠ name)

/-- The number of bound names. -/
def size (env : Environment) : Nat :=
  env.names.length

/-- Whether a name is bound. -/
def contains (env : Environment) (name : String) : Bool :=
  (env.get? name).isSome

/-- Whether no name is bound. -/
def isEmpty : Environment → Bool
  | empty => true
  | extend _ _ _ => false

/-- Keeps the bindings of the names that satisfy a condition. -/
def filter (keep : String → Bool) : Environment → Environment
  | empty => empty
  | extend env name value =>
    if keep name then extend (env.filter keep) name value else env.filter keep

/-- Forgets the binding of one name. -/
def without (env : Environment) (name : String) : Environment :=
  env.filter (· ≠ name)

/-- Forgets the bindings of all the given names. -/
def withoutAll (env : Environment) (names : List String) : Environment :=
  env.filter (· ∉ names)

/-- Keeps the bindings of the given names only. -/
def restrictTo (env : Environment) (names : List String) : Environment :=
  env.filter (· ∈ names)

/-- Binds the pairs in order, so the last pair of a name counts. -/
def ofPairs (pairs : List (String × Closure)) : Environment :=
  pairs.foldl (fun env (name, value) => env.extend name value) empty

@[simp] theorem get?_empty (name : String) : empty.get? name = none := rfl

theorem get?_extend (env : Environment) (bound name : String) (value : Closure) :
    (env.extend bound value).get? name = if name = bound then some value else env.get? name := rfl

@[simp] theorem get?_extend_self (env : Environment) (name : String) (value : Closure) :
    (env.extend name value).get? name = some value := by
  simp [get?_extend]

@[simp] theorem get?_extend_of_ne (env : Environment) {bound name : String} (value : Closure)
    (different : name ≠ bound) : (env.extend bound value).get? name = env.get? name := by
  simp [get?_extend, different]

/-- Filtering by name is filtering of the view. -/
@[simp] theorem get?_filter (keep : String → Bool) (env : Environment) (name : String) :
    (env.filter keep).get? name = if keep name then env.get? name else none := by
  match env with
  | .empty => simp [filter]
  | .extend env bound value =>
    have rest := get?_filter keep env name
    simp only [filter, get?_extend]
    by_cases kept : keep bound <;> by_cases same : name = bound <;> simp_all

theorem get?_without (env : Environment) (forgotten name : String) :
    (env.without forgotten).get? name = if name = forgotten then none else env.get? name := by
  by_cases same : name = forgotten <;> simp [without, same]

theorem get?_withoutAll (env : Environment) (forgotten : List String) (name : String) :
    (env.withoutAll forgotten).get? name = if name ∈ forgotten then none else env.get? name := by
  by_cases member : name ∈ forgotten <;> simp [withoutAll, member]

theorem get?_restrictTo (env : Environment) (kept : List String) (name : String) :
    (env.restrictTo kept).get? name = if name ∈ kept then env.get? name else none := by
  by_cases member : name ∈ kept <;> simp [restrictTo, member]

/-- A name is listed exactly when it is bound. -/
theorem mem_names_iff (env : Environment) (name : String) :
    name ∈ env.names ↔ (env.get? name).isSome = true := by
  match env with
  | .empty => simp [names]
  | .extend env bound value =>
    have rest := mem_names_iff env name
    by_cases same : name = bound <;> simp [names, same, rest]

/-- No name is listed twice. -/
theorem names_nodup (env : Environment) : env.names.Nodup := by
  match env with
  | .empty => simp [names]
  | .extend env bound value =>
    simp only [names, List.nodup_cons, List.mem_filter, decide_not]
    exact ⟨by simp, (names_nodup env).filter _⟩

end Environment

end LambdaTutor
