import LambdaTutor.Proofs.Evaluation.LexicalScope

/-!
# Where closures come from

A run makes any number of closures, but from a fixed stock: the abstractions that are written in
the term and in the closures that the environment reaches, and the names that are bound there. A
closure that is made later pairs one of these abstractions with an environment over these names and
the parameters of these abstractions. As a property of a term in the environment in force this is
lexical (`LexicalProperty.madeOf`), so every closure that a value reaches has it.
-/

namespace LambdaTutor

/-- An abstraction is written in the term or in a closure that the environment reaches. -/
def Term.Writes (term : Term) (env : Environment) (lambda : Term) : Prop :=
  lambda ∈ term.lambdas ∨ ∃ source, env.Reaches source ∧ lambda ∈ source.lambda.lambdas

/-- A name is bound in the environment or in one that a closure reached from it has captured. -/
def Environment.BindsDeep (env : Environment) (name : String) : Prop :=
  env.contains name = true ∨ ∃ source, env.Reaches source ∧ source.env.contains name = true

/-- All abstractions are of the given code and all bound names are given ones. The names have to
include the parameters of the code, which calls bind. -/
def LexicalProperty.madeOf (code : Term → Prop) (names : String → Prop)
    (params : ∀ param body, code (.lam param body) → names param) : LexicalProperty where
  Holds term env := (∀ lambda ∈ term.lambdas, code lambda) ∧
    ∀ name, env.contains name = true → names name
  fn := And.imp_left fun written lambda member => written lambda (List.mem_append_left _ member)
  arg := And.imp_left fun written lambda member => written lambda (List.mem_append_right _ member)
  body := by
    rintro param body env value ⟨written, bound⟩
    refine ⟨fun lambda member => written lambda (List.mem_cons_of_mem _ member), ?_⟩
    intro name contains
    by_cases same : name = param
    · rw [same]
      exact params param body (written _ List.mem_cons_self)
    · exact bound name (by simpa [Environment.contains, same] using contains)

/-- Runs write no code. When a term has a value, the abstraction of every closure that the value
reaches was written in the term or in a closure that the environment reaches, and every name that
the closure has captured was bound in the environment or in one reached from it, or is the parameter
of such an abstraction. -/
theorem closures_are_made_of_given_code (depth : Nat) (term : Term) (env : Environment)
    (closure : Closure) (run : term.eval depth env = .value closure) :
    ∀ target, closure.Reaches target →
      term.Writes env target.lambda ∧
      ∀ name, target.env.contains name = true →
        env.BindsDeep name ∨ ∃ body, term.Writes env (.lam name body) := by
  let names (name : String) : Prop :=
    env.BindsDeep name ∨ ∃ body, term.Writes env (.lam name body)
  let given : LexicalProperty :=
    .madeOf (term.Writes env) names fun param body written => .inr ⟨body, written⟩
  have start : given.invariant.OnTerm term env := by
    refine ⟨⟨fun lambda member => .inl member, fun name bound => .inl (.inl bound)⟩, ?_⟩
    intro name value bound target reaches
    have reached : env.Reaches target := ⟨name, value, bound, reaches⟩
    exact ⟨fun lambda member => .inr ⟨target, reached, member⟩,
      fun name captured => .inl (.inr ⟨target, reached, captured⟩)⟩
  intro target reaches
  obtain ⟨written, captured⟩ := given.invariant.of_eval_value start run target reaches
  exact ⟨written target.lambda List.mem_cons_self, captured⟩

/-- A call of a bound closure. The code of its value is that of the closure, which captured `u` and
has the parameter `a`. -/
theorem closures_are_made_of_given_code_call :
    let identity : Closure := .mk "x" (.var "x") .empty
    let constant : Closure := .mk "a" (.lam "b" (.var "a")) (.extend .empty "u" identity)
    let env : Environment := .extend .empty "k" constant
    let term : Term := .app (.var "k") (.lam "y" (.var "y"))
    let captured : Closure := .mk "y" (.var "y") env
    term.eval 2 env = .value (.mk "b" (.var "a") (constant.env.extend "a" captured)) ∧
    term.Writes env (.lam "b" (.var "a")) ∧
    term.Writes env (.lam "y" (.var "y")) ∧
    (env.BindsDeep "u" ∨ ∃ body, term.Writes env (.lam "u" body)) ∧
    (env.BindsDeep "a" ∨ ∃ body, term.Writes env (.lam "a" body)) := by
  intro identity constant env term captured
  have run : term.eval 2 env =
      .value (.mk "b" (.var "a") (constant.env.extend "a" captured)) := rfl
  have made := closures_are_made_of_given_code 2 term env _ run
  obtain ⟨written, names⟩ := made _ (.refl _)
  have inside := made captured (.step (Environment.get?_extend_self _ "a" captured) (.refl _))
  exact ⟨run, written, inside.1, names "u" rfl, names "a" rfl⟩

end LambdaTutor
