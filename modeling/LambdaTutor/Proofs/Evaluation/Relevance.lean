import LambdaTutor.Closure.Readback
import LambdaTutor.Closure.Scope
import LambdaTutor.Proofs.Closure.Equality
import LambdaTutor.Proofs.Evaluation.Relation

/-!
# Bindings that a term does not mention

A run captures the whole environment in force, so two runs that differ in a binding nobody mentions
make closures that are not equal. What the runs keep is `Closure.Alike`: one abstraction, and
environments that agree on its free names, here and in every closure found under them. Being alike
is a `RunRelation`, and alike closures are read back as the same term, because reading back follows
free names only.
-/

namespace LambdaTutor

/-- Closures of one abstraction whose environments agree on its free names: each of them is unbound
on both sides or bound to closures that are alike in turn. -/
inductive Closure.Alike : Closure → Closure → Prop where
  | intro {closure other : Closure} (params : closure.param = other.param)
      (bodies : closure.body = other.body)
      (agree : ∀ name ∈ closure.lambda.freeNames,
        Option.Rel Alike (closure.env.get? name) (other.env.get? name)) : Alike closure other

/-- Environments agree on the free names of a term. -/
def Environment.AgreeOn (term : Term) (env other : Environment) : Prop :=
  ∀ name ∈ term.freeNames, Option.Rel Closure.Alike (env.get? name) (other.get? name)

/-- Equal closures are alike. -/
theorem Closure.alike_of_equal (closure : Closure) :
    ∀ other : Closure, (closure == other) = true → closure.Alike other := by
  induction closure using Closure.bound_induction with
  | step closure ih =>
    intro other equal
    obtain ⟨params, bodies, envs⟩ := Closure.equal_iff.mp equal
    refine .intro params bodies fun name _ => ?_
    exact Environment.rel_get?_mono (Environment.equal_iff.mp envs name)
      fun value found lookup values => ih name value lookup found values

/-- Alike closures are read back as the same term, whatever names are kept symbolic. -/
theorem Closure.readback_eq_of_alike (symbolic : List String) (closure : Closure) :
    ∀ other : Closure, closure.Alike other →
      closure.readback symbolic = other.readback symbolic := by
  induction closure using Closure.bound_induction with
  | step closure ih =>
    rintro ⟨otherParam, otherBody, otherEnv⟩ ⟨params, bodies, agree⟩
    obtain ⟨param, body, env⟩ := closure
    obtain rfl : param = otherParam := params
    obtain rfl : body = otherBody := bodies
    simp only [Closure.readback, Term.lam.injEq, true_and]
    apply Term.replace_congr
    intro name free
    by_cases kept : name = param ∨ name ∈ symbolic
    · rw [if_pos kept, if_pos kept]
    · rw [if_neg kept, if_neg kept, Environment.readback?_eq, Environment.readback?_eq]
      have different : name ≠ param := fun same => kept (.inl same)
      have agree : Option.Rel Alike (env.get? name) (otherEnv.get? name) :=
        agree name (Term.mem_freeNames_lam.mpr ⟨free, different⟩)
      rcases Environment.rel_get?_iff.mp agree with
        ⟨unbound, otherUnbound⟩ | ⟨value, found, lookup, otherLookup, values⟩
      · rw [unbound, otherUnbound]
      · rw [lookup, otherLookup, Option.map_some, Option.map_some,
          ih name value lookup found values]

/-- Agreement on the free names of a term relates its runs. -/
def RunRelation.relevance : RunRelation where
  OnTerm := Environment.AgreeOn
  OnValues := Closure.Alike
  lookup := fun agree => agree _ (Term.mem_freeNames_var.mpr rfl)
  capture := fun agree => .intro rfl rfl agree
  fn := fun agree name free => agree name (Term.mem_freeNames_app.mpr (.inl free))
  arg := fun agree name free => agree name (Term.mem_freeNames_app.mpr (.inr free))
  call := by
    rintro fn otherFn arg otherArg ⟨params, bodies, agree⟩ args
    refine ⟨bodies, fun name free => ?_⟩
    rw [← params]
    -- The parameter may hide bindings on which the captured environments differ.
    by_cases same : name = fn.param
    · simpa [same] using args
    · simpa [same] using agree name (Term.mem_freeNames_lam.mpr ⟨free, same⟩)

/-- Bindings that a term does not mention cannot influence it. In environments that bind the free
names of a term to equal closures, or not at all, its runs end alike: both exhaust their bound, both
fail with the same error, or both return closures of one abstraction that are rendered as the same
text, whatever is kept symbolic. These closures need not be equal, because each captures all of its
own environment. -/
theorem unmentioned_bindings_are_irrelevant :
    (∀ (term : Term) (env other : Environment),
      (∀ name ∈ term.freeNames, Option.Rel (fun value found => (value == found) = true)
        (env.get? name) (other.get? name)) →
      ∀ depth, Outcome.Rel (fun closure found => closure.param = found.param ∧
          closure.body = found.body ∧ ∀ symbolic, closure.render symbolic = found.render symbolic)
        (term.eval depth env) (term.eval depth other)) ∧
    ∃ (term : Term) (env other : Environment) (closure found : Closure),
      (∀ name ∈ term.freeNames, Option.Rel (fun value found => (value == found) = true)
        (env.get? name) (other.get? name)) ∧
      term.eval 1 env = .value closure ∧ term.eval 1 other = .value found ∧
      (closure == found) = false := by
  constructor
  · intro term env other agree depth
    have start : env.AgreeOn term other := by
      intro name free
      exact Environment.rel_get?_mono (agree name free)
        fun value found _ equal => value.alike_of_equal found equal
    refine (RunRelation.relevance.eval start depth).mono fun closure found alike => ?_
    have read (symbolic : List String) : closure.render symbolic = found.render symbolic := by
      rw [Closure.render, Closure.render, closure.readback_eq_of_alike symbolic found alike]
    cases alike with
    | intro params bodies _ => exact ⟨params, bodies, read⟩
  · let identity : Closure := .mk "x" (.var "x") .empty
    let other : Environment := .extend .empty "y" identity
    refine ⟨.lam "x" (.var "x"), .empty, other, identity, .mk "x" (.var "x") other, ?_, rfl, rfl, rfl⟩
    simp

/-- A binding that differs and is hidden by a parameter, in environments of different order. -/
theorem unmentioned_bindings_are_irrelevant_hidden :
    let identity : Closure := .mk "a" (.var "a") .empty
    let constant : Closure := .mk "a" (.lam "b" (.var "a")) .empty
    let env : Environment := .extend (.extend .empty "f" identity) "x" constant
    let other : Environment := .extend (.extend .empty "x" identity) "f" identity
    let term : Term := .app (.lam "x" (.lam "y" (.app (.var "x") (.var "f")))) (.var "f")
    (∀ name ∈ term.freeNames, Option.Rel (fun value found => (value == found) = true)
      (env.get? name) (other.get? name)) ∧
    ∀ depth, Outcome.Rel (fun closure found => closure.param = found.param ∧
        closure.body = found.body ∧ ∀ symbolic, closure.render symbolic = found.render symbolic)
      (term.eval depth env) (term.eval depth other) := by
  intro identity constant env other term
  have agree : ∀ name ∈ term.freeNames, Option.Rel (fun value found => (value == found) = true)
      (env.get? name) (other.get? name) := by
    intro name free
    have mentioned : name ∈ ["f", "f"] := free
    obtain rfl : name = "f" := by simpa using mentioned
    exact .some rfl
  exact ⟨agree, unmentioned_bindings_are_irrelevant.1 term env other agree⟩

end LambdaTutor
