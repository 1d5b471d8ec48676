import LambdaTutor.Closure.Scope
import LambdaTutor.Proofs.Closure.Lookup
import LambdaTutor.Proofs.Evaluation.Invariant

/-!
# Runs write no code

A run evaluates no abstraction that was not there when it started: whatever a closure holds was
written in the term or in a closure that the environment reaches. `RunInvariant.codeWithin` states
this for any property of abstractions.
-/

namespace LambdaTutor

/-- A closure reaches itself and what its captured environment reaches. -/
theorem Closure.reaches_iff {closure target : Closure} :
    closure.Reaches target ↔ closure = target ∨ closure.env.Reaches target := by
  constructor
  · intro reaches
    cases reaches with
    | refl => exact .inl rfl
    | step bound reaches => exact .inr ⟨_, _, bound, reaches⟩
  · rintro (rfl | ⟨binder, value, bound, reaches⟩)
    · exact .refl closure
    · exact .step bound reaches

/-- An extended environment reaches no more than the new value and the environment before. -/
theorem Environment.Reaches.of_extend {env : Environment} {name : String} {value target : Closure}
    (reaches : (env.extend name value).Reaches target) :
    value.Reaches target ∨ env.Reaches target := by
  obtain ⟨binder, found, bound, reaches⟩ := reaches
  rcases get?_extend_eq_some_iff.mp bound with ⟨-, rfl⟩ | ⟨-, bound⟩
  · exact .inl reaches
  · exact .inr ⟨binder, found, bound, reaches⟩

/-- Every abstraction in a closure, and in the closures that it reaches, is allowed. -/
def Closure.CodeWithin (allowed : Term → Prop) (closure : Closure) : Prop :=
  ∀ target, closure.Reaches target → ∀ lambda ∈ target.lambda.lambdas, allowed lambda

/-- Every abstraction in the closures that an environment reaches is allowed. -/
def Environment.CodeWithin (allowed : Term → Prop) (env : Environment) : Prop :=
  ∀ target, env.Reaches target → ∀ lambda ∈ target.lambda.lambdas, allowed lambda

/-- A closure's code is that of its abstraction and that of its environment. -/
theorem Closure.codeWithin_iff {allowed : Term → Prop} {closure : Closure} :
    closure.CodeWithin allowed ↔
      (∀ lambda ∈ closure.lambda.lambdas, allowed lambda) ∧ closure.env.CodeWithin allowed := by
  constructor
  · intro within
    exact ⟨within closure (.refl closure),
      fun target reaches => within target (Closure.reaches_iff.mpr (.inr reaches))⟩
  · rintro ⟨here, inside⟩ target reaches
    rcases Closure.reaches_iff.mp reaches with rfl | reaches
    · exact here
    · exact inside target reaches

/-- Abstractions are all allowed, in the term and in everything that its environment reaches. -/
def RunInvariant.codeWithin (allowed : Term → Prop) : RunInvariant where
  OnTerm term env := (∀ lambda ∈ term.lambdas, allowed lambda) ∧ env.CodeWithin allowed
  OnValue := Closure.CodeWithin allowed
  lookup := fun within bound target reaches => within.2 target ⟨_, _, bound, reaches⟩
  capture := fun within => Closure.codeWithin_iff.mpr within
  fn := fun within =>
    ⟨fun lambda member => within.1 lambda (List.mem_append_left _ member), within.2⟩
  arg := fun within =>
    ⟨fun lambda member => within.1 lambda (List.mem_append_right _ member), within.2⟩
  call := by
    intro fn arg onFn onArg
    obtain ⟨here, inside⟩ := Closure.codeWithin_iff.mp onFn
    refine ⟨fun lambda member => here lambda (List.mem_cons_of_mem _ member), ?_⟩
    intro target reaches
    rcases reaches.of_extend with reaches | reaches
    · exact onArg target reaches
    · exact inside target reaches

end LambdaTutor
