import LambdaTutor.Level.Curriculum
import LambdaTutor.Proofs.Evaluation.Relevance
import LambdaTutor.Proofs.Level.Judge

/-!
# Equal values cannot be told apart

Equal environments may differ in the order of their bindings, in bindings that were shadowed and in
what they share. None of that reaches the outside: the operations on environments take equal
arguments to equal results, equality is a `RunRelation`, and equal closures are read back as the
very same term.
-/

namespace LambdaTutor

namespace Environment

variable {env other : Environment}

/-- Binding a name to equal closures keeps environments equal. -/
theorem extend_equal (envs : (env == other) = true) {value found : Closure}
    (values : (value == found) = true) (name : String) :
    (env.extend name value == other.extend name found) = true := by
  rw [equal_iff] at envs ⊢
  intro looked
  by_cases same : looked = name
  · simpa [same] using values
  · simpa [same] using envs looked

/-- Keeping the bindings of some names keeps environments equal. -/
theorem filter_equal (envs : (env == other) = true) (keep : String → Bool) :
    (env.filter keep == other.filter keep) = true := by
  rw [equal_iff] at envs ⊢
  intro name
  by_cases kept : keep name = true
  · simpa [kept] using envs name
  · simp [kept]

end Environment

/-- Equal closures are read back as the same term, whatever names are kept symbolic. -/
theorem Closure.readback_eq_of_equal (symbolic : List String) (closure other : Closure)
    (equal : (closure == other) = true) : closure.readback symbolic = other.readback symbolic :=
  closure.readback_eq_of_alike symbolic other (closure.alike_of_equal other equal)

/-- Equal closures are rendered as the same text. -/
theorem Closure.render_eq_of_equal (symbolic : List String) {closure other : Closure}
    (equal : (closure == other) = true) : closure.render symbolic = other.render symbolic := by
  rw [Closure.render, Closure.render, closure.readback_eq_of_equal symbolic other equal]

/-- Equality relates the runs of a term in equal environments. -/
def RunRelation.equality : RunRelation where
  OnTerm _ env other := (env == other) = true
  OnValues closure other := (closure == other) = true
  lookup := fun envs => Environment.equal_iff.mp envs _
  capture := fun envs => Closure.equal_iff.mpr ⟨rfl, rfl, envs⟩
  fn := id
  arg := id
  call := by
    intro fn otherFn arg otherArg fns args
    obtain ⟨params, bodies, envs⟩ := Closure.equal_iff.mp fns
    refine ⟨bodies, ?_⟩
    rw [params]
    exact Environment.extend_equal envs args otherFn.param

/-- Equal values cannot be told apart. In equal environments a term's runs end alike, and so do the
calls of equal closures with equal arguments: both runs exhaust their bound, both fail with the same
error or both return equal closures. All operations on environments respect equality, and equal
closures are rendered as the same text, so a passed test shows the same text on both sides. -/
theorem equal_values_behave_alike :
    (∀ (depth : Nat) (term : Term) (env other : Environment), (env == other) = true →
      Outcome.Rel (fun closure found => (closure == found) = true) (term.eval depth env)
        (term.eval depth other)) ∧
    (∀ (depth : Nat) (fn otherFn arg otherArg : Closure), (fn == otherFn) = true →
      (arg == otherArg) = true →
      Outcome.Rel (fun closure found => (closure == found) = true) (fn.apply depth arg)
        (otherFn.apply depth otherArg)) ∧
    (∀ env other : Environment, (env == other) = true →
      (∀ (name : String) (value found : Closure), (value == found) = true →
        (env.extend name value == other.extend name found) = true) ∧
      (∀ name, (env.without name == other.without name) = true) ∧
      (∀ names, (env.withoutAll names == other.withoutAll names) = true) ∧
      ∀ names, (env.restrictTo names == other.restrictTo names) = true) ∧
    (∀ closure other : Closure, (closure == other) = true →
      ∀ symbolic, closure.render symbolic = other.render symbolic) ∧
    ∀ (level : Level) (depth : Nat) (scope : Environment) (solution : Closure) (test : LevelTest)
      (index : Nat), level.judgeTest depth scope solution test index = .value .passed →
      ∃ args expected actual,
        List.Forall₂ (fun input arg => evaluate depth input scope = .value arg) test.inputs args ∧
        evaluate depth test.output scope = .value expected ∧
        solution.applyAll depth args = .value actual ∧
        ∀ symbolic, actual.render symbolic = expected.render symbolic := by
  refine ⟨?_, ?_, ?_, ?_, ?_⟩
  · intro depth term env other envs
    exact RunRelation.equality.eval envs depth
  · intro depth fn otherFn arg otherArg fns args
    exact RunRelation.equality.apply fns args depth
  · intro env other envs
    exact ⟨fun name _ _ values => Environment.extend_equal envs values name,
      fun _ => Environment.filter_equal envs _, fun _ => Environment.filter_equal envs _,
      fun _ => Environment.filter_equal envs _⟩
  · intro closure other equal symbolic
    exact Closure.render_eq_of_equal symbolic equal
  · intro level depth scope solution test index passed
    obtain ⟨args, expected, inputs, output, verdict⟩ := Level.judgeTest_eq_value_iff.mp passed
    obtain ⟨actual, applied, equal⟩ := Level.verdict_eq_passed_iff.mp verdict
    exact ⟨args, expected, actual, inputs, output, applied,
      fun symbolic => Closure.render_eq_of_equal symbolic equal⟩

/-- Two environments that bind the same names in another order, one of them with a binding that is
shadowed. -/
theorem equal_values_behave_alike_reordered :
    let identity : Closure := .mk "a" (.var "a") .empty
    let constant : Closure := .mk "a" (.lam "b" (.var "a")) .empty
    let env : Environment := .extend (.extend .empty "x" identity) "y" constant
    let other : Environment :=
      .extend (.extend (.extend .empty "y" identity) "y" constant) "x" identity
    (env == other) = true ∧
    Outcome.Rel (fun closure found => (closure == found) = true)
      ((Term.app (.var "y") (.lam "z" (.var "x"))).eval 2 env)
      ((Term.app (.var "y") (.lam "z" (.var "x"))).eval 2 other) ∧
    Outcome.Rel (fun closure found => (closure == found) = true)
      ((Closure.mk "z" (.var "x") env).apply 1 identity)
      ((Closure.mk "z" (.var "x") other).apply 1 identity) ∧
    (env.extend "z" identity == other.extend "z" identity) = true ∧
    (env.without "x" == other.without "x") = true ∧
    (env.withoutAll ["y"] == other.withoutAll ["y"]) = true ∧
    (env.restrictTo ["y"] == other.restrictTo ["y"]) = true ∧
    (Closure.mk "z" (.var "x") env).render ["y"] = (Closure.mk "z" (.var "x") other).render ["y"] ∧
    ∃ args expected actual,
      List.Forall₂ (fun input arg => evaluate 2 input .empty = .value arg) ["(\\y.y)"] args ∧
      evaluate 2 "(\\y.y)" .empty = .value expected ∧ identity.applyAll 2 args = .value actual ∧
      ∀ symbolic, actual.render symbolic = expected.render symbolic := by
  intro identity constant env other
  obtain ⟨onEval, onApply, onOperations, onRender, onTests⟩ := equal_values_behave_alike
  have envs : (env == other) = true := rfl
  have closures : (Closure.mk "z" (.var "x") env == .mk "z" (.var "x") other) = true := rfl
  have passed : identityLevel.judgeTest 2 .empty identity ⟨["(\\y.y)"], "(\\y.y)"⟩ 0 =
      .value .passed := rfl
  obtain ⟨extended, without, withoutAll, restricted⟩ := onOperations env other envs
  exact ⟨envs, onEval 2 _ env other envs, onApply 1 _ _ identity identity closures BEq.rfl,
    extended "z" identity identity BEq.rfl, without "x", withoutAll ["y"], restricted ["y"],
    onRender _ _ closures ["y"], onTests identityLevel 2 .empty identity _ 0 passed⟩

end LambdaTutor
