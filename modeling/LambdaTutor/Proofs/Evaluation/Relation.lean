import LambdaTutor.Evaluation
import LambdaTutor.Proofs.Closure.Lookup
import Mathlib.Data.List.Forall2

/-!
# Pairs of runs

One term is run in two environments. `Outcome.Rel` says that the two runs end alike: with related
values, with the same error, or both with the bound exhausted.

A `RunRelation` states what relates the two environments at every visit and the closures that the
two runs make, with one condition for each thing a run can do. `RunRelation.eval` carries it to the
ends of both. The runs keep step, so one of them ends within a bound exactly when the other does.
-/

namespace LambdaTutor

/-- Two computations end alike, with values that are related if they have values. -/
inductive Outcome.Rel {ε α β : Type} (related : α → β → Prop) :
    Outcome ε α → Outcome ε β → Prop where
  | value {first : α} {second : β} (values : related first second) :
      Rel related (.value first) (.value second)
  | error (cause : ε) : Rel related (.error cause) (.error cause)
  | exhausted : Rel related .exhausted .exhausted

/-- Computations that end alike do so under any relation that their values are known to have. -/
theorem Outcome.Rel.mono {ε α β : Type} {related implied : α → β → Prop} {first : Outcome ε α}
    {second : Outcome ε β} (ends : Rel related first second)
    (implies : ∀ value other, related value other → implied value other) :
    Rel implied first second := by
  cases ends with
  | value values => exact .value (implies _ _ values)
  | error cause => exact .error cause
  | exhausted => exact .exhausted

/-- Sequences end alike when their first parts do and the rest does after related values. -/
theorem Outcome.Rel.bind {ε α β γ δ : Type} {related : α → β → Prop} {atEnd : γ → δ → Prop}
    {first : Outcome ε α} {second : Outcome ε β} {next : α → Outcome ε γ}
    {otherNext : β → Outcome ε δ} (firsts : Rel related first second)
    (rest : ∀ value other, related value other → Rel atEnd (next value) (otherNext other)) :
    Rel atEnd (first >>= next) (second >>= otherNext) := by
  cases firsts with
  | value values => exact rest _ _ values
  | error cause => exact .error cause
  | exhausted => exact .exhausted

/-- Computations that end alike do so when their errors are restated. -/
theorem Outcome.Rel.mapError {ε ε' α β : Type} {related : α → β → Prop} {first : Outcome ε α}
    {second : Outcome ε β} (ends : Rel related first second) (restate : ε → ε') :
    Rel related (first.mapError restate) (second.mapError restate) := by
  cases ends with
  | value values => exact .value values
  | error cause => exact .error (restate cause)
  | exhausted => exact .exhausted

/-- Computations over a list end alike when they do so for every item. -/
theorem Outcome.Rel.mapM {ε α β γ : Type} {related : β → γ → Prop} {compute : α → Outcome ε β}
    {otherCompute : α → Outcome ε γ}
    (each : ∀ item, Rel related (compute item) (otherCompute item)) (items : List α) :
    Rel (List.Forall₂ related) (items.mapM compute) (items.mapM otherCompute) := by
  induction items with
  | nil => exact .value .nil
  | cons item items ih =>
    rw [List.mapM_cons, List.mapM_cons]
    refine (each item).bind fun value other values => ?_
    exact ih.bind fun _ _ rest => .value (.cons values rest)

/-- A computation ends as it does itself. -/
theorem Outcome.Rel.refl {ε α : Type} (outcome : Outcome ε α) : Rel Eq outcome outcome := by
  cases outcome with
  | value result => exact .value rfl
  | error cause => exact .error cause
  | exhausted => exact .exhausted

/-- Computations that end alike with the same values are the same. -/
theorem Outcome.Rel.eq {ε α : Type} {first second : Outcome ε α} (ends : Rel Eq first second) :
    first = second := by
  cases ends with
  | value values => rw [values]
  | error cause => rfl
  | exhausted => rfl

/-- Computations that end alike fail alike. -/
theorem Outcome.Rel.eq_error_iff {ε α β : Type} {related : α → β → Prop} {first : Outcome ε α}
    {second : Outcome ε β} (ends : Rel related first second) {cause : ε} :
    first = .error cause ↔ second = .error cause := by
  cases ends <;> simp

/-- Computations that end alike exhaust their bounds together. -/
theorem Outcome.Rel.eq_exhausted_iff {ε α β : Type} {related : α → β → Prop} {first : Outcome ε α}
    {second : Outcome ε β} (ends : Rel related first second) :
    first = .exhausted ↔ second = .exhausted := by
  cases ends <;> simp

/-- A relation between two runs of one term that no part of the runs can break. -/
structure RunRelation where
  OnTerm : Term → Environment → Environment → Prop
  OnValues : Closure → Closure → Prop
  /-- Looking a name up finds related closures, or none on either side. -/
  lookup : ∀ {name env other}, OnTerm (.var name) env other →
    Option.Rel OnValues (env.get? name) (other.get? name)
  /-- An abstraction captures the environments in force. -/
  capture : ∀ {param body env other}, OnTerm (.lam param body) env other →
    OnValues (.mk param body env) (.mk param body other)
  /-- The function of an application is evaluated where the application is. -/
  fn : ∀ {fn arg env other}, OnTerm (.app fn arg) env other → OnTerm fn env other
  /-- So is its argument. -/
  arg : ∀ {fn arg env other}, OnTerm (.app fn arg) env other → OnTerm arg env other
  /-- Related closures have one body, and calls of them evaluate it in related environments. -/
  call : ∀ {fn otherFn arg otherArg : Closure}, OnValues fn otherFn → OnValues arg otherArg →
    fn.body = otherFn.body ∧
      OnTerm fn.body (fn.env.extend fn.param arg) (otherFn.env.extend otherFn.param otherArg)

namespace RunRelation

variable (relation : RunRelation) {term : Term} {env other : Environment}

/-- Two runs of a term that start within the relation end alike. -/
theorem eval (holds : relation.OnTerm term env other) (depth : Nat) :
    Outcome.Rel relation.OnValues (term.eval depth env) (term.eval depth other) := by
  induction depth generalizing term env other with
  | zero => exact .exhausted
  | succ depth ih =>
    cases term with
    | var name =>
      rw [Term.eval_succ_var, Term.eval_succ_var]
      rcases Environment.rel_get?_iff.mp (relation.lookup holds) with
        ⟨unbound, otherUnbound⟩ | ⟨value, found, lookup, otherLookup, values⟩
      · rw [unbound, otherUnbound]
        exact .error _
      · rw [lookup, otherLookup]
        exact .value values
    | lam param body => exact .value (relation.capture holds)
    | app fn arg =>
      rw [Term.eval_succ_app, Term.eval_succ_app]
      refine (ih (relation.fn holds)).bind fun fnValue otherFn fns => ?_
      refine (ih (relation.arg holds)).bind fun argValue otherArg args => ?_
      obtain ⟨bodies, called⟩ := relation.call fns args
      rw [Closure.apply, Closure.apply, ← bodies]
      exact ih called

/-- Calls of related closures with related arguments end alike. -/
theorem apply {fn otherFn arg otherArg : Closure} (fns : relation.OnValues fn otherFn)
    (args : relation.OnValues arg otherArg) (depth : Nat) :
    Outcome.Rel relation.OnValues (fn.apply depth arg) (otherFn.apply depth otherArg) := by
  obtain ⟨bodies, called⟩ := relation.call fns args
  rw [Closure.apply, Closure.apply, ← bodies]
  exact relation.eval called depth

/-- So do calls with several arguments. -/
theorem applyAll {fn otherFn : Closure} {args otherArgs : List Closure}
    (fns : relation.OnValues fn otherFn) (related : List.Forall₂ relation.OnValues args otherArgs)
    (depth : Nat) :
    Outcome.Rel relation.OnValues (fn.applyAll depth args) (otherFn.applyAll depth otherArgs) := by
  induction related generalizing fn otherFn with
  | nil => exact .value fns
  | cons arg _ ih =>
    rw [Closure.applyAll, Closure.applyAll, List.foldlM_cons, List.foldlM_cons]
    exact (relation.apply fns arg depth).bind fun _ _ results => ih results

end RunRelation

end LambdaTutor
