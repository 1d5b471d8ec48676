import LambdaTutor.Closure

/-!
# Lookups

An environment is used through `get?` alone, so a property of closures is carried from the closures
that can be looked up to the closure that captured them, and two environments are related name by
name. `Closure.bound_induction` is the induction that fits both.
-/

namespace LambdaTutor

namespace Environment

/-- What a name is bound to in an extended environment. -/
theorem get?_extend_eq_some_iff {env : Environment} {bound name : String} {value found : Closure} :
    (env.extend bound value).get? name = some found ↔
      (name = bound ∧ value = found) ∨ (name ≠ bound ∧ env.get? name = some found) := by
  by_cases same : name = bound <;> simp [same]

/-- Which names are unbound in an extended environment. -/
theorem get?_extend_eq_none_iff {env : Environment} {bound name : String} {value : Closure} :
    (env.extend bound value).get? name = none ↔ name ≠ bound ∧ env.get? name = none := by
  by_cases same : name = bound <;> simp [same]

end Environment

mutual

/-- What holds of a closure when it holds of everything that its environment binds, holds of every
closure. -/
theorem Closure.bound_induction {motive : Closure → Prop}
    (step : ∀ closure : Closure,
      (∀ name value, closure.env.get? name = some value → motive value) → motive closure) :
    (closure : Closure) → motive closure
  | .mk param body env => step (.mk param body env) (Environment.bound_induction step env)

/-- So it holds of everything that an environment binds. -/
theorem Environment.bound_induction {motive : Closure → Prop}
    (step : ∀ closure : Closure,
      (∀ name value, closure.env.get? name = some value → motive value) → motive closure) :
    (env : Environment) → ∀ name value, env.get? name = some value → motive value
  | .empty, _, _, found => by cases found
  | .extend env bound value, name, other, found => by
    rcases Environment.get?_extend_eq_some_iff.mp found with ⟨-, rfl⟩ | ⟨-, found⟩
    · exact Closure.bound_induction step value
    · exact Environment.bound_induction step env name other found

end

/-- Two lookups agree when both find nothing or both find related closures. -/
theorem Environment.rel_get?_iff {related : Closure → Closure → Prop} {env other : Environment}
    {name : String} :
    Option.Rel related (env.get? name) (other.get? name) ↔
      (env.get? name = none ∧ other.get? name = none) ∨
        ∃ value found, env.get? name = some value ∧ other.get? name = some found ∧
          related value found := by
  cases env.get? name <;> cases other.get? name <;> simp

/-- Where lookups agree, what is found on the left has a partner on the right. -/
theorem Environment.exists_get?_of_rel {related : Closure → Closure → Prop}
    {env other : Environment} {name : String} {value : Closure}
    (agree : Option.Rel related (env.get? name) (other.get? name))
    (lookup : env.get? name = some value) :
    ∃ found, other.get? name = some found ∧ related value found := by
  rcases rel_get?_iff.mp agree with ⟨unbound, -⟩ | ⟨_, found, bound, otherLookup, values⟩
  · rw [unbound] at lookup
    cases lookup
  · rw [bound] at lookup
    cases lookup
    exact ⟨found, otherLookup, values⟩

/-- Where lookups agree, what is found on the right has a partner on the left. -/
theorem Environment.exists_get?_of_rel_right {related : Closure → Closure → Prop}
    {env other : Environment} {name : String} {found : Closure}
    (agree : Option.Rel related (env.get? name) (other.get? name))
    (lookup : other.get? name = some found) :
    ∃ value, env.get? name = some value ∧ related value found := by
  rcases rel_get?_iff.mp agree with ⟨-, unbound⟩ | ⟨value, _, bound, otherLookup, values⟩
  · rw [unbound] at lookup
    cases lookup
  · rw [otherLookup] at lookup
    cases lookup
    exact ⟨value, bound, values⟩

/-- Lookups that agree under one relation agree under any other that holds of what they find. -/
theorem Environment.rel_get?_mono {related implied : Closure → Closure → Prop}
    {env other : Environment} {name : String}
    (agree : Option.Rel related (env.get? name) (other.get? name))
    (implies : ∀ value found, env.get? name = some value → related value found →
      implied value found) :
    Option.Rel implied (env.get? name) (other.get? name) := by
  rcases rel_get?_iff.mp agree with both | ⟨value, found, lookup, otherLookup, values⟩
  · exact rel_get?_iff.mpr (.inl both)
  · exact rel_get?_iff.mpr
      (.inr ⟨value, found, lookup, otherLookup, implies value found lookup values⟩)

/-- Every binding can be replaced by a related one, where there is one. -/
theorem Environment.exists_rel_get? (related : Closure → Closure → Prop) :
    (env : Environment) → ∃ other : Environment, ∀ name,
      (∀ value, env.get? name = some value → ∃ found, related value found) →
        Option.Rel related (env.get? name) (other.get? name)
  | .empty => ⟨.empty, fun _ _ => .none⟩
  | .extend env bound value => by
    obtain ⟨other, agree⟩ := exists_rel_get? related env
    by_cases replaceable : ∃ found, related value found
    · obtain ⟨found, values⟩ := replaceable
      refine ⟨other.extend bound found, fun name total => ?_⟩
      by_cases same : name = bound
      · simpa [same] using values
      · simpa [same] using agree name (by simpa [same] using total)
    · refine ⟨other, fun name total => ?_⟩
      have different : name ≠ bound := by
        rintro rfl
        exact replaceable (total value (by simp))
      simpa [different] using agree name (by simpa [different] using total)

end LambdaTutor
