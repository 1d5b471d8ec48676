import LambdaTutor.Closure.Readback
import LambdaTutor.Closure.Scope
import LambdaTutor.Proofs.Closure.Lookup

/-!
# Symbolic names are forgotten names

A name is kept symbolic by not looking it up, in any closure that is read back on the way. So
nothing is lost when the bindings of the name are not there at all: keeping names symbolic is
forgetting them everywhere (`Closure.readback_strip`). Reading back then depends on a list of
symbolic names only through those of them that some captured environment binds
(`Closure.readback_congr_symbolic`).
-/

namespace LambdaTutor

namespace Closure

/-- A closure is read back through the bindings of its environment. -/
theorem readback_mk (param : String) (body : Term) (env : Environment) (symbolic : List String) :
    (mk param body env).readback symbolic =
      .lam param (body.replace fun name =>
        if name = param ∨ name ∈ symbolic then none
        else (env.get? name).map (readback symbolic)) := by
  simp only [readback, Environment.readback?_eq]

/-- Names that a closure has forgotten are kept symbolic, and so are those that are kept symbolic in
what is left. -/
theorem readback_strip (forgotten symbolic : List String) (closure : Closure) :
    (closure.strip forgotten).readback symbolic = closure.readback (forgotten ++ symbolic) := by
  induction closure using bound_induction with
  | step closure ih =>
    obtain ⟨param, body, env⟩ := closure
    rw [strip, readback_mk, readback_mk]
    congr 2
    funext name
    rw [Environment.get?_strip]
    by_cases member : name ∈ forgotten
    · simp [member]
    · cases bound : env.get? name with
      | none => simp
      | some value => simp [member, ih name value bound]

/-- Lists of symbolic names that differ in names no captured environment binds are kept alike. -/
theorem readback_congr_symbolic {symbolic others : List String} (closure : Closure)
    (agree : ∀ target, closure.Reaches target → ∀ name, target.env.contains name = true →
      (name ∈ symbolic ↔ name ∈ others)) :
    closure.readback symbolic = closure.readback others := by
  induction closure using bound_induction with
  | step closure ih =>
    obtain ⟨param, body, env⟩ := closure
    rw [readback_mk, readback_mk]
    congr 2
    funext name
    cases bound : env.get? name with
    | none => simp
    | some value =>
      have here : name ∈ symbolic ↔ name ∈ others :=
        agree _ (.refl _) name (by simp [Environment.contains, bound])
      have inside : value.readback symbolic = value.readback others :=
        ih name value bound fun target reaches => agree target (.step bound reaches)
      simp only [here, inside, Option.map_some]

end Closure

/-- Keeping names symbolic is deleting them everywhere. A stripped closure has the abstraction of
the closure, and its environment binds the names that are not forgotten to stripped closures. A
closure is read back with symbolic names as the stripped closure is without any, so it is rendered
as the same text. Only the set of the symbolic names counts, not their order or number, and names
that no captured environment binds can be left out of it. -/
theorem symbolic_names_are_deleted (closure : Closure) :
    (∀ forgotten, (closure.strip forgotten).lambda = closure.lambda ∧
      ∀ name, (closure.strip forgotten).env.get? name =
        if name ∈ forgotten then none
        else (closure.env.get? name).map (Closure.strip forgotten)) ∧
    (∀ symbolic, closure.readback symbolic = (closure.strip symbolic).readback [] ∧
      closure.render symbolic = (closure.strip symbolic).render []) ∧
    (∀ symbolic others : List String, (∀ name, name ∈ symbolic ↔ name ∈ others) →
      closure.render symbolic = closure.render others) ∧
    ∀ symbolic unbound : List String,
      (∀ target, closure.Reaches target → ∀ name ∈ unbound, target.env.contains name = false) →
      closure.render (unbound ++ symbolic) = closure.render symbolic := by
  have read (symbolic : List String) :
      closure.readback symbolic = (closure.strip symbolic).readback [] := by
    rw [Closure.readback_strip, List.append_nil]
  refine ⟨?_, ?_, ?_, ?_⟩
  · intro forgotten
    obtain ⟨param, body, env⟩ := closure
    exact ⟨rfl, env.get?_strip forgotten⟩
  · intro symbolic
    exact ⟨read symbolic, congrArg Term.print (read symbolic)⟩
  · intro symbolic others same
    have alike := closure.readback_congr_symbolic fun _ _ name _ => same name
    exact congrArg Term.print alike
  · intro symbolic unbound absent
    have alike : closure.readback (unbound ++ symbolic) = closure.readback symbolic := by
      refine closure.readback_congr_symbolic fun target reaches name bound => ?_
      rw [List.mem_append, or_iff_right]
      intro member
      rw [absent target reaches name member] at bound
      cases bound
    exact congrArg Term.print alike

/-- A builtin that is kept symbolic inside of a closure that is put in, named twice and beside a
name that is bound nowhere. -/
theorem symbolic_names_are_deleted_inlined :
    let zero : Closure := .mk "f" (.lam "x" (.var "x")) .empty
    let constant : Closure := .mk "u" (.var "zero") (.extend .empty "zero" zero)
    let closure : Closure := .mk "v" (.var "w") (.extend (.extend .empty "zero" zero) "w" constant)
    closure.render [] = "(\\v.(\\u.(\\f.(\\x.x))))" ∧
    closure.render ["zero"] = "(\\v.(\\u.zero))" ∧
    (closure.strip ["zero"]).render [] = "(\\v.(\\u.zero))" ∧
    closure.render ["zero", "zero"] = "(\\v.(\\u.zero))" ∧
    closure.render ["one", "zero"] = "(\\v.(\\u.zero))" := by
  intro zero constant closure
  obtain ⟨-, stripped, asSet, unbound⟩ := symbolic_names_are_deleted closure
  have rendered : closure.render ["zero"] = "(\\v.(\\u.zero))" := rfl
  have absent : ∀ target, closure.Reaches target → ∀ name ∈ ["one"],
      target.env.contains name = false := by
    intro target reaches name member
    obtain rfl : name = "one" := by simpa using member
    cases reaches with
    | refl => rfl
    | step bound reaches =>
      rcases Environment.get?_extend_eq_some_iff.mp bound with ⟨-, rfl⟩ | ⟨-, bound⟩
      · cases reaches with
        | refl => rfl
        | step bound reaches =>
          rcases Environment.get?_extend_eq_some_iff.mp bound with ⟨-, rfl⟩ | ⟨-, bound⟩
          · cases reaches with
            | refl => rfl
            | step bound _ => cases bound
          · cases bound
      · rcases Environment.get?_extend_eq_some_iff.mp bound with ⟨-, rfl⟩ | ⟨-, bound⟩
        · cases reaches with
          | refl => rfl
          | step bound _ => cases bound
        · cases bound
  refine ⟨rfl, rendered, ?_, ?_, ?_⟩
  · rw [← (stripped ["zero"]).2, rendered]
  · rw [asSet ["zero", "zero"] ["zero"] (by simp), rendered]
  · rw [← rendered]
    exact unbound ["zero"] ["one"] absent

end LambdaTutor
