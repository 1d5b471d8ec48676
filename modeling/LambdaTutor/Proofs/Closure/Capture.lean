import LambdaTutor.Proofs.Closure.Readback
import LambdaTutor.Proofs.Evaluation.Code
import LambdaTutor.Source

/-!
# Names that reading back captures

Reading a closure back puts the terms of bound closures in the place of names and renames nothing.
A name that such a term leaves open is therefore caught by an abstraction around the place, when it
takes a parameter of the same name, and by nothing else. The free names of the term that is read
back are exactly the exposed names: the unresolved ones that are found on a way past all those
abstractions.
-/

namespace LambdaTutor

namespace Term

variable {term : Term} {caught name : String}

/-- What is free outside of some abstractions is free. -/
theorem mem_freeNames_of_mem_freeNamesOutside (free : name ∈ term.freeNamesOutside caught) :
    name ∈ term.freeNames := by
  induction term with
  | var other => simpa using free
  | lam param body ih =>
    obtain ⟨free, different, -⟩ := mem_freeNamesOutside_lam.mp free
    exact mem_freeNames_lam.mpr ⟨ih free, different⟩
  | app fn arg fnIh argIh =>
    exact mem_freeNames_app.mpr ((mem_freeNamesOutside_app.mp free).imp fnIh argIh)

/-- Without an abstraction of the parameter every free name is free outside of them. -/
theorem mem_freeNamesOutside_of_mem_freeNames (free : name ∈ term.freeNames)
    (uncaught : ∀ param body, lam param body ∈ term.lambdas → param ≠ caught) :
    name ∈ term.freeNamesOutside caught := by
  induction term with
  | var other => simpa using free
  | lam param body ih =>
    obtain ⟨free, different⟩ := mem_freeNames_lam.mp free
    have inner : name ∈ body.freeNamesOutside caught :=
      ih free fun param _ member => uncaught param _ (List.mem_cons_of_mem _ member)
    exact mem_freeNamesOutside_lam.mpr
      ⟨inner, different, uncaught param body List.mem_cons_self⟩
  | app fn arg fnIh argIh =>
    refine mem_freeNamesOutside_app.mpr ((mem_freeNames_app.mp free).imp ?_ ?_)
    · intro free
      exact fnIh free fun param _ member => uncaught param _ (List.mem_append_left _ member)
    · intro free
      exact argIh free fun param _ member => uncaught param _ (List.mem_append_right _ member)

/-- The free names of a resolved term are those that the environment leaves alone and those of the
terms put in that no parameter catches. -/
theorem mem_freeNames_resolve_iff {env : Environment} {symbolic : List String} :
    name ∈ (term.resolve env symbolic).freeNames ↔
      (name ∈ term.freeNames ∧ env.get? name = none) ∨
        ∃ binder value, binder ∈ term.freeNamesOutside name ∧ env.get? binder = some value ∧
          name ∈ (value.readback symbolic).freeNames := by
  simp only [resolve, mem_freeNames_replace_iff, Environment.readback?_eq, Option.map_eq_none_iff,
    Option.map_eq_some_iff]
  refine or_congr_right ⟨?_, ?_⟩
  · rintro ⟨binder, _, free, ⟨value, bound, rfl⟩, inner⟩
    exact ⟨binder, value, free, bound, inner⟩
  · rintro ⟨binder, value, free, bound, inner⟩
    exact ⟨binder, _, free, ⟨value, bound, rfl⟩, inner⟩

end Term

namespace Closure

variable {name : String}

/-- A name is free in the term that a closure is read back as exactly when it is exposed. -/
theorem mem_freeNames_readback_iff (closure : Closure) :
    name ∈ (closure.readback []).freeNames ↔ closure.Exposed name := by
  induction closure using Closure.bound_induction with
  | step closure ih =>
    rw [Closure.readback_nil, Term.mem_freeNames_resolve_iff]
    constructor
    · rintro (⟨free, unbound⟩ | ⟨binder, value, free, bound, inner⟩)
      · exact .here free unbound
      · exact .inside free bound ((ih binder value bound).mp inner)
    · intro exposed
      cases exposed with
      | here free unbound => exact .inl ⟨free, unbound⟩
      | inside free bound exposed =>
        exact .inr ⟨_, _, free, bound, (ih _ _ bound).mpr exposed⟩

/-- Only unresolved names are exposed. -/
theorem Exposed.unresolved {closure : Closure} (exposed : closure.Exposed name) :
    closure.Unresolved name := by
  induction exposed with
  | here free unbound => exact .here free unbound
  | inside free bound _ ih =>
    exact .inside (Term.mem_freeNames_of_mem_freeNamesOutside free) bound ih

/-- An unresolved name is exposed when no abstraction in sight takes it as a parameter. -/
theorem Unresolved.exposed {closure : Closure} (unresolved : closure.Unresolved name)
    (uncaught : ∀ target, closure.Reaches target → ∀ param body,
      .lam param body ∈ target.lambda.lambdas → param ≠ name) : closure.Exposed name := by
  induction unresolved with
  | here free unbound => exact .here free unbound
  | inside free bound _ ih =>
    have outside := Term.mem_freeNamesOutside_of_mem_freeNames free (uncaught _ (.refl _))
    exact .inside outside bound (ih fun target reaches => uncaught target (.step bound reaches))

end Closure

/-- Reading back captures. The value of a source text can leave a name unresolved that is not free
in the term it is read back as, because a parameter of the same name stands around it. -/
theorem readback_captures :
    ¬ ∀ (depth : Nat) (text : String) (closure : Closure),
      evaluate depth text .empty = .value closure →
        ∀ name, name ∈ (closure.readback []).freeNames ↔ closure.Unresolved name := by
  intro exactly
  let closure : Closure := .mk "z" (.var "a") (.extend .empty "a" (.mk "q" (.var "z") .empty))
  have run : evaluate 3 "((\\a.(\\z.a)) (\\q.z))" .empty = .value closure := rfl
  have unresolved : closure.Unresolved "z" :=
    .inside List.mem_cons_self rfl (.here List.mem_cons_self rfl)
  have closed : (closure.readback []).freeNames = [] := rfl
  have free := (exactly 3 _ closure run "z").mpr unresolved
  rw [closed] at free
  cases free

/-- What stays free when a closure is read back. The free names of the term are exactly the exposed
names: names that a closure leaves unresolved, found along variables that stand outside of every
abstraction of that very name. So a free name is always an unresolved one; and an unresolved name
that is no parameter of an abstraction in the closures that are reached is always free. -/
theorem readback_frees_exposed_names :
    (∀ (closure : Closure) (name : String),
      name ∈ (closure.readback []).freeNames ↔ closure.Exposed name) ∧
    (∀ (closure : Closure) (name : String),
      name ∈ (closure.readback []).freeNames → closure.Unresolved name) ∧
    ∀ (closure : Closure) (name : String),
      (∀ target, closure.Reaches target → ∀ param body,
        .lam param body ∈ target.lambda.lambdas → param ≠ name) →
      closure.Unresolved name → name ∈ (closure.readback []).freeNames := by
  refine ⟨?_, ?_, ?_⟩
  · intro closure name
    exact closure.mem_freeNames_readback_iff
  · intro closure name free
    exact (closure.mem_freeNames_readback_iff.mp free).unresolved
  · intro closure name uncaught unresolved
    exact closure.mem_freeNames_readback_iff.mpr (unresolved.exposed uncaught)

/-- Of two names that a captured closure leaves unresolved one is caught and one is not. -/
theorem readback_frees_exposed_names_mixed :
    let inner : Closure := .mk "q" (.app (.var "z") (.var "w")) .empty
    let closure : Closure := .mk "z" (.var "a") (.extend .empty "a" inner)
    closure.readback [] = .lam "z" (.lam "q" (.app (.var "z") (.var "w"))) ∧
    (∀ target, closure.Reaches target → ∀ param body,
      .lam param body ∈ target.lambda.lambdas → param ≠ "w") ∧
    closure.Exposed "w" ∧ ¬ closure.Exposed "z" ∧ closure.Unresolved "w" ∧
    "w" ∈ (closure.readback []).freeNames := by
  intro inner closure
  have unresolved : closure.Unresolved "w" :=
    .inside List.mem_cons_self rfl (.here (by decide) rfl)
  have uncaught : ∀ target, closure.Reaches target → ∀ param body,
      .lam param body ∈ target.lambda.lambdas → param ≠ "w" := by
    intro target reaches param body member
    rcases Closure.reaches_iff.mp reaches with rfl | reaches
    · cases List.mem_singleton.mp member
      decide
    · rcases reaches.of_extend with reaches | ⟨_, _, bound, _⟩
      · rcases Closure.reaches_iff.mp reaches with rfl | ⟨_, _, bound, _⟩
        · cases List.mem_singleton.mp member
          decide
        · cases bound
      · cases bound
  obtain ⟨exactly, -, free⟩ := readback_frees_exposed_names
  have found := free closure "w" uncaught unresolved
  exact ⟨rfl, uncaught, (exactly closure "w").mp found,
    fun exposed => absurd ((exactly closure "z").mpr exposed) (by decide), unresolved, found⟩

end LambdaTutor
