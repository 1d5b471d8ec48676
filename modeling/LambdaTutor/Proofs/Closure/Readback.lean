import LambdaTutor.Closure.Readback
import LambdaTutor.Closure.Scope

/-!
# Reading back is substitution

Replacement renames nothing, so in general a replacement's own free names can be captured. Closed
replacements cannot be, and hereditarily closed closures are read back as closed terms. Under that
condition `Term.resolve` obeys the laws of substitution: `Term.resolve_extend` says that one more
binding is one more substitution.
-/

namespace LambdaTutor

namespace Term

/-- A closed term is left alone by every replacement. -/
theorem replace_of_closed {term : Term} (closed : term.freeNames = [])
    (replacement : String → Option Term) : term.replace replacement = term := by
  apply replace_eq_self
  intro name free
  rw [closed] at free
  cases free

/-- Two replacements in a row are one, in which the first takes precedence, when nothing that the
first puts in has free names. -/
theorem replace_replace {term : Term} {first second : String → Option Term}
    (closed : ∀ name value, first name = some value → value.freeNames = []) :
    (term.replace first).replace second =
      term.replace fun name => (first name).or (second name) := by
  induction term generalizing first second with
  | var name =>
    cases found : first name with
    | none => simp [replace, found]
    | some value => simpa [replace, found] using replace_of_closed (closed name value found) second
  | lam param body ih =>
    simp only [replace, lam.injEq, true_and]
    rw [ih]
    · apply replace_congr
      intro name _
      by_cases same : name = param <;> simp [same]
    · intro name value found
      by_cases same : name = param
      · simp [same] at found
      · exact closed name value (by simpa [same] using found)
  | app fn arg fnIh argIh => simp only [replace, fnIh closed, argIh closed]

/-- A name is free after a replacement when it was free and is not replaced, or when it is free in
what is put in at a place where no parameter catches it. -/
theorem mem_freeNames_replace_iff {term : Term} {replacement : String → Option Term}
    {name : String} :
    name ∈ (term.replace replacement).freeNames ↔
      (name ∈ term.freeNames ∧ replacement name = none) ∨
        ∃ replaced value, replaced ∈ term.freeNamesOutside name ∧
          replacement replaced = some value ∧ name ∈ value.freeNames := by
  induction term generalizing replacement with
  | var other =>
    cases found : replacement other with
    | none =>
      have kept : name = other → replacement name = none := by
        rintro rfl
        exact found
      simpa [replace, found] using kept
    | some value =>
      have gone : name = other → replacement name ≠ none := by
        rintro rfl
        simp [found]
      simpa [replace, found] using fun same unreplaced => absurd unreplaced (gone same)
  | lam param body ih =>
    have hidden (replaced : String) (value : Term) :
        (if replaced = param then none else replacement replaced) = some value ↔
          replaced ≠ param ∧ replacement replaced = some value := by
      by_cases same : replaced = param <;> simp [same]
    rw [replace, mem_freeNames_lam, mem_freeNames_lam, ih]
    -- A parameter of this very name catches it wherever it is put in.
    by_cases same : name = param
    · simp [same]
    · simp [same, Ne.symm same, hidden, and_assoc]
  | app fn arg fnIh argIh =>
    rw [replace, mem_freeNames_app, mem_freeNames_app, fnIh, argIh]
    simp only [mem_freeNamesOutside_app, or_and_right, exists_or]
    exact or_or_or_comm ..

/-- Closed replacements remove the names they replace and leave the other free names alone. -/
theorem mem_freeNames_replace {term : Term} {replacement : String → Option Term}
    (closed : ∀ name value, replacement name = some value → value.freeNames = []) (name : String) :
    name ∈ (term.replace replacement).freeNames ↔
      name ∈ term.freeNames ∧ replacement name = none := by
  rw [mem_freeNames_replace_iff, or_iff_left]
  rintro ⟨replaced, value, -, found, free⟩
  rw [closed replaced value found] at free
  cases free

variable (env : Environment) (symbolic : List String)

/-- A variable resolves to what it is bound to. -/
theorem resolve_var {name : String} {closure : Closure} (bound : env.get? name = some closure) :
    (var name).resolve env symbolic = closure.readback symbolic := by
  simp [resolve, replace, Environment.readback?_eq, bound]

/-- A parameter hides the binding of its name. -/
theorem resolve_lam (param : String) (body : Term) :
    (lam param body).resolve env symbolic =
      lam param (body.resolve (env.without param) symbolic) := by
  simp only [resolve, replace, lam.injEq, true_and]
  apply replace_congr
  intro name _
  by_cases same : name = param <;> simp [Environment.readback?_eq, Environment.get?_without, same]

theorem resolve_app (fn arg : Term) :
    (app fn arg).resolve env symbolic =
      app (fn.resolve env symbolic) (arg.resolve env symbolic) := rfl

variable {env} in
/-- A term resolves to itself where none of its free names is bound. -/
theorem resolve_of_unbound {term : Term}
    (unbound : ∀ name ∈ term.freeNames, env.get? name = none) :
    term.resolve env symbolic = term := by
  apply replace_eq_self
  intro name free
  rw [Environment.readback?_eq, unbound name free, Option.map_none]

/-- Nothing is replaced where nothing is bound. -/
@[simp] theorem resolve_empty (term : Term) : term.resolve .empty symbolic = term :=
  resolve_of_unbound symbolic fun name _ => Environment.get?_empty name

end Term

/-- With no name kept symbolic a closure is read back as its abstraction, resolved in the captured
environment. -/
theorem Closure.readback_nil (closure : Closure) :
    closure.readback [] = closure.lambda.resolve closure.env [] := by
  cases closure
  simp [Closure.readback, Closure.lambda, Term.resolve, Term.replace]

/-- The names of an environment stand for closed terms when the closures bound there do. -/
theorem Environment.freeNames_readback?_of_bound {env : Environment}
    (closed : ∀ name closure, env.get? name = some closure → (closure.readback []).freeNames = [])
    (name : String) (value : Term) (found : env.readback? [] name = some value) :
    value.freeNames = [] := by
  rw [Environment.readback?_eq, Option.map_eq_some_iff] at found
  obtain ⟨closure, found, rfl⟩ := found
  exact closed name closure found

/-- When the bound closures stand for closed terms, exactly the unbound free names stay free. -/
theorem Term.mem_freeNames_resolve_of_bound {env : Environment}
    (closed : ∀ name closure, env.get? name = some closure → (closure.readback []).freeNames = [])
    (term : Term) (name : String) :
    name ∈ (term.resolve env []).freeNames ↔ name ∈ term.freeNames ∧ env.get? name = none := by
  rw [resolve, mem_freeNames_replace (Environment.freeNames_readback?_of_bound closed),
    Environment.readback?_eq, Option.map_eq_none_iff]

/-- A hereditarily closed closure stands for a closed term. -/
theorem Closure.HereditarilyClosed.freeNames_readback {closure : Closure}
    (closed : closure.HereditarilyClosed) : (closure.readback []).freeNames = [] := by
  induction closed with
  | @intro closure bound _ ih =>
    rw [List.eq_nil_iff_forall_not_mem]
    intro name free
    rw [Closure.readback_nil, Term.mem_freeNames_resolve_of_bound ih] at free
    obtain ⟨free, unbound⟩ := free
    obtain ⟨value, found⟩ := bound name free
    rw [unbound] at found
    cases found

/-- The names of a hereditarily closed environment stand for closed terms. -/
theorem Environment.HereditarilyClosed.freeNames_readback? {env : Environment}
    (closed : env.HereditarilyClosed) (name : String) (value : Term)
    (found : env.readback? [] name = some value) : value.freeNames = [] :=
  Environment.freeNames_readback?_of_bound
    (fun name closure bound => (closed name closure bound).freeNames_readback) name value found

/-- Forgetting a name keeps an environment hereditarily closed. -/
theorem Environment.HereditarilyClosed.without {env : Environment} (closed : env.HereditarilyClosed)
    (forgotten : String) : (env.without forgotten).HereditarilyClosed := by
  intro name value found
  rw [Environment.get?_without] at found
  by_cases same : name = forgotten
  · simp [same] at found
  · exact closed name value (by simpa [same] using found)

/-- Resolving with one more binding is resolving without it and then substituting for its name. -/
theorem Term.resolve_extend {env : Environment} (closed : env.HereditarilyClosed) (term : Term)
    (name : String) (value : Closure) :
    term.resolve (env.extend name value) [] =
      (term.resolve (env.without name) []).subst name (value.readback []) := by
  rw [Term.subst_eq_replace, Term.resolve, Term.resolve,
    Term.replace_replace (closed.without name).freeNames_readback?]
  apply Term.replace_congr
  intro other _
  by_cases same : other = name <;>
    simp [Environment.readback?_eq, Environment.get?_without, same]

end LambdaTutor
