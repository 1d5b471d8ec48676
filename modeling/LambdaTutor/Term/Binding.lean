import LambdaTutor.Term

/-!
# Free names and substitution

Which names a term leaves open, anywhere or outside of the scope of a parameter, which names and
abstractions occur in it at all, and substitution for one name. Substitution stops at an abstraction
that binds the name and renames nothing.
-/

namespace LambdaTutor.Term

/-- The names with a free occurrence, one entry for each occurrence. -/
def freeNames : Term → List String
  | var name => [name]
  | lam param body => body.freeNames.filter (· ≠ param)
  | app fn arg => fn.freeNames ++ arg.freeNames

/-- The names with a free occurrence that stands under no abstraction of the given parameter. -/
def freeNamesOutside (caught : String) : Term → List String
  | var name => [name]
  | lam param body =>
    if param = caught then [] else (body.freeNamesOutside caught).filter (· ≠ param)
  | app fn arg => fn.freeNamesOutside caught ++ arg.freeNamesOutside caught

/-- All names that are written in a term, parameters included. -/
def writtenNames : Term → List String
  | var name => [name]
  | lam param body => param :: body.writtenNames
  | app fn arg => fn.writtenNames ++ arg.writtenNames

/-- All abstractions that occur in a term. -/
def lambdas : Term → List Term
  | var _ => []
  | lam param body => lam param body :: body.lambdas
  | app fn arg => fn.lambdas ++ arg.lambdas

/-- Puts a value in the place of the free occurrences of one name. -/
def subst : Term → String → Term → Term
  | var other, name, value => if other = name then value else var other
  | lam param body, name, value =>
    if param = name then lam param body else lam param (body.subst name value)
  | app fn arg, name, value => app (fn.subst name value) (arg.subst name value)

@[simp] theorem mem_freeNames_var {x name : String} : x ∈ (var name).freeNames ↔ x = name := by
  simp [freeNames]

@[simp] theorem mem_freeNames_lam {x param : String} {body : Term} :
    x ∈ (lam param body).freeNames ↔ x ∈ body.freeNames ∧ x ≠ param := by
  simp [freeNames]

@[simp] theorem mem_freeNames_app {x : String} {fn arg : Term} :
    x ∈ (app fn arg).freeNames ↔ x ∈ fn.freeNames ∨ x ∈ arg.freeNames := by
  simp [freeNames]

@[simp] theorem mem_freeNamesOutside_var {x caught name : String} :
    x ∈ (var name).freeNamesOutside caught ↔ x = name := by
  simp [freeNamesOutside]

@[simp] theorem mem_freeNamesOutside_lam {x caught param : String} {body : Term} :
    x ∈ (lam param body).freeNamesOutside caught ↔
      x ∈ body.freeNamesOutside caught ∧ x ≠ param ∧ param ≠ caught := by
  by_cases same : param = caught <;> simp [freeNamesOutside, same]

@[simp] theorem mem_freeNamesOutside_app {x caught : String} {fn arg : Term} :
    x ∈ (app fn arg).freeNamesOutside caught ↔
      x ∈ fn.freeNamesOutside caught ∨ x ∈ arg.freeNamesOutside caught := by
  simp [freeNamesOutside]

/-- Replacements that agree on the free names of a term replace alike. -/
theorem replace_congr {term : Term} {first second : String → Option Term}
    (agree : ∀ name ∈ term.freeNames, first name = second name) :
    term.replace first = term.replace second := by
  induction term generalizing first second with
  | var name => simp [replace, agree name (by simp)]
  | lam param body ih =>
    simp only [replace, lam.injEq, true_and]
    apply ih
    intro name free
    by_cases same : name = param
    · simp [same]
    · simpa [same] using agree name (by simp [free, same])
  | app fn arg fnIh argIh =>
    simp only [replace, app.injEq]
    exact ⟨fnIh fun name free => agree name (by simp [free]),
      argIh fun name free => agree name (by simp [free])⟩

/-- Replacing nothing changes nothing. -/
@[simp] theorem replace_none (term : Term) : (term.replace fun _ => none) = term := by
  induction term with
  | var name => rfl
  | lam param body ih => simpa [replace] using ih
  | app fn arg fnIh argIh => simp [replace, fnIh, argIh]

/-- A replacement of names that are not free changes nothing. -/
theorem replace_eq_self {term : Term} {replacement : String → Option Term}
    (unreplaced : ∀ name ∈ term.freeNames, replacement name = none) :
    term.replace replacement = term := by
  rw [replace_congr unreplaced, replace_none]

/-- Substitution is the replacement of one name. -/
theorem subst_eq_replace (term : Term) (name : String) (value : Term) :
    term.subst name value = term.replace fun other => if other = name then some value else none := by
  induction term with
  | var other => by_cases same : other = name <;> simp [subst, replace, same]
  | lam param body ih =>
    simp only [subst, replace]
    by_cases same : param = name
    · rw [if_pos same, lam.injEq]
      refine ⟨rfl, (replace_eq_self ?_).symm⟩
      intro other _
      by_cases eq : other = param <;> simp [eq, ← same]
    · rw [if_neg same, lam.injEq, ih]
      refine ⟨rfl, ?_⟩
      apply replace_congr
      intro other _
      by_cases eq : other = param <;> simp [eq, same]
  | app fn arg fnIh argIh => simp [subst, replace, fnIh, argIh]

end LambdaTutor.Term
