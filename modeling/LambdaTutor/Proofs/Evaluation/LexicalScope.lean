import LambdaTutor.Proofs.Evaluation.Code
import LambdaTutor.Proofs.Source

/-!
# Lexical scope

A call binds the parameter of the abstraction whose body it enters, and nothing else is ever bound.
What can be said of a term in the environment in force is therefore inherited by its parts, each in
the environment in which a run visits it, and by every closure that the run makes: a
`LexicalProperty` is a `RunInvariant` with a single condition on environments.

The first use of this is the scope itself. A closure captures exactly the parameters of the
abstractions around its own (`captured_names_are_parameters_around`). Capturing forgets nothing, so
an abstraction inside of an abstraction of the same parameter captures a binding of its own
parameter.
-/

namespace LambdaTutor

namespace Term

/-- A term stands in another one, under the parameters of the abstractions around it. The outermost
parameter comes first. -/
inductive Encloses : Term → List String → Term → Prop where
  | refl (term : Term) : Encloses term [] term
  | lam {param : String} {body inner : Term} {around : List String}
      (encloses : Encloses body around inner) : Encloses (.lam param body) (param :: around) inner
  | fn {fn arg inner : Term} {around : List String} (encloses : Encloses fn around inner) :
      Encloses (.app fn arg) around inner
  | arg {fn arg inner : Term} {around : List String} (encloses : Encloses arg around inner) :
      Encloses (.app fn arg) around inner

variable {whole middle inner : Term} {outer around : List String}

/-- What stands in a part stands in the whole, under the parameters around both. -/
theorem Encloses.trans (encloses : whole.Encloses outer middle)
    (inside : middle.Encloses around inner) : whole.Encloses (outer ++ around) inner := by
  induction encloses with
  | refl => exact inside
  | lam _ ih => exact .lam (ih inside)
  | fn _ ih => exact .fn (ih inside)
  | arg _ ih => exact .arg (ih inside)

/-- The parameters around a term are those of abstractions of the whole. -/
theorem Encloses.exists_mem_lambdas (encloses : whole.Encloses around inner) {param : String}
    (member : param ∈ around) : ∃ body, Term.lam param body ∈ whole.lambdas := by
  induction encloses with
  | refl => cases member
  | @lam bound body _ _ _ ih =>
    rcases List.mem_cons.mp member with rfl | member
    · exact ⟨body, List.mem_cons_self⟩
    · obtain ⟨found, inside⟩ := ih member
      exact ⟨found, List.mem_cons_of_mem _ inside⟩
  | fn _ ih =>
    obtain ⟨found, inside⟩ := ih member
    exact ⟨found, List.mem_append_left _ inside⟩
  | arg _ ih =>
    obtain ⟨found, inside⟩ := ih member
    exact ⟨found, List.mem_append_right _ inside⟩

/-- A variable that no parameter around it binds is a free name of the whole. -/
theorem Encloses.mem_freeNames {name : String} (encloses : whole.Encloses around (var name))
    (free : name ∉ around) : name ∈ whole.freeNames := by
  generalize occurrence : var name = inner at encloses
  induction encloses with
  | refl => simp [← occurrence]
  | lam _ ih =>
    obtain ⟨different, free⟩ := not_or.mp (mt List.mem_cons.mpr free)
    exact mem_freeNames_lam.mpr ⟨ih free occurrence, different⟩
  | fn _ ih => exact mem_freeNames_app.mpr (.inl (ih free occurrence))
  | arg _ ih => exact mem_freeNames_app.mpr (.inr (ih free occurrence))

end Term

/-- A property of a term in the environment in force that its parts inherit. -/
structure LexicalProperty where
  Holds : Term → Environment → Prop
  /-- The function of an application is evaluated where the application is. -/
  fn : ∀ {fn arg env}, Holds (.app fn arg) env → Holds fn env
  /-- So is its argument. -/
  arg : ∀ {fn arg env}, Holds (.app fn arg) env → Holds arg env
  /-- The body of an abstraction is evaluated with the parameter bound to any closure. -/
  body : ∀ {param body env} (value : Closure), Holds (.lam param body) env →
    Holds body (env.extend param value)

namespace LexicalProperty

variable (property : LexicalProperty)

/-- The property holds of the abstraction of every closure that is reached, in the environment that
the closure captured. -/
def Everywhere (closure : Closure) : Prop :=
  ∀ target, closure.Reaches target → property.Holds target.lambda target.env

/-- No run breaks a lexical property. -/
def invariant : RunInvariant where
  OnTerm term env := property.Holds term env ∧
    ∀ name value, env.get? name = some value → property.Everywhere value
  OnValue := property.Everywhere
  lookup := fun inForce bound => inForce.2 _ _ bound
  capture := by
    rintro param body env ⟨here, inside⟩ target reaches
    rcases Closure.reaches_iff.mp reaches with rfl | ⟨name, value, bound, reaches⟩
    · exact here
    · exact inside name value bound target reaches
  fn := And.imp_left property.fn
  arg := And.imp_left property.arg
  call := by
    intro fn arg onFn onArg
    refine ⟨property.body arg (onFn fn (.refl fn)), ?_⟩
    intro name value bound
    rcases Environment.get?_extend_eq_some_iff.mp bound with ⟨-, rfl⟩ | ⟨-, bound⟩
    · exact onArg
    · exact fun target reaches => onFn target (.step bound reaches)

end LexicalProperty

/-- The term stands in the program, and the environment binds exactly the parameters around it. -/
def LexicalProperty.scopeIn (program : Term) : LexicalProperty where
  Holds term env := ∃ around, program.Encloses around term ∧
    ∀ name, env.contains name = true ↔ name ∈ around
  fn := by
    rintro fn arg env ⟨around, encloses, binds⟩
    exact ⟨around, by simpa using encloses.trans (.fn (.refl fn)), binds⟩
  arg := by
    rintro fn arg env ⟨around, encloses, binds⟩
    exact ⟨around, by simpa using encloses.trans (.arg (.refl arg)), binds⟩
  body := by
    rintro param body env value ⟨around, encloses, binds⟩
    refine ⟨around ++ [param], encloses.trans (.lam (.refl body)), fun name => ?_⟩
    by_cases same : name = param
    · simp [Environment.contains, same]
    · simpa [Environment.contains, same] using binds name

/-- A closure can bind its own parameter: a source text has a value whose captured environment does,
because the abstraction stands inside of another one of the same parameter. -/
theorem own_parameter_is_captured :
    ¬ ∀ (depth : Nat) (text : String) (closure : Closure),
      evaluate depth text .empty = .value closure →
        ∀ target, closure.Reaches target → target.env.contains target.param = false := by
  intro never
  let closure : Closure := .mk "x" (.var "x") (.extend .empty "x" (.mk "a" (.var "a") .empty))
  have run : evaluate 3 "((\\x.(\\x.x)) (\\a.a))" .empty = .value closure := rfl
  have bound : closure.env.contains closure.param = true := rfl
  rw [never 3 _ closure run closure (.refl closure)] at bound
  cases bound

/-- Closures capture the parameters around them. When a source text has a value in the empty
environment, the abstraction of every closure that the value reaches stands in the text, and the
closure's environment binds the parameters of the abstractions around that place and no other name.
So it binds the closure's own parameter exactly when one of these has the same parameter; and in a
text without an abstraction inside of another one of the same parameter, no closure does. -/
theorem captured_names_are_parameters_around (depth : Nat) (text : String) (closure : Closure)
    (run : evaluate depth text .empty = .value closure) :
    ∃ program, parse text = .ok program ∧
      (∀ target, closure.Reaches target → ∃ around, program.Encloses around target.lambda ∧
        ∀ name, target.env.contains name = true ↔ name ∈ around) ∧
      ((∀ around param body, program.Encloses around (.lam param body) → param ∉ around) →
        ∀ target, closure.Reaches target → target.env.contains target.param = false) := by
  obtain ⟨program, parsed, run⟩ := evaluate_eq_value_iff.mp run
  have start : (LexicalProperty.scopeIn program).invariant.OnTerm program .empty :=
    ⟨⟨[], .refl program, by simp [Environment.contains]⟩, nofun⟩
  have inScope : (LexicalProperty.scopeIn program).Everywhere closure :=
    RunInvariant.of_eval_value _ start run
  refine ⟨program, parsed, ?_, ?_⟩
  · exact inScope
  · intro distinct target reaches
    obtain ⟨around, encloses, binds⟩ := inScope target reaches
    rw [Bool.eq_false_iff]
    intro bound
    exact distinct around target.param target.body encloses ((binds target.param).mp bound)

/-- Two abstractions with two parameters. The inner one captures the outer parameter only. -/
theorem captured_names_are_parameters_around_constant :
    ∃ closure program, evaluate 3 "((\\x.(\\y.x)) (\\a.a))" .empty = .value closure ∧
      parse "((\\x.(\\y.x)) (\\a.a))" = .ok program ∧
      (∀ around param body, program.Encloses around (.lam param body) → param ∉ around) ∧
      closure.env.contains "x" = true ∧
      ∀ target, closure.Reaches target → target.env.contains target.param = false := by
  let closure : Closure := .mk "y" (.var "x") (.extend .empty "x" (.mk "a" (.var "a") .empty))
  have run : evaluate 3 "((\\x.(\\y.x)) (\\a.a))" .empty = .value closure := rfl
  obtain ⟨program, parsed, -, distinct⟩ :=
    captured_names_are_parameters_around 3 "((\\x.(\\y.x)) (\\a.a))" closure run
  have program_eq : program = .app (.lam "x" (.lam "y" (.var "x"))) (.lam "a" (.var "a")) := by
    cases parsed
    rfl
  have apart : ∀ around param body, program.Encloses around (.lam param body) →
      param ∉ around := by
    rw [program_eq]
    intro around param body encloses
    cases encloses with
    | fn encloses =>
      cases encloses with
      | refl => simp
      | lam encloses =>
        cases encloses with
        | refl => simp
        | lam encloses => cases encloses
    | arg encloses =>
      cases encloses with
      | refl => simp
      | lam encloses => cases encloses
  exact ⟨closure, program, run, parsed, apart, rfl, distinct apart⟩

end LambdaTutor
