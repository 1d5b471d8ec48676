import LambdaTutor.Closure.Scope
import LambdaTutor.Proofs.Closure.Lookup
import LambdaTutor.Proofs.Source

/-!
# Names that runs leave open

A run never invents a name: whatever it reports as undefined, and whatever its value leaves without
a binding, dangled already where the run started. Fixing the names that may dangle makes this a
`RunInvariant`, and so is being hereditarily closed.
-/

namespace LambdaTutor

namespace Environment

theorem HereditarilyClosed.empty : empty.HereditarilyClosed := by
  intro name value found
  cases found

/-- Binding a name to a hereditarily closed closure keeps an environment hereditarily closed. -/
theorem HereditarilyClosed.extend {env : Environment} (closed : env.HereditarilyClosed)
    (bound : String) {value : Closure} (valueClosed : value.HereditarilyClosed) :
    (env.extend bound value).HereditarilyClosed := by
  intro name found lookup
  rcases get?_extend_eq_some_iff.mp lookup with ⟨-, rfl⟩ | ⟨-, lookup⟩
  · exact valueClosed
  · exact closed name found lookup

end Environment

/-- A closure leaves open what its abstraction leaves open in the captured environment. -/
theorem Closure.Dangling.lambda {name : String} {closure : Closure}
    (dangling : closure.Dangling name) : closure.lambda.Dangling name closure.env := by
  cases dangling with
  | here free unbound => exact .inl ⟨free, unbound⟩
  | inside bound dangling => exact .inr ⟨_, _, bound, dangling⟩

/-- A call leaves nothing open that neither the function nor the argument leaves open. -/
theorem Term.Dangling.of_call {name : String} {fn arg : Closure}
    (dangling : fn.body.Dangling name (fn.env.extend fn.param arg)) :
    fn.Dangling name ∨ arg.Dangling name := by
  rcases dangling with ⟨free, unbound⟩ | ⟨binder, value, bound, dangling⟩
  · obtain ⟨different, unbound⟩ := Environment.get?_extend_eq_none_iff.mp unbound
    exact .inl (.here (Term.mem_freeNames_lam.mpr ⟨free, different⟩) unbound)
  · -- The parameter hides a binding of its name, so only the argument is found under it.
    rcases Environment.get?_extend_eq_some_iff.mp bound with ⟨-, rfl⟩ | ⟨-, bound⟩
    · exact .inr dangling
    · exact .inl (.inside bound dangling)

namespace RunInvariant

/-- Nothing dangles but names from a fixed set. -/
def danglingWithin (allowed : String → Prop) : RunInvariant where
  OnTerm term env := ∀ name, term.Dangling name env → allowed name
  OnValue closure := ∀ name, closure.Dangling name → allowed name
  lookup := fun within bound name dangling => within name (.inr ⟨_, _, bound, dangling⟩)
  capture := fun within name dangling => within name dangling.lambda
  fn := by
    rintro fn arg env within name (⟨free, unbound⟩ | inside)
    · exact within name (.inl ⟨Term.mem_freeNames_app.mpr (.inl free), unbound⟩)
    · exact within name (.inr inside)
  arg := by
    rintro fn arg env within name (⟨free, unbound⟩ | inside)
    · exact within name (.inl ⟨Term.mem_freeNames_app.mpr (.inr free), unbound⟩)
    · exact within name (.inr inside)
  call := fun onFn onArg name dangling => dangling.of_call.elim (onFn name) (onArg name)

/-- Every free name is bound, and every closure is hereditarily closed. -/
def closedScope : RunInvariant where
  OnTerm term env :=
    env.HereditarilyClosed ∧ ∀ name ∈ term.freeNames, ∃ value, env.get? name = some value
  OnValue := Closure.HereditarilyClosed
  lookup := fun scope bound => scope.1 _ _ bound
  capture := fun scope => .intro scope.2 scope.1
  fn := by
    rintro fn arg env ⟨closed, bound⟩
    exact ⟨closed, fun name free => bound name (Term.mem_freeNames_app.mpr (.inl free))⟩
  arg := by
    rintro fn arg env ⟨closed, bound⟩
    exact ⟨closed, fun name free => bound name (Term.mem_freeNames_app.mpr (.inr free))⟩
  call := by
    rintro fn arg ⟨bound, inner⟩ argClosed
    refine ⟨Environment.HereditarilyClosed.extend inner fn.param argClosed, ?_⟩
    intro name free
    by_cases same : name = fn.param
    · exact ⟨arg, by simp [same]⟩
    · obtain ⟨value, found⟩ := bound name (Term.mem_freeNames_lam.mpr ⟨free, same⟩)
      exact ⟨value, by simp [same, found]⟩

variable {allowed : String → Prop} {depth : Nat} {term : Term} {env : Environment} {name : String}

/-- A run reports no name as undefined but those that may dangle. -/
theorem danglingWithin_of_eval_error (within : (danglingWithin allowed).OnTerm term env)
    (run : term.eval depth env = .error (.undefinedVariable name)) : allowed name := by
  obtain ⟨visited, onName, unbound⟩ := (danglingWithin allowed).of_eval_error within run
  exact onName name (.inl ⟨Term.mem_freeNames_var.mpr rfl, unbound⟩)

/-- In a closed scope no run meets an undefined name. -/
theorem closedScope_eval_ne_error (scope : closedScope.OnTerm term env) :
    term.eval depth env ≠ .error (.undefinedVariable name) := by
  intro run
  obtain ⟨visited, ⟨-, bound⟩, unbound⟩ := closedScope.of_eval_error scope run
  obtain ⟨value, found⟩ := bound name (Term.mem_freeNames_var.mpr rfl)
  rw [unbound] at found
  cases found

end RunInvariant

/-- Only free names dangle in the empty environment. -/
theorem Term.Dangling.of_empty {name : String} {term : Term}
    (dangling : term.Dangling name .empty) : name ∈ term.freeNames := by
  rcases dangling with ⟨free, -⟩ | ⟨binder, value, bound, -⟩
  · exact free
  · cases bound

/-- Runs invent no name. What a term's run reports as undefined, and what its value leaves open,
dangled for the term in its environment; a call adds nothing to what its two closures leave open.
So a run in a closed scope meets no undefined name, and with no environment at all an undefined
name is a free name of the source. -/
theorem runs_invent_no_name :
    (∀ (depth : Nat) (term : Term) (env : Environment),
      (∀ name, term.eval depth env = .error (.undefinedVariable name) → term.Dangling name env) ∧
      ∀ closure, term.eval depth env = .value closure →
        ∀ name, closure.Dangling name → term.Dangling name env) ∧
    (∀ (depth : Nat) (fn arg : Closure),
      (∀ name, fn.apply depth arg = .error (.undefinedVariable name) →
        fn.Dangling name ∨ arg.Dangling name) ∧
      ∀ closure, fn.apply depth arg = .value closure →
        ∀ name, closure.Dangling name → fn.Dangling name ∨ arg.Dangling name) ∧
    (∀ (depth : Nat) (term : Term) (env : Environment), env.HereditarilyClosed →
      (∀ name ∈ term.freeNames, ∃ value, env.get? name = some value) →
      ∀ name, term.eval depth env ≠ .error (.undefinedVariable name)) ∧
    ∀ (depth : Nat) (text name : String),
      evaluate depth text .empty = .error (.eval (.undefinedVariable name)) →
      ∃ term, parse text = .ok term ∧ name ∈ term.freeNames := by
  refine ⟨?_, ?_, ?_, ?_⟩
  · intro depth term env
    have start : (RunInvariant.danglingWithin (term.Dangling · env)).OnTerm term env :=
      fun name dangling => dangling
    exact ⟨fun name run => RunInvariant.danglingWithin_of_eval_error start run,
      fun closure run => RunInvariant.of_eval_value _ start run⟩
  · intro depth fn arg
    let allowed := fun name => fn.Dangling name ∨ arg.Dangling name
    have start : (RunInvariant.danglingWithin allowed).OnTerm fn.body
        (fn.env.extend fn.param arg) := fun name dangling => dangling.of_call
    exact ⟨fun name run => RunInvariant.danglingWithin_of_eval_error start run,
      fun closure run => RunInvariant.of_eval_value _ start run⟩
  · intro depth term env closed bound name
    exact RunInvariant.closedScope_eval_ne_error ⟨closed, bound⟩
  · intro depth text name run
    obtain ⟨term, parsed, failed⟩ := exists_eval_error_of_evaluate run
    have start : (RunInvariant.danglingWithin (· ∈ term.freeNames)).OnTerm term .empty :=
      fun name dangling => dangling.of_empty
    exact ⟨term, parsed, RunInvariant.danglingWithin_of_eval_error start failed⟩

/-- An undefined name behind a call, a call whose parameter hides a binding, a run in a closed scope
and an undefined name in a source text. -/
theorem runs_invent_no_name_instances :
    (Term.app (.lam "x" (.app (.var "x") (.var "y"))) (.lam "z" (.var "z"))).Dangling "y" .empty ∧
    (Term.lam "x" (.var "y")).Dangling "y" .empty ∧
    ((Closure.mk "y" (.lam "z" (.var "y"))
        (.extend .empty "y" (.mk "x" (.var "u") .empty))).Dangling "v" ∨
      (Closure.mk "x" (.var "v") .empty).Dangling "v") ∧
    ((Closure.mk "x" (.var "y") .empty).Dangling "y" ∨
      (Closure.mk "x" (.var "x") .empty).Dangling "y") ∧
    (Term.app (.var "id") (.var "id")).eval 3 (.extend .empty "id" (.mk "x" (.var "x") .empty)) ≠
      .error (.undefinedVariable "id") ∧
    ∃ term, parse "(f x)" = .ok term ∧ "f" ∈ term.freeNames := by
  obtain ⟨onEval, onApply, onClosed, onText⟩ := runs_invent_no_name
  refine ⟨(onEval 4 _ _).1 "y" rfl,
    (onEval 1 _ _).2 (.mk "x" (.var "y") .empty) rfl "y" (.here (by simp [Closure.lambda]) rfl),
    (onApply 1 _ _).2 _ rfl "v" ?_, (onApply 1 _ _).1 "y" rfl, onClosed 3 _ _ ?_ ?_ "id",
    onText 3 "(f x)" "f" rfl⟩
  · exact .inside (Environment.get?_extend_self _ "y" _) (.here (by simp [Closure.lambda]) rfl)
  · have idClosed : (Closure.mk "x" (.var "x") .empty).HereditarilyClosed :=
      .intro (by simp [Closure.lambda]) (by simp)
    exact Environment.HereditarilyClosed.empty.extend "id" idClosed
  · intro name free
    have same : name = "id" := by simpa using free
    exact ⟨.mk "x" (.var "x") .empty, by simp [same]⟩

end LambdaTutor
