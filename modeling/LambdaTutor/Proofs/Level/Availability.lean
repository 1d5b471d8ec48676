import LambdaTutor.Proofs.Evaluation.Congruence
import LambdaTutor.Proofs.Source

/-!
# What a judgement sees

A judgement reads the solved builtins through the scope of its level and through nothing else. The
scopes of two games are equal as soon as their bindings of the available builtins are. Equality is a
relation between runs, so the two judgements keep step: they evaluate the same texts to equal
closures and end alike. A report holds no closure, only verdicts and texts, so equal closures leave
one and the same report.
-/

namespace LambdaTutor

/-- Evaluation of a text in equal environments ends alike, with equal values. -/
theorem evaluate_rel {env other : Environment} (envs : (env == other) = true) (depth : Nat)
    (text : String) :
    Outcome.Rel (fun closure found => (closure == found) = true) (evaluate depth text env)
      (evaluate depth text other) := by
  cases parsed : parse text with
  | error cause =>
    rw [evaluate, evaluate, parsed]
    exact .error cause
  | ok term =>
    rw [evaluate_of_parse parsed, evaluate_of_parse parsed]
    exact (RunRelation.equality.eval envs depth).mapError SourceError.eval

namespace Level

variable {level : Level} {depth index : Nat} {test : LevelTest}

/-- Equal ends of an application get the same verdict against equal expectations. -/
theorem verdict_congr {expected other : Closure} {ending otherEnding : Outcome EvalError Closure}
    (expectations : (expected == other) = true)
    (endings : Outcome.Rel (fun closure found => (closure == found) = true) ending otherEnding) :
    level.verdict index test expected ending = level.verdict index test other otherEnding := by
  have shown := Closure.render_eq_of_equal level.availableBuiltins expectations
  cases endings with
  | @value actual otherActual actuals =>
    have answers : (actual == expected) = (otherActual == other) := by
      rw [BEq.congr_left actuals, BEq.congr_right expectations]
    have actualShown := Closure.render_eq_of_equal level.availableBuiltins actuals
    simp only [Level.verdict, failedTest, answers, shown, actualShown]
  | error cause => simp only [Level.verdict, failedTest, shown]
  | exhausted => rfl

/-- A test of equal solutions in equal scopes ends in the same way, verdict and error included. -/
theorem judgeTest_congr {scope other : Environment} {solution found : Closure}
    (scopes : (scope == other) = true) (solutions : (solution == found) = true) :
    level.judgeTest depth scope solution test index =
      level.judgeTest depth other found test index := by
  have inputs := Outcome.Rel.mapM (evaluate_rel scopes depth) test.inputs
  refine Outcome.Rel.eq (inputs.bind fun args otherArgs argsEqual => ?_)
  refine (evaluate_rel scopes depth test.output).bind fun expected otherExpected expectations => ?_
  have applied := RunRelation.equality.applyAll solutions argsEqual depth
  rw [verdict_congr expectations applied]
  exact .refl _

/-- The scope of a level is decided by the bindings of the available builtins. -/
theorem scope_equal {solved other : Environment}
    (agree : ∀ name ∈ level.availableBuiltins,
      Option.Rel (fun value found => (value == found) = true) (solved.get? name)
        (other.get? name)) :
    (level.scope solved == level.scope other) = true := by
  rw [Environment.equal_iff]
  intro name
  rw [scope, scope, Environment.get?_restrictTo, Environment.get?_restrictTo]
  by_cases available : name ∈ level.availableBuiltins
  · simpa [available] using agree name available
  · simp [available]

/-- A judgement depends only on the builtins that the level makes available. When each of them is
unsolved in both games or solved with equal closures in both, the two judgements end alike within
every bound: both exhaust it, both end with the same error, or both end with equal closures for the
solution and with one and the same report. -/
theorem judgement_depends_on_available_builtins (level : Level) (depth : Nat) (source : String)
    (solved other : Environment)
    (agree : ∀ name ∈ level.availableBuiltins,
      Option.Rel (fun value found => (value == found) = true) (solved.get? name)
        (other.get? name)) :
    Outcome.Rel
      (fun judged found => (judged.1 == found.1) = true ∧ judged.2 = found.2)
      (level.judge depth source solved) (level.judge depth source other) := by
  have scopes := scope_equal agree
  refine (evaluate_rel scopes depth source).bind fun solution found solutions => ?_
  have tests (entry : LevelTest × Nat) :
      level.judgeTest depth (level.scope solved) solution entry.1 entry.2 =
        level.judgeTest depth (level.scope other) found entry.1 entry.2 :=
    judgeTest_congr scopes solutions
  simp only [tests]
  refine (Outcome.Rel.refl _).bind ?_
  rintro verdicts _ rfl
  exact .value ⟨solutions, rfl⟩

/-- Two games that solved `k` with equal closures, captured after other histories. The level asks
for `k` twice and for a builtin that neither has solved, and does not see the one that only the
second has solved. -/
theorem judgement_depends_on_available_builtins_reordered :
    let level : Level := ⟨"", "", [⟨["k"], "(\\y.y)"⟩], ["k", "unsolved", "k"], "b"⟩
    let identity : Closure := .mk "x" (.var "x") .empty
    let first : Environment := .extend (.extend .empty "p" identity) "q" identity
    let second : Environment := .extend (.extend .empty "q" identity) "p" identity
    let solved : Environment := .extend .empty "k" (.mk "z" (.var "p") first)
    let other : Environment := .extend (.extend .empty "k" (.mk "z" (.var "p") second)) "h" identity
    ∃ solution found report,
      level.judge 2 "(\\n.n)" solved = .value (solution, report) ∧
      level.judge 2 "(\\n.n)" other = .value (found, report) ∧
      (solution == found) = true ∧
      report.verdicts = [.failed ⟨0, ["k"], "(\\y.y)", "(\\z.(\\x.x))"⟩] := by
  intro level identity first second solved other
  have agree : ∀ name ∈ level.availableBuiltins,
      Option.Rel (fun value found => (value == found) = true) (solved.get? name)
        (other.get? name) := by
    intro name available
    obtain rfl | rfl | rfl : name = "k" ∨ name = "unsolved" ∨ name = "k" := by
      simpa [level] using available
    · exact .some rfl
    · exact .none
    · exact .some rfl
  obtain ⟨solution, report, judged, verdicts⟩ : ∃ solution report,
      level.judge 2 "(\\n.n)" solved = .value (solution, report) ∧
        report.verdicts = [.failed ⟨0, ["k"], "(\\y.y)", "(\\z.(\\x.x))"⟩] := ⟨_, _, rfl, rfl⟩
  have alike := judgement_depends_on_available_builtins level 2 "(\\n.n)" solved other agree
  rw [judged] at alike
  generalize otherJudged : level.judge 2 "(\\n.n)" other = ending at alike
  cases alike with
  | @value _ found values =>
    obtain ⟨solutions, rfl⟩ := values
    exact ⟨solution, found.1, found.2, judged, rfl, solutions, verdicts⟩

end Level

end LambdaTutor
