import LambdaTutor.Proofs.Level.Progress
import LambdaTutor.Proofs.Level.Texts
import LambdaTutor.Term.Binding

/-!
# Levels that cannot fail by themselves

A judgement reports a text of the level that has no value just as it reports the solution, so a
level with such a text would reject every player. A text is safe when it calls none of the builtins
that it mentions: then it has a value whatever they are bound to, as long as they are bound. This
can be read off the text (`Term.isInert`), and so it can be checked of a list of levels that every
text is safe once the levels before are solved (`SelfContained`). In a game of such levels a
rejection is always the solution's own failure, and the curriculum is such a list.
-/

namespace LambdaTutor

namespace Term

/-- A run of the term calls no closure that is not written there: the term is a name, an abstraction
or a let of such terms. -/
def isInert : Term → Bool
  | var _ => true
  | lam _ _ => true
  | app (lam _ body) definition => body.isInert && definition.isInert
  | app _ _ => false

/-- An inert term has a value wherever its free names are bound, whatever they are bound to. -/
theorem exists_eval_of_isInert {term : Term} {env : Environment} (inert : term.isInert = true)
    (bound : ∀ name ∈ term.freeNames, env.contains name = true) :
    ∃ depth value, term.eval depth env = .value value := by
  fun_induction isInert term generalizing env with
  | case1 name =>
    obtain ⟨value, found⟩ := Option.isSome_iff_exists.mp (bound name (by simp))
    exact ⟨1, value, eval_var_eq_value_iff.mpr found⟩
  | case2 param body => exact ⟨1, _, rfl⟩
  | case3 name body definition bodyIh definitionIh =>
    obtain ⟨bodyInert, definitionInert⟩ := Bool.and_eq_true_iff.mp inert
    obtain ⟨definitionDepth, value, definitionRun⟩ :=
      definitionIh definitionInert fun other free => bound other (by simp [free])
    have bodyBound : ∀ other ∈ body.freeNames, (env.extend name value).contains other = true := by
      intro other free
      by_cases same : other = name
      · simp [Environment.contains, same]
      · simpa [Environment.contains, same] using bound other (by simp [free, same])
    obtain ⟨bodyDepth, result, bodyRun⟩ := bodyIh bodyInert bodyBound
    obtain ⟨depth, run⟩ := exists_eval_app (eval_succ_lam 0 name body env) definitionRun bodyRun
    exact ⟨depth, result, run⟩
  | case4 fn arg notLet => cases inert

end Term

/-- The text spells out an inert term whose free names are among the given ones. -/
def isSafeText (given : List String) (text : String) : Bool :=
  match parse text with
  | .ok term => term.isInert && term.freeNames.all (· ∈ given)
  | .error _ => false

/-- A safe text has a value wherever the given names are bound. -/
theorem exists_settles_of_isSafeText {given : List String} {text : String} {env : Environment}
    (safe : isSafeText given text = true) (bound : ∀ name ∈ given, env.contains name = true) :
    ∃ value, Settles text env (.value value) := by
  unfold isSafeText at safe
  cases parsed : parse text with
  | error cause => simp [parsed] at safe
  | ok term =>
    simp only [parsed, Bool.and_eq_true, List.all_eq_true, decide_eq_true_eq] at safe
    obtain ⟨depth, value, run⟩ := Term.exists_eval_of_isInert safe.1
      fun name free => bound name (safe.2 name free)
    exact ⟨value, by simp, depth, evaluate_eq_value_iff.mpr ⟨term, parsed, run⟩⟩

/-- Every text of the tests is safe with the builtins that the level makes available and that are
among the solved ones. -/
def Level.hasSafeTests (level : Level) (solved : List String) : Bool :=
  level.tests.all fun test =>
    test.texts.all (isSafeText (level.availableBuiltins.filter (· ∈ solved)))

/-- The tests of every level are safe with the builtins of the levels before it. -/
def SelfContained (levels : List Level) : Prop :=
  ∀ (index : Nat) (level : Level), levels[index]? = some level →
    level.hasSafeTests ((levels.take index).map Level.builtinName) = true

/-- Once the levels before it are solved, the texts of a level's tests have values, whatever closures
the solutions are. -/
theorem SelfContained.exists_settles {levels : List Level} (sound : SelfContained levels)
    {index : Nat} {level : Level} (found : levels[index]? = some level) {solved : Environment}
    (bound : ∀ earlier ∈ levels.take index, solved.contains earlier.builtinName = true) :
    ∀ test ∈ level.tests, ∀ text ∈ test.texts,
      ∃ value, Settles text (level.scope solved) (.value value) := by
  have safe := sound index level found
  simp only [Level.hasSafeTests, List.all_eq_true] at safe
  intro test member text inTest
  refine exists_settles_of_isSafeText (safe test member text inTest) fun name given => ?_
  obtain ⟨available, solvedBefore⟩ := List.mem_filter.mp given
  obtain ⟨earlier, before, rfl⟩ := List.mem_map.mp (of_decide_eq_true solvedBefore)
  simpa [Environment.contains, Level.scope, Environment.get?_restrictTo, available] using
    bound earlier before

/-- When the texts of the tests have values, a judgement that ends has an error exactly when the
solution fails. -/
theorem Level.judge_eq_error_iff_of_settles {level : Level} {depth : Nat} {source : String}
    {solved : Environment} {cause : SourceError}
    (settle : ∀ test ∈ level.tests, ∀ text ∈ test.texts,
      ∃ value, Settles text (level.scope solved) (.value value))
    (ends : level.judge depth source solved ≠ .exhausted) :
    level.judge depth source solved = .error cause ↔
      Settles source (level.scope solved) (.error cause) := by
  rw [judge_eq_error_iff ends, texts]
  constructor
  · intro failure
    cases failure with
    | here fails => exact fails
    | later _ failure =>
      obtain ⟨text, member, fails⟩ := failure.exists_mem
      obtain ⟨test, inLevel, inTest⟩ := List.mem_flatMap.mp member
      obtain ⟨value, settles⟩ := settle test inLevel text inTest
      cases settles.unique fails
  · exact .here

section Play

variable {depth index : Nat} {levels : List Level} {solutions : String → Option String}
  {solved before : Environment} {progress : Progress} {level : Level} {message : String}

/-- A game is completed exactly when its levels are passed one after the other. -/
theorem play_eq_completed_iff :
    play depth levels solutions = .value (.completed, solved) ↔
      Solves depth solutions .empty levels solved := by
  rw [play, playFrom_eq_value_iff]
  constructor
  · intro ends
    simpa [Progress.reached] using ends.solves_take
  · exact .completed

/-- The levels before one that is reached are completed. -/
theorem Solves.take {first final : Environment} (solves : Solves depth solutions first levels final)
    (index : Nat) : ∃ middle, Solves depth solutions first (levels.take index) middle := by
  rw [← List.take_append_drop index levels] at solves
  obtain ⟨middle, solves, -⟩ := solves.exists_of_append
  exact ⟨middle, solves⟩

/-- Passed levels have their builtins bound. -/
theorem Solves.contains (solves : Solves depth solutions .empty levels solved) :
    ∀ level ∈ levels, solved.contains level.builtinName = true := by
  intro level member
  exact (solves.contains_iff level.builtinName).mpr (.inl (List.mem_map_of_mem member))

/-- Behind the levels that are passed, a game goes on with the next level. -/
theorem Solves.play_eq_playFrom (solves : Solves depth solutions .empty (levels.take index) before)
    (found : levels[index]? = some level) :
    ∃ rest, play depth levels solutions =
      playFrom depth solutions index before (level :: rest) := by
  obtain ⟨inside, rfl⟩ := List.getElem?_eq_some_iff.mp found
  have split : levels = levels.take index ++ levels[index] :: levels.drop (index + 1) := by
    rw [← List.drop_eq_getElem_cons inside, List.take_append_drop]
  have played := solves.playFrom_append 0 (levels[index] :: levels.drop (index + 1))
  rw [← split, List.length_take_of_le (Nat.le_of_lt inside), Nat.zero_add] at played
  exact ⟨_, played⟩

/-- In a game of self-contained levels a level is rejected exactly when it is reached and its
solution fails, and the message is that of the failure. -/
theorem SelfContained.rejected_iff (sound : SelfContained levels)
    (played : play depth levels solutions = .value (progress, solved)) :
    progress = .rejected index message ↔
      ∃ level source before cause, levels[index]? = some level ∧
        play depth (levels.take index) solutions = .value (.completed, before) ∧
        solutions level.builtinName = some source ∧
        Settles source (level.scope before) (.error cause) ∧ cause.message = message := by
  constructor
  · rintro rfl
    have ends := playFrom_eq_value_iff.mp played
    obtain ⟨level, found, stops⟩ := ends.exists_stops (by simp)
    have solves : Solves depth solutions .empty (levels.take index) solved := ends.solves_take
    cases stops with
    | @rejected source cause given refused =>
      have settle := sound.exists_settles found solves.contains
      refine ⟨level, source, solved, cause, found, play_eq_completed_iff.mpr solves, given, ?_, rfl⟩
      exact (Level.judge_eq_error_iff_of_settles settle (by simp [refused])).mp refused
  · rintro ⟨level, source, before, cause, found, completed, given, fails, rfl⟩
    have solves := play_eq_completed_iff.mp completed
    have settle := sound.exists_settles found solves.contains
    obtain ⟨rest, goesOn⟩ := solves.play_eq_playFrom found
    have ends : level.judge depth source before ≠ .exhausted := by
      intro exhausted
      simp [goesOn, playFrom, given, exhausted] at played
    have refused := (Level.judge_eq_error_iff_of_settles settle ends).mpr fails
    rw [goesOn, playFrom_cons_of_stops (.rejected given refused)] at played
    cases played
    rfl

end Play

/-- The levels of the game are self-contained. -/
theorem selfContained_curriculum : SelfContained curriculum := by
  intro index level found
  rcases index with _ | _ | _ | index
  · cases found
    decide +kernel
  · cases found
    decide +kernel
  · cases found
    decide +kernel
  · cases found

/-- The game never blames a player for its own texts. A game of its levels that keeps within its bound
ends with a progress. The progress is a rejection exactly when the level is reached and its solution
fails in the scope of the level, with the builtins of the levels before it solved, and the message is
that of the failure. At every level that is reached the texts of the tests have values; they have
values whatever closures the builtins of the levels before are bound to. -/
theorem curriculum_blames_only_solutions (depth : Nat) (solutions : String → Option String)
    (returns : play depth curriculum solutions ≠ .exhausted) :
    ∃ progress solved, play depth curriculum solutions = .value (progress, solved) ∧
      (∀ index message, progress = .rejected index message ↔
        ∃ level source before cause, curriculum[index]? = some level ∧
          play depth (curriculum.take index) solutions = .value (.completed, before) ∧
          solutions level.builtinName = some source ∧
          Settles source (level.scope before) (.error cause) ∧ cause.message = message) ∧
      (∀ index level, index ≤ progress.reached curriculum.length →
        curriculum[index]? = some level →
        ∃ before, play depth (curriculum.take index) solutions = .value (.completed, before) ∧
          ∀ test ∈ level.tests, ∀ text ∈ test.texts,
            ∃ value, Settles text (level.scope before) (.value value)) ∧
      ∀ (index : Nat) (level : Level) (env : Environment), curriculum[index]? = some level →
        (∀ earlier ∈ curriculum.take index, env.contains earlier.builtinName = true) →
        ∀ test ∈ level.tests, ∀ text ∈ test.texts,
          ∃ value, Settles text (level.scope env) (.value value) := by
  obtain ⟨progress, solved, ends⟩ := exists_playEnds returns
  have played := ends.playFrom_eq
  refine ⟨progress, solved, played, ?_, ?_, ?_⟩
  · intro index message
    exact selfContained_curriculum.rejected_iff played
  · intro index level reached found
    obtain ⟨before, solves⟩ := ends.solves_take.take index
    rw [List.take_take, Nat.min_eq_left reached] at solves
    exact ⟨before, play_eq_completed_iff.mpr solves,
      selfContained_curriculum.exists_settles found solves.contains⟩
  · intro index level env found bound
    exact selfContained_curriculum.exists_settles found bound

/-- A player solves the first level with a closure that captures an unresolved name, and refers to a
builtin that is none in the second one. -/
theorem curriculum_blames_only_solutions_second_level :
    let solutions (name : String) : Option String :=
      if name = "identity" then some "((\\u.(\\x.x)) (\\q.free))"
      else if name = "zero" then some "(identity nobody)" else none
    ∃ solved before source cause,
      play 3 curriculum solutions =
        .value (.rejected 1 "eval error: undefined variable: nobody", solved) ∧
      play 3 [identityLevel] solutions = .value (.completed, before) ∧
      solutions "zero" = some source ∧
      Settles source (zeroLevel.scope before) (.error cause) ∧
      cause.message = "eval error: undefined variable: nobody" ∧
      ∃ value, Settles "(\\y.y)" (zeroLevel.scope before) (.value value) := by
  intro solutions
  obtain ⟨solved, played⟩ : ∃ solved, play 3 curriculum solutions =
      .value (.rejected 1 "eval error: undefined variable: nobody", solved) := ⟨_, rfl⟩
  obtain ⟨progress, found, same, rejected, reached, -⟩ :=
    curriculum_blames_only_solutions 3 solutions (by simp [played])
  rw [played] at same
  cases same
  obtain ⟨level, source, before, cause, second, completed, given, fails, message⟩ :=
    (rejected 1 _).mp rfl
  cases second
  obtain ⟨otherBefore, otherCompleted, settle⟩ := reached 1 zeroLevel (Nat.le_refl 1) rfl
  rw [completed] at otherCompleted
  cases otherCompleted
  exact ⟨solved, before, source, cause, played, completed, given, fails, message,
    settle ⟨["(\\x.x)", "(\\y.y)"], "(\\y.y)"⟩ (by simp [zeroLevel]) "(\\y.y)"
      (by simp [LevelTest.texts])⟩

end LambdaTutor
