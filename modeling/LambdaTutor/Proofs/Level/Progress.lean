import LambdaTutor.Level.Curriculum
import LambdaTutor.Proofs.Level.Judge

/-!
# Progress through a curriculum

One level can do two things to a game: it is passed and binds its builtin, or it stops the game and
changes nothing. A game is then a number of levels that are passed one after the other (`Solves`)
and, unless they are all there are, one level that stops it (`PlayEnds`). `playFrom_eq_value_iff`
says that play is this and nothing else; what comes behind the level that stops a game is never
looked at.
-/

namespace LambdaTutor

namespace Level

/-- The level has a solution with the given value, which passes every test. -/
def Passes (level : Level) (depth : Nat) (solutions : String → Option String)
    (solved : Environment) (solution : Closure) : Prop :=
  ∃ source report, solutions level.builtinName = some source ∧
    level.judge depth source solved = .value (solution, report) ∧ report.passed = true

/-- The level with the given number stops a game: it has no solution, or one that is judged with an
error or with a failed test. -/
inductive Stops (level : Level) (depth : Nat) (solutions : String → Option String) (index : Nat)
    (solved : Environment) : Progress → Prop where
  | unattempted (missing : solutions level.builtinName = none) :
      Stops level depth solutions index solved (.unattempted index)
  | rejected {source : String} {cause : SourceError}
      (given : solutions level.builtinName = some source)
      (refused : level.judge depth source solved = .error cause) :
      Stops level depth solutions index solved (.rejected index cause.message)
  | failed {source : String} {solution : Closure} {report : Report}
      (given : solutions level.builtinName = some source)
      (judged : level.judge depth source solved = .value (solution, report))
      (notPassed : report.passed = false) :
      Stops level depth solutions index solved (.failed index report)

variable {level : Level} {depth deeper index : Nat}
  {solutions otherSolutions : String → Option String} {solved : Environment} {solution : Closure}
  {progress : Progress}

/-- Whether a level is passed depends on its own solution only, and on no larger bound. -/
theorem Passes.transfer (passes : level.Passes depth solutions solved solution)
    (within : depth ≤ deeper)
    (same : otherSolutions level.builtinName = solutions level.builtinName) :
    level.Passes deeper otherSolutions solved solution := by
  obtain ⟨source, report, given, judged, passed⟩ := passes
  exact ⟨source, report, same.trans given,
    (judge_persistsIn within level source solved).eq judged (by simp), passed⟩

/-- So does whether, and how, a level stops a game. -/
theorem Stops.transfer (stops : level.Stops depth solutions index solved progress)
    (within : depth ≤ deeper)
    (same : otherSolutions level.builtinName = solutions level.builtinName) :
    level.Stops deeper otherSolutions index solved progress := by
  cases stops with
  | unattempted missing => exact .unattempted (same.trans missing)
  | rejected given refused =>
    exact .rejected (same.trans given)
      ((judge_persistsIn within level _ solved).eq refused (by simp))
  | failed given judged notPassed =>
    exact .failed (same.trans given)
      ((judge_persistsIn within level _ solved).eq judged (by simp)) notPassed

end Level

/-- The levels are passed one after the other, each with the builtins of the levels before it
solved. -/
inductive Solves (depth : Nat) (solutions : String → Option String) :
    Environment → List Level → Environment → Prop where
  | nil (solved : Environment) : Solves depth solutions solved [] solved
  | cons {level : Level} {rest : List Level} {solved final : Environment} {solution : Closure}
      (passes : level.Passes depth solutions solved solution)
      (solves : Solves depth solutions (solved.extend level.builtinName solution) rest final) :
      Solves depth solutions solved (level :: rest) final

/-- A game that starts at the given number and environment ends: all levels are passed, or a level
behind those that are passed stops it. -/
inductive PlayEnds (depth : Nat) (solutions : String → Option String) (index : Nat)
    (solved : Environment) : List Level → Progress → Environment → Prop where
  | completed {levels : List Level} {final : Environment}
      (solves : Solves depth solutions solved levels final) :
      PlayEnds depth solutions index solved levels .completed final
  | stopped {before behind : List Level} {level : Level} {final : Environment}
      {progress : Progress} (solves : Solves depth solutions solved before final)
      (stops : level.Stops depth solutions (index + before.length) final progress) :
      PlayEnds depth solutions index solved (before ++ level :: behind) progress final

section Play

variable {depth deeper index : Nat} {solutions otherSolutions : String → Option String}
  {level : Level} {levels rest first second : List Level}
  {solved final : Environment} {solution : Closure} {progress : Progress}

/-- After a level that is passed, play goes on with its builtin bound. -/
theorem playFrom_cons_of_passes (passes : level.Passes depth solutions solved solution) :
    playFrom depth solutions index solved (level :: rest) =
      playFrom depth solutions (index + 1) (solved.extend level.builtinName solution) rest := by
  obtain ⟨source, report, given, judged, passed⟩ := passes
  simp only [playFrom, given, judged, passed, if_true]

/-- At a level that stops the game, play ends with the builtins solved before it. -/
theorem playFrom_cons_of_stops (stops : level.Stops depth solutions index solved progress) :
    playFrom depth solutions index solved (level :: rest) = .value (progress, solved) := by
  cases stops with
  | unattempted missing => simp only [playFrom, missing]
  | rejected given refused =>
    simp only [playFrom, given, refused, Level.isUserError_of_judge refused, if_true]
  | failed given judged notPassed =>
    simp only [playFrom, given, judged, notPassed, Bool.false_eq_true, if_false]

/-- A level is passed or stops the game, unless judging it exhausts the bound and play with it. -/
theorem Level.passes_or_stops_or_exhausted (level : Level) (depth index : Nat)
    (solutions : String → Option String) (solved : Environment) :
    (∃ solution, level.Passes depth solutions solved solution) ∨
      (∃ progress, level.Stops depth solutions index solved progress) ∨
      ∀ index rest, playFrom depth solutions index solved (level :: rest) = .exhausted := by
  cases given : solutions level.builtinName with
  | none => exact .inr (.inl ⟨_, .unattempted given⟩)
  | some source =>
    cases judged : level.judge depth source solved with
    | value result =>
      obtain ⟨solution, report⟩ := result
      by_cases passed : report.passed = true
      · exact .inl ⟨solution, source, report, given, judged, passed⟩
      · exact .inr (.inl ⟨_, .failed given judged (by simpa using passed)⟩)
    | error cause => exact .inr (.inl ⟨_, .rejected given judged⟩)
    | exhausted => exact .inr (.inr fun index rest => by simp only [playFrom, given, judged])

/-- Play goes on behind levels that are passed. -/
theorem Solves.playFrom_append (solves : Solves depth solutions solved first final) (index : Nat)
    (rest : List Level) :
    playFrom depth solutions index solved (first ++ rest) =
      playFrom depth solutions (index + first.length) final rest := by
  induction solves generalizing index with
  | nil solved => rfl
  | cons passes solves ih =>
    rw [List.cons_append, playFrom_cons_of_passes passes, ih, List.length_cons]
    congr 1
    omega

/-- A game that ends this way is played this way. -/
theorem PlayEnds.playFrom_eq (ends : PlayEnds depth solutions index solved levels progress final) :
    playFrom depth solutions index solved levels = .value (progress, final) := by
  cases ends with
  | completed solves =>
    have played := solves.playFrom_append index []
    rw [List.append_nil] at played
    rw [played, playFrom]
  | stopped solves stops => rw [solves.playFrom_append, playFrom_cons_of_stops stops]

/-- What the rest of a game does behind a level that is passed, the game does. -/
theorem PlayEnds.cons (passes : level.Passes depth solutions solved solution)
    (ends : PlayEnds depth solutions (index + 1) (solved.extend level.builtinName solution) rest
      progress final) : PlayEnds depth solutions index solved (level :: rest) progress final := by
  cases ends with
  | completed solves => exact .completed (.cons passes solves)
  | @stopped before behind level _ _ solves stops =>
    rw [← List.cons_append]
    refine .stopped (.cons passes solves) ?_
    rw [List.length_cons, Nat.add_comm before.length, ← Nat.add_assoc]
    exact stops

/-- A game whose judgements keep within the bound ends. -/
theorem exists_playEnds (notExhausted : playFrom depth solutions index solved levels ≠ .exhausted) :
    ∃ progress final, PlayEnds depth solutions index solved levels progress final := by
  induction levels generalizing index solved with
  | nil => exact ⟨.completed, solved, .completed (.nil solved)⟩
  | cons level rest ih =>
    rcases level.passes_or_stops_or_exhausted depth index solutions solved with
      ⟨solution, passes⟩ | ⟨progress, stops⟩ | exhausted
    · rw [playFrom_cons_of_passes passes] at notExhausted
      obtain ⟨progress, final, ends⟩ := ih notExhausted
      exact ⟨progress, final, ends.cons passes⟩
    · exact ⟨progress, solved, .stopped (.nil solved) stops⟩
    · exact absurd (exhausted index rest) notExhausted

/-- Play ends with a value exactly when the game ends so. -/
theorem playFrom_eq_value_iff :
    playFrom depth solutions index solved levels = .value (progress, final) ↔
      PlayEnds depth solutions index solved levels progress final := by
  constructor
  · intro played
    have notExhausted : playFrom depth solutions index solved levels ≠ .exhausted := by
      simp [played]
    obtain ⟨found, environment, ends⟩ := exists_playEnds notExhausted
    have same := ends.playFrom_eq
    rw [played] at same
    cases same
    exact ends
  · exact PlayEnds.playFrom_eq

/-- Levels that are passed are passed with any solutions that are the same for them, and under any
larger bound. -/
theorem Solves.transfer (solves : Solves depth solutions solved levels final)
    (within : depth ≤ deeper)
    (same : ∀ level ∈ levels,
      otherSolutions level.builtinName = solutions level.builtinName) :
    Solves deeper otherSolutions solved levels final := by
  induction solves with
  | nil solved => exact .nil solved
  | cons passes _ ih =>
    obtain ⟨sameHere, sameBehind⟩ := List.forall_mem_cons.mp same
    exact .cons (passes.transfer within sameHere) (ih sameBehind)

/-- A list of levels is passed part by part. -/
theorem Solves.exists_of_append (solves : Solves depth solutions solved (first ++ second) final) :
    ∃ middle, Solves depth solutions solved first middle ∧
      Solves depth solutions middle second final := by
  induction first generalizing solved with
  | nil => exact ⟨solved, .nil solved, solves⟩
  | cons level first ih =>
    cases solves with
    | cons passes solves =>
      obtain ⟨middle, firstSolves, secondSolves⟩ := ih solves
      exact ⟨middle, .cons passes firstSolves, secondSolves⟩

/-- A level among those that are passed is passed behind the ones before it, and binds its
builtin. -/
theorem Solves.exists_passes (solves : Solves depth solutions solved levels final)
    (found : levels[index]? = some level) :
    ∃ before solution, Solves depth solutions solved (levels.take index) before ∧
      level.Passes depth solutions before solution ∧
      Solves depth solutions solved (levels.take (index + 1))
        (before.extend level.builtinName solution) := by
  have taken : levels.take (index + 1) = levels.take index ++ [level] := by
    simp [List.take_add_one, found]
  rw [← List.take_append_drop (index + 1) levels] at solves
  obtain ⟨after, solvesTo, -⟩ := solves.exists_of_append
  have parts := solvesTo
  rw [taken] at parts
  obtain ⟨before, solvesBefore, solvesHere⟩ := parts.exists_of_append
  cases solvesHere with
  | cons passes done =>
    cases done
    exact ⟨before, _, solvesBefore, passes, solvesTo⟩

/-- Passing levels binds their builtins and leaves the other names alone. -/
theorem Solves.contains_iff (solves : Solves depth solutions solved levels final) (name : String) :
    final.contains name = true ↔
      name ∈ levels.map Level.builtinName ∨ solved.contains name = true := by
  induction solves with
  | nil solved => simp
  | @cons level rest solved final solution _ _ ih =>
    rw [ih, Environment.contains, Environment.get?_extend]
    by_cases same : name = level.builtinName <;> simp [same, Environment.contains]

end Play

namespace Progress

/-- The number of levels that are solved at this progress through a list of the given length. -/
def reached (total : Nat) : Progress → Nat
  | .completed => total
  | .unattempted index | .failed index _ | .rejected index _ => index

/-- The same progress when `count` more levels come first. -/
def shift (count : Nat) : Progress → Progress
  | .completed => .completed
  | .unattempted index => .unattempted (count + index)
  | .failed index report => .failed (count + index) report
  | .rejected index message => .rejected (count + index) message

end Progress

section Reached

variable {depth index : Nat} {solutions : String → Option String} {level : Level}
  {levels : List Level} {solved final : Environment} {progress : Progress}

/-- The number of the level that stops a game is the number of levels solved. -/
theorem Level.Stops.reached_eq (stops : level.Stops depth solutions index solved progress)
    (total : Nat) : progress.reached total = index := by
  cases stops <;> rfl

/-- A level stops a game in the same way under another number. -/
theorem Level.Stops.shift (stops : level.Stops depth solutions index solved progress)
    (count : Nat) :
    level.Stops depth solutions (count + index) solved (progress.shift count) := by
  cases stops with
  | unattempted missing => exact .unattempted missing
  | rejected given refused => exact .rejected given refused
  | failed given judged notPassed => exact .failed given judged notPassed

/-- The number at which play starts only shifts the number at which it stops. -/
theorem playFrom_add (depth count index : Nat) (solutions : String → Option String)
    (solved : Environment) (levels : List Level) :
    playFrom depth solutions (count + index) solved levels =
      (fun (progress, final) => (progress.shift count, final)) <$>
        playFrom depth solutions index solved levels := by
  induction levels generalizing index solved with
  | nil => rfl
  | cons level rest ih =>
    rcases level.passes_or_stops_or_exhausted depth index solutions solved with
      ⟨solution, passes⟩ | ⟨progress, stops⟩ | exhausted
    · rw [playFrom_cons_of_passes passes, playFrom_cons_of_passes passes, ← ih, Nat.add_assoc]
    · rw [playFrom_cons_of_stops stops, playFrom_cons_of_stops (stops.shift count)]
      rfl
    · rw [exhausted, exhausted]
      rfl

/-- The levels that a game has reached are passed. -/
theorem PlayEnds.solves_take (ends : PlayEnds depth solutions 0 solved levels progress final) :
    Solves depth solutions solved (levels.take (progress.reached levels.length)) final := by
  cases ends with
  | completed solves => rwa [Progress.reached, List.take_length]
  | stopped solves stops =>
    rw [stops.reached_eq, Nat.zero_add, List.take_left]
    exact solves

/-- The level that a game has reached stops it. -/
theorem PlayEnds.exists_stops (ends : PlayEnds depth solutions 0 solved levels progress final)
    (stopped : progress ≠ .completed) :
    ∃ level, levels[progress.reached levels.length]? = some level ∧
      level.Stops depth solutions (progress.reached levels.length) final progress := by
  cases ends with
  | completed solves => exact absurd rfl stopped
  | @stopped before behind level _ _ solves stops =>
    rw [stops.reached_eq]
    exact ⟨level, by simp, stops⟩

end Reached

/-- Progress is a property of a prefix. A game that keeps within its bound ends with a progress and
the solved builtins, never with an error. It solves the levels it has reached: a game of these
levels alone is completed with the same builtins, which are those of these levels and no others, and
each of them was passed against the builtins that a game of the levels before it leaves. Unless it
is completed, the next level exists and stops the game for the reason that the progress gives; then
every game that starts with the same levels up to that one, and has the same solutions for them,
ends in the same way, whatever follows. When it is completed, a game with more levels goes on as a
game of the added levels does that starts with the builtins solved, with its numbers shifted. -/
theorem progress_is_a_prefix_property (depth : Nat) (levels : List Level)
    (solutions : String → Option String) (returns : play depth levels solutions ≠ .exhausted) :
    ∃ progress solved reached, play depth levels solutions = .value (progress, solved) ∧
      reached = progress.reached levels.length ∧
      (∀ name, solved.contains name = true ↔
        name ∈ (levels.take reached).map Level.builtinName) ∧
      (∀ index level, index < reached → levels[index]? = some level →
        ∃ before solution,
          play depth (levels.take index) solutions = .value (.completed, before) ∧
          level.Passes depth solutions before solution ∧
          play depth (levels.take (index + 1)) solutions =
            .value (.completed, before.extend level.builtinName solution)) ∧
      play depth (levels.take reached) solutions = .value (.completed, solved) ∧
      (progress ≠ .completed →
        reached < levels.length ∧
        (∃ level, levels[reached]? = some level ∧
          level.Stops depth solutions reached solved progress) ∧
        ∀ (other : List Level) (otherSolutions : String → Option String),
          levels.take (reached + 1) <+: other →
          (∀ level ∈ levels.take (reached + 1),
            otherSolutions level.builtinName = solutions level.builtinName) →
          ∀ deeper, depth ≤ deeper →
            play deeper other otherSolutions = .value (progress, solved)) ∧
      (progress = .completed →
        ∀ (more : List Level) (deeper : Nat), depth ≤ deeper →
          play deeper (levels ++ more) solutions =
            (fun (progress, final) => (progress.shift levels.length, final)) <$>
              playFrom deeper solutions 0 solved more) := by
  obtain ⟨progress, solved, ends⟩ := exists_playEnds returns
  have solves := ends.solves_take
  refine ⟨progress, solved, _, ends.playFrom_eq, rfl, ?_, ?_, ?_, ?_, ?_⟩
  · intro name
    simpa [Environment.contains] using solves.contains_iff name
  · intro index level before found
    rw [← List.getElem?_take_of_lt before] at found
    obtain ⟨environment, solution, beforeSolves, passes, hereSolves⟩ := solves.exists_passes found
    rw [List.take_take, Nat.min_eq_left (by omega)] at beforeSolves hereSolves
    exact ⟨environment, solution, (PlayEnds.completed beforeSolves).playFrom_eq, passes,
      (PlayEnds.completed hereSolves).playFrom_eq⟩
  · exact (PlayEnds.completed solves).playFrom_eq
  · intro stopped
    obtain ⟨level, found, stops⟩ := ends.exists_stops stopped
    obtain ⟨inside, -⟩ := List.getElem?_eq_some_iff.mp found
    refine ⟨inside, ⟨level, found, stops⟩, ?_⟩
    rintro _ otherSolutions ⟨rest, rfl⟩ same deeper within
    have taken : levels.take (progress.reached levels.length + 1) =
        levels.take (progress.reached levels.length) ++ [level] := by
      simp [List.take_add_one, found]
    rw [taken] at same ⊢
    obtain ⟨sameBefore, sameHere⟩ := List.forall_mem_append.mp same
    have stopsHere := stops.transfer within (sameHere level (by simp))
    rw [List.append_assoc]
    refine (PlayEnds.stopped (solves.transfer within sameBefore) ?_).playFrom_eq
    rwa [List.length_take_of_le (by omega), Nat.zero_add]
  · rintro rfl more deeper within
    rw [Progress.reached, List.take_length] at solves
    have transferred := solves.transfer within fun _ _ => rfl
    rw [play, transferred.playFrom_append, Nat.add_comm, playFrom_add]

/-- A game with a solution of the first level only stops at the second one, and a game of the first
level alone is completed. -/
theorem progress_is_a_prefix_property_first_level :
    let solutions (name : String) : Option String :=
      if name = "identity" then some "(\\z.z)" else none
    ∃ solved, play 2 curriculum solutions = .value (.unattempted 1, solved) ∧
      (∀ name, solved.contains name = true ↔ name = "identity") ∧
      (∀ (more : List Level) (deeper : Nat), 2 ≤ deeper →
        play deeper (identityLevel :: zeroLevel :: more) solutions =
          .value (.unattempted 1, solved)) ∧
      ∀ (more : List Level) (deeper : Nat), 2 ≤ deeper →
        play deeper (identityLevel :: more) solutions =
          (fun (progress, final) => (progress.shift 1, final)) <$>
            playFrom deeper solutions 0 solved more := by
  intro solutions
  let identity : Environment := .extend .empty "identity" (.mk "z" (.var "z") .empty)
  have played : play 2 curriculum solutions = .value (.unattempted 1, identity) := rfl
  have playedFirst : play 2 [identityLevel] solutions = .value (.completed, identity) := rfl
  obtain ⟨progress, solved, _, same, rfl, names, -, -, stops, -⟩ :=
    progress_is_a_prefix_property 2 curriculum solutions (by simp [played])
  obtain ⟨firstProgress, firstSolved, _, sameFirst, rfl, -, -, -, -, completes⟩ :=
    progress_is_a_prefix_property 2 [identityLevel] solutions (by simp [playedFirst])
  rw [played] at same
  rw [playedFirst] at sameFirst
  cases same
  cases sameFirst
  refine ⟨identity, played, ?_, ?_, completes rfl⟩
  · simpa [Progress.reached, curriculum, identityLevel] using names
  · intro more deeper within
    obtain ⟨-, -, others⟩ := stops (by simp)
    exact others _ solutions ⟨more, rfl⟩ (fun _ _ => rfl) deeper within

end LambdaTutor
