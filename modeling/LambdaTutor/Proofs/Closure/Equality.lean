import LambdaTutor.Closure.Equality
import LambdaTutor.Proofs.Closure.Lookup
import Mathlib.Data.List.Perm.Subperm

/-!
# Equality of values is agreement of lookups

The comparison counts the names on both sides and walks the bindings of the left side only. Names
are listed once, so equal counts make the one-sided walk a two-sided one, and `Environment.beq_iff`
says what the comparison decides: both sides bind the same names, and bind them to equal closures.
Everything else about equality follows from that statement by induction over the closures that can
be looked up.

`Closure.Compares` and `Environment.Compares` leave open where a comparison stops because both sides
are one object. Sharing is no property of values, so the relations allow a stop at every pair that
could be one object and require it at none. All these comparisons give the same answer.
-/

namespace LambdaTutor

/-- What the walk over the left side decides: every binding that is not shadowed has an equal one on
the right. -/
theorem Environment.within_iff (shadowed : List String) (env other : Environment) :
    env.within shadowed other = true ↔
      ∀ name value, name ∉ shadowed → env.get? name = some value →
        ∃ found, other.get? name = some found ∧ value.beq found = true := by
  match env with
  | .empty => simp [Environment.within]
  | .extend env bound value =>
    rw [Environment.within, Bool.and_eq_true, Bool.or_eq_true, decide_eq_true_eq,
      within_iff (bound :: shadowed) env other]
    constructor
    · rintro ⟨first, others⟩ name found visible lookup
      rcases get?_extend_eq_some_iff.mp lookup with ⟨rfl, rfl⟩ | ⟨different, lookup⟩
      · have equal := first.resolve_left visible
        cases otherLookup : other.get? name with
        | none => simp [otherLookup] at equal
        | some found => exact ⟨found, rfl, by simpa [otherLookup] using equal⟩
      · exact others name found (by simp [different, visible]) lookup
    · intro all
      refine ⟨?_, fun name found visible lookup => ?_⟩
      · by_cases member : bound ∈ shadowed
        · exact .inl member
        · obtain ⟨found, otherLookup, equal⟩ := all bound value member (by simp)
          exact .inr (by simpa [otherLookup] using equal)
      · rw [List.mem_cons, not_or] at visible
        exact all name found visible.2 (get?_extend_eq_some_iff.mpr (.inr ⟨visible.1, lookup⟩))

/-- When all names of one side are names of the other and there are as many of both, then both sides
bind the same names. -/
theorem Environment.names_perm_of_subset {env other : Environment} (sizes : env.size = other.size)
    (subset : env.names ⊆ other.names) : env.names.Perm other.names :=
  (List.subperm_of_subset env.names_nodup subset).perm_of_length_le (Nat.le_of_eq sizes.symm)

/-- Environments are equal when they bind the same names and bind them to equal closures. -/
theorem Environment.beq_iff (env other : Environment) :
    env.beq other = true ↔
      ∀ name, Option.Rel (fun value found => value.beq found = true) (env.get? name)
        (other.get? name) := by
  simp only [Environment.beq, Bool.and_eq_true, beq_iff_eq, within_iff, List.not_mem_nil,
    not_false_eq_true, true_implies, rel_get?_iff]
  constructor
  · rintro ⟨sizes, walk⟩ name
    have subset : env.names ⊆ other.names := by
      intro bound member
      obtain ⟨value, lookup⟩ := Option.isSome_iff_exists.mp ((mem_names_iff env bound).mp member)
      obtain ⟨found, lookup, -⟩ := walk bound value lookup
      exact (mem_names_iff other bound).mpr (by simp [lookup])
    have names := (names_perm_of_subset sizes subset).mem_iff (a := name)
    rw [mem_names_iff, mem_names_iff] at names
    cases lookup : env.get? name with
    | some value =>
      obtain ⟨found, otherLookup, equal⟩ := walk name value lookup
      exact .inr ⟨value, found, rfl, otherLookup, equal⟩
    | none => exact .inl ⟨rfl, by simpa [lookup] using names⟩
  · intro agree
    have names : env.names.Perm other.names := by
      rw [List.perm_ext_iff_of_nodup env.names_nodup other.names_nodup]
      intro name
      rw [mem_names_iff, mem_names_iff]
      rcases agree name with ⟨unbound, otherUnbound⟩ | ⟨value, found, lookup, otherLookup, -⟩
      · simp [unbound, otherUnbound]
      · simp [lookup, otherLookup]
    refine ⟨names.length_eq, fun name value lookup => ?_⟩
    rcases agree name with ⟨unbound, -⟩ | ⟨bound, found, otherLookup, foundLookup, equal⟩
    · rw [unbound] at lookup
      cases lookup
    · rw [lookup, Option.some.injEq] at otherLookup
      exact ⟨found, foundLookup, otherLookup ▸ equal⟩

namespace Closure

theorem beq_eq_parts (closure other : Closure) :
    closure.beq other = (closure.param == other.param && closure.body == other.body &&
      closure.env.beq other.env) := by
  cases closure
  rw [beq_mk, param_mk, body_mk, env_mk]

/-- Closures are equal when their abstractions are written alike and their environments are
equal. -/
theorem beq_iff (closure other : Closure) :
    closure.beq other = true ↔
      closure.param = other.param ∧ closure.body = other.body ∧
        closure.env.beq other.env = true := by
  simp only [beq_eq_parts, Bool.and_eq_true, beq_iff_eq, and_assoc]

theorem beq_symm (closure : Closure) :
    ∀ other : Closure, closure.beq other = true → other.beq closure = true := by
  induction closure using Closure.bound_induction with
  | step closure ih =>
    intro other equal
    obtain ⟨params, bodies, envs⟩ := (beq_iff closure other).mp equal
    refine (beq_iff other closure).mpr ⟨params.symm, bodies.symm, ?_⟩
    rw [Environment.beq_iff] at envs ⊢
    intro name
    rw [Environment.rel_get?_iff]
    rcases Environment.rel_get?_iff.mp (envs name) with
      ⟨unbound, otherUnbound⟩ | ⟨value, found, lookup, otherLookup, equal⟩
    · exact .inl ⟨otherUnbound, unbound⟩
    · exact .inr ⟨found, value, otherLookup, lookup, ih name value lookup found equal⟩

theorem beq_trans (closure : Closure) :
    ∀ other third : Closure, closure.beq other = true → other.beq third = true →
      closure.beq third = true := by
  induction closure using Closure.bound_induction with
  | step closure ih =>
    intro other third equal otherEqual
    obtain ⟨params, bodies, envs⟩ := (beq_iff closure other).mp equal
    obtain ⟨otherParams, otherBodies, otherEnvs⟩ := (beq_iff other third).mp otherEqual
    refine (beq_iff closure third).mpr
      ⟨params.trans otherParams, bodies.trans otherBodies, ?_⟩
    rw [Environment.beq_iff] at envs otherEnvs ⊢
    intro name
    have otherAgrees := otherEnvs name
    rcases Environment.rel_get?_iff.mp (envs name) with
      ⟨unbound, otherUnbound⟩ | ⟨value, found, lookup, otherLookup, equal⟩
    · rwa [otherUnbound, ← unbound] at otherAgrees
    · rw [lookup]
      rw [otherLookup] at otherAgrees
      cases thirdLookup : third.env.get? name with
      | none => simp [thirdLookup] at otherAgrees
      | some last =>
        rw [thirdLookup, Option.rel_some_some] at otherAgrees
        exact .some (ih name value lookup found last equal otherAgrees)

end Closure

namespace Environment

/-- Environments are compared as parts of closures that differ in nothing else. -/
theorem beq_eq_beq_mk (env other : Environment) (param : String) (body : Term) :
    env.beq other = (Closure.mk param body env).beq (.mk param body other) := by
  simp [Closure.beq_mk]

theorem beq_symm {env other : Environment} (equal : env.beq other = true) :
    other.beq env = true := by
  rw [beq_eq_beq_mk _ _ "" (.var "")] at equal ⊢
  exact Closure.beq_symm _ _ equal

theorem beq_trans {env other third : Environment} (equal : env.beq other = true)
    (otherEqual : other.beq third = true) : env.beq third = true := by
  rw [beq_eq_beq_mk _ _ "" (.var "")] at equal otherEqual ⊢
  exact Closure.beq_trans _ _ _ equal otherEqual

end Environment

instance : EquivBEq Closure where
  rfl {closure} := by rw [Closure.beq_eq, Closure.beq_self]
  symm {closure other} equal := by
    rw [Closure.beq_eq] at equal ⊢
    exact Closure.beq_symm closure other equal
  trans {closure other third} equal otherEqual := by
    rw [Closure.beq_eq] at equal otherEqual ⊢
    exact Closure.beq_trans closure other third equal otherEqual

instance : EquivBEq Environment where
  rfl {env} := by rw [Environment.beq_eq, Environment.beq_self]
  symm equal := by
    rw [Environment.beq_eq] at equal ⊢
    exact Environment.beq_symm equal
  trans equal otherEqual := by
    rw [Environment.beq_eq] at equal otherEqual ⊢
    exact Environment.beq_trans equal otherEqual

/-- The answers of a comparison of terms that may stop where both sides are one object. -/
inductive Term.Compares : Term → Term → Bool → Prop where
  | shared (term : Term) : Compares term term true
  | read (term other : Term) : Compares term other (term == other)

mutual

/-- The answers of a comparison of closures that may stop wherever both sides have one object for
the body or for the environment. -/
inductive Closure.Compares : Closure → Closure → Bool → Prop where
  | parts {closure other : Closure} {bodies envs : Bool}
      (compareBodies : Term.Compares closure.body other.body bodies)
      (compareEnvs : Environment.Compares closure.env other.env envs) :
      Closure.Compares closure other (closure.param == other.param && bodies && envs)

/-- The answers of a comparison of environments that may stop wherever both sides are one object.
The walk looks the names of the left side up on the right and puts what it finds first. -/
inductive Environment.Compares : Environment → Environment → Bool → Prop where
  /-- Both sides are one object. -/
  | shared (env : Environment) : Environment.Compares env env true
  /-- The sides bind different numbers of names. -/
  | counted {env other : Environment} (sizes : env.size ≠ other.size) :
      Environment.Compares env other false
  /-- Every name of the left side is looked up. -/
  | walked {env other : Environment} (sizes : env.size = other.size) (answers : String → Bool)
      (compare : ∀ name value found, env.get? name = some value → other.get? name = some found →
        Closure.Compares found value (answers name)) :
      Environment.Compares env other
        (env.names.all fun name => other.contains name && answers name)

end

/-- The walk compares what it finds on the right with what is bound on the left. Equality is
symmetric, so its answer is that of `beq`. -/
theorem Environment.all_names_eq_beq {env other : Environment} (sizes : env.size = other.size)
    {answers : String → Bool}
    (answered : ∀ name value found, env.get? name = some value → other.get? name = some found →
      answers name = found.beq value) :
    (env.names.all fun name => other.contains name && answers name) = env.beq other := by
  rw [Bool.eq_iff_iff, Environment.beq, sizes, beq_self_eq_true, Bool.true_and, within_iff,
    List.all_eq_true]
  constructor
  · intro all name value _ lookup
    have bound := all name ((mem_names_iff env name).mpr (by simp [lookup]))
    rw [Bool.and_eq_true, contains, Option.isSome_iff_exists] at bound
    obtain ⟨⟨found, otherLookup⟩, equal⟩ := bound
    rw [answered name value found lookup otherLookup] at equal
    exact ⟨found, otherLookup, Closure.beq_symm found value equal⟩
  · intro within name member
    obtain ⟨value, lookup⟩ := Option.isSome_iff_exists.mp ((mem_names_iff env name).mp member)
    obtain ⟨found, otherLookup, equal⟩ := within name value (by simp) lookup
    rw [answered name value found lookup otherLookup, Closure.beq_symm value found equal, contains,
      otherLookup]
    rfl

theorem Term.Compares.eq_beq {term other : Term} {answer : Bool}
    (compares : term.Compares other answer) : answer = (term == other) := by
  cases compares <;> simp

mutual

/-- Wherever a comparison of closures stops, its answer is that of the full comparison. -/
theorem Closure.Compares.eq_beq {closure other : Closure} {answer : Bool} :
    closure.Compares other answer → answer = closure.beq other
  | .parts compareBodies compareEnvs => by
    rw [compareBodies.eq_beq, compareEnvs.eq_beq, Closure.beq_eq_parts]

/-- Wherever a comparison of environments stops, its answer is that of the full comparison. -/
theorem Environment.Compares.eq_beq {env other : Environment} {answer : Bool} :
    env.Compares other answer → answer = env.beq other
  | .shared env => (Environment.beq_self env).symm
  | .counted sizes => by simp [Environment.beq, sizes]
  | .walked sizes _ compare =>
    Environment.all_names_eq_beq sizes fun name value found lookup otherLookup =>
      (compare name value found lookup otherLookup).eq_beq

end

/-- A comparison of environments can be made in full when those of the bound closures can. -/
theorem Environment.compares_beq_of_bound {env other : Environment}
    (compare : ∀ name value found, env.get? name = some value → other.get? name = some found →
      found.Compares value (found.beq value)) : env.Compares other (env.beq other) := by
  by_cases sizes : env.size = other.size
  · let answers (name : String) : Bool :=
      (env.get? name).any fun value => (other.get? name).any fun found => found.beq value
    have answered (name value found) (lookup : env.get? name = some value)
        (otherLookup : other.get? name = some found) : answers name = found.beq value := by
      simp [answers, lookup, otherLookup]
    rw [← Environment.all_names_eq_beq sizes answered]
    refine .walked sizes answers fun name value found lookup otherLookup => ?_
    rw [answered name value found lookup otherLookup]
    exact compare name value found lookup otherLookup
  · have unequal : env.beq other = false := by simp [Environment.beq, sizes]
    rw [unequal]
    exact .counted sizes

/-- Every comparison of closures can be made without a stop at shared parts. -/
theorem Closure.compares_beq (closure other : Closure) :
    closure.Compares other (closure.beq other) := by
  -- The walk changes sides at every level, so the induction carries both orders.
  suffices both : ∀ other : Closure, closure.Compares other (closure.beq other) ∧
      other.Compares closure (other.beq closure) from (both other).1
  induction closure using Closure.bound_induction with
  | step closure ih =>
    intro other
    rw [Closure.beq_eq_parts, Closure.beq_eq_parts other]
    constructor
    · exact .parts (.read _ _) (Environment.compares_beq_of_bound
        fun name value found lookup _ => (ih name value lookup found).2)
    · exact .parts (.read _ _) (Environment.compares_beq_of_bound
        fun name value found _ lookup => (ih name found lookup value).1)

/-- Wherever they stop, all comparisons of two closures give the answer of `==`. -/
theorem Closure.compares_iff {closure other : Closure} {answer : Bool} :
    closure.Compares other answer ↔ answer = (closure == other) := by
  rw [Closure.beq_eq]
  constructor
  · exact Closure.Compares.eq_beq
  · rintro rfl
    exact closure.compares_beq other

/-- Wherever they stop, all comparisons of two environments give the answer of `==`. -/
theorem Environment.compares_iff {env other : Environment} {answer : Bool} :
    env.Compares other answer ↔ answer = (env == other) := by
  rw [Environment.beq_eq]
  constructor
  · exact Environment.Compares.eq_beq
  · rintro rfl
    exact Environment.compares_beq_of_bound fun _ value found _ _ => found.compares_beq value

/-- Environments are equal exactly when every lookup agrees. -/
theorem Environment.equal_iff {env other : Environment} :
    (env == other) = true ↔
      ∀ name, Option.Rel (fun value found => (value == found) = true) (env.get? name)
        (other.get? name) := by
  simp only [Environment.beq_eq, Closure.beq_eq, Environment.beq_iff]

/-- Closures are equal exactly when their abstractions are written alike and their environments are
equal. -/
theorem Closure.equal_iff {closure other : Closure} :
    (closure == other) = true ↔
      closure.param = other.param ∧ closure.body = other.body ∧
        (closure.env == other.env) = true := by
  rw [Closure.beq_eq, Environment.beq_eq, Closure.beq_iff]

/-- Equality of closures and of environments is agreement of lookups: two closures are equal when
their abstractions are written alike and every name whatsoever is unbound in both environments or
bound to equal closures in both. Equality is reflexive, symmetric and transitive, and a comparison
that stops at any of the objects that its two sides share, or at none, gives the same answer. -/
theorem equality_is_agreement :
    (∀ closure other : Closure, (closure == other) = true ↔
      closure.param = other.param ∧ closure.body = other.body ∧
        ∀ name, Option.Rel (fun value found => (value == found) = true) (closure.env.get? name)
          (other.env.get? name)) ∧
    (∀ env other : Environment, (env == other) = true ↔
      ∀ name, Option.Rel (fun value found => (value == found) = true) (env.get? name)
        (other.get? name)) ∧
    Equivalence (fun closure other : Closure => (closure == other) = true) ∧
    Equivalence (fun env other : Environment => (env == other) = true) ∧
    (∀ (closure other : Closure) (answer : Bool),
      closure.Compares other answer ↔ answer = (closure == other)) ∧
    ∀ (env other : Environment) (answer : Bool),
      env.Compares other answer ↔ answer = (env == other) := by
  refine ⟨fun closure other => ?_, fun env other => Environment.equal_iff, ?_, ?_,
    fun closure other answer => Closure.compares_iff,
    fun env other answer => Environment.compares_iff⟩
  · rw [Closure.equal_iff, Environment.equal_iff]
  · exact ⟨fun _ => BEq.rfl, BEq.symm, BEq.trans⟩
  · exact ⟨fun _ => BEq.rfl, BEq.symm, BEq.trans⟩

end LambdaTutor
