import LambdaTutor.Proofs.Closure.Equality
import Mathlib.Data.Set.Card

/-!
# Environments are finite maps

An environment is held as the history of its bindings, shadowed ones included, and names are
forgotten by filtering that history. Nothing of this can be seen: in whatever way an environment is
built, all its answers are those of one map from names to closures. `Construction.binding` says
which map, without an environment, and `Construction.represents` follows the operations step by
step. Lookups decide the other answers (`represents_iff`), so a step has to be followed through
`get?` only.

The operations treat the names one by one. Two of them commute where no name is changed by both.
-/

namespace LambdaTutor.Environment

/-- Keeping every name changes nothing. -/
@[simp] theorem filter_true (env : Environment) : (env.filter fun _ => true) = env := by
  match env with
  | .empty => rfl
  | .extend env bound value => simp [filter, filter_true env]

/-- Two filters in a row are one. -/
theorem filter_filter (keep other : String → Bool) (env : Environment) :
    (env.filter keep).filter other = env.filter fun name => keep name && other name := by
  match env with
  | .empty => rfl
  | .extend env bound value =>
    have rest := filter_filter keep other env
    by_cases kept : keep bound = true <;> simp [filter, kept, rest]

/-- Filters that agree on the bound names leave the same history. -/
theorem filter_congr {keep other : String → Bool} (env : Environment)
    (agree : ∀ name, env.contains name = true → keep name = other name) :
    env.filter keep = env.filter other := by
  match env with
  | .empty => rfl
  | .extend env bound value =>
    have first : keep bound = other bound := agree bound (by simp [contains])
    have rest : env.filter keep = env.filter other := by
      -- What the new binding shadows is still a binding of a bound name.
      refine filter_congr env fun name found => agree name ?_
      by_cases same : name = bound
      · simp [contains, same]
      · simpa [contains, same] using found
    simp only [filter, first, rest]

/-- Forgetting names one after the other is forgetting them all at once. -/
theorem foldl_without (forgotten : List String) (env : Environment) :
    forgotten.foldl without env = env.withoutAll forgotten := by
  induction forgotten generalizing env with
  | nil => simp [withoutAll]
  | cons name forgotten ih => simp [ih, withoutAll, without, filter_filter]

/-- Only the names that are bound have to be forgotten. -/
theorem withoutAll_filter_contains (env : Environment) (forgotten : List String) :
    env.withoutAll (forgotten.filter env.contains) = env.withoutAll forgotten := by
  refine filter_congr env fun name found => ?_
  simp [found]

/-- Names are forgotten one after the other, and where none of them is bound there is nothing to
do. -/
theorem withoutAll_eq_ite (env : Environment) (forgotten : List String) :
    env.withoutAll forgotten =
      if (forgotten.filter env.contains).isEmpty then env
      else (forgotten.filter env.contains).foldl without env := by
  rw [← withoutAll_filter_contains, ← foldl_without]
  split
  case isTrue unbound => rw [List.isEmpty_iff.mp unbound, List.foldl_nil]
  case isFalse => rfl

/-- Binding pairs in order, the last pair of a name counts; other names keep their binding. -/
theorem get?_foldl_extend (pairs : List (String × Closure)) (env : Environment) (name : String) :
    (pairs.foldl (fun env (bound, value) => env.extend bound value) env).get? name =
      (pairs.reverse.lookup name).or (env.get? name) := by
  induction pairs generalizing env with
  | nil => rfl
  | cons pair pairs ih =>
    obtain ⟨bound, value⟩ := pair
    rw [List.foldl_cons, ih, List.reverse_cons, List.lookup_append, Option.or_assoc]
    by_cases same : name = bound
    · simp [same]
    · have different : (name == bound) = false := beq_eq_false_iff_ne.mpr same
      simp [List.lookup_cons, same, different]

/-- Pairs bind a name to the value of its last pair. -/
theorem get?_ofPairs (pairs : List (String × Closure)) (name : String) :
    (ofPairs pairs).get? name = pairs.reverse.lookup name := by
  rw [ofPairs, get?_foldl_extend, get?_empty, Option.or_none]

/-- The bindings of the listed names as pairs, one for each time that a bound name is listed. -/
def pairsOf (env : Environment) (listed : List String) : List (String × Closure) :=
  listed.filterMap fun name => (env.get? name).map fun value => (name, value)

theorem lookup_pairsOf (env : Environment) (listed : List String) (name : String) :
    (env.pairsOf listed).lookup name = if name ∈ listed then env.get? name else none := by
  induction listed with
  | nil => rfl
  | cons first listed ih =>
    cases bound : env.get? first with
    | none =>
      have skipped : env.pairsOf (first :: listed) = env.pairsOf listed := by
        simp [pairsOf, bound]
      by_cases same : name = first
      · rw [skipped, ih]
        simp [same, bound]
      · simp [skipped, ih, same]
    | some value =>
      have picked : env.pairsOf (first :: listed) = (first, value) :: env.pairsOf listed := by
        simp [pairsOf, bound]
      by_cases same : name = first
      · simp [picked, same, bound]
      · have different : (name == first) = false := beq_eq_false_iff_ne.mpr same
        simp [picked, List.lookup_cons, different, ih, same]

/-- Keeping names is binding their pairs anew. -/
theorem get?_ofPairs_pairsOf (env : Environment) (kept : List String) (name : String) :
    (ofPairs (env.pairsOf kept)).get? name = (env.restrictTo kept).get? name := by
  rw [get?_ofPairs, pairsOf, ← List.filterMap_reverse, ← pairsOf, lookup_pairsOf, get?_restrictTo]
  simp only [List.mem_reverse]

/-- Environments with the same lookups are equal. -/
theorem equal_of_get?_eq {env other : Environment}
    (agree : ∀ name, env.get? name = other.get? name) : (env == other) = true := by
  rw [equal_iff]
  intro name
  rw [agree name]
  cases other.get? name with
  | none => exact .none
  | some value => exact .some BEq.rfl

/-- The size counts the names that are bound. -/
theorem encard_bound (env : Environment) :
    Set.encard { name | ∃ value, env.get? name = some value } = env.size := by
  have listed : { name | ∃ value, env.get? name = some value } = ↑env.names.toFinset := by
    ext name
    simp [mem_names_iff, Option.isSome_iff_exists]
  rw [listed, Set.encard_coe_eq_coe_finsetCard, List.toFinset_card_of_nodup env.names_nodup, size]

/-- An environment is empty when no name is bound. -/
theorem isEmpty_iff (env : Environment) : env.isEmpty = true ↔ ∀ name, env.get? name = none := by
  cases env with
  | empty => simp [isEmpty]
  | extend env bound value =>
    have found : ¬ ∀ name, (env.extend bound value).get? name = none := by
      intro unbound
      simpa using unbound bound
    simp [isEmpty, found]

/-- Everything that can be asked of an environment is answered by a map. -/
structure Represents (env : Environment) (binding : String → Option Closure) : Prop where
  lookup : ∀ name, env.get? name = binding name
  contains : ∀ name, env.contains name = true ↔ ∃ value, binding name = some value
  listed : ∀ name, name ∈ env.names ↔ ∃ value, binding name = some value
  listedOnce : env.names.Nodup
  counted : Set.encard { name | ∃ value, binding name = some value } = env.size
  isEmpty : env.isEmpty = true ↔ ∀ name, binding name = none

/-- The lookups of an environment determine all its answers. -/
theorem represents_iff {env : Environment} {binding : String → Option Closure} :
    env.Represents binding ↔ ∀ name, env.get? name = binding name := by
  constructor
  · exact Represents.lookup
  · intro lookup
    obtain rfl : env.get? = binding := funext lookup
    exact {
      lookup
      contains := fun _ => Option.isSome_iff_exists
      listed := fun name => (env.mem_names_iff name).trans Option.isSome_iff_exists
      listedOnce := env.names_nodup
      counted := env.encard_bound
      isEmpty := env.isEmpty_iff }

/-- The operations that make an environment of another one. -/
inductive Operation where
  | extend (name : String) (value : Closure)
  | without (name : String)
  | withoutAll (names : List String)
  | restrictTo (names : List String)

namespace Operation

/-- The environment that an operation makes. -/
def apply : Operation → Environment → Environment
  | extend name value, env => env.extend name value
  | without name, env => env.without name
  | withoutAll names, env => env.withoutAll names
  | restrictTo names, env => env.restrictTo names

/-- The binding that an operation gives to a name in the place of the old one. -/
def rebind : Operation → String → Option Closure → Option Closure
  | extend bound value, name, old => if name = bound then some value else old
  | without forgotten, name, old => if name = forgotten then none else old
  | withoutAll forgotten, name, old => if name ∈ forgotten then none else old
  | restrictTo kept, name, old => if name ∈ kept then old else none

/-- The names whose bindings an operation is about. A restriction is about the names that it does
not keep. -/
def ActsOn : Operation → String → Prop
  | extend bound _, name => name = bound
  | without forgotten, name => name = forgotten
  | withoutAll forgotten, name => name ∈ forgotten
  | restrictTo kept, name => name ∉ kept

/-- An operation rebinds each name on its own. -/
theorem get?_apply (operation : Operation) (env : Environment) (name : String) :
    (operation.apply env).get? name = operation.rebind name (env.get? name) := by
  cases operation with
  | extend bound value => exact get?_extend env bound name value
  | without forgotten => exact get?_without env forgotten name
  | withoutAll forgotten => exact get?_withoutAll env forgotten name
  | restrictTo kept => exact get?_restrictTo env kept name

/-- An operation keeps the bindings of the names that it does not act on. -/
theorem rebind_of_not_actsOn {operation : Operation} {name : String}
    (idle : ¬ operation.ActsOn name) (old : Option Closure) :
    operation.rebind name old = old := by
  cases operation with
  | extend bound value => exact if_neg idle
  | without forgotten => exact if_neg idle
  | withoutAll forgotten => exact if_neg idle
  | restrictTo kept => exact if_pos (not_not.mp idle)

/-- The binding that an operation gives to a name it acts on does not depend on the old one. -/
theorem exists_rebind_of_actsOn {operation : Operation} {name : String}
    (acts : operation.ActsOn name) : ∃ binding, ∀ old, operation.rebind name old = binding := by
  cases operation with
  | extend bound value => exact ⟨some value, fun _ => if_pos acts⟩
  | without forgotten => exact ⟨none, fun _ => if_pos acts⟩
  | withoutAll forgotten => exact ⟨none, fun _ => if_pos acts⟩
  | restrictTo kept => exact ⟨none, fun _ => if_neg acts⟩

/-- An operation acts on exactly the names whose binding it changes somewhere. -/
theorem actsOn_iff (operation : Operation) (name : String) :
    operation.ActsOn name ↔ ∃ env, (operation.apply env).get? name ≠ env.get? name := by
  constructor
  · intro acts
    obtain ⟨binding, rebound⟩ := exists_rebind_of_actsOn acts
    cases binding with
    | none =>
      refine ⟨.extend .empty name (.mk name (.var name) .empty), ?_⟩
      simp [get?_apply, rebound]
    | some value =>
      refine ⟨.empty, ?_⟩
      simp [get?_apply, rebound]
  · rintro ⟨env, changed⟩
    by_contra idle
    exact changed (by rw [get?_apply, rebind_of_not_actsOn idle])

/-- Operations that act on no common name can be made in either order. -/
theorem apply_comm {first second : Operation}
    (apart : ∀ name, ¬ (first.ActsOn name ∧ second.ActsOn name)) (env : Environment) :
    (first.apply (second.apply env) == second.apply (first.apply env)) = true := by
  refine equal_of_get?_eq fun name => ?_
  simp only [get?_apply]
  by_cases acts : first.ActsOn name
  · have idle : ¬ second.ActsOn name := fun also => apart name ⟨acts, also⟩
    rw [rebind_of_not_actsOn idle, rebind_of_not_actsOn idle]
  · rw [rebind_of_not_actsOn acts, rebind_of_not_actsOn acts]

end Operation

/-- A way to build an environment. -/
inductive Construction where
  | empty
  | ofPairs (pairs : List (String × Closure))
  | step (earlier : Construction) (operation : Operation)

namespace Construction

/-- The environment that is built. -/
def build : Construction → Environment
  | empty => .empty
  | ofPairs pairs => .ofPairs pairs
  | step earlier operation => operation.apply earlier.build

/-- The map that is described: a name has the binding of its last pair, and each operation rebinds
it. -/
def binding : Construction → String → Option Closure
  | empty, _ => none
  | ofPairs pairs, name => pairs.reverse.lookup name
  | step earlier operation, name => operation.rebind name (earlier.binding name)

/-- Every environment represents the map that its construction describes. -/
theorem represents (construction : Construction) :
    construction.build.Represents construction.binding := by
  rw [represents_iff]
  intro name
  induction construction with
  | empty => rfl
  | ofPairs pairs => exact get?_ofPairs pairs name
  | step earlier operation ih => rw [build, operation.get?_apply, ih, binding]

end Construction

/-- Environments are finite maps. In whatever way an environment is built, its lookups, the names it
lists, their number and its emptiness are those of the map that the construction describes: pairs
bind a name to the value of its last pair, and an operation rebinds every name on its own. Names are
forgotten one after the other, or not at all where none of them is bound, and kept by binding their
pairs anew. An operation acts on the names whose bindings it can change, a restriction on those that
it does not keep, and operations that act on no common name make equal environments in either
order. -/
theorem environments_are_finite_maps :
    (∀ construction : Construction, construction.build.Represents construction.binding) ∧
    (∀ (env : Environment) (operation : Operation) (name : String),
      (operation.apply env).get? name = operation.rebind name (env.get? name)) ∧
    (∀ (env : Environment) (forgotten : List String),
      env.withoutAll forgotten =
        if (forgotten.filter env.contains).isEmpty then env
        else (forgotten.filter env.contains).foldl without env) ∧
    (∀ (env : Environment) (kept : List String),
      (env.restrictTo kept == ofPairs (env.pairsOf kept)) = true) ∧
    (∀ (operation : Operation) (name : String),
      operation.ActsOn name ↔ ∃ env, (operation.apply env).get? name ≠ env.get? name) ∧
    ∀ (first second : Operation), (∀ name, ¬ (first.ActsOn name ∧ second.ActsOn name)) →
      ∀ env : Environment,
        (first.apply (second.apply env) == second.apply (first.apply env)) = true := by
  refine ⟨Construction.represents, fun env operation => operation.get?_apply env,
    withoutAll_eq_ite, ?_, Operation.actsOn_iff, fun first second => Operation.apply_comm⟩
  intro env kept
  exact equal_of_get?_eq fun name => (get?_ofPairs_pairsOf env kept name).symm

/-- Pairs with a shadowed one, names forgotten twice and without a binding, and names kept twice;
then an extension and a restriction that keeps the name. -/
theorem environments_are_finite_maps_shadowed :
    let identity : Closure := .mk "x" (.var "x") .empty
    let zero : Closure := .mk "f" (.lam "x" (.var "x")) .empty
    let forgetting : Construction :=
      .step (.ofPairs [("a", identity), ("b", zero), ("c", zero), ("a", zero)])
        (.withoutAll ["b", "d", "b"])
    let keeping : Construction := .step forgetting (.restrictTo ["a", "d", "a"])
    let binding : Operation := .extend "b" identity
    let restriction : Operation := .restrictTo ["b", "c"]
    forgetting.build.get? "a" = some zero ∧ forgetting.build.get? "b" = none ∧
    forgetting.build.names.Nodup ∧
    keeping.build.get? "a" = some zero ∧ keeping.build.get? "c" = none ∧
    Set.encard { name | ∃ value, keeping.binding name = some value } = (1 : ℕ) ∧
    (∀ name, ¬ (binding.ActsOn name ∧ restriction.ActsOn name)) ∧
    (binding.apply (restriction.apply forgetting.build) ==
      restriction.apply (binding.apply forgetting.build)) = true := by
  intro identity zero forgetting keeping binding restriction
  obtain ⟨represents, -, -, -, -, commute⟩ := environments_are_finite_maps
  have apart : ∀ name, ¬ (binding.ActsOn name ∧ restriction.ActsOn name) := by
    rintro name ⟨rfl, notKept⟩
    exact notKept (by simp)
  exact ⟨(represents forgetting).lookup "a", (represents forgetting).lookup "b",
    (represents forgetting).listedOnce, (represents keeping).lookup "a",
    (represents keeping).lookup "c", (represents keeping).counted, apart,
    commute binding restriction apart forgetting.build⟩

end LambdaTutor.Environment
