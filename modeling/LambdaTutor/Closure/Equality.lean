import LambdaTutor.Closure

/-!
# Equality of closures and environments

Closures are equal when their abstractions are written alike and their captured environments are
equal; environments are equal when they bind the same names to equal closures. The order in which
names were bound and bindings that were shadowed do not count, so this is coarser than identity of
the histories. `Closure.beq` and `Environment.beq` say so: they count the names on both sides and
then look every visible binding of the left side up on the right.

Values share their parts, and a value that is spelled out in full can be far larger than it is in
memory. The comparison that runs therefore stops where both sides are one object. It returns its
answer together with the proof that `beq` gives the same one, for which every value has to be
equal to itself; `Closure.beq_eq` and `Environment.beq_eq` state the agreement for `==`.
-/

namespace LambdaTutor

mutual

/-- Whether two closures are equal. -/
def Closure.beq : Closure → Closure → Bool
  | .mk param body env, other =>
    param == other.param && body == other.body && env.size == other.env.size &&
      env.within [] other.env

/-- Whether every binding of the left side, the shadowed names apart, is one of the right side. -/
def Environment.within (shadowed : List String) : Environment → Environment → Bool
  | .empty, _ => true
  | .extend env name value, other =>
    (decide (name ∈ shadowed) ||
      match other.get? name with
      | some found => value.beq found
      | none => false) &&
    env.within (name :: shadowed) other

end

/-- Whether two environments are equal. -/
def Environment.beq (env other : Environment) : Bool :=
  env.size == other.size && env.within [] other

/-- Closures are compared through their parts. -/
theorem Closure.beq_mk (param : String) (body : Term) (env : Environment) (other : Closure) :
    (Closure.mk param body env).beq other =
      (param == other.param && body == other.body && env.beq other.env) := by
  simp [Closure.beq, Environment.beq, Bool.and_assoc]

mutual

/-- Every closure is equal to itself. -/
theorem Closure.beq_self : (closure : Closure) → closure.beq closure = true
  | .mk param body env => by
    simp [Closure.beq, Environment.within_of_get?_eq [] env env fun _ _ => rfl]

/-- An environment lies within one that has the same binding of every name that is not
shadowed. -/
theorem Environment.within_of_get?_eq (shadowed : List String) :
    (env other : Environment) → (∀ name ∉ shadowed, other.get? name = env.get? name) →
      env.within shadowed other = true
  | .empty, _, _ => by simp [Environment.within]
  | .extend env name value, other, agree => by
    have rest : env.within (name :: shadowed) other = true := by
      refine Environment.within_of_get?_eq (name :: shadowed) env other fun visible fresh => ?_
      rw [List.mem_cons, not_or] at fresh
      rw [agree visible fresh.2, Environment.get?_extend_of_ne env value fresh.1]
    by_cases member : name ∈ shadowed
    · simp [Environment.within, member, rest]
    · have found : other.get? name = some value := by simp [agree name member]
      simp [Environment.within, member, rest, found, Closure.beq_self value]

end

/-- Every environment is equal to itself. -/
theorem Environment.beq_self (env : Environment) : env.beq env = true := by
  simp [Environment.beq, Environment.within_of_get?_eq [] env env fun _ _ => rfl]

/-- The answer of a reflexive test, found at once when both sides are one object. -/
@[inline] def testShared {α : Type} (test : α → α → Bool) (refl : ∀ value, test value value = true)
    (left right : α) (compute : Unit → { answer : Bool // answer = test left right }) :
    { answer : Bool // answer = test left right } :=
  ⟨withPtrEq left right (fun _ => (compute ()).val) fun same => by
      rw [(compute ()).property, same, refl],
    (compute ()).property⟩

/-- Whether two terms are the same, with regard to what they share. -/
def Term.beqShared (term other : Term) : { answer : Bool // answer = (term == other) } :=
  testShared (· == ·) (fun _ => beq_self_eq_true _) term other fun _ => ⟨term == other, rfl⟩

mutual

/-- Whether two closures are equal, with regard to what they share. -/
def Closure.beqShared : (closure other : Closure) → { answer : Bool // answer = closure.beq other }
  | .mk param body env, other =>
    testShared Closure.beq Closure.beq_self (.mk param body env) other fun _ =>
      ⟨param == other.param && (body.beqShared other.body).val &&
        (testShared Environment.beq Environment.beq_self env other.env fun _ =>
          ⟨env.size == other.env.size && (env.withinShared [] other.env).val, by
            rw [(env.withinShared [] other.env).property, Environment.beq]⟩).val, by
        rw [Subtype.property (testShared Environment.beq _ env other.env _),
          (body.beqShared other.body).property, Closure.beq_mk]⟩

/-- Whether every binding of the left side, the shadowed names apart, is one of the right side,
with regard to what the sides share. -/
def Environment.withinShared (shadowed : List String) :
    (env other : Environment) → { answer : Bool // answer = env.within shadowed other }
  | .empty, _ => ⟨true, by rw [Environment.within]⟩
  | .extend env name value, other =>
    ⟨(decide (name ∈ shadowed) ||
        match other.get? name with
        | some found => (value.beqShared found).val
        | none => false) &&
      (env.withinShared (name :: shadowed) other).val, by
      rw [Environment.within, (env.withinShared (name :: shadowed) other).property]
      cases other.get? name with
      | some found => simp only [(value.beqShared found).property]
      | none => rfl⟩

end

/-- Whether two environments are equal, with regard to what they share. -/
def Environment.beqShared (env other : Environment) :
    { answer : Bool // answer = env.beq other } :=
  testShared Environment.beq Environment.beq_self env other fun _ =>
    ⟨env.size == other.size && (env.withinShared [] other).val, by
      rw [(env.withinShared [] other).property, Environment.beq]⟩

instance : BEq Closure := ⟨fun closure other => (closure.beqShared other).val⟩

instance : BEq Environment := ⟨fun env other => (env.beqShared other).val⟩

/-- Sharing does not show in the equality of closures. -/
theorem Closure.beq_eq (closure other : Closure) : (closure == other) = closure.beq other :=
  (closure.beqShared other).property

/-- Sharing does not show in the equality of environments. -/
theorem Environment.beq_eq (env other : Environment) : (env == other) = env.beq other :=
  (env.beqShared other).property

end LambdaTutor
