import LambdaTutor.Proofs.Closure.Readback
import LambdaTutor.Proofs.Evaluation.Scope

/-!
# The substitution laws of resolving

Hereditarily closed closures are read back as closed terms, so a term that is resolved among them
takes in no new free name and no parameter catches anything. The free names of the resolved term are
then known exactly, and resolving it again finds nothing left to replace. Together with
`Term.resolve_extend` this makes an environment a simultaneous substitution of closed terms.
-/

namespace LambdaTutor

namespace Term

variable {env : Environment}

/-- Among hereditarily closed closures exactly the unbound free names stay free. -/
theorem mem_freeNames_resolve (closed : env.HereditarilyClosed) (term : Term) (name : String) :
    name ∈ (term.resolve env []).freeNames ↔ name ∈ term.freeNames ∧ env.get? name = none := by
  apply mem_freeNames_resolve_of_bound
  intro bound closure found
  exact (closed bound closure found).freeNames_readback

/-- Among hereditarily closed closures a resolved term is resolved for good. -/
theorem resolve_resolve (closed : env.HereditarilyClosed) (term : Term) :
    (term.resolve env []).resolve env [] = term.resolve env [] := by
  apply resolve_of_unbound
  intro name free
  exact ((mem_freeNames_resolve closed term name).mp free).2

end Term

/-- Resolving is substitution of closed terms. In an environment of hereditarily closed closures, a
term resolved with one more binding is the term resolved without that name, with what the new
closure is read back as substituted for the free occurrences of the name. A resolved term has
exactly the free names of the term that are not bound, and resolving it again changes nothing. -/
theorem resolving_is_substitution {env : Environment} (closed : env.HereditarilyClosed)
    (term : Term) :
    (∀ (name : String) (value : Closure),
      term.resolve (env.extend name value) [] =
        (term.resolve (env.without name) []).subst name (value.readback [])) ∧
    (∀ name, name ∈ (term.resolve env []).freeNames ↔
      name ∈ term.freeNames ∧ env.get? name = none) ∧
    (term.resolve env []).resolve env [] = term.resolve env [] :=
  ⟨Term.resolve_extend closed term, Term.mem_freeNames_resolve closed term,
    Term.resolve_resolve closed term⟩

/-- A name that is bound already gets another binding, in a term with abstractions of that name and
of another bound name. -/
theorem resolving_is_substitution_shadowed :
    let identity : Closure := .mk "x" (.var "x") .empty
    let quoted : Closure := .mk "x" (.var "id") (.extend .empty "id" identity)
    let env : Environment := .extend (.extend .empty "x" identity) "y" quoted
    let term : Term :=
      .app (.lam "x" (.app (.var "x") (.var "y")))
        (.lam "y" (.app (.var "x") (.app (.var "y") (.var "z"))))
    env.HereditarilyClosed ∧ quoted.HereditarilyClosed ∧
    term.resolve (env.extend "x" quoted) [] =
      (term.resolve (env.without "x") []).subst "x" (.lam "x" (.lam "x" (.var "x"))) ∧
    "z" ∈ (term.resolve env []).freeNames ∧
    (term.resolve env []).resolve env [] =
      .app (.lam "x" (.app (.var "x") (.lam "x" (.lam "x" (.var "x")))))
        (.lam "y" (.app (.lam "x" (.var "x")) (.app (.var "y") (.var "z")))) := by
  intro identity quoted env term
  have identityClosed : identity.HereditarilyClosed :=
    .intro (by simp [identity, Closure.lambda]) (by simp [identity])
  have quotedClosed : quoted.HereditarilyClosed := by
    refine .intro ?_ (Environment.HereditarilyClosed.empty.extend "id" identityClosed)
    intro name free
    obtain rfl : name = "id" := List.mem_singleton.mp free
    exact ⟨_, rfl⟩
  have closed : env.HereditarilyClosed :=
    (Environment.HereditarilyClosed.empty.extend "x" identityClosed).extend "y" quotedClosed
  obtain ⟨extended, free, again⟩ := resolving_is_substitution closed term
  exact ⟨closed, quotedClosed, extended "x" quoted, (free "z").mpr ⟨by decide, rfl⟩, again⟩

end LambdaTutor
