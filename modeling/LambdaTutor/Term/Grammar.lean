import LambdaTutor.Term
import LambdaTutor.Token

/-!
# The grammar as a relation

`Derives tokens term` says that the productions of the grammar lead from a token list to a term.
It reads the classes of the tokens; only the text of an identifier matters, and it need not fit
its class. The relation knows nothing of lookahead or of the order in which tokens are read.
-/

namespace LambdaTutor

/-- The token lists that spell out a term. -/
inductive Derives : List Token → Term → Prop where
  /-- An identifier is a variable. -/
  | var (name : String) : Derives [⟨.identifier, name⟩] (.var name)
  /-- A parameter and a body in parentheses are an abstraction. -/
  | lam (left lambda param dot right : String) {body : List Token} {term : Term}
      (derivesBody : Derives body term) :
      Derives (⟨.leftParen, left⟩ :: ⟨.lambda, lambda⟩ :: ⟨.identifier, param⟩ :: ⟨.dot, dot⟩ ::
        (body ++ [⟨.rightParen, right⟩])) (.lam param term)
  /-- Two expressions in parentheses are an application. -/
  | app (left right : String) {fn arg : List Token} {fnTerm argTerm : Term}
      (derivesFn : Derives fn fnTerm) (derivesArg : Derives arg argTerm) :
      Derives (⟨.leftParen, left⟩ :: (fn ++ arg ++ [⟨.rightParen, right⟩])) (.app fnTerm argTerm)

/-- A token list is viable when more tokens can complete it to a derivable one. -/
def Viable (tokens : List Token) : Prop :=
  ∃ rest term, Derives (tokens ++ rest) term

end LambdaTutor
