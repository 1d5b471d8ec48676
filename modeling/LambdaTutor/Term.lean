/-!
# Terms

The terms of the lambda calculus with named variables. Names are arbitrary texts and bound names
are never renamed, so two terms are equal only when they are written with the same names.
-/

namespace LambdaTutor

/-- A term of the lambda calculus. -/
inductive Term where
  | var (name : String)
  | lam (param : String) (body : Term)
  | app (fn arg : Term)
deriving DecidableEq, Repr

namespace Term

/-- The canonical text of a term: every abstraction and every application has parentheses. -/
def print : Term → String
  | var name => name
  | lam param body => "(\\" ++ param ++ "." ++ body.print ++ ")"
  | app fn arg => "(" ++ fn.print ++ " " ++ arg.print ++ ")"

/-- Puts terms in the place of free variables, all at once. A parameter hides the replacement of
its name in its body; nothing is renamed, so a replacement's own free names may be captured. -/
def replace (replacement : String → Option Term) : Term → Term
  | var name => (replacement name).getD (var name)
  | lam param body =>
    lam param (body.replace fun name => if name = param then none else replacement name)
  | app fn arg => app (fn.replace replacement) (arg.replace replacement)

end Term

end LambdaTutor
