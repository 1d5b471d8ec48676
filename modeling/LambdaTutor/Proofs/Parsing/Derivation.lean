import LambdaTutor.Term.Grammar
import LambdaTutor.Term.Parser

/-!
# The parser accepts exactly the grammar

`Derives` is authoritative. One direction follows a derivation: the parser reads a derivable list
in front of any rest and hands its term to the innermost open frame. The other follows the parser:
`Reads` relates every state to the tokens that lead to it, one token preserves the relation, and a
finished state has read a derivable list. A finished state accepts no further token, so no derivable
list continues another and the grammar is unambiguous.
-/

namespace LambdaTutor

namespace ParseState

variable {state next final : ParseState} {token : Token} {rest : List Token}

/-- A list that is read to its end starts with an accepted token. -/
theorem exists_advance?_of_foldlM_step (run : (token :: rest).foldlM step state = .ok final) :
    ∃ next, state.advance? token = some next ∧ rest.foldlM step next = .ok final := by
  rw [List.foldlM_cons, step] at run
  cases accepted : state.advance? token with
  | none =>
    rw [accepted] at run
    cases run
  | some next =>
    rw [accepted] at run
    exact ⟨next, rfl, run⟩

/-- Nothing is accepted once a whole expression was read. -/
theorem finished_foldlM_step {term : Term} (run : rest.foldlM step (finished term) = .ok final) :
    rest = [] ∧ final = finished term := by
  cases rest with
  | nil =>
    cases run
    exact ⟨rfl, rfl⟩
  | cons token rest =>
    obtain ⟨next, accepted, -⟩ := exists_advance?_of_foldlM_step run
    cases accepted

end ParseState

/-- A list is parsed when reading it leaves the parser finished. -/
theorem parseTokens_eq_ok_iff_finished {tokens : List Token} {term : Term} :
    parseTokens tokens = .ok term ↔
      tokens.foldlM ParseState.step (.expression []) = .ok (.finished term) := by
  unfold parseTokens
  cases read : tokens.foldlM ParseState.step (.expression []) with
  | error cause => simp [bind, Except.bind]
  | ok state => cases state <;> simp [bind, Except.bind, ParseState.result]

namespace Derives

open ParseState (step deliver)

variable {tokens : List Token} {term : Term}

/-- Directly after a left parenthesis a derivable list is read as the function of an application:
it does not start with a lambda, so the lookahead commits to the right production. -/
theorem foldlM_step_opened (derives : Derives tokens term) (stack : List Frame)
    (rest : List Token) :
    (tokens ++ rest).foldlM step (.opened stack) =
      (tokens ++ rest).foldlM step (.expression (.fn :: stack)) := by
  cases derives <;> rfl

/-- Where an expression is due, a derivable list is read as a whole, whatever follows it, and its
term is handed to the innermost open frame. -/
theorem foldlM_step (derives : Derives tokens term) (stack : List Frame) (rest : List Token) :
    (tokens ++ rest).foldlM step (.expression stack) = rest.foldlM step (deliver term stack) := by
  induction derives generalizing stack rest with
  | var name => rfl
  | @lam left lambda param dot right body term _ ih =>
    calc
      _ = (body ++ [Token.mk .rightParen right] ++ rest).foldlM step
            (.expression (.body param :: stack)) := rfl
      _ = (body ++ ([Token.mk .rightParen right] ++ rest)).foldlM step
            (.expression (.body param :: stack)) := by rw [List.append_assoc]
      _ = ([Token.mk .rightParen right] ++ rest).foldlM step
            (deliver term (.body param :: stack)) := ih _ _
      _ = rest.foldlM step (deliver (.lam param term) stack) := rfl
  | @app left right fn arg fnTerm argTerm derivesFn _ fnIh argIh =>
    calc
      _ = (fn ++ arg ++ [Token.mk .rightParen right] ++ rest).foldlM step (.opened stack) := rfl
      _ = (fn ++ (arg ++ ([Token.mk .rightParen right] ++ rest))).foldlM step (.opened stack) := by
            simp only [List.append_assoc]
      _ = (fn ++ (arg ++ ([Token.mk .rightParen right] ++ rest))).foldlM step
            (.expression (.fn :: stack)) := derivesFn.foldlM_step_opened _ _
      _ = (arg ++ ([Token.mk .rightParen right] ++ rest)).foldlM step
            (deliver fnTerm (.fn :: stack)) := fnIh _ _
      _ = ([Token.mk .rightParen right] ++ rest).foldlM step
            (deliver argTerm (.arg fnTerm :: stack)) := argIh _ _
      _ = rest.foldlM step (deliver (.app fnTerm argTerm) stack) := rfl

/-- Every derivable list is parsed. -/
theorem parseTokens_eq (derives : Derives tokens term) : parseTokens tokens = .ok term := by
  have read := derives.foldlM_step [] []
  rw [List.append_nil] at read
  exact parseTokens_eq_ok_iff_finished.mpr read

/-- No derivable list continues another one. -/
theorem append_derives {rest : List Token} {other : Term} (derives : Derives tokens term)
    (longer : Derives (tokens ++ rest) other) : rest = [] ∧ term = other := by
  have read := parseTokens_eq_ok_iff_finished.mp longer.parseTokens_eq
  rw [derives.foldlM_step] at read
  obtain ⟨rfl, same⟩ := ParseState.finished_foldlM_step read
  cases same
  exact ⟨rfl, rfl⟩

/-- Two derivable lists at the start of one list are the same and derive the same term. -/
theorem eq_of_append_eq {other : List Token} {otherTerm : Term} {rest otherRest : List Token}
    (derives : Derives tokens term) (otherDerives : Derives other otherTerm)
    (same : tokens ++ rest = other ++ otherRest) : tokens = other ∧ term = otherTerm := by
  rcases List.append_eq_append_iff.mp same with ⟨more, rfl, -⟩ | ⟨more, rfl, -⟩
  · obtain ⟨rfl, rfl⟩ := derives.append_derives otherDerives
    simp
  · obtain ⟨rfl, rfl⟩ := otherDerives.append_derives derives
    simp

end Derives

/-- The tokens that leave a stack of frames open, with an expression due next. -/
inductive Opens : List Token → List Frame → Prop where
  | nil : Opens [] []
  | body (left lambda param dot : String) {tokens : List Token} {stack : List Frame}
      (outer : Opens tokens stack) :
      Opens (tokens ++ [⟨.leftParen, left⟩, ⟨.lambda, lambda⟩, ⟨.identifier, param⟩, ⟨.dot, dot⟩])
        (.body param :: stack)
  | fn (left : String) {tokens : List Token} {stack : List Frame} (outer : Opens tokens stack) :
      Opens (tokens ++ [⟨.leftParen, left⟩]) (.fn :: stack)
  | arg (left : String) {tokens fn : List Token} {stack : List Frame} {fnTerm : Term}
      (outer : Opens tokens stack) (derivesFn : Derives fn fnTerm) :
      Opens (tokens ++ ⟨.leftParen, left⟩ :: fn) (.arg fnTerm :: stack)

/-- The tokens that lead to a state of the parser. -/
inductive Reads : List Token → ParseState → Prop where
  | expression {tokens : List Token} {stack : List Frame} (outer : Opens tokens stack) :
      Reads tokens (.expression stack)
  | opened (left : String) {tokens : List Token} {stack : List Frame}
      (outer : Opens tokens stack) : Reads (tokens ++ [⟨.leftParen, left⟩]) (.opened stack)
  | param (left lambda : String) {tokens : List Token} {stack : List Frame}
      (outer : Opens tokens stack) :
      Reads (tokens ++ [⟨.leftParen, left⟩, ⟨.lambda, lambda⟩]) (.param stack)
  | dot (left lambda param : String) {tokens : List Token} {stack : List Frame}
      (outer : Opens tokens stack) :
      Reads (tokens ++ [⟨.leftParen, left⟩, ⟨.lambda, lambda⟩, ⟨.identifier, param⟩])
        (.dot param stack)
  | close {tokens inner : List Token} {stack : List Frame} {term : Term}
      (outer : Opens tokens stack)
      (completes : ∀ right, Derives (inner ++ [⟨.rightParen, right⟩]) term) :
      Reads (tokens ++ inner) (.close term stack)
  | finished {tokens : List Token} {term : Term} (derives : Derives tokens term) :
      Reads tokens (.finished term)

/-- Handing a term over reads the tokens that derive it. -/
theorem Opens.deliver {tokens inner : List Token} {stack : List Frame} {term : Term}
    (opens : Opens tokens stack) (derives : Derives inner term) :
    Reads (tokens ++ inner) (ParseState.deliver term stack) := by
  cases opens with
  | nil => exact .finished derives
  | body left lambda param dot outer =>
    rw [List.append_assoc]
    exact .close outer fun right => .lam left lambda param dot right derives
  | fn left outer =>
    rw [List.append_assoc]
    exact .expression (.arg left outer derives)
  | arg left outer derivesFn =>
    rw [List.append_assoc]
    exact .close outer fun right => .app left right derivesFn derives

namespace Reads

variable {tokens : List Token} {state : ParseState}

/-- One more token leads to the next state. -/
theorem advance {token : Token} {next : ParseState} (reads : Reads tokens state)
    (accepted : state.advance? token = some next) : Reads (tokens ++ [token]) next := by
  obtain ⟨tokenClass, text⟩ := token
  cases reads with
  | expression outer =>
    cases tokenClass with
    | leftParen =>
      cases accepted
      exact .opened text outer
    | identifier =>
      cases accepted
      exact outer.deliver (.var text)
    | _ => cases accepted
  | opened left outer =>
    cases tokenClass with
    | leftParen =>
      cases accepted
      exact .opened text (.fn left outer)
    | lambda =>
      cases accepted
      rw [List.append_assoc]
      exact .param left text outer
    | identifier =>
      cases accepted
      exact (Opens.fn left outer).deliver (.var text)
    | _ => cases accepted
  | param left lambda outer =>
    cases tokenClass with
    | identifier =>
      cases accepted
      rw [List.append_assoc]
      exact .dot left lambda text outer
    | _ => cases accepted
  | dot left lambda param outer =>
    cases tokenClass with
    | dot =>
      cases accepted
      rw [List.append_assoc]
      exact .expression (.body left lambda param text outer)
    | _ => cases accepted
  | close outer completes =>
    cases tokenClass with
    | rightParen =>
      cases accepted
      rw [List.append_assoc]
      exact outer.deliver (completes text)
    | _ => cases accepted
  | finished derives => cases accepted

/-- What is read from a state on extends what led to it. -/
theorem foldlM_step {rest : List Token} {final : ParseState} (reads : Reads tokens state)
    (run : rest.foldlM ParseState.step state = .ok final) : Reads (tokens ++ rest) final := by
  induction rest generalizing tokens state with
  | nil =>
    cases run
    rwa [List.append_nil]
  | cons token rest ih =>
    obtain ⟨next, accepted, run⟩ := ParseState.exists_advance?_of_foldlM_step run
    rw [List.append_cons]
    exact ih (reads.advance accepted) run

end Reads

/-- Every list that is parsed is derivable. -/
theorem derives_of_parseTokens {tokens : List Token} {term : Term}
    (parsed : parseTokens tokens = .ok term) : Derives tokens term := by
  have read : Reads tokens (.finished term) :=
    (Reads.expression .nil).foldlM_step (parseTokens_eq_ok_iff_finished.mp parsed)
  cases read with
  | finished derives => exact derives

/-- Parsing decides derivability. -/
theorem parseTokens_eq_ok_iff {tokens : List Token} {term : Term} :
    parseTokens tokens = .ok term ↔ Derives tokens term :=
  ⟨derives_of_parseTokens, fun derives => derives.parseTokens_eq⟩

/-- A token list is parsed to a term exactly when the grammar derives the term from it. The grammar
is unambiguous: of all the lists that start a given one at most one is derivable, and it derives one
term only. -/
theorem parseTokens_accepts_grammar :
    (∀ (tokens : List Token) (term : Term), parseTokens tokens = .ok term ↔ Derives tokens term) ∧
    ∀ (tokens other rest otherRest : List Token) (term otherTerm : Term),
      Derives tokens term → Derives other otherTerm → tokens ++ rest = other ++ otherRest →
        tokens = other ∧ term = otherTerm :=
  ⟨fun _ _ => parseTokens_eq_ok_iff,
    fun _ _ _ _ _ _ derives otherDerives same => derives.eq_of_append_eq otherDerives same⟩

/-- Texts that do not fit their class, and an application that more tokens follow. -/
theorem parseTokens_accepts_grammar_odd_texts :
    parseTokens [⟨.leftParen, "["⟩, ⟨.identifier, "f g"⟩, ⟨.identifier, ""⟩, ⟨.rightParen, ""⟩] =
      .ok (.app (.var "f g") (.var "")) ∧
    [Token.mk .leftParen "["] ++ [⟨.identifier, "f g"⟩, ⟨.identifier, ""⟩, ⟨.rightParen, ""⟩] =
      [⟨.leftParen, "["⟩, ⟨.identifier, "f g"⟩, ⟨.identifier, ""⟩, ⟨.rightParen, ""⟩] ∧
    Term.app (.var "f g") (.var "") = .app (.var "f g") (.var "") := by
  have derives : Derives
      [⟨.leftParen, "["⟩, ⟨.identifier, "f g"⟩, ⟨.identifier, ""⟩, ⟨.rightParen, ""⟩]
      (.app (.var "f g") (.var "")) := .app "[" "" (.var "f g") (.var "")
  exact ⟨(parseTokens_accepts_grammar.1 _ _).mpr derives,
    parseTokens_accepts_grammar.2 _ _ [⟨.dot, "."⟩] [⟨.dot, "."⟩] _ _ derives derives rfl⟩

end LambdaTutor
