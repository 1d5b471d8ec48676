import LambdaTutor.Term.Parser

/-!
# Recursive descent

The parser keeps its open abstractions and applications on a stack of frames and takes one token at
a time. Here it is compared with the usual way to read such a grammar: one function for each
production, which is called at a position of the token list and returns the term that stands there
with the position behind it. What the stack holds is then held by the calls that are still open, and
one more token after a left parenthesis decides which production is called.

`Agrees` says what a call does for the parser, whatever frames are open around it, and each rule
keeps to it when the calls inside do. So both ways end alike on every token list, with the same term
or with the same error (`descend_eq_parseTokens`).
-/

namespace LambdaTutor

/-- A term that was read from a position on, and the position behind it. -/
structure TermAt (start : Nat) where
  term : Term
  next : Nat
  later : start < next

/-- What was read from a position on was read from any earlier one on. -/
def TermAt.since {first start : Nat} (earlier : first ≤ start) (found : TermAt start) :
    TermAt first :=
  ⟨found.term, found.next, Nat.lt_of_le_of_lt earlier found.later⟩

/-- The error for a token, or for the end of the tokens, where something else is due. -/
def ParseError.unexpected (expected : Expectation) : Option Token → ParseError
  | some token => .unexpectedToken expected token.text
  | none => .unexpectedEndOfInput expected

/-- Reads the token at a position, which has to be of the class that is due. -/
def readToken (tokens : List Token) (position : Nat) (tokenClass : TokenClass)
    (expected : Expectation) : Except ParseError Token :=
  match tokens[position]? with
  | some token =>
    if token.tokenClass = tokenClass then .ok token else .error (.unexpected expected (some token))
  | none => .error (.unexpected expected none)

-- A rule calls for an expression at the very position it starts at, so the measure counts the tokens
-- that are left twice and a rule as one more.
mutual

/-- Reads an abstraction from its parameter on. -/
def readAbstraction (tokens : List Token) (start : Nat) : Except ParseError (TermAt start) := do
  let param ← readToken tokens start .identifier .identifier
  let _ ← readToken tokens (start + 1) .dot .dot
  let body ← readExpression tokens (start + 2)
  let _ ← readToken tokens body.next .rightParen .rightParen
  return ⟨.lam param.text body.term, body.next + 1, by have := body.later; omega⟩
termination_by 2 * (tokens.length - start) + 1

/-- Reads an application from its function on. -/
def readApplication (tokens : List Token) (start : Nat) : Except ParseError (TermAt start) := do
  let fn ← readExpression tokens start
  let arg ← readExpression tokens fn.next
  let _ ← readToken tokens arg.next .rightParen .rightParen
  return ⟨.app fn.term arg.term, arg.next + 1, by have := fn.later; have := arg.later; omega⟩
termination_by 2 * (tokens.length - start) + 1
decreasing_by
  · omega
  · have := fn.later
    omega

/-- Reads an expression. After a left parenthesis a lambda commits to an abstraction, and anything
else to an application. -/
def readExpression (tokens : List Token) (start : Nat) : Except ParseError (TermAt start) :=
  match present : tokens[start]? with
  | some ⟨.identifier, name⟩ => .ok ⟨.var name, start + 1, by omega⟩
  | some ⟨.leftParen, _⟩ =>
    match tokens[start + 1]? with
    | some ⟨.lambda, _⟩ => (readAbstraction tokens (start + 2)).map (.since (by omega))
    | _ => (readApplication tokens (start + 1)).map (.since (by omega))
  | found => .error (.unexpected .expression found)
termination_by 2 * (tokens.length - start)
decreasing_by
  all_goals
    have := (List.getElem?_eq_some_iff.mp present).1
    omega

end

/-- The one expression that a token list spells out, read by descent. -/
def descend (tokens : List Token) : Except ParseError Term := do
  let found ← readExpression tokens 0
  match tokens[found.next]? with
  | some token => .error (.unexpected .endOfInput (some token))
  | none => .ok found.term

namespace ParseState

variable {tokens : List Token} {position : Nat} {state : ParseState}

/-- What the parser ends with when it reads the tokens from a state on. -/
def complete (state : ParseState) (tokens : List Token) : Except ParseError Term := do
  (← tokens.foldlM step state).result

/-- Where no token is left, nothing more is read. -/
theorem complete_of_missing (missing : tokens[position]? = none) :
    state.complete (tokens.drop position) = state.result := by
  rw [List.drop_eq_nil_of_le (List.getElem?_eq_none_iff.mp missing)]
  rfl

/-- A token that is accepted leads to the next state. -/
theorem complete_of_advance? {token : Token} {next : ParseState}
    (present : tokens[position]? = some token) (accepted : state.advance? token = some next) :
    state.complete (tokens.drop position) = next.complete (tokens.drop (position + 1)) := by
  obtain ⟨inside, rfl⟩ := List.getElem?_eq_some_iff.mp present
  rw [List.drop_eq_getElem_cons inside, complete, List.foldlM_cons, step, accepted]
  rfl

/-- A token that is not accepted ends the reading. -/
theorem complete_of_refused {token : Token} (present : tokens[position]? = some token)
    (refused : state.advance? token = none) :
    state.complete (tokens.drop position) =
      .error (.unexpected state.expectation (some token)) := by
  obtain ⟨inside, rfl⟩ := List.getElem?_eq_some_iff.mp present
  rw [List.drop_eq_getElem_cons inside, complete, List.foldlM_cons, step, refused]
  rfl

/-- Where the token at a position is not accepted, or there is none, that is the error. -/
theorem complete_eq_unexpected
    (refused : ∀ token, tokens[position]? = some token → state.advance? token = none)
    (unfinished : state.result = .error (.unexpected state.expectation none)) :
    state.complete (tokens.drop position) =
      .error (.unexpected state.expectation tokens[position]?) := by
  cases present : tokens[position]? with
  | none => rw [complete_of_missing present, unfinished]
  | some token => rw [complete_of_refused present (refused token present)]

/-- A state that accepts one class of tokens reads a token of that class. -/
theorem complete_eq_readToken {tokenClass : TokenClass} {next : Token → ParseState}
    (accepts : ∀ token, state.advance? token =
      if token.tokenClass = tokenClass then some (next token) else none)
    (unfinished : state.result = .error (.unexpected state.expectation none))
    (tokens : List Token) (position : Nat) :
    state.complete (tokens.drop position) =
      readToken tokens position tokenClass state.expectation >>= fun token =>
        (next token).complete (tokens.drop (position + 1)) := by
  unfold readToken
  cases present : tokens[position]? with
  | none =>
    rw [complete_of_missing present, unfinished]
    rfl
  | some token =>
    by_cases due : token.tokenClass = tokenClass
    · have accepted : state.advance? token = some (next token) := by rw [accepts, if_pos due]
      simp only [complete_of_advance? present accepted, if_pos due]
      rfl
    · have refused : state.advance? token = none := by rw [accepts, if_neg due]
      simp only [complete_of_refused present refused, if_neg due]
      rfl

variable (tokens position)

theorem complete_param (stack : List Frame) :
    (param stack).complete (tokens.drop position) =
      readToken tokens position .identifier .identifier >>= fun token =>
        (dot token.text stack).complete (tokens.drop (position + 1)) := by
  refine complete_eq_readToken ?_ rfl tokens position
  rintro ⟨tokenClass, text⟩
  cases tokenClass <;> rfl

theorem complete_dot (name : String) (stack : List Frame) :
    (dot name stack).complete (tokens.drop position) =
      readToken tokens position .dot .dot >>= fun _ =>
        (expression (.body name :: stack)).complete (tokens.drop (position + 1)) := by
  refine complete_eq_readToken ?_ rfl tokens position
  rintro ⟨tokenClass, text⟩
  cases tokenClass <;> rfl

theorem complete_close (term : Term) (stack : List Frame) :
    (close term stack).complete (tokens.drop position) =
      readToken tokens position .rightParen .rightParen >>= fun _ =>
        (deliver term stack).complete (tokens.drop (position + 1)) := by
  refine complete_eq_readToken ?_ rfl tokens position
  rintro ⟨tokenClass, text⟩
  cases tokenClass <;> rfl

variable {tokens position}

/-- Directly after a left parenthesis anything but a lambda is read as the function of an
application. -/
theorem complete_opened (stack : List Frame)
    (other : ∀ text, tokens[position]? ≠ some ⟨.lambda, text⟩) :
    (opened stack).complete (tokens.drop position) =
      (expression (.fn :: stack)).complete (tokens.drop position) := by
  cases present : tokens[position]? with
  | none =>
    rw [complete_of_missing present, complete_of_missing present]
    rfl
  | some token =>
    obtain ⟨tokenClass, text⟩ := token
    have same : (opened stack).advance? ⟨tokenClass, text⟩ =
        (expression (.fn :: stack)).advance? ⟨tokenClass, text⟩ := by
      cases tokenClass with
      | lambda => exact absurd present (other text)
      | _ => rfl
    cases accepted : (expression (.fn :: stack)).advance? ⟨tokenClass, text⟩ with
    | none =>
      rw [complete_of_refused present accepted, complete_of_refused present (same.trans accepted)]
      rfl
    | some next =>
      rw [complete_of_advance? present accepted,
        complete_of_advance? present (same.trans accepted)]

end ParseState

open ParseState

/-- A call that reads from a position on does what the parser does there: where the call finds a
term, the parser hands the same term to the innermost open frame and goes on behind it, and where
the call fails, the parser ends with the same error. -/
def Agrees (tokens : List Token) (start : Nat) (due : List Frame → ParseState)
    (read : Except ParseError (TermAt start)) : Prop :=
  ∀ stack, (due stack).complete (tokens.drop start) =
    read >>= fun found => (deliver found.term stack).complete (tokens.drop found.next)

variable {tokens : List Token} {start : Nat}

/-- A call agrees as part of a call that was made earlier. -/
theorem Agrees.since {first : Nat} {due : List Frame → ParseState}
    {read : Except ParseError (TermAt start)} (agrees : Agrees tokens start due read)
    (earlier : first ≤ start) (stack : List Frame) :
    (due stack).complete (tokens.drop start) =
      read.map (TermAt.since earlier) >>= fun found =>
        (deliver found.term stack).complete (tokens.drop found.next) := by
  rw [agrees stack]
  cases read <;> rfl

/-- Abstractions are read alike when the expressions in them are. -/
theorem agrees_readAbstraction
    (inner : ∀ position, start ≤ position →
      Agrees tokens position .expression (readExpression tokens position)) :
    Agrees tokens start .param (readAbstraction tokens start) := by
  intro stack
  rw [readAbstraction]
  simp only [bind_assoc, pure_bind]
  refine (complete_param tokens start stack).trans (bind_congr fun param => ?_)
  refine (complete_dot tokens (start + 1) _ stack).trans (bind_congr fun _ => ?_)
  refine (inner (start + 2) (by omega) _).trans (bind_congr fun body => ?_)
  exact complete_close tokens body.next (.lam param.text body.term) stack

/-- Applications are read alike when the expressions in them are. -/
theorem agrees_readApplication
    (inner : ∀ position, start ≤ position →
      Agrees tokens position .expression (readExpression tokens position)) :
    Agrees tokens start (fun stack => .expression (.fn :: stack))
      (readApplication tokens start) := by
  intro stack
  rw [readApplication]
  simp only [bind_assoc, pure_bind]
  refine (inner start (Nat.le_refl start) _).trans (bind_congr fun fn => ?_)
  refine (inner fn.next (Nat.le_of_lt fn.later) _).trans (bind_congr fun arg => ?_)
  exact complete_close tokens arg.next (.app fn.term arg.term) stack

/-- Expressions are read alike. -/
theorem agrees_readExpression (tokens : List Token) (start : Nat) :
    Agrees tokens start .expression (readExpression tokens start) := by
  -- Every call inside starts behind the left parenthesis, with fewer tokens left.
  induction remaining : tokens.length - start using Nat.strongRecOn generalizing start with
  | ind _ ih =>
    intro stack
    rw [readExpression]
    split
    case h_1 name present => exact complete_of_advance? present rfl
    case h_2 text present =>
      have inside : start < tokens.length := (List.getElem?_eq_some_iff.mp present).1
      have inner (position : Nat) (later : start + 1 ≤ position) :
          Agrees tokens position .expression (readExpression tokens position) :=
        ih (tokens.length - position) (by omega) position rfl
      rw [complete_of_advance? present rfl]
      split
      case h_1 lambda next =>
        rw [complete_of_advance? next rfl]
        exact Agrees.since (agrees_readAbstraction fun position later =>
          inner position (by omega)) _ stack
      case h_2 other =>
        rw [complete_opened stack other]
        exact Agrees.since (agrees_readApplication inner) _ stack
    case h_3 noName noParen =>
      refine complete_eq_unexpected ?_ rfl
      rintro ⟨tokenClass, text⟩ present
      cases tokenClass with
      | identifier => exact (noName text present).elim
      | leftParen => exact (noParen text present).elim
      | _ => rfl

/-- The descent ends with the result of the parser, on every token list. -/
theorem descend_eq_parseTokens (tokens : List Token) : descend tokens = parseTokens tokens := by
  refine Eq.trans (bind_congr fun found => ?_) (agrees_readExpression tokens 0 []).symm
  change _ = (finished found.term).complete (tokens.drop found.next)
  cases present : tokens[found.next]? with
  | none =>
    rw [complete_of_missing present]
    rfl
  | some token =>
    have refused : (finished found.term).advance? token = none := rfl
    rw [complete_of_refused present refused]
    rfl

end LambdaTutor
