import LambdaTutor.Proofs.Parsing.Derivation
import Mathlib.Order.Bounds.Defs

/-!
# Where parsing fails

The parser can read a token list to its end exactly when the list is viable, that is when more
tokens complete it to a derivable one. One direction completes what the open frames of a state
still demand, the other cuts a run over a derivable list short. So a failed run stopped at the end
of the longest viable prefix, and the state it stopped in knows what could have followed.
-/

namespace LambdaTutor

/-- The parser reads the tokens to their end and is left in the state. -/
def Consumes (tokens : List Token) (state : ParseState) : Prop :=
  tokens.foldlM ParseState.step (.expression []) = .ok state

/-- The token classes that the words for an expectation name. No class is the end of the input. -/
def classesNamed (words : String) : List TokenClass :=
  match words with
  | "identifier or '('" => [.identifier, .leftParen]
  | "identifier" => [.identifier]
  | "'.'" => [.dot]
  | "')'" => [.rightParen]
  | _ => []

/-- What was due where parsing failed. -/
def ParseError.expected : ParseError → Expectation
  | .unexpectedToken expected _ => expected
  | .unexpectedEndOfInput expected => expected

/-- What begins a viable list is viable. -/
theorem Viable.of_start {tokens longer : List Token} (viable : Viable longer)
    (start : tokens <+: longer) : Viable tokens := by
  obtain ⟨more, rfl⟩ := start
  obtain ⟨rest, term, derives⟩ := viable
  exact ⟨more ++ rest, term, by rwa [← List.append_assoc]⟩

/-- Open frames can be closed around any derivable list. -/
theorem Opens.viable_append {tokens inner : List Token} {stack : List Frame} {term : Term}
    (opens : Opens tokens stack) (derives : Derives inner term) : Viable (tokens ++ inner) := by
  -- Each frame is completed to a derivable list, which the frames around it enclose in turn.
  induction opens generalizing inner term with
  | nil => exact ⟨[], term, by simpa using derives⟩
  | body left lambda param dot _ ih =>
    exact (ih (.lam left lambda param dot ")" derives)).of_start
      ⟨[⟨.rightParen, ")"⟩], by simp⟩
  | fn left _ ih =>
    exact (ih (.app left ")" derives (.var "x"))).of_start
      ⟨[⟨.identifier, "x"⟩, ⟨.rightParen, ")"⟩], by simp⟩
  | arg left _ derivesFn ih =>
    exact (ih (.app left ")" derivesFn derives)).of_start ⟨[⟨.rightParen, ")"⟩], by simp⟩

/-- Whatever state the parser is in, the tokens that led to it are viable. -/
theorem Reads.viable {tokens : List Token} {state : ParseState} (reads : Reads tokens state) :
    Viable tokens := by
  have name : Derives [⟨.identifier, "x"⟩] (.var "x") := .var "x"
  cases reads with
  | expression outer => exact (outer.viable_append name).of_start ⟨_, rfl⟩
  | opened left outer =>
    exact (outer.viable_append (.app left ")" name name)).of_start
      ⟨[⟨.identifier, "x"⟩, ⟨.identifier, "x"⟩, ⟨.rightParen, ")"⟩], by simp⟩
  | param left lambda outer =>
    exact (outer.viable_append (.lam left lambda "x" "." ")" name)).of_start
      ⟨[⟨.identifier, "x"⟩, ⟨.dot, "."⟩, ⟨.identifier, "x"⟩, ⟨.rightParen, ")"⟩], by simp⟩
  | dot left lambda param outer =>
    exact (outer.viable_append (.lam left lambda param "." ")" name)).of_start
      ⟨[⟨.dot, "."⟩, ⟨.identifier, "x"⟩, ⟨.rightParen, ")"⟩], by simp⟩
  | close outer completes =>
    exact (outer.viable_append (completes ")")).of_start ⟨[⟨.rightParen, ")"⟩], by simp⟩
  | finished derives => exact ⟨[], _, by simpa using derives⟩

namespace Consumes

variable {tokens : List Token} {state : ParseState}

theorem reads (consumes : Consumes tokens state) : Reads tokens state :=
  (Reads.expression .nil).foldlM_step consumes

/-- Reading one more token is one more step. -/
theorem append_singleton_iff {token : Token} {next : ParseState}
    (consumes : Consumes tokens state) :
    Consumes (tokens ++ [token]) next ↔ state.advance? token = some next := by
  have consumed : tokens.foldlM ParseState.step (.expression []) = .ok state := consumes
  unfold Consumes
  rw [List.foldlM_append, consumed]
  change [token].foldlM ParseState.step state = .ok next ↔ _
  constructor
  · intro run
    obtain ⟨found, accepted, run⟩ := ParseState.exists_advance?_of_foldlM_step run
    cases run
    exact accepted
  · intro accepted
    rw [List.foldlM_cons, ParseState.step, accepted]
    rfl

end Consumes

/-- A list is viable exactly when the parser reads it to its end. -/
theorem viable_iff_exists_consumes {tokens : List Token} :
    Viable tokens ↔ ∃ state, Consumes tokens state := by
  constructor
  · rintro ⟨rest, term, derives⟩
    have read := parseTokens_eq_ok_iff_finished.mp derives.parseTokens_eq
    rw [List.foldlM_append] at read
    unfold Consumes
    cases run : tokens.foldlM ParseState.step (.expression []) with
    | error cause =>
      rw [run] at read
      cases read
    | ok state => exact ⟨state, rfl⟩
  · rintro ⟨state, consumes⟩
    exact consumes.reads.viable

/-- A whole expression was read exactly when the tokens derive it. -/
theorem consumes_finished_iff {tokens : List Token} {term : Term} :
    Consumes tokens (.finished term) ↔ Derives tokens term :=
  parseTokens_eq_ok_iff_finished.symm.trans parseTokens_eq_ok_iff

/-- Derivable tokens leave the parser finished. -/
theorem Consumes.eq_finished {tokens : List Token} {state : ParseState} {term : Term}
    (consumes : Consumes tokens state) (derives : Derives tokens term) :
    state = .finished term := by
  have same : Except.ok state = .ok (.finished term) :=
    consumes.symm.trans (consumes_finished_iff.mpr derives)
  cases same
  rfl

namespace ParseState

variable {state next : ParseState} {token : Token}

/-- A token may stand where its class is among those that the expectation names; directly after a
left parenthesis a lambda may stand too. -/
theorem exists_advance?_iff :
    (∃ next, state.advance? token = some next) ↔
      token.tokenClass ∈ classesNamed state.expectation.description ∨
        (token.tokenClass = .lambda ∧ ∃ stack, state = .opened stack) := by
  obtain ⟨tokenClass, text⟩ := token
  cases state <;> cases tokenClass <;>
    simp [advance?, expectation, Expectation.description, classesNamed]

/-- A term that was handed over leaves no production to be chosen. -/
theorem deliver_ne_opened (term : Term) (stack outer : List Frame) :
    deliver term stack ≠ .opened outer := by
  match stack with
  | [] | .body _ :: _ | .fn :: _ | .arg _ :: _ => exact nofun

/-- A left parenthesis, and nothing else, leaves the choice of the production to the next token. -/
theorem exists_eq_opened_iff (accepted : state.advance? token = some next) :
    (∃ stack, next = .opened stack) ↔ token.tokenClass = .leftParen := by
  obtain ⟨tokenClass, text⟩ := token
  cases state <;> cases tokenClass <;> cases accepted <;> simp [deliver_ne_opened]

/-- A run that fails stopped at the first token that its state does not accept. -/
theorem exists_refused_of_foldlM_step {tokens : List Token} {cause : ParseError}
    (run : tokens.foldlM step state = .error cause) :
    ∃ read token unread stuck, tokens = read ++ token :: unread ∧
      read.foldlM step state = .ok stuck ∧ stuck.advance? token = none ∧
      cause = .unexpectedToken stuck.expectation token.text := by
  induction tokens generalizing state with
  | nil => cases run
  | cons token rest ih =>
    cases accepted : state.advance? token with
    | none =>
      rw [List.foldlM_cons, step, accepted] at run
      cases run
      exact ⟨[], token, rest, state, rfl, rfl, accepted, rfl⟩
    | some next =>
      have stepped : state.step token = .ok next := by rw [step, accepted]
      rw [List.foldlM_cons, stepped] at run
      obtain ⟨read, refused, unread, stuck, rfl, consumed, stops, named⟩ := ih run
      refine ⟨token :: read, refused, unread, stuck, rfl, ?_, stops, named⟩
      rw [List.foldlM_cons, stepped]
      exact consumed

end ParseState

/-- Parsing fails: the first tokens are consumed, and the next one is refused in the state reached,
or there is none although the state is not finished. -/
inductive Stops : List Token → List Token → ParseState → ParseError → Prop where
  | token (token : Token) (unread : List Token) {read : List Token} {state : ParseState}
      (consumes : Consumes read state) (refused : state.advance? token = none) :
      Stops read (token :: unread) state (.unexpectedToken state.expectation token.text)
  | ending {read : List Token} {state : ParseState} (consumes : Consumes read state)
      (unfinished : ∀ term, state ≠ .finished term) :
      Stops read [] state (.unexpectedEndOfInput state.expectation)

/-- A failed parse stopped somewhere. -/
theorem exists_stops_of_parseTokens {tokens : List Token} {cause : ParseError}
    (failed : parseTokens tokens = .error cause) :
    ∃ read unread state, tokens = read ++ unread ∧ Stops read unread state cause := by
  unfold parseTokens at failed
  cases run : tokens.foldlM ParseState.step (.expression []) with
  | error found =>
    rw [run] at failed
    cases failed
    obtain ⟨read, token, unread, stuck, rfl, consumed, refused, rfl⟩ :=
      ParseState.exists_refused_of_foldlM_step run
    exact ⟨read, token :: unread, stuck, rfl, .token token unread consumed refused⟩
  | ok state =>
    rw [run] at failed
    refine ⟨tokens, [], state, by simp, ?_⟩
    cases state with
    | finished term => cases failed
    | _ =>
      cases failed
      exact .ending run nofun

namespace Stops

variable {read unread : List Token} {state : ParseState} {cause : ParseError}

theorem consumes (stops : Stops read unread state cause) : Consumes read state := by
  cases stops with
  | token _ _ consumes _ => exact consumes
  | ending consumes _ => exact consumes

theorem expected_eq (stops : Stops read unread state cause) :
    cause.expected = state.expectation := by
  cases stops <;> rfl

/-- The token at which parsing stops cannot follow what was read. -/
theorem not_viable {token : Token} (stops : Stops read (token :: unread) state cause) :
    ¬ Viable (read ++ [token]) := by
  cases stops with
  | token _ _ consumes refused =>
    intro viable
    obtain ⟨found, consumed⟩ := viable_iff_exists_consumes.mp viable
    rw [consumes.append_singleton_iff, refused] at consumed
    cases consumed

/-- Parsing stops at the end of the longest viable prefix. -/
theorem isGreatest (stops : Stops read unread state cause) :
    IsGreatest {count | count ≤ (read ++ unread).length ∧ Viable ((read ++ unread).take count)}
      read.length := by
  constructor
  · refine ⟨by simp, ?_⟩
    rw [List.take_left]
    exact stops.consumes.reads.viable
  · rintro count ⟨within, viable⟩
    refine Nat.le_of_not_lt fun further => ?_
    cases unread with
    | nil =>
      rw [List.append_nil] at within
      omega
    | cons token unread =>
      refine stops.not_viable (viable.of_start ?_)
      obtain ⟨extra, rfl⟩ : ∃ extra, count = read.length + (extra + 1) :=
        ⟨count - read.length - 1, by omega⟩
      rw [List.take_length_add_append, List.take_succ_cons]
      exact ⟨unread.take extra, by simp⟩

/-- The end of the input is due exactly when the tokens before it are a whole expression. -/
theorem expected_eq_endOfInput_iff (stops : Stops read unread state cause) :
    cause.expected = .endOfInput ↔ ∃ term, Derives read term := by
  rw [stops.expected_eq]
  constructor
  · intro due
    have consumes := stops.consumes
    cases state with
    | finished term => exact ⟨term, consumes_finished_iff.mp consumes⟩
    | _ => cases due
  · rintro ⟨term, derives⟩
    rw [stops.consumes.eq_finished derives]
    rfl

end Stops

/-- The parser has to choose between two productions exactly behind a left parenthesis. -/
theorem Consumes.exists_eq_opened_iff {tokens : List Token} {state : ParseState}
    (consumes : Consumes tokens state) :
    (∃ stack, state = .opened stack) ↔
      tokens.getLast?.map Token.tokenClass = some .leftParen := by
  -- `Reads` relates a left parenthesis to two states, so the state is taken from the last step.
  rcases List.eq_nil_or_concat tokens with rfl | ⟨init, last, rfl⟩
  · cases consumes
    simp
  · obtain ⟨before, consumed⟩ := viable_iff_exists_consumes.mp
      (consumes.reads.viable.of_start ⟨[last], by simp⟩ : Viable init)
    rw [List.concat_eq_append, consumed.append_singleton_iff] at consumes
    simp [ParseState.exists_eq_opened_iff consumes]

/-- The end of the input is reported exactly for lists that more tokens, at least one, complete. -/
theorem exists_unexpectedEndOfInput_iff {tokens : List Token} :
    (∃ expected, parseTokens tokens = .error (.unexpectedEndOfInput expected)) ↔
      ∃ rest term, rest ≠ [] ∧ Derives (tokens ++ rest) term := by
  constructor
  · rintro ⟨expected, failed⟩
    obtain ⟨read, unread, state, rfl, stops⟩ := exists_stops_of_parseTokens failed
    cases stops with
    | ending consumes unfinished =>
      obtain ⟨rest, term, derives⟩ := consumes.reads.viable
      rw [List.append_nil]
      refine ⟨rest, term, ?_, derives⟩
      rintro rfl
      rw [List.append_nil] at derives
      exact unfinished term (consumes.eq_finished derives)
  · rintro ⟨rest, term, more, derives⟩
    cases parsed : parseTokens tokens with
    | ok found => exact absurd ((derives_of_parseTokens parsed).append_derives derives).1 more
    | error cause =>
      obtain ⟨read, unread, state, rfl, stops⟩ := exists_stops_of_parseTokens parsed
      have viable : Viable (read ++ unread) := ⟨rest, term, derives⟩
      cases stops with
      | token token unread consumes refused =>
        have start : read ++ [token] <+: read ++ token :: unread := ⟨unread, by simp⟩
        exact absurd (viable.of_start start) (Stops.token token unread consumes refused).not_viable
      | ending => exact ⟨_, rfl⟩

/-- Parse errors point at the first token that cannot be right. When parsing fails, all tokens up to
the end of the longest viable prefix are right; the error names the text of the token behind it, or
the end of the input when there is none. The words for what was expected are exact: they name the
classes of those tokens that could have followed, except that a lambda could too directly behind a
left parenthesis; and they name the end of the input when the prefix is already an expression. So
the end of the input is reported exactly for lists that more tokens complete. -/
theorem parse_error_at_longest_viable :
    (∀ (tokens : List Token) (cause : ParseError), parseTokens tokens = .error cause →
      ∃ k, IsGreatest {count | count ≤ tokens.length ∧ Viable (tokens.take count)} k ∧
        (∀ _ : k < tokens.length, cause = .unexpectedToken cause.expected tokens[k].text) ∧
        (k = tokens.length → cause = .unexpectedEndOfInput cause.expected) ∧
        (∀ token, Viable (tokens.take k ++ [token]) ↔
          token.tokenClass ∈ classesNamed cause.expected.description ∨
            (token.tokenClass = .lambda ∧
              (tokens.take k).getLast?.map Token.tokenClass = some .leftParen)) ∧
        (cause.expected = .endOfInput ↔ ∃ term, Derives (tokens.take k) term)) ∧
    ∀ tokens : List Token,
      (∃ expected, parseTokens tokens = .error (.unexpectedEndOfInput expected)) ↔
        ∃ rest term, rest ≠ [] ∧ Derives (tokens ++ rest) term := by
  constructor
  · intro tokens cause failed
    obtain ⟨read, unread, state, rfl, stops⟩ := exists_stops_of_parseTokens failed
    refine ⟨read.length, stops.isGreatest, ?_, ?_, ?_, ?_⟩
    · intro further
      cases stops with
      | token => simp [ParseError.expected]
      | ending => simp at further
    · intro whole
      cases stops with
      | token => simp at whole
      | ending => rfl
    · intro token
      rw [List.take_left, ← stops.consumes.exists_eq_opened_iff, stops.expected_eq,
        ← ParseState.exists_advance?_iff, viable_iff_exists_consumes]
      simp only [stops.consumes.append_singleton_iff]
    · rw [List.take_left]
      exact stops.expected_eq_endOfInput_iff
  · intro tokens
    exact exists_unexpectedEndOfInput_iff

/-- A dot directly behind the left parenthesis of an argument. -/
theorem parse_error_at_longest_viable_opened :
    let tokens : List Token :=
      [⟨.leftParen, "("⟩, ⟨.identifier, "f"⟩, ⟨.leftParen, "("⟩, ⟨.dot, "."⟩]
    let cause : ParseError := .unexpectedToken .expression "."
    parseTokens tokens = .error cause ∧
    ∃ k, IsGreatest {count | count ≤ tokens.length ∧ Viable (tokens.take count)} k ∧
      (∀ _ : k < tokens.length, cause = .unexpectedToken cause.expected tokens[k].text) ∧
      (k = tokens.length → cause = .unexpectedEndOfInput cause.expected) ∧
      (∀ token, Viable (tokens.take k ++ [token]) ↔
        token.tokenClass ∈ classesNamed cause.expected.description ∨
          (token.tokenClass = .lambda ∧
            (tokens.take k).getLast?.map Token.tokenClass = some .leftParen)) ∧
      (cause.expected = .endOfInput ↔ ∃ term, Derives (tokens.take k) term) := by
  intro tokens cause
  have failed : parseTokens tokens = .error cause := rfl
  exact ⟨failed, parse_error_at_longest_viable.1 tokens cause failed⟩

end LambdaTutor
