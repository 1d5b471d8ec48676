import LambdaTutor.Proofs.Closure.Rendering
import LambdaTutor.Proofs.Evaluation.Scope
import LambdaTutor.Proofs.Parsing.Viability
import LambdaTutor.Transcript

/-!
# The words of an answer

An answer quotes what a line holds: names in a rendered value, the name that is undefined, the token
that cannot be right. Names and significant tokens hold no white space, and the words around them
hold blanks only, so an answer stays on one line. `isInline` says so in a form that can be computed.
-/

namespace LambdaTutor

/-- A text without any white space but blanks. -/
def isInline (text : String) : Bool :=
  text.toList.all fun c => !isWhiteSpace c || c == ' '

theorem isInline_append (text other : String) :
    isInline (text ++ other) = (isInline text && isInline other) := by
  simp [isInline]

/-- Where there are only blanks, there is no other white space. -/
theorem not_mem_of_isInline {text : String} (inline : isInline text = true) {c : Char}
    (white : isWhiteSpace c = true) (other : c ≠ ' ') : c ∉ text.toList := by
  intro member
  have blank := List.all_eq_true.mp inline c member
  simp [white, other] at blank

/-- A text without white space is inline. -/
theorem isInline_of_forall {text : String} (visible : ∀ c ∈ text.toList, isWhiteSpace c = false) :
    isInline text = true := by
  refine List.all_eq_true.mpr fun c member => ?_
  simp [visible c member]

theorem IsName.isInline {name : String} (isName : IsName name) : isInline name = true := by
  refine isInline_of_forall fun c member => ?_
  have character := isName.2 c member
  rw [isNameCharacter, Bool.and_eq_true] at character
  simpa using character.1

/-- A token that fits its class and is no white space holds none. -/
theorem Token.Fits.isWhiteSpace_eq_false {token : Token} (fits : token.Fits)
    (significant : token.isWhitespace = false) :
    ∀ c ∈ token.text.toList, isWhiteSpace c = false := by
  obtain ⟨-, assigned, -⟩ := Token.fits_iff.mp fits
  intro c member
  rw [Bool.eq_false_iff]
  intro white
  have whitespace := assigned c member
  rw [classify?_eq_whitespace_iff.mpr white, Option.some.injEq] at whitespace
  simp [Token.isWhitespace, ← whitespace] at significant

/-- The canonical text of a term that can be written is inline. -/
theorem Term.Writable.isInline_print {term : Term} (writable : term.Writable) :
    isInline term.print = true := by
  induction term with
  | var name => exact (writable name (by simp [Term.writtenNames])).isInline
  | lam param body ih =>
    obtain ⟨paramName, bodyNames⟩ := List.forall_mem_cons.mp writable
    simp only [Term.print, isInline_append, paramName.isInline, ih bodyNames]
    decide +kernel
  | app fn arg fnIh argIh =>
    obtain ⟨fnNames, argNames⟩ := List.forall_mem_append.mp writable
    simp only [Term.print, isInline_append, fnIh fnNames, argIh argNames]
    decide +kernel

/-- The value of a line is shown inline. -/
theorem isInline_display_of_evaluate {depth : Nat} {line : String} {closure : Closure}
    (run : evaluate depth line .empty = .value closure) : isInline closure.display = true := by
  have source : closure.FromSource := .evaluated (by simp) run
  exact (source.writable_readback []).isInline_print

theorem SourceError.message_parse (cause : ParseError) :
    (SourceError.parse cause).message = "parse error: " ++ cause.message := rfl

theorem SourceError.message_eval (name : String) :
    (SourceError.eval (.undefinedVariable name)).message =
      "eval error: " ++ ("undefined variable: " ++ name) := rfl

theorem Expectation.isInline_description (expectation : Expectation) :
    isInline expectation.description = true := by
  cases expectation <;> decide +kernel

/-- The message of a parse error is inline. -/
theorem isInline_message_of_parse {line : String} {cause : SourceError}
    (failed : parse line = .error cause) : isInline cause.message = true := by
  obtain ⟨tokens, lexed, parsed⟩ := exists_lexSignificant line
  rw [parsed] at failed
  cases answer : parseTokens tokens with
  | ok term =>
    rw [answer] at failed
    cases failed
  | error fault =>
    rw [answer] at failed
    cases failed
    obtain ⟨read, unread, state, rfl, stops⟩ := exists_stops_of_parseTokens answer
    cases stops with
    | token token unread _ _ =>
      -- The message quotes a token of the line that is not white space.
      obtain ⟨all, lexed, significant⟩ := lexSignificant_eq_ok_iff.mp lexed
      have member : token ∈ all.filter fun token => !token.isWhitespace := by simp [significant]
      obtain ⟨member, visible⟩ := List.mem_filter.mp member
      have fits : token.Fits := (lex_eq_ok_iff.mp lexed).2.1 token member
      have quoted : isInline token.text = true :=
        isInline_of_forall (fits.isWhiteSpace_eq_false (by simpa using visible))
      simp only [SourceError.message_parse, ParseError.message, isInline_append,
        Expectation.isInline_description, quoted]
      decide +kernel
    | ending _ _ =>
      simp only [SourceError.message_parse, ParseError.message, isInline_append,
        Expectation.isInline_description]
      decide +kernel

/-- A free name is written in the term. -/
theorem Term.mem_writtenNames_of_mem_freeNames {name : String} {term : Term}
    (free : name ∈ term.freeNames) : name ∈ term.writtenNames := by
  induction term with
  | var other => exact free
  | lam param body ih =>
    exact List.mem_cons_of_mem param (ih (Term.mem_freeNames_lam.mp free).1)
  | app fn arg fnIh argIh =>
    rcases Term.mem_freeNames_app.mp free with free | free
    · exact List.mem_append_left _ (fnIh free)
    · exact List.mem_append_right _ (argIh free)

/-- The message of an error is inline, whether parsing or evaluation fails. -/
theorem isInline_message_of_evaluate {depth : Nat} {line : String} {cause : SourceError}
    (failed : evaluate depth line .empty = .error cause) : isInline cause.message = true := by
  cases parsed : parse line with
  | error fault =>
    rw [evaluate, parsed] at failed
    cases failed
    exact isInline_message_of_parse parsed
  | ok term =>
    rw [evaluate_of_parse parsed] at failed
    obtain ⟨⟨name⟩, undefined, rfl⟩ := Outcome.mapError_eq_error_iff.mp failed
    have start : (RunInvariant.danglingWithin IsName).OnTerm term .empty := fun name dangling =>
      isName_of_parse parsed (Term.mem_writtenNames_of_mem_freeNames dangling.of_empty)
    have isName : IsName name := RunInvariant.danglingWithin_of_eval_error start undefined
    simp only [SourceError.message_eval, isInline_append, isName.isInline]
    decide +kernel

end LambdaTutor
