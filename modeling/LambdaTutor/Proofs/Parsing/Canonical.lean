import LambdaTutor.Proofs.Parsing.Layout
import LambdaTutor.Proofs.Parsing.RoundTrip

/-!
# Canonical text

Parsing forgets white space and nothing else. A class leaves its symbol no choice of text, and a
term keeps the text of every identifier, so a term can be derived from one list of fitting tokens
only: the tokens of its canonical text (`Derives.eq_layout`). Printing a parsed term therefore
writes the tokens that were read, and the significant tokens of a text stand for its term in every
comparison.
-/

namespace LambdaTutor

/-- Tokens that fit their classes and derive a term are the layout of the term without its
blanks. -/
theorem Derives.eq_layout {tokens : List Token} {term : Term} (derives : Derives tokens term)
    (fits : ∀ token ∈ tokens, token.Fits) :
    tokens = term.layout.filter fun token => !token.isWhitespace := by
  induction derives with
  | var name => rfl
  | lam left lambda param dot right _ ih =>
    simp only [List.forall_mem_cons, List.forall_mem_append] at fits
    obtain ⟨leftFits, lambdaFits, -, dotFits, bodyFits, rightFits, -⟩ := fits
    -- A symbol that fits is its one character.
    cases leftFits
    cases lambdaFits
    cases dotFits
    cases rightFits
    simpa [Term.layout, Token.isWhitespace] using ih bodyFits
  | app left right _ _ fnIh argIh =>
    simp only [List.forall_mem_cons, List.forall_mem_append] at fits
    obtain ⟨leftFits, ⟨fnFits, argFits⟩, rightFits, -⟩ := fits
    cases leftFits
    cases rightFits
    conv_lhs => rw [fnIh fnFits, argIh argFits]
    simp [Term.layout, Token.isWhitespace]

/-- The significant tokens of a text are those of the canonical text of its term. -/
theorem lexSignificant_print_of_parse {text : String} {term : Term}
    (parsed : parse text = .ok term) : lexSignificant term.print = lexSignificant text := by
  obtain ⟨_, significant, derives⟩ := parse_eq_ok_iff.mp parsed
  obtain ⟨tokens, lexed, rfl⟩ := lexSignificant_eq_ok_iff.mp significant
  obtain ⟨-, fits, -⟩ := lex_eq_ok_iff.mp lexed
  have printed : lex term.print = .ok term.layout :=
    Term.lex_print fun _ written => isName_of_parse parsed written
  have same := derives.eq_layout fun token member => fits token (List.mem_of_mem_filter member)
  rw [significant, same]
  exact lexSignificant_eq_ok_iff.mpr ⟨term.layout, printed, rfl⟩

/-- Printing a parsed text changes its white space only: the canonical text of the term has the
significant tokens of the text. So texts that can be parsed spell out the same term exactly when
they have the same significant tokens, and parsed terms are the same exactly when their canonical
texts are. -/
theorem canonical_text_keeps_tokens :
    (∀ (text : String) (term : Term), parse text = .ok term →
      lexSignificant term.print = lexSignificant text) ∧
    ∀ (text other : String) (term otherTerm : Term), parse text = .ok term →
      parse other = .ok otherTerm →
      (parse text = parse other ↔ lexSignificant text = lexSignificant other) ∧
      (term.print = otherTerm.print ↔ term = otherTerm) := by
  refine ⟨fun _ _ parsed => lexSignificant_print_of_parse parsed, ?_⟩
  intro text other term otherTerm parsed otherParsed
  constructor
  · constructor
    · intro same
      rw [parsed, otherParsed, Except.ok.injEq] at same
      rw [← lexSignificant_print_of_parse parsed, same, lexSignificant_print_of_parse otherParsed]
    · exact parse_congr
  · constructor
    · intro same
      have printed := Term.parse_print fun _ written => isName_of_parse parsed written
      have otherPrinted := Term.parse_print fun _ written => isName_of_parse otherParsed written
      rw [same, otherPrinted, Except.ok.injEq] at printed
      exact printed.symm
    · exact congrArg Term.print

/-- Two layouts of one abstraction and their canonical text. -/
theorem canonical_text_keeps_tokens_abstraction :
    parse "( \\f\n.(f\u3000x))" = .ok (.lam "f" (.app (.var "f") (.var "x"))) ∧
    parse "(\\f . (f  x))\r" = .ok (.lam "f" (.app (.var "f") (.var "x"))) ∧
    lexSignificant "(\\f.(f x))" = lexSignificant "( \\f\n.(f\u3000x))" ∧
    lexSignificant "( \\f\n.(f\u3000x))" = lexSignificant "(\\f . (f  x))\r" := by
  have airy : parse "( \\f\n.(f\u3000x))" = .ok (.lam "f" (.app (.var "f") (.var "x"))) := rfl
  have loose : parse "(\\f . (f  x))\r" = .ok (.lam "f" (.app (.var "f") (.var "x"))) := rfl
  obtain ⟨printed, compared⟩ := canonical_text_keeps_tokens
  exact ⟨airy, loose, printed _ _ airy, (compared _ _ _ _ airy loose).1.mp (airy.trans loose.symm)⟩

end LambdaTutor
