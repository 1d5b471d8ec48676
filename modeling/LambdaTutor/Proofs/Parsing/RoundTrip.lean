import LambdaTutor.Proofs.Parsing.Lexing
import LambdaTutor.Proofs.Source
import LambdaTutor.Term.Binding

/-!
# Printing and parsing

The canonical text of a term spells the term out exactly when all names in it can be written as
identifiers. `Term.layout` lists the tokens that printing intends. They make up the printed text
whatever the names are; they obey the laws of lexing when the names are identifiers, so the lexer
finds them again. In the other direction every name of a parsed term is the text of an identifier
token, so no other name can come back.
-/

namespace LambdaTutor

/-- Every name of a derived term is the text of an identifier. -/
theorem Derives.identifier_mem {tokens : List Token} {term : Term} (derives : Derives tokens term)
    {name : String} (written : name ∈ term.writtenNames) : ⟨.identifier, name⟩ ∈ tokens := by
  induction derives with
  | var other => simpa [Term.writtenNames] using written
  | lam left lambda param dot right _ ih =>
    rcases List.mem_cons.mp written with rfl | written
    · simp
    · simp [ih written]
  | app left right _ _ fnIh argIh =>
    rcases List.mem_append.mp written with written | written
    · simp [fnIh written]
    · simp [argIh written]

/-- The names of a parsed term can be written as identifiers. -/
theorem isName_of_parse {text : String} {term : Term} (parsed : parse text = .ok term)
    {name : String} (written : name ∈ term.writtenNames) : IsName name := by
  obtain ⟨_, significant, derives⟩ := parse_eq_ok_iff.mp parsed
  obtain ⟨tokens, lexed, rfl⟩ := lexSignificant_eq_ok_iff.mp significant
  obtain ⟨-, fits, -⟩ := lex_eq_ok_iff.mp lexed
  have member := List.mem_filter.mp (derives.identifier_mem written)
  exact fits _ member.1

namespace Term

/-- The tokens of the canonical text of a term, with the blank between function and argument. -/
def layout : Term → List Token
  | var name => [⟨.identifier, name⟩]
  | lam param body =>
    ⟨.leftParen, "("⟩ :: ⟨.lambda, "\\"⟩ :: ⟨.identifier, param⟩ :: ⟨.dot, "."⟩ ::
      (body.layout ++ [⟨.rightParen, ")"⟩])
  | app fn arg =>
    ⟨.leftParen, "("⟩ :: (fn.layout ++ ⟨.whitespace, " "⟩ :: (arg.layout ++ [⟨.rightParen, ")"⟩]))

/-- Printing writes the layout. -/
theorem concatTexts_layout (term : Term) : concatTexts term.layout = term.print := by
  rw [← String.toList_inj]
  induction term with
  | var name => simp [layout, print, concatTexts]
  | lam param body ih => simp [layout, print, concatTexts_cons, concatTexts_append, ih]
  | app fn arg fnIh argIh =>
    simp [layout, print, concatTexts_cons, concatTexts_append, fnIh, argIh]

/-- Without the blanks the layout derives the term. -/
theorem derives_layout (term : Term) :
    Derives (term.layout.filter fun token => !token.isWhitespace) term := by
  induction term with
  | var name => exact .var name
  | lam param body ih =>
    simpa [layout, Token.isWhitespace] using Derives.lam "(" "\\" param "." ")" ih
  | app fn arg fnIh argIh =>
    simpa [layout, Token.isWhitespace] using Derives.app "(" ")" fnIh argIh

/-- When all names are identifiers, every token of the layout fits its class. -/
theorem fits_layout {term : Term} (names : ∀ name ∈ term.writtenNames, IsName name) :
    ∀ token ∈ term.layout, token.Fits := by
  induction term with
  | var name =>
    have nameFits : Token.Fits ⟨.identifier, name⟩ := names name (by simp [writtenNames])
    simpa [layout] using nameFits
  | lam param body ih =>
    obtain ⟨paramName, bodyNames⟩ := List.forall_mem_cons.mp names
    simp only [layout, List.forall_mem_cons, List.forall_mem_append]
    exact ⟨rfl, rfl, paramName, rfl, ih bodyNames, rfl, by simp⟩
  | app fn arg fnIh argIh =>
    obtain ⟨fnNames, argNames⟩ := List.forall_mem_append.mp names
    simp only [layout, List.forall_mem_cons, List.forall_mem_append]
    exact ⟨rfl, fnIh fnNames, Token.fits_blank, argIh argNames, rfl, by simp⟩

/-- The layout of a term starts with no blank. -/
theorem not_whitespace_of_mem_head?_layout (term : Term) (rest : List Token) :
    ∀ next ∈ (term.layout ++ rest).head?, next.tokenClass ≠ .whitespace := by
  cases term <;> simp [layout]

/-- The layout is separated in front of anything that cannot continue an identifier. -/
theorem separated_layout_append (term : Term) {rest : List Token} (separated : Separated rest)
    (follows : ∀ next ∈ rest.head?, next.tokenClass ≠ .identifier) :
    Separated (term.layout ++ rest) := by
  induction term generalizing rest with
  | var name =>
    refine separated_cons_iff.mpr ⟨?_, separated⟩
    rintro next first ⟨same, -⟩
    exact follows next first same.symm
  | lam param body ih =>
    have closed : Separated (⟨.rightParen, ")"⟩ :: rest) := separated_cons_of_symbol rfl separated
    have bodySeparated := ih closed (by simp)
    have unfolded : (lam param body).layout ++ rest =
        ⟨.leftParen, "("⟩ :: ⟨.lambda, "\\"⟩ :: ⟨.identifier, param⟩ :: ⟨.dot, "."⟩ ::
          (body.layout ++ ⟨.rightParen, ")"⟩ :: rest) := by simp [layout]
    rw [unfolded]
    refine separated_cons_of_symbol rfl (separated_cons_of_symbol rfl ?_)
    exact separated_cons_iff.mpr ⟨by simp, separated_cons_of_symbol rfl bodySeparated⟩
  | app fn arg fnIh argIh =>
    have closed : Separated (⟨.rightParen, ")"⟩ :: rest) := separated_cons_of_symbol rfl separated
    have argSeparated := argIh closed (by simp)
    have blankSeparated :
        Separated (⟨.whitespace, " "⟩ :: (arg.layout ++ ⟨.rightParen, ")"⟩ :: rest)) := by
      refine separated_cons_iff.mpr ⟨?_, argSeparated⟩
      rintro next first ⟨same, -⟩
      exact not_whitespace_of_mem_head?_layout arg _ next first same.symm
    have unfolded : (app fn arg).layout ++ rest = ⟨.leftParen, "("⟩ :: (fn.layout ++
        ⟨.whitespace, " "⟩ :: (arg.layout ++ ⟨.rightParen, ")"⟩ :: rest)) := by simp [layout]
    rw [unfolded]
    exact separated_cons_of_symbol rfl (fnIh blankSeparated (by simp))

/-- The canonical text of a term with identifiers for names is lexed into its layout. -/
theorem lex_print {term : Term} (names : ∀ name ∈ term.writtenNames, IsName name) :
    lex term.print = .ok term.layout := by
  have separated : Separated (term.layout ++ []) := separated_layout_append term trivial (by simp)
  rw [List.append_nil] at separated
  exact lex_eq_ok_iff.mpr ⟨concatTexts_layout term, fits_layout names, separated⟩

/-- The canonical text of a term with identifiers for names is parsed to the term. -/
theorem parse_print {term : Term} (names : ∀ name ∈ term.writtenNames, IsName name) :
    parse term.print = .ok term := by
  have significant := lexSignificant_eq_ok_iff.mpr ⟨term.layout, lex_print names, rfl⟩
  exact parse_eq_ok_iff.mpr ⟨_, significant, derives_layout term⟩

/-- The canonical text of a term is parsed to the term exactly when every name in it is not empty
and holds neither white space nor a symbol. -/
theorem parse_print_eq_ok_iff (term : Term) :
    parse term.print = .ok term ↔ ∀ name ∈ term.writtenNames, IsName name := by
  constructor
  · intro parsed name written
    exact isName_of_parse parsed written
  · exact parse_print

end Term

end LambdaTutor
