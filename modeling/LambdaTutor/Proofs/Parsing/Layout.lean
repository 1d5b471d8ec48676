import LambdaTutor.Proofs.Parsing.Lexing
import LambdaTutor.Proofs.Source
import Mathlib.Data.List.Chain

/-!
# Layout

White space separates tokens and carries nothing else, so the significant tokens of a text can be
read off any token list that spells the text out, however its white space is cut: only neighbouring
identifiers have to be apart. Pieces of text can then be put together piece by piece, which
`parse_applyText` does for the application of one text to another and `parse_abstractText` for the
abstraction of a name. A `Layout` writes given tokens down with white space of any kind, and no two
layouts of the same tokens can be told apart.
-/

namespace LambdaTutor

/-- No two neighbours are identifiers. White space may stand beside white space. -/
def IdentifiersApart (tokens : List Token) : Prop :=
  tokens.IsChain fun first second =>
    ¬(first.tokenClass = .identifier ∧ second.tokenClass = .identifier)

/-- Separated tokens have their identifiers apart. -/
theorem Separated.identifiersApart {tokens : List Token} (separated : Separated tokens) :
    IdentifiersApart tokens := by
  induction tokens with
  | nil => exact .nil
  | cons token rest ih =>
    obtain ⟨apart, separated⟩ := separated_cons_iff.mp separated
    refine List.isChain_cons.mpr ⟨?_, ih separated⟩
    rintro next first ⟨identifier, nextIdentifier⟩
    exact apart next first ⟨identifier.trans nextIdentifier.symm, by rw [identifier]; rfl⟩

/-- A token that is no identifier keeps what stands before it and behind it apart. -/
theorem IdentifiersApart.append_cons {before behind : List Token} {token : Token}
    (beforeApart : IdentifiersApart before) (other : token.tokenClass ≠ .identifier)
    (behindApart : IdentifiersApart behind) : IdentifiersApart (before ++ token :: behind) := by
  refine List.isChain_append.mpr ⟨beforeApart, List.isChain_cons.mpr ⟨?_, behindApart⟩, ?_⟩
  · rintro next - ⟨identifier, -⟩
    exact other identifier
  · rintro last - next first ⟨-, identifier⟩
    cases first
    exact other identifier

/-- Two runs of one class are a run of that class when they are put together. -/
theorem Token.Fits.append {tokenClass : TokenClass} (run : tokenClass.isRun = true)
    {text nextText : String} (fits : Token.Fits ⟨tokenClass, text⟩)
    (nextFits : Token.Fits ⟨tokenClass, nextText⟩) :
    Token.Fits ⟨tokenClass, text ++ nextText⟩ := by
  obtain ⟨nonempty, all⟩ := (Token.fits_iff_of_isRun run).mp fits
  obtain ⟨-, nextAll⟩ := (Token.fits_iff_of_isRun run).mp nextFits
  refine (Token.fits_iff_of_isRun ?_).mpr ?_
  · exact run
  · simp only [String.toList_append, List.forall_mem_append]
    exact ⟨List.append_ne_nil_of_left_ne_nil nonempty _, all, nextAll⟩

/-- Tokens whose identifiers are apart can be separated: white space beside white space is joined,
and nothing else changes. -/
theorem exists_separated {tokens : List Token} (fits : ∀ token ∈ tokens, token.Fits)
    (apart : IdentifiersApart tokens) :
    ∃ joined, concatTexts joined = concatTexts tokens ∧ (∀ token ∈ joined, token.Fits) ∧
      Separated joined ∧
      (joined.filter fun token => !token.isWhitespace) =
        (tokens.filter fun token => !token.isWhitespace) ∧
      joined.head?.map Token.tokenClass = tokens.head?.map Token.tokenClass := by
  -- The class of the first token decides what can be put in front, so the induction keeps it.
  induction tokens with
  | nil => exact ⟨[], rfl, fits, trivial, rfl, rfl⟩
  | cons token rest ih =>
    obtain ⟨tokenFits, restFits⟩ := List.forall_mem_cons.mp fits
    obtain ⟨tokenApart, restApart⟩ := List.isChain_cons.mp apart
    obtain ⟨joined, texts, joinedFits, separated, significant, head⟩ := ih restFits restApart
    obtain ⟨tokenClass, text⟩ := token
    rcases apart_or_joins tokenClass joined with different | ⟨run, nextText, more, rfl⟩
    · refine ⟨⟨tokenClass, text⟩ :: joined, ?_, List.forall_mem_cons.mpr ⟨tokenFits, joinedFits⟩,
        separated_cons_iff.mpr ⟨different, separated⟩, ?_, rfl⟩
      · rw [concatTexts_cons, concatTexts_cons, texts]
      · rw [List.filter_cons, List.filter_cons, significant]
    · have white : tokenClass = .whitespace := by
        obtain ⟨next, first, same⟩ :
            ∃ next, rest.head? = some next ∧ next.tokenClass = tokenClass := by
          simpa using head.symm
        cases tokenClass with
        | whitespace => rfl
        | identifier => exact absurd ⟨rfl, same⟩ (tokenApart next first)
        | _ => cases run
      subst white
      obtain ⟨nextFits, moreFits⟩ := List.forall_mem_cons.mp joinedFits
      obtain ⟨moreApart, moreSeparated⟩ := separated_cons_iff.mp separated
      refine ⟨⟨.whitespace, text ++ nextText⟩ :: more, ?_,
        List.forall_mem_cons.mpr ⟨tokenFits.append rfl nextFits, moreFits⟩,
        separated_cons_iff.mpr ⟨moreApart, moreSeparated⟩, ?_, rfl⟩
      · rw [concatTexts_cons, concatTexts_cons, ← texts, concatTexts_cons, String.append_assoc]
      · simpa [Token.isWhitespace] using significant

/-- The significant tokens of a text are those of any tokens that spell it out with their
identifiers apart. -/
theorem lexSignificant_concatTexts {tokens : List Token} (fits : ∀ token ∈ tokens, token.Fits)
    (apart : IdentifiersApart tokens) :
    lexSignificant (concatTexts tokens) =
      .ok (tokens.filter fun token => !token.isWhitespace) := by
  obtain ⟨joined, texts, joinedFits, separated, significant, -⟩ := exists_separated fits apart
  exact lexSignificant_eq_ok_iff.mpr
    ⟨joined, lex_eq_ok_iff.mpr ⟨texts, joinedFits, separated⟩, significant⟩

/-- A text spells out a term exactly when it can be cut into fitting tokens, with their identifiers
apart, whose significant ones derive the term. -/
theorem parse_eq_ok_iff_spelled {text : String} {term : Term} :
    parse text = .ok term ↔
      ∃ tokens, concatTexts tokens = text ∧ (∀ token ∈ tokens, token.Fits) ∧
        IdentifiersApart tokens ∧
        Derives (tokens.filter fun token => !token.isWhitespace) term := by
  constructor
  · intro parsed
    obtain ⟨_, significant, derives⟩ := parse_eq_ok_iff.mp parsed
    obtain ⟨tokens, lexed, rfl⟩ := lexSignificant_eq_ok_iff.mp significant
    obtain ⟨texts, fits, separated⟩ := lex_eq_ok_iff.mp lexed
    exact ⟨tokens, texts, fits, separated.identifiersApart, derives⟩
  · rintro ⟨tokens, rfl, fits, apart, derives⟩
    exact parse_eq_ok_iff.mpr ⟨_, lexSignificant_concatTexts fits apart, derives⟩

/-- The text that applies one text to another. -/
def applyText (program input : String) : String :=
  "(" ++ program ++ " " ++ input ++ ")"

/-- A text that is applied to another spells out the application, whatever the layout of both. -/
theorem parse_applyText {program input : String} {fn arg : Term}
    (programParsed : parse program = .ok fn) (inputParsed : parse input = .ok arg) :
    parse (applyText program input) = .ok (.app fn arg) := by
  obtain ⟨fnTokens, rfl, fnFits, fnApart, derivesFn⟩ := parse_eq_ok_iff_spelled.mp programParsed
  obtain ⟨argTokens, rfl, argFits, argApart, derivesArg⟩ := parse_eq_ok_iff_spelled.mp inputParsed
  refine parse_eq_ok_iff_spelled.mpr ⟨⟨.leftParen, "("⟩ :: (fnTokens ++ ⟨.whitespace, " "⟩ ::
    (argTokens ++ [⟨.rightParen, ")"⟩])), ?_, ?_, ?_, ?_⟩
  · simp [concatTexts_cons, concatTexts_append, applyText, String.append_assoc]
  · simp only [List.forall_mem_cons, List.forall_mem_append]
    exact ⟨rfl, fnFits, Token.fits_blank, argFits, rfl, by simp⟩
  · have closed : IdentifiersApart (argTokens ++ [⟨.rightParen, ")"⟩]) :=
      argApart.append_cons (by simp) .nil
    have spaced : IdentifiersApart (fnTokens ++ ⟨.whitespace, " "⟩ ::
        (argTokens ++ [⟨.rightParen, ")"⟩])) := fnApart.append_cons (by simp) closed
    exact IdentifiersApart.append_cons .nil (by simp) spaced
  · simpa [Token.isWhitespace] using Derives.app "(" ")" derivesFn derivesArg

/-- The text that abstracts a name from another text. -/
def abstractText (name program : String) : String :=
  "(\\" ++ name ++ "." ++ program ++ ")"

/-- A text that a name is abstracted from spells out the abstraction, whatever its layout. -/
theorem parse_abstractText {name program : String} {body : Term} (isName : IsName name)
    (parsed : parse program = .ok body) :
    parse (abstractText name program) = .ok (.lam name body) := by
  obtain ⟨tokens, rfl, fits, apart, derives⟩ := parse_eq_ok_iff_spelled.mp parsed
  refine parse_eq_ok_iff_spelled.mpr ⟨⟨.leftParen, "("⟩ :: ⟨.lambda, "\\"⟩ :: ⟨.identifier, name⟩ ::
    ⟨.dot, "."⟩ :: (tokens ++ [⟨.rightParen, ")"⟩]), ?_, ?_, ?_, ?_⟩
  · rw [← String.toList_inj]
    simp [concatTexts_cons, concatTexts_append, abstractText]
  · simp only [List.forall_mem_cons, List.forall_mem_append]
    exact ⟨rfl, rfl, isName, rfl, fits, rfl, by simp⟩
  · have closed : IdentifiersApart (tokens ++ [⟨.rightParen, ")"⟩]) :=
      apart.append_cons (by simp) .nil
    have dotted : IdentifiersApart (⟨.identifier, name⟩ :: ⟨.dot, "."⟩ ::
        (tokens ++ [⟨.rightParen, ")"⟩])) :=
      IdentifiersApart.append_cons (.singleton _) (by simp) closed
    have marked : IdentifiersApart (⟨.lambda, "\\"⟩ :: ⟨.identifier, name⟩ :: ⟨.dot, "."⟩ ::
        (tokens ++ [⟨.rightParen, ")"⟩])) := IdentifiersApart.append_cons .nil (by simp) dotted
    exact IdentifiersApart.append_cons .nil (by simp) marked
  · simpa [Token.isWhitespace] using Derives.lam "(" "\\" name "." ")" derives

/-- A way to write significant tokens down: the white space in front of them, and each token with
the white space behind it. The white space may be missing, but not between two identifiers. -/
structure Layout where
  front : String
  pieces : List (Token × String)
  front_blank : isBlank front = true
  fits : ∀ piece ∈ pieces, piece.1.Fits
  significant : ∀ piece ∈ pieces, piece.1.isWhitespace = false
  blank : ∀ piece ∈ pieces, isBlank piece.2 = true
  apart : pieces.IsChain fun piece next =>
    piece.1.tokenClass = .identifier → next.1.tokenClass = .identifier → piece.2 ≠ ""

/-- The white space of a layout as a token, where there is some. -/
def blankTokens (blank : String) : List Token :=
  if blank = "" then [] else [⟨.whitespace, blank⟩]

theorem concatTexts_blankTokens (blank : String) : concatTexts (blankTokens blank) = blank := by
  by_cases empty : blank = "" <;> simp [blankTokens, empty, concatTexts]

theorem fits_blankTokens {blank : String} (white : isBlank blank = true) :
    ∀ token ∈ blankTokens blank, token.Fits := by
  by_cases empty : blank = ""
  · simp [blankTokens, empty]
  · simpa [blankTokens, empty, Token.Fits, isBlank] using white

theorem filter_blankTokens (blank : String) :
    ((blankTokens blank).filter fun token => !token.isWhitespace) = [] := by
  by_cases empty : blank = "" <;> simp [blankTokens, empty, Token.isWhitespace]

/-- White space in front keeps identifiers apart. -/
theorem IdentifiersApart.blankTokens_append {tokens : List Token} (apart : IdentifiersApart tokens)
    (blank : String) : IdentifiersApart (blankTokens blank ++ tokens) := by
  by_cases empty : blank = ""
  · simpa [blankTokens, empty] using apart
  · rw [blankTokens, if_neg empty]
    exact IdentifiersApart.append_cons .nil (by simp) apart

/-- The tokens of the pieces of a layout, white space included. -/
def pieceTokens (pieces : List (Token × String)) : List Token :=
  pieces.flatMap fun piece => piece.1 :: blankTokens piece.2

theorem pieceTokens_cons (piece : Token × String) (rest : List (Token × String)) :
    pieceTokens (piece :: rest) = piece.1 :: (blankTokens piece.2 ++ pieceTokens rest) := rfl

/-- The texts of the pieces make up what is laid out behind the white space in front. -/
theorem concatTexts_pieceTokens (pieces : List (Token × String)) :
    concatTexts (pieceTokens pieces) =
      String.join (pieces.map fun piece => piece.1.text ++ piece.2) := by
  induction pieces with
  | nil => rfl
  | cons piece rest ih =>
    rw [pieceTokens_cons, concatTexts_cons, concatTexts_append, concatTexts_blankTokens, ih,
      List.map_cons, String.join_cons, String.append_assoc]

/-- The identifiers of the pieces are apart when white space stands between them. -/
theorem identifiersApart_pieceTokens {pieces : List (Token × String)}
    (apart : pieces.IsChain fun piece next =>
      piece.1.tokenClass = .identifier → next.1.tokenClass = .identifier → piece.2 ≠ "") :
    IdentifiersApart (pieceTokens pieces) := by
  induction pieces with
  | nil => exact .nil
  | cons piece rest ih =>
    obtain ⟨pieceApart, restApart⟩ := List.isChain_cons.mp apart
    rw [pieceTokens_cons]
    refine List.isChain_cons.mpr ⟨?_, (ih restApart).blankTokens_append piece.2⟩
    rintro next first ⟨identifier, nextIdentifier⟩
    by_cases empty : piece.2 = ""
    · -- The next token is that of the next piece.
      cases rest with
      | nil => simp [blankTokens, empty, pieceTokens] at first
      | cons nextPiece rest =>
        obtain rfl : nextPiece.1 = next := by
          simpa [blankTokens, empty, pieceTokens_cons] using first
        exact pieceApart nextPiece rfl identifier nextIdentifier empty
    · obtain rfl : ⟨.whitespace, piece.2⟩ = next := by simpa [blankTokens, empty] using first
      cases nextIdentifier

/-- What stands between the tokens of the pieces is white space. -/
theorem filter_pieceTokens {pieces : List (Token × String)}
    (significant : ∀ piece ∈ pieces, piece.1.isWhitespace = false) :
    ((pieceTokens pieces).filter fun token => !token.isWhitespace) = pieces.map Prod.fst := by
  induction pieces with
  | nil => rfl
  | cons piece rest ih =>
    obtain ⟨pieceSignificant, restSignificant⟩ := List.forall_mem_cons.mp significant
    rw [pieceTokens_cons, List.filter_cons_of_pos (by simp [pieceSignificant]), List.filter_append,
      filter_blankTokens, List.nil_append, ih restSignificant, List.map_cons]

namespace Layout

variable (layout : Layout)

/-- The tokens that a layout writes down. -/
def tokens : List Token :=
  layout.pieces.map Prod.fst

/-- The text of a layout. -/
def text : String :=
  layout.front ++ String.join (layout.pieces.map fun piece => piece.1.text ++ piece.2)

/-- All tokens of a layout fit, white space included. -/
theorem fits_pieceTokens : ∀ token ∈ pieceTokens layout.pieces, token.Fits := by
  intro token member
  obtain ⟨piece, inside, member⟩ := List.mem_flatMap.mp member
  rcases List.mem_cons.mp member with rfl | member
  · exact layout.fits piece inside
  · exact fits_blankTokens (layout.blank piece inside) token member

/-- The significant tokens of a laid out text are the tokens that were laid out. -/
theorem lexSignificant_text : lexSignificant layout.text = .ok layout.tokens := by
  have spelled : concatTexts (blankTokens layout.front ++ pieceTokens layout.pieces) =
      layout.text := by
    rw [concatTexts_append, concatTexts_blankTokens, concatTexts_pieceTokens, text]
  have fits : ∀ token ∈ blankTokens layout.front ++ pieceTokens layout.pieces, token.Fits :=
    List.forall_mem_append.mpr ⟨fits_blankTokens layout.front_blank, layout.fits_pieceTokens⟩
  have apart : IdentifiersApart (blankTokens layout.front ++ pieceTokens layout.pieces) :=
    (identifiersApart_pieceTokens layout.apart).blankTokens_append layout.front
  rw [← spelled, lexSignificant_concatTexts fits apart, List.filter_append, filter_blankTokens,
    List.nil_append, filter_pieceTokens layout.significant, tokens]

end Layout

/-- Parsing looks at the significant tokens only. -/
theorem parse_congr {text other : String} (same : lexSignificant text = lexSignificant other) :
    parse text = parse other := by
  rw [parse, parse, same]

/-- So does evaluation. -/
theorem evaluate_congr {text other : String} (same : lexSignificant text = lexSignificant other)
    (depth : Nat) (env : Environment) : evaluate depth text env = evaluate depth other env := by
  rw [evaluate, evaluate, parse_congr same]

/-- Layout is insignificant. The significant tokens of a laid out text are the tokens that were laid
out, whatever white space stands around them. So two layouts of the same tokens are parsed alike,
evaluated alike in every environment, and refused with the same error. -/
theorem layout_is_insignificant :
    (∀ layout : Layout, lexSignificant layout.text = .ok layout.tokens) ∧
    ∀ layout other : Layout, layout.tokens = other.tokens →
      parse layout.text = parse other.text ∧
      ∀ depth env, evaluate depth layout.text env = evaluate depth other.text env := by
  refine ⟨Layout.lexSignificant_text, ?_⟩
  intro layout other sameTokens
  have same : lexSignificant layout.text = lexSignificant other.text := by
    rw [layout.lexSignificant_text, other.lexSignificant_text, sameTokens]
  exact ⟨parse_congr same, evaluate_congr same⟩

/-- The layouts of a call of `f` that put one text between the identifiers and another one around
all symbols. -/
def callLayout (between around : String) (between_blank : isBlank between = true)
    (around_blank : isBlank around = true) (nonempty : between ≠ "") : Layout where
  front := around
  pieces := [(⟨.leftParen, "("⟩, around), (⟨.identifier, "f"⟩, between),
    (⟨.identifier, "x"⟩, around), (⟨.rightParen, ")"⟩, around)]
  front_blank := around_blank
  fits := by
    have letters : isNameCharacter 'f' = true ∧ isNameCharacter 'x' = true := by decide
    simp [Token.Fits, IsName, letters]
  significant := by simp [Token.isWhitespace]
  blank := by simp [between_blank, around_blank]
  apart := by simp [nonempty]

/-- The canonical layout of a call, and one on lines of its own with an ideographic space. -/
theorem layout_is_insignificant_call :
    lexSignificant "\n(\nf\u3000\tx\n)\n" = lexSignificant "(f x)" ∧
    parse "\n(\nf\u3000\tx\n)\n" = parse "(f x)" ∧
    ∀ depth env, evaluate depth "\n(\nf\u3000\tx\n)\n" env = evaluate depth "(f x)" env := by
  let airy : Layout := callLayout "\u3000\t" "\n" (by decide) (by decide) (by decide)
  let tight : Layout := callLayout " " "" (by decide) (by decide) (by decide)
  have airyText : airy.text = "\n(\nf\u3000\tx\n)\n" := rfl
  have tightText : tight.text = "(f x)" := rfl
  obtain ⟨lexed, alike⟩ := layout_is_insignificant
  rw [← airyText, ← tightText]
  refine ⟨?_, alike airy tight rfl⟩
  rw [lexed airy, lexed tight]
  rfl

end LambdaTutor
