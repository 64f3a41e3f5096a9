/-!
# What can go wrong with a formula

A formula can be refused as text, with a position in it, or fail when it is evaluated. Both kinds
are causes; `SyntaxCause.message` and `EvaluationError.message` put them into words.
-/

set_option autoImplicit false
set_option relaxedAutoImplicit false

namespace Formulary.Formula

/-- The number of levels that signs, parentheses, calls and exponents may nest. -/
def deepest : Nat := 256

/-- The marks of the formula language. -/
inductive Mark where
  | plus
  | minus
  | star
  | slash
  | percent
  | caret
  | openParenthesis
  | closeParenthesis
  | comma
  deriving Repr, DecidableEq

/-- The name of a mark in messages. -/
def Mark.label : Mark → String
  | .plus => "Plus"
  | .minus => "Minus"
  | .star => "Star"
  | .slash => "Slash"
  | .percent => "Percent"
  | .caret => "Caret"
  | .openParenthesis => "LParen"
  | .closeParenthesis => "RParen"
  | .comma => "Comma"

/-- Why a text is no formula. -/
inductive SyntaxCause where
  | unexpectedCharacter (character : Char)
  | missingFunctionName
  | emptyFormula
  | nestedTooDeep
  | unexpectedMark (mark : Mark)
  | unexpectedEnd
  | unclosedParenthesis
  | unclosedArguments
  | trailingInput
  deriving Repr, DecidableEq

/-- The wording of a cause. -/
def SyntaxCause.message : SyntaxCause → String
  | .unexpectedCharacter character => s!"unexpected character '{character}'"
  | .missingFunctionName => "expected a name after 'Math.'"
  | .emptyFormula => "empty formula"
  | .nestedTooDeep => s!"formula nested deeper than {deepest} levels"
  | .unexpectedMark mark => s!"unexpected token {mark.label}"
  | .unexpectedEnd => "unexpected end of formula"
  | .unclosedParenthesis => "expected ')'"
  | .unclosedArguments => "expected ')' after arguments"
  | .trailingInput => "unexpected trailing input"

/-- A place in a text, counted in characters, and why no formula has this there. -/
structure SyntaxError where
  position : Nat
  cause : SyntaxCause
  deriving Repr, DecidableEq

/-- Why a formula has no value. -/
inductive EvaluationError where
  | selfReference
  | syntaxError (error : SyntaxError)
  | unknownName (name : String)
  | notFinite
  | unknownFunction (name : String)
  | argumentCount (name : String) (expected found : Nat)
  deriving Repr, DecidableEq

/-- The wording of an error. -/
def EvaluationError.message : EvaluationError → String
  | .selfReference => "Formula references itself"
  | .syntaxError error => s!"Syntax error at {error.position}: {error.cause.message}"
  | .unknownName name => s!"Unknown identifier: {name}"
  | .notFinite => "Result is not a finite number"
  | .unknownFunction name => s!"Unknown function: {name}"
  | .argumentCount name expected found =>
    s!"{name}() takes {expected} argument(s), got {found}"

end Formulary.Formula
