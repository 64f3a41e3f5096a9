import Formulary.Formula.Expression
import Formulary.Formula.Token

/-!
# Parsing formulas

The grammar, loosest operators first:

    sum     := product (('+' | '-') product)*
    product := unary (('*' | '/' | '%') unary)*
    unary   := ('-' | '+') unary | power
    power   := primary ('^' unary)?
    primary := number | name | name '(' [sum (',' sum)*] ')' | '(' sum ')'

A parser takes an expression off the front of a list of tokens. Operators of one line group to the
left, powers to the right. Every nesting passes through `unary`, which is given the number of levels
left; at zero the formula is refused, so that `parse` ends on every text. The operands of a sum or a
product are all on one level, however many they are.
-/

set_option autoImplicit false
set_option relaxedAutoImplicit false

namespace Formulary.Formula

/-- A parser takes a result off the front of a list of tokens. -/
abbrev Parse (Result : Type) := List Token → Except SyntaxError (Result × List Token)

/-- The position of the next token, or the end of the text where no token is left. -/
def here (finish : Nat) : List Token → Nat
  | [] => finish
  | token :: _ => token.position

/-! ### Operators of one line -/

/-- The operator of a sum. -/
def additive? : Lexeme → Option Operator
  | .mark .plus => some .add
  | .mark .minus => some .subtract
  | _ => none

/-- The operator of a product. -/
def multiplicative? : Lexeme → Option Operator
  | .mark .star => some .multiply
  | .mark .slash => some .divide
  | .mark .percent => some .remainder
  | _ => none

/-- Continues an expression by operators and further operands, grouping to the left; each round
takes an operator, so as many rounds as there are tokens suffice. -/
def continueChain (operator? : Lexeme → Option Operator) (operand : Parse Expression) :
    Nat → Expression → Parse Expression
  | 0, left, tokens => .ok (left, tokens)
  | _ + 1, left, [] => .ok (left, [])
  | rounds + 1, left, token :: rest =>
    match operator? token.lexeme with
    | none => .ok (left, token :: rest)
    | some operator =>
      match operand rest with
      | .error error => .error error
      | .ok (right, after) =>
        continueChain operator? operand rounds (.binary operator left right) after

/-- Operands joined by operators of one line. -/
def chain (operator? : Lexeme → Option Operator) (operand : Parse Expression) :
    Parse Expression := fun tokens ↦
  match operand tokens with
  | .error error => .error error
  | .ok (first, rest) => continueChain operator? operand rest.length first rest

/-- A sum of products of operands. -/
def sum (unary : Parse Expression) : Parse Expression :=
  chain additive? (chain multiplicative? unary)

/-! ### Primaries, powers and signs -/

/-- The arguments of a call, of which there is at least one; each round takes an argument, so as
many rounds as there are tokens suffice. -/
def arguments (argument : Parse Expression) : Nat → Parse (List Expression)
  | 0, tokens =>
    match argument tokens with
    | .error error => .error error
    | .ok (first, rest) => .ok ([first], rest)
  | rounds + 1, tokens =>
    match argument tokens with
    | .error error => .error error
    | .ok (first, ⟨.mark .comma, _⟩ :: rest) =>
      match arguments argument rounds rest with
      | .error error => .error error
      | .ok (others, after) => .ok (first :: others, after)
    | .ok (first, rest) => .ok ([first], rest)

/-- Takes a closing parenthesis. -/
def close {Result : Type} (finish : Nat) (cause : SyntaxCause) (result : Result) : Parse Result
  | ⟨.mark .closeParenthesis, _⟩ :: rest => .ok (result, rest)
  | tokens => .error ⟨here finish tokens, cause⟩

/-- The rest of a call behind its opening parenthesis. -/
def call (finish : Nat) (function : String) (argument : Parse Expression) : Parse Expression
  | ⟨.mark .closeParenthesis, _⟩ :: rest => .ok (.call function [], rest)
  | tokens =>
    match arguments argument tokens.length tokens with
    | .error error => .error error
    | .ok (values, rest) => close finish .unclosedArguments (.call function values) rest

/-- A number, a name, a call or an expression in parentheses. -/
def primary (finish : Nat) (inner : Parse Expression) : Parse Expression
  | [] => .error ⟨finish, .unexpectedEnd⟩
  | token :: rest =>
    match token.lexeme with
    | .number value => .ok (.number value, rest)
    | .name text =>
      match rest with
      | ⟨.mark .openParenthesis, _⟩ :: after => call finish text inner after
      | _ => .ok (.name text, rest)
    | .mark .openParenthesis =>
      match inner rest with
      | .error error => .error error
      | .ok (expression, after) => close finish .unclosedParenthesis expression after
    | .mark mark => .error ⟨token.position, .unexpectedMark mark⟩

/-- A primary with an optional exponent, which may carry a sign of its own. -/
def power (finish : Nat) (unary : Parse Expression) : Parse Expression := fun tokens ↦
  match primary finish (sum unary) tokens with
  | .error error => .error error
  | .ok (base, ⟨.mark .caret, _⟩ :: rest) =>
    match unary rest with
    | .error error => .error error
    | .ok (exponent, after) => .ok (.binary .power base exponent, after)
  | .ok (base, rest) => .ok (base, rest)

/-- The sign that a token is. -/
def sign? : Lexeme → Option Sign
  | .mark .minus => some .negative
  | .mark .plus => some .positive
  | _ => none

/-- The sign at the front of a list of tokens, and what follows it. -/
def takeSign? : List Token → Option (Sign × List Token)
  | [] => none
  | token :: rest => (sign? token.lexeme).map fun sign ↦ (sign, rest)

/-- A signed expression or a power, with so many levels left for it and what it contains. -/
def unary (finish : Nat) : Nat → Parse Expression
  | 0, tokens => .error ⟨here finish tokens, .nestedTooDeep⟩
  | levels + 1, tokens =>
    match takeSign? tokens with
    | some (sign, rest) =>
      match unary finish levels rest with
      | .error error => .error error
      | .ok (operand, after) => .ok (.signed sign operand, after)
    | none => power finish (unary finish levels) tokens

/-! ### Formulas -/

/-- The expression that a list of tokens is as a whole. -/
def parseTokens (finish : Nat) (tokens : List Token) : Except SyntaxError Expression :=
  match sum (unary finish deepest) tokens with
  | .error error => .error error
  | .ok (expression, []) => .ok expression
  | .ok (_, token :: _) => .error ⟨token.position, .trailingInput⟩

/-- The expression of a formula. -/
def parse (text : List Char) : Except SyntaxError Expression :=
  match Token.ofText text with
  | .error error => .error error
  | .ok [] => .error ⟨0, .emptyFormula⟩
  | .ok tokens => parseTokens text.length tokens

end Formulary.Formula
