import Formulary.Formula.Error
import Formulary.Number.Arithmetic

/-!
# Expressions and their values

The tree of a formula and what it evaluates to. Names are looked up first among the values at hand
and then among the constants; the functions are the usual ones of one argument, `pow` of two, and
`max` and `min` of one or more. A value need not be finite: that is for the caller to judge.
-/

set_option autoImplicit false
set_option relaxedAutoImplicit false

namespace Formulary.Formula

open Formulary.Number

/-! ### Trees -/

/-- A leading sign. -/
inductive Sign where
  | negative
  | positive
  deriving Repr, DecidableEq

/-- An operation on two numbers. -/
inductive Operator where
  | add
  | subtract
  | multiply
  | divide
  | remainder
  | power
  deriving Repr, DecidableEq

/-- The tree of a formula. -/
inductive Expression where
  | number (value : Float)
  | name (text : String)
  | signed (sign : Sign) (operand : Expression)
  | binary (operator : Operator) (left right : Expression)
  | call (function : String) (arguments : List Expression)
  deriving Repr, Inhabited

/-! ### Values of the parts -/

/-- The value of a signed number. -/
def Sign.apply : Sign → Float → Float
  | .negative, value => -value
  | .positive, value => value

/-- The value of an operation. -/
def Operator.apply : Operator → Float → Float → Float
  | .add, left, right => left + right
  | .subtract, left, right => left - right
  | .multiply, left, right => left * right
  | .divide, left, right => left / right
  | .remainder, left, right => Number.remainder left right
  | .power, left, right => Float.pow left right

/-- The constants, which any value at hand shadows. -/
def constant? : String → Option Float
  | "pi" => some 3.141592653589793
  | "PI" => some 3.141592653589793
  | "e" => some 2.718281828459045
  | "E" => some 2.718281828459045
  | _ => none

/-- The nearest integer, a half rounded up whatever the sign. -/
def roundHalfUp (value : Float) : Float :=
  (value + 0.5).floor

/-- The functions of one argument. -/
def unaryFunction? : String → Option (Float → Float)
  | "sin" => some Float.sin
  | "cos" => some Float.cos
  | "tan" => some Float.tan
  | "log" => some Float.log
  | "exp" => some Float.exp
  | "sqrt" => some Float.sqrt
  | "abs" => some Float.abs
  | "round" => some roundHalfUp
  | "floor" => some Float.floor
  | "ceil" => some Float.ceil
  | _ => none

/-- The value of a function of one or more arguments, folded from the left. -/
def foldArguments (function : String) (choose : Float → Float → Float) :
    List Float → Except EvaluationError Float
  | [] => .error (.argumentCount function 1 0)
  | first :: rest => .ok (rest.foldl choose first)

/-- The value of a call. The arguments have been evaluated; an unknown function is reported before
a wrong number of them. -/
def applyFunction (function : String) (arguments : List Float) : Except EvaluationError Float :=
  match function with
  | "max" => foldArguments function larger arguments
  | "min" => foldArguments function smaller arguments
  | "pow" =>
    match arguments with
    | [base, exponent] => .ok (Float.pow base exponent)
    | _ => .error (.argumentCount function 2 arguments.length)
  | _ =>
    match unaryFunction? function, arguments with
    | none, _ => .error (.unknownFunction function)
    | some apply, [argument] => .ok (apply argument)
    | some _, _ => .error (.argumentCount function 1 arguments.length)

/-! ### Values of trees -/

/-- The value of a name: the one at hand, or else the constant of that name. -/
def nameValue (lookUp : String → Option Float) (name : String) : Except EvaluationError Float :=
  match (lookUp name).or (constant? name) with
  | some value => .ok value
  | none => .error (.unknownName name)

mutual

/-- The value of an expression; operands and arguments are evaluated from left to right, and the
first failure is the failure of the whole. -/
def Expression.evaluate (lookUp : String → Option Float) :
    Expression → Except EvaluationError Float
  | .number value => .ok value
  | .name text => nameValue lookUp text
  | .signed sign operand =>
    match operand.evaluate lookUp with
    | .error error => .error error
    | .ok value => .ok (sign.apply value)
  | .binary operator left right =>
    match left.evaluate lookUp with
    | .error error => .error error
    | .ok first =>
      match right.evaluate lookUp with
      | .error error => .error error
      | .ok second => .ok (operator.apply first second)
  | .call function arguments =>
    match evaluateAll lookUp arguments with
    | .error error => .error error
    | .ok values => applyFunction function values

/-- The values of several expressions, from left to right. -/
def evaluateAll (lookUp : String → Option Float) :
    List Expression → Except EvaluationError (List Float)
  | [] => .ok []
  | first :: rest =>
    match first.evaluate lookUp with
    | .error error => .error error
    | .ok value =>
      match evaluateAll lookUp rest with
      | .error error => .error error
      | .ok values => .ok (value :: values)

end

end Formulary.Formula
