import Formulary.Proofs.Formula.Grammar
import Formulary.Proofs.Number.DoubleSign

/-!
# Values written in place of names

`Expression.withValues` puts the value of every name that has one in its place in a tree, a negative
value as a minus sign and its absolute value, and `Lexeme.withValues` does so in a list of lexemes,
with parentheses around what is negative. The grammar assigns the changed tree to the changed
lexemes as long as no function that the tree calls has a value, `Derives.withValues`, and the tree
means what it meant, `evaluate_withValues`.
-/

set_option autoImplicit false
set_option relaxedAutoImplicit false

namespace Formulary.Formula

open Formulary.Number

variable {lookUp : String → Option Float}

/-! ### Trees and lexemes with values -/

/-- The tree of a value. -/
def Expression.ofValue (value : Float) : Expression :=
  if value < 0.0 then .signed .negative (.number (-value)) else .number value

/-- The lexemes of a value. -/
def Lexeme.ofValue (value : Float) : List Lexeme :=
  if value < 0.0 then
    [.mark .openParenthesis, .mark .minus, .number (-value), .mark .closeParenthesis]
  else [.number value]

/-- A lexeme with the value of a name in its place. -/
def Lexeme.withValues (lookUp : String → Option Float) : Lexeme → List Lexeme
  | .name text => (lookUp text).elim [.name text] Lexeme.ofValue
  | .number value => [.number value]
  | .mark value => [.mark value]

mutual

/-- A tree with the values of names in their places. -/
def Expression.withValues (lookUp : String → Option Float) : Expression → Expression
  | .number value => .number value
  | .name text => (lookUp text).elim (.name text) Expression.ofValue
  | .signed sign operand => .signed sign (operand.withValues lookUp)
  | .binary operator left right =>
    .binary operator (left.withValues lookUp) (right.withValues lookUp)
  | .call function arguments => .call function (withValuesAll lookUp arguments)

/-- Several trees with the values of names in their places. -/
def withValuesAll (lookUp : String → Option Float) : List Expression → List Expression
  | [] => []
  | first :: rest => first.withValues lookUp :: withValuesAll lookUp rest

end

mutual

/-- The functions that a tree calls. -/
def Expression.functions : Expression → List String
  | .number _ => []
  | .name _ => []
  | .signed _ operand => operand.functions
  | .binary _ left right => left.functions ++ right.functions
  | .call function arguments => function :: functionsAll arguments

/-- The functions that several trees call. -/
def functionsAll : List Expression → List String
  | [] => []
  | first :: rest => first.functions ++ functionsAll rest

end

theorem withValuesAll_eq_map (lookUp : String → Option Float) (trees : List Expression) :
    withValuesAll lookUp trees = trees.map (·.withValues lookUp) := by
  induction trees with
  | nil => rfl
  | cons first rest ih => rw [withValuesAll, ih, List.map_cons]

theorem functionsAll_eq_flatMap (trees : List Expression) :
    functionsAll trees = trees.flatMap Expression.functions := by
  induction trees with
  | nil => rfl
  | cons first rest ih => rw [functionsAll, ih, List.flatMap_cons]

theorem mem_functionsAll {function : String} {trees : List Expression} {tree : Expression}
    (htree : tree ∈ trees) (hfunction : function ∈ tree.functions) :
    function ∈ functionsAll trees := by
  rw [functionsAll_eq_flatMap]
  exact List.mem_flatMap.mpr ⟨tree, htree, hfunction⟩

/-! ### Derivations with values -/

theorem withValues_separated (lookUp : String → Option Float)
    (arguments : List (List Lexeme × Expression)) :
    (separated arguments).flatMap (Lexeme.withValues lookUp) =
      separated (arguments.map fun argument ↦
        (argument.1.flatMap (Lexeme.withValues lookUp), argument.2.withValues lookUp)) := by
  induction arguments with
  | nil => rfl
  | cons first rest ih =>
    cases rest with
    | nil => simp
    | cons second rest =>
      have hrest : (second :: rest).map (fun argument ↦
          (argument.1.flatMap (Lexeme.withValues lookUp), argument.2.withValues lookUp)) ≠ [] := by
        simp
      rw [separated_cons (List.cons_ne_nil second rest), List.map_cons, separated_cons hrest, ← ih,
        List.flatMap_append, List.flatMap_cons]
      rfl

theorem derives_ofValue (value : Float) (nesting : Nat) :
    Derives .primary (nesting + 2) (Lexeme.ofValue value) (Expression.ofValue value) := by
  rw [Lexeme.ofValue, Expression.ofValue]
  split
  · have hnumber : Derives .unary (nesting + 1) [.number (-value)] (.number (-value)) :=
      .power (.primary (.number _))
    exact .group (.product (.unary (.sign .minus hnumber)))
  · exact .number value

/-- With values in place of names, a derivation goes through on two more levels. -/
theorem Derives.withValues {category : Category} {nesting : Nat} {lexemes : List Lexeme}
    {tree : Expression} (hderives : Derives category nesting lexemes tree)
    (hfunctions : ∀ function ∈ tree.functions, lookUp function = none) :
    Derives category (nesting + 2) (lexemes.flatMap (Lexeme.withValues lookUp))
      (tree.withValues lookUp) := by
  induction hderives with
  | product _ ih => exact .product (ih hfunctions)
  | unary _ ih => exact .unary (ih hfunctions)
  | power _ ih => exact .power (ih hfunctions)
  | primary _ ih => exact .primary (ih hfunctions)
  | @add nesting mark operator front back left right hjoins _ _ hfront hback =>
    have hleft := fun function hfunction ↦
      hfunctions function (List.mem_append_left right.functions hfunction)
    have hright := fun function hfunction ↦
      hfunctions function (List.mem_append_right left.functions hfunction)
    rw [List.flatMap_append, List.flatMap_cons]
    exact .add hjoins (hfront hleft) (hback hright)
  | @multiply nesting mark operator front back left right hjoins _ _ hfront hback =>
    have hleft := fun function hfunction ↦
      hfunctions function (List.mem_append_left right.functions hfunction)
    have hright := fun function hfunction ↦
      hfunctions function (List.mem_append_right left.functions hfunction)
    rw [List.flatMap_append, List.flatMap_cons]
    exact .multiply hjoins (hfront hleft) (hback hright)
  | @raise nesting front back base exponent _ _ hfront hback =>
    have hleft := fun function hfunction ↦
      hfunctions function (List.mem_append_left exponent.functions hfunction)
    have hright := fun function hfunction ↦
      hfunctions function (List.mem_append_right base.functions hfunction)
    rw [List.flatMap_append, List.flatMap_cons]
    exact .raise (hfront hleft) (hback hright)
  | sign hsign _ ih => exact .sign hsign (ih hfunctions)
  | number value => exact .number value
  | @name nesting text =>
    rw [List.flatMap_singleton, Lexeme.withValues, Expression.withValues]
    cases lookUp text with
    | none => exact .name text
    | some value => exact derives_ofValue value nesting
  | @call nesting function arguments _ ih =>
    have hfunction : lookUp function = none := hfunctions function List.mem_cons_self
    have hname : Lexeme.withValues lookUp (.name function) = [.name function] := by
      rw [Lexeme.withValues, hfunction]
      rfl
    have hderived : ∀ argument ∈ arguments.map (fun argument ↦
        (argument.1.flatMap (Lexeme.withValues lookUp), argument.2.withValues lookUp)),
        Derives .sum (nesting + 2) argument.1 argument.2 := by
      intro valued hvalued
      obtain ⟨argument, hargument, rfl⟩ := List.mem_map.mp hvalued
      refine ih argument hargument fun called hcalled ↦ hfunctions called ?_
      exact List.mem_cons_of_mem _
        (mem_functionsAll (List.mem_map_of_mem hargument) hcalled)
    have hcall := Derives.call function _ hderived
    rw [List.map_map] at hcall
    rw [List.flatMap_cons, hname, List.flatMap_cons, List.flatMap_append, withValues_separated,
      Expression.withValues, withValuesAll_eq_map, List.map_map]
    exact hcall
  | @group nesting lexemes tree _ ih =>
    rw [List.flatMap_cons, List.flatMap_append]
    exact .group (ih hfunctions)

/-! ### The value of a tree with values -/

theorem evaluate_ofValue {value : Float} (hfinite : value.isFinite = true) :
    (Expression.ofValue value).evaluate lookUp = .ok value := by
  rw [Expression.ofValue]
  split
  · rw [Expression.evaluate, Expression.evaluate]
    show Except.ok (-(-value)) = .ok value
    rw [neg_neg_of_isFinite hfinite]
  · rfl

mutual

/-- With values in place of names, a tree means what it meant. -/
theorem evaluate_withValues
    (hfinite : ∀ name value, lookUp name = some value → value.isFinite = true)
    (tree : Expression) : (tree.withValues lookUp).evaluate lookUp = tree.evaluate lookUp := by
  cases tree with
  | number value => rfl
  | name text =>
    rw [Expression.withValues, Expression.evaluate]
    cases hvalue : lookUp text with
    | none =>
      show (Expression.name text).evaluate lookUp = _
      rw [Expression.evaluate]
    | some value =>
      show (Expression.ofValue value).evaluate lookUp = _
      rw [evaluate_ofValue (hfinite text value hvalue), nameValue, hvalue]
      rfl
  | signed sign operand =>
    rw [Expression.withValues, Expression.evaluate, Expression.evaluate,
      evaluate_withValues hfinite operand]
  | binary operator left right =>
    rw [Expression.withValues, Expression.evaluate, Expression.evaluate,
      evaluate_withValues hfinite left, evaluate_withValues hfinite right]
  | call function arguments =>
    rw [Expression.withValues, Expression.evaluate, Expression.evaluate,
      evaluateAll_withValuesAll hfinite arguments]

theorem evaluateAll_withValuesAll
    (hfinite : ∀ name value, lookUp name = some value → value.isFinite = true)
    (trees : List Expression) :
    evaluateAll lookUp (withValuesAll lookUp trees) = evaluateAll lookUp trees := by
  cases trees with
  | nil => rfl
  | cons first rest =>
    rw [withValuesAll, evaluateAll, evaluateAll, evaluate_withValues hfinite first,
      evaluateAll_withValuesAll hfinite rest]

end

end Formulary.Formula
