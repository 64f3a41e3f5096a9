import Formulary.Proofs.Formula.Lexing
import Formulary.Proofs.Formula.ParserCompleteness

/-!
# How high the tree of a formula is

The levels that the parser counts are those of parentheses, signs and exponents. They bound the
height of a tree but for its sums and products: `height_lt_of_parse` is an induction on the
derivation, in which each category has a bound of its own and each operator of a sum or a product
adds one. That much is needed: the operands of a sum are on one level, however many they are, and
the tree of `x+x+…+x` grows with every one of them, `not_bounded_height`.
-/

set_option autoImplicit false
set_option relaxedAutoImplicit false

namespace Formulary.Formula

open Formulary.Text

/-! ### Heights -/

mutual

/-- The number of trees on the longest way from a tree to one of its leaves. -/
def Expression.height : Expression → Nat
  | .number _ => 1
  | .name _ => 1
  | .signed _ operand => operand.height + 1
  | .binary _ left right => max left.height right.height + 1
  | .call _ arguments => heightAll arguments + 1

/-- The height of the highest of several trees. -/
def heightAll : List Expression → Nat
  | [] => 0
  | first :: rest => max first.height (heightAll rest)

end

/-- How many operators of sums and products an operator is. -/
def Operator.links : Operator → Nat
  | .power => 0
  | _ => 1

mutual

/-- How many operators of sums and products there are in a tree. -/
def Expression.links : Expression → Nat
  | .number _ => 0
  | .name _ => 0
  | .signed _ operand => operand.links
  | .binary operator left right => operator.links + left.links + right.links
  | .call _ arguments => linksAll arguments

/-- How many operators of sums and products there are in several trees. -/
def linksAll : List Expression → Nat
  | [] => 0
  | first :: rest => first.links + linksAll rest

end

theorem Expression.height_pos (tree : Expression) : 0 < tree.height := by
  cases tree <;> simp [Expression.height]

/-- What bounds each of several trees, but for its links, bounds all of them. -/
theorem heightAll_le {bound : Nat} {trees : List Expression}
    (hall : ∀ tree ∈ trees, tree.height ≤ bound + tree.links) :
    heightAll trees ≤ bound + linksAll trees := by
  induction trees with
  | nil => exact Nat.zero_le _
  | cons first rest ih =>
    have hfirst := hall first List.mem_cons_self
    have hrest := ih fun tree htree ↦ hall tree (List.mem_cons_of_mem _ htree)
    rw [heightAll, linksAll]
    omega

/-! ### Bounds -/

/-- How high a tree without sums and products is at most, by what it is derived as. -/
def Category.headroom : Category → Nat → Nat
  | .sum, nesting => 2 * nesting - 1
  | .product, nesting => 2 * nesting - 1
  | .unary, nesting => 2 * nesting - 1
  | .power, nesting => 2 * nesting + 1
  | .primary, nesting => max 1 (2 * nesting)

theorem Joins.links_eq_one {category : Category} {mark : Mark} {operator : Operator}
    (hjoins : Joins category mark operator) : operator.links = 1 := by
  cases hjoins <;> rfl

/-- A level makes room for a power and for a call around it, a link for itself. -/
theorem Derives.height_le {category : Category} {nesting : Nat} {lexemes : List Lexeme}
    {tree : Expression} (hderives : Derives category nesting lexemes tree) :
    tree.height ≤ category.headroom nesting + tree.links := by
  induction hderives with
  | product _ ih => exact ih
  | unary _ ih => exact ih
  | add hjoins _ _ hleft hright | multiply hjoins _ _ hleft hright =>
    have hlink := hjoins.links_eq_one
    simp only [Category.headroom, Expression.height, Expression.links] at *
    omega
  | sign _ _ ih =>
    simp only [Category.headroom, Expression.height, Expression.links] at *
    omega
  | power _ ih =>
    simp only [Category.headroom] at *
    omega
  | primary _ ih =>
    simp only [Category.headroom] at *
    omega
  | @raise nesting _ _ base exponent _ _ hbase hexponent =>
    -- Where no level is left, an exponent could only be as high as its links.
    have hpos := exponent.height_pos
    simp only [Category.headroom, Expression.height, Expression.links, Operator.links] at *
    omega
  | number value => exact Nat.le_trans (Nat.le_max_left _ _) (Nat.le_add_right _ _)
  | name text => exact Nat.le_trans (Nat.le_max_left _ _) (Nat.le_add_right _ _)
  | @call nesting function arguments _ ih =>
    have hall : heightAll (arguments.map Prod.snd) ≤
        2 * nesting - 1 + linksAll (arguments.map Prod.snd) := by
      refine heightAll_le fun tree htree ↦ ?_
      obtain ⟨argument, hargument, rfl⟩ := List.mem_map.mp htree
      exact ih argument hargument
    rw [Expression.height, Expression.links, Category.headroom]
    omega
  | group _ ih =>
    simp only [Category.headroom] at *
    omega

/-- The tree of a formula is lower than two for each of the levels that may nest and one for each
operator of its sums and products. -/
theorem height_lt_of_parse {text : List Char} {tree : Expression}
    (hparsed : parse text = .ok tree) : tree.height < 2 * deepest + tree.links := by
  obtain ⟨tokens, _, _, hderives⟩ := (denotes_iff_parse_eq_ok text tree).mpr hparsed
  have hheight := hderives.height_le
  simp only [Category.headroom, deepest] at *
  omega

/-- The tree of `-max(a, b * c)^d + e` is six high, with two operators of sums and products. -/
theorem height_of_raised_maximum :
    ∃ tree, parse "-max(a, b * c)^d + e".toList = .ok tree ∧ tree.height = 6 ∧ tree.links = 2 ∧
      tree.height < 2 * deepest + tree.links := by
  have htokens : Token.ofText "-max(a, b * c)^d + e".toList =
      .ok [⟨.mark .minus, 0⟩, ⟨.name "max", 1⟩, ⟨.mark .openParenthesis, 4⟩, ⟨.name "a", 5⟩,
        ⟨.mark .comma, 6⟩, ⟨.name "b", 8⟩, ⟨.mark .star, 10⟩, ⟨.name "c", 12⟩,
        ⟨.mark .closeParenthesis, 13⟩, ⟨.mark .caret, 14⟩, ⟨.name "d", 15⟩, ⟨.mark .plus, 17⟩,
        ⟨.name "e", 19⟩] := by
    decide +kernel
  have hparsed : parse "-max(a, b * c)^d + e".toList =
      .ok (.binary .add (.signed .negative (.binary .power
        (.call "max" [.name "a", .binary .multiply (.name "b") (.name "c")]) (.name "d")))
        (.name "e")) := by
    rw [parse, htokens]
    rfl
  exact ⟨_, hparsed, rfl, rfl, height_lt_of_parse hparsed⟩

/-! ### Sums of any length -/

/-- The tree of a sum with so many operators. -/
def longSum : Nat → Expression
  | 0 => .name "x"
  | operators + 1 => .binary .add (longSum operators) (.name "x")

/-- Each operator of a sum adds to the height of its tree. -/
theorem height_longSum (operators : Nat) : (longSum operators).height = operators + 1 := by
  induction operators with
  | zero => rfl
  | succ operators ih =>
    rw [longSum, Expression.height, ih, Expression.height]
    omega

/-- One level is enough for a sum of any length. -/
theorem derives_longSum (operators : Nat) :
    Derives .sum 1 (.name "x" :: (List.replicate operators [.mark .plus, .name "x"]).flatten)
      (longSum operators) := by
  have hname : Derives .product 1 [.name "x"] (.name "x") := .unary (.power (.primary (.name "x")))
  induction operators with
  | zero => exact .product hname
  | succ operators ih =>
    have hsum := Derives.add .plus ih hname
    rw [List.replicate_succ', List.flatten_append, List.flatten_singleton]
    exact hsum

/-- The text `x+x+…+x` with so many operators. -/
def longSumText (operators : Nat) : List Char :=
  'x' :: (List.replicate operators ['+', 'x']).flatten

theorem spells_longSumText (operators : Nat) :
    Spells (longSumText operators)
      (.name "x" :: (List.replicate operators [.mark .plus, .name "x"]).flatten) := by
  have hname {rest : List Char} (hrest : rest.head?.any isNameCharacter = false) :
      Reads ['x'] (.name "x") rest :=
    .name (by decide) rfl hrest fun hprefix ↦ absurd hprefix.1 (by decide)
  induction operators with
  | zero => exact .word (hname rfl) .nil
  | succ operators ih => exact .word (hname rfl) (.mark rfl (by decide) ih)

theorem parse_longSumText (operators : Nat) :
    parse (longSumText operators) = .ok (longSum operators) := by
  rw [← denotes_iff_parse_eq_ok]
  obtain ⟨tokens, htokens, hlexemes⟩ := spells_iff_ofText.mp (spells_longSumText operators)
  refine ⟨tokens, htokens, ?_, ?_⟩
  · rintro rfl
    cases hlexemes
  · rw [hlexemes]
    exact (derives_longSum operators).of_le (by decide)

/-- No bound holds for the trees of all formulas. -/
theorem not_bounded_height :
    ¬∃ bound, ∀ text tree, parse text = .ok tree → tree.height ≤ bound := by
  rintro ⟨bound, hbound⟩
  have hheight := hbound _ _ (parse_longSumText bound)
  rw [height_longSum] at hheight
  exact absurd hheight (Nat.not_succ_le_self bound)

end Formulary.Formula
