import Formulary.Formula.Parser
import Mathlib.Data.List.Chain

/-!
# The grammar of formulas

`Derives category nesting lexemes tree` says that the grammar assigns a tree to a list of lexemes,
as a sum, a product, a signed expression, a power or a primary:

    sum     := product | sum ('+' | '-') product
    product := unary | product ('*' | '/' | '%') unary
    unary   := ('-' | '+') unary | power
    power   := primary | primary '^' unary
    primary := number | name | name '(' [sum (',' sum)*] ')' | '(' sum ')'

Sums and products group to the left, powers to the right, and a sign applies to a whole power. A
derivation uses the production of `unary` at most `nesting` times on any path from its root.

No formula is empty or starts with a closing parenthesis, `Derives.exists_cons`, and no two numbers
or names stand side by side in one, `Derives.isChain`.
-/

set_option autoImplicit false
set_option relaxedAutoImplicit false

namespace Formulary.Formula

/-! ### Productions -/

/-- What a list of lexemes can be derived as. -/
inductive Category where
  | sum
  | product
  | unary
  | power
  | primary
  deriving Repr, DecidableEq

/-- The marks that join the operands of a sum or of a product, and their operators. -/
inductive Joins : Category → Mark → Operator → Prop
  | plus : Joins .sum .plus .add
  | minus : Joins .sum .minus .subtract
  | star : Joins .product .star .multiply
  | slash : Joins .product .slash .divide
  | percent : Joins .product .percent .remainder

/-- The marks that are signs. -/
inductive Signs : Mark → Sign → Prop
  | minus : Signs .minus .negative
  | plus : Signs .plus .positive

/-- The arguments of a call, with commas between them. -/
def separated (arguments : List (List Lexeme × Expression)) : List Lexeme :=
  [Lexeme.mark .comma].intercalate (arguments.map Prod.fst)

/-- The trees that the grammar assigns to lists of lexemes. -/
inductive Derives : Category → Nat → List Lexeme → Expression → Prop
  | product {nesting : Nat} {lexemes : List Lexeme} {tree : Expression} :
    Derives .product nesting lexemes tree → Derives .sum nesting lexemes tree
  | add {nesting : Nat} {mark : Mark} {operator : Operator} {front back : List Lexeme}
    {left right : Expression} :
    Joins .sum mark operator → Derives .sum nesting front left →
    Derives .product nesting back right →
    Derives .sum nesting (front ++ .mark mark :: back) (.binary operator left right)
  | unary {nesting : Nat} {lexemes : List Lexeme} {tree : Expression} :
    Derives .unary nesting lexemes tree → Derives .product nesting lexemes tree
  | multiply {nesting : Nat} {mark : Mark} {operator : Operator} {front back : List Lexeme}
    {left right : Expression} :
    Joins .product mark operator → Derives .product nesting front left →
    Derives .unary nesting back right →
    Derives .product nesting (front ++ .mark mark :: back) (.binary operator left right)
  | sign {nesting : Nat} {mark : Mark} {sign : Sign} {lexemes : List Lexeme}
    {tree : Expression} :
    Signs mark sign → Derives .unary nesting lexemes tree →
    Derives .unary (nesting + 1) (.mark mark :: lexemes) (.signed sign tree)
  | power {nesting : Nat} {lexemes : List Lexeme} {tree : Expression} :
    Derives .power nesting lexemes tree → Derives .unary (nesting + 1) lexemes tree
  | primary {nesting : Nat} {lexemes : List Lexeme} {tree : Expression} :
    Derives .primary nesting lexemes tree → Derives .power nesting lexemes tree
  | raise {nesting : Nat} {front back : List Lexeme} {base exponent : Expression} :
    Derives .primary nesting front base → Derives .unary nesting back exponent →
    Derives .power nesting (front ++ .mark .caret :: back) (.binary .power base exponent)
  | number {nesting : Nat} (value : Float) :
    Derives .primary nesting [.number value] (.number value)
  | name {nesting : Nat} (text : String) : Derives .primary nesting [.name text] (.name text)
  | call {nesting : Nat} (function : String) (arguments : List (List Lexeme × Expression)) :
    (∀ argument ∈ arguments, Derives .sum nesting argument.1 argument.2) →
    Derives .primary nesting
      (.name function :: .mark .openParenthesis ::
        (separated arguments ++ [.mark .closeParenthesis]))
      (.call function (arguments.map Prod.snd))
  | group {nesting : Nat} {lexemes : List Lexeme} {tree : Expression} :
    Derives .sum nesting lexemes tree →
    Derives .primary nesting
      (.mark .openParenthesis :: (lexemes ++ [.mark .closeParenthesis])) tree

/-- A text denotes a tree: its tokens, of which there is at least one, derive it as a sum in which
no more levels nest than are allowed. -/
def Denotes (text : List Char) (tree : Expression) : Prop :=
  ∃ tokens, Token.ofText text = .ok tokens ∧ tokens ≠ [] ∧
    Derives .sum deepest (tokens.map Token.lexeme) tree

/-! ### Arguments -/

@[simp] theorem separated_nil : separated [] = [] := rfl

@[simp] theorem separated_singleton (argument : List Lexeme × Expression) :
    separated [argument] = argument.1 := by
  simp [separated, List.intercalate]

theorem separated_cons {rest : List (List Lexeme × Expression)} (hrest : rest ≠ [])
    (first : List Lexeme × Expression) :
    separated (first :: rest) = first.1 ++ .mark .comma :: separated rest := by
  obtain ⟨second, others, rfl⟩ := List.exists_cons_of_ne_nil hrest
  simp [separated, List.intercalate]

/-- What holds of nothing and of each argument, and stays when a comma joins two parts, holds of all
arguments. -/
theorem separated_induction {motive : List Lexeme → Prop}
    {arguments : List (List Lexeme × Expression)} (hnil : motive [])
    (hcomma : ∀ front back, motive front → motive back → motive (front ++ .mark .comma :: back))
    (harguments : ∀ argument ∈ arguments, motive argument.1) : motive (separated arguments) := by
  induction arguments with
  | nil => exact hnil
  | cons first rest ih =>
    obtain ⟨hfirst, hlater⟩ := List.forall_mem_cons.mp harguments
    by_cases hrest : rest = []
    · rwa [hrest, separated_singleton]
    · rw [separated_cons hrest]
      exact hcomma _ _ hfirst (ih hlater)

/-- Arguments are read one by one if nothing is read from a comma. -/
theorem read_separated {Item : Type} {read : List Lexeme → List Item} (hnil : read [] = [])
    (hcomma : ∀ front back, read (front ++ .mark .comma :: back) = read front ++ read back)
    (arguments : List (List Lexeme × Expression)) :
    read (separated arguments) = arguments.flatMap fun argument ↦ read argument.1 := by
  induction arguments with
  | nil => exact hnil
  | cons first rest ih =>
    rw [List.flatMap_cons, ← ih]
    by_cases hrest : rest = []
    · rw [hrest, separated_singleton, separated_nil, hnil, List.append_nil]
    · rw [separated_cons hrest, hcomma]

/-! ### Ends -/

/-- Whatever derives a tree has a first lexeme, which closes nothing, and is no sign in a power or a
primary. -/
theorem Derives.exists_cons {category : Category} {nesting : Nat} {lexemes : List Lexeme}
    {tree : Expression} (hderives : Derives category nesting lexemes tree) :
    ∃ first rest, lexemes = first :: rest ∧ first ≠ .mark .closeParenthesis ∧
      (category = .power ∨ category = .primary → sign? first = none) := by
  induction hderives with
  | product _ ih | unary _ ih =>
    obtain ⟨first, rest, rfl, hopen, _⟩ := ih
    exact ⟨first, rest, rfl, hopen, by simp⟩
  | add _ _ _ ih _ | multiply _ _ _ ih _ =>
    obtain ⟨first, rest, rfl, hopen, _⟩ := ih
    exact ⟨first, _, rfl, hopen, by simp⟩
  | sign hsign _ _ =>
    refine ⟨_, _, rfl, ?_, by simp⟩
    cases hsign <;> simp
  | power _ ih =>
    obtain ⟨first, rest, rfl, hopen, _⟩ := ih
    exact ⟨first, rest, rfl, hopen, by simp⟩
  | primary _ ih =>
    obtain ⟨first, rest, rfl, hopen, hsign⟩ := ih
    exact ⟨first, rest, rfl, hopen, fun _ ↦ hsign (Or.inr rfl)⟩
  | raise _ _ ih _ =>
    obtain ⟨first, rest, rfl, hopen, hsign⟩ := ih
    exact ⟨first, _, rfl, hopen, fun _ ↦ hsign (Or.inr rfl)⟩
  | number value => exact ⟨_, _, rfl, by simp, fun _ ↦ rfl⟩
  | name text => exact ⟨_, _, rfl, by simp, fun _ ↦ rfl⟩
  | call function arguments _ _ => exact ⟨_, _, rfl, by simp, fun _ ↦ rfl⟩
  | group _ _ => exact ⟨_, _, rfl, by simp, fun _ ↦ rfl⟩

/-- Whether a lexeme is an operand by itself: a number or a name. -/
def Lexeme.isOperand : Lexeme → Bool
  | .number _ => true
  | .name _ => true
  | .mark _ => false

/-- Lexemes that may stand side by side: not two numbers or names. -/
def Adjoins (first second : Lexeme) : Prop :=
  first.isOperand = false ∨ second.isOperand = false

/-- Behind a number or a name stands neither. -/
theorem no_operand_of_isChain {lexeme : Lexeme} {lexemes : List Lexeme}
    (hchain : (lexeme :: lexemes).IsChain Adjoins) (hoperand : lexeme.isOperand = true) :
    ∀ next ∈ lexemes.head?, next.isOperand = false := by
  intro next hnext
  refine ((List.isChain_cons.mp hchain).1 next hnext).resolve_left fun hmark ↦ ?_
  exact Bool.false_ne_true (hmark.symm.trans hoperand)

theorem isChain_mark_cons {mark : Mark} {lexemes : List Lexeme}
    (hlexemes : lexemes.IsChain Adjoins) : (.mark mark :: lexemes).IsChain Adjoins :=
  List.isChain_cons.mpr ⟨fun _ _ ↦ Or.inl rfl, hlexemes⟩

theorem isChain_append_mark {front back : List Lexeme} {mark : Mark}
    (hfront : front.IsChain Adjoins) (hback : back.IsChain Adjoins) :
    (front ++ .mark mark :: back).IsChain Adjoins := by
  refine List.isChain_append.mpr ⟨hfront, isChain_mark_cons hback, ?_⟩
  intro last _ next hnext
  obtain rfl : Lexeme.mark mark = next := by simpa using hnext
  exact Or.inr rfl

theorem isChain_separated {arguments : List (List Lexeme × Expression)}
    (hchains : ∀ argument ∈ arguments, argument.1.IsChain Adjoins) :
    (separated arguments).IsChain Adjoins :=
  separated_induction List.IsChain.nil (fun _ _ ↦ isChain_append_mark) hchains

/-- In what derives a tree, no two numbers or names stand side by side. -/
theorem Derives.isChain {category : Category} {nesting : Nat} {lexemes : List Lexeme}
    {tree : Expression} (hderives : Derives category nesting lexemes tree) :
    lexemes.IsChain Adjoins := by
  induction hderives with
  | product _ ih => exact ih
  | add _ _ _ hfront hback => exact isChain_append_mark hfront hback
  | unary _ ih => exact ih
  | multiply _ _ _ hfront hback => exact isChain_append_mark hfront hback
  | sign _ _ ih => exact isChain_mark_cons ih
  | power _ ih => exact ih
  | primary _ ih => exact ih
  | raise _ _ hfront hback => exact isChain_append_mark hfront hback
  | number value => exact List.IsChain.singleton _
  | name text => exact List.IsChain.singleton _
  | call function arguments _ ih =>
    exact List.isChain_cons_cons.mpr ⟨Or.inr rfl,
      isChain_mark_cons (isChain_append_mark (isChain_separated ih) List.IsChain.nil)⟩
  | group _ ih => exact isChain_mark_cons (isChain_append_mark ih List.IsChain.nil)

/-! ### Levels -/

/-- What nests on some levels nests on more. -/
theorem Derives.of_le {category : Category} {nesting levels : Nat} {lexemes : List Lexeme}
    {tree : Expression} (hderives : Derives category nesting lexemes tree)
    (hlevels : nesting ≤ levels) : Derives category levels lexemes tree := by
  induction hderives generalizing levels with
  | product _ ih => exact .product (ih hlevels)
  | add hjoins _ _ hfront hback => exact .add hjoins (hfront hlevels) (hback hlevels)
  | unary _ ih => exact .unary (ih hlevels)
  | multiply hjoins _ _ hfront hback => exact .multiply hjoins (hfront hlevels) (hback hlevels)
  | sign hsign _ ih =>
    obtain ⟨fewer, rfl⟩ := Nat.exists_eq_add_of_le' hlevels
    exact .sign hsign (ih (Nat.le_add_left _ fewer))
  | power _ ih =>
    obtain ⟨fewer, rfl⟩ := Nat.exists_eq_add_of_le' hlevels
    exact .power (ih (Nat.le_add_left _ fewer))
  | primary _ ih => exact .primary (ih hlevels)
  | raise _ _ hfront hback => exact .raise (hfront hlevels) (hback hlevels)
  | number value => exact .number value
  | name text => exact .name text
  | call function arguments _ ih =>
    exact .call function arguments fun argument hargument ↦ ih argument hargument hlevels
  | group _ ih => exact .group (ih hlevels)

end Formulary.Formula
