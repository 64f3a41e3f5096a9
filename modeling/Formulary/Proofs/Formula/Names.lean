import Formulary.Proofs.Formula.Lexing
import Formulary.Proofs.Formula.ParserCompleteness
import Mathlib.Data.List.Basic

/-!
# The names of a formula

A name in the tree of a formula stands in its text with no character of a name next to it,
`standsApart_of_mem_names`: what derives a tree never has a name right behind a number. The value of
the tree depends only on the values of these names, `evaluate_congr`.
-/

set_option autoImplicit false
set_option relaxedAutoImplicit false

namespace Formulary.Formula

open Formulary.Text Formulary.Number

variable {word rest : List Char} {lexeme : Lexeme} {lexemes : List Lexeme}

/-! ### Words and what follows them -/

/-- A text that does not start with a number or a name starts with nothing that would go on with
one. -/
theorem head?_of_no_operand (hspells : Spells rest lexemes)
    (hoperand : ∀ next ∈ lexemes.head?, next.isOperand = false) :
    rest.head?.any isNameCharacter = false ∧ rest.head? ≠ some '.' := by
  cases hspells with
  | nil => exact ⟨rfl, by simp⟩
  | space hwhite _ =>
    refine ⟨isNameCharacter_of_isWhiteSpace hwhite, ?_⟩
    rintro ⟨⟩
    exact absurd hwhite (by decide)
  | word hreads _ =>
    have hother := hoperand _ rfl
    cases hreads with
    | number _ | name _ _ _ _ | function _ _ _ => cases hother
    | power =>
      show isNameCharacter '*' = false ∧ some '*' ≠ some '.'
      decide
    | mark hmark _ =>
      obtain ⟨_, hname, _, hpoint⟩ := classes_of_markOf? hmark
      exact ⟨hname, by simpa using hpoint⟩

/-- Between a word and what follows it, at least one side has no character of a name. -/
theorem Reads.boundary (hreads : Reads word lexeme rest) (hspells : Spells rest lexemes)
    (hchain : (lexeme :: lexemes).IsChain Adjoins) :
    word.getLast?.any isNameCharacter = false ∨ rest.head?.any isNameCharacter = false := by
  cases hreads with
  | number _ => exact Or.inr (head?_of_no_operand hspells (no_operand_of_isChain hchain rfl)).1
  | name _ _ hrest _ => exact Or.inr hrest
  | function _ _ hrest => exact Or.inr hrest
  | power =>
    refine Or.inl ?_
    show isNameCharacter '*' = false
    decide
  | mark hmark _ => exact Or.inl (classes_of_markOf? hmark).2.1

/-! ### Names in lexemes -/

/-- A word occurs in a text with no character of a name next to it. -/
def StandsApart (word text : List Char) : Prop :=
  ∃ front back, text = front ++ (word ++ back) ∧
    front.getLast?.any isNameCharacter = false ∧ back.head?.any isNameCharacter = false

/-- A word that is read as a name ends with it, and no character of a name is next to it. -/
theorem Reads.exists_of_name {name : String} (hreads : Reads word (.name name) rest) :
    ∃ front, word = front ++ name.toList ∧ front.getLast?.any isNameCharacter = false ∧
      rest.head?.any isNameCharacter = false := by
  cases hreads with
  | name _ _ hrest _ => exact ⟨[], by simp, rfl, hrest⟩
  | function _ _ hrest => exact ⟨functionPrefix ++ ['.'], by simp, by decide, hrest⟩

/-- A name that is read consists of characters of names, of which there is at least one. -/
theorem Reads.letters_of_name {name : String} (hreads : Reads word (.name name) rest) :
    name.toList ≠ [] ∧ name.toList.all isNameCharacter = true := by
  cases hreads with
  | name hstart hothers _ _ =>
    rw [String.toList_ofList, List.all_cons, isNameCharacter_of_isNameStart hstart, hothers]
    exact ⟨List.cons_ne_nil _ _, rfl⟩
  | function hnonempty hletters _ =>
    rw [String.toList_ofList]
    exact ⟨hnonempty, hletters⟩

variable {text : List Char} {name : String}

theorem Spells.letters_of_name (hspells : Spells text lexemes) (hname : .name name ∈ lexemes) :
    name.toList ≠ [] ∧ name.toList.all isNameCharacter = true := by
  induction hspells with
  | nil => cases hname
  | space _ _ ih => exact ih hname
  | word hreads _ ih =>
    rcases List.mem_cons.mp hname with rfl | hlater
    · exact hreads.letters_of_name
    · exact ih hlater

/-- What starts with a name starts with a character of names. -/
theorem any_isNameCharacter_append {letters : List Char} (hnonempty : letters ≠ [])
    (hletters : letters.all isNameCharacter = true) (back : List Char) :
    (letters ++ back).head?.any isNameCharacter = true := by
  obtain ⟨first, others, rfl⟩ := List.exists_cons_of_ne_nil hnonempty
  rw [List.all_cons, Bool.and_eq_true] at hletters
  exact hletters.1

/-- A name among the lexemes of a text stands in it, with no character of a name next to it. -/
theorem Spells.standsApart_of_name (hspells : Spells text lexemes)
    (hchain : lexemes.IsChain Adjoins) (hname : .name name ∈ lexemes) :
    StandsApart name.toList text := by
  induction hspells with
  | nil => cases hname
  | @space character rest lexemes hwhite _ ih =>
    obtain ⟨front, back, rfl, hfront, hback⟩ := ih hchain hname
    refine ⟨character :: front, back, rfl, ?_, hback⟩
    cases front with
    | nil => exact isNameCharacter_of_isWhiteSpace hwhite
    | cons first front => rwa [List.getLast?_cons_cons]
  | @word word rest lexeme lexemes hreads hrest ih =>
    rcases List.mem_cons.mp hname with rfl | hlater
    · obtain ⟨front, rfl, hfront, hback⟩ := hreads.exists_of_name
      exact ⟨front, rest, List.append_assoc _ _ _, hfront, hback⟩
    · obtain ⟨hnonempty, hletters⟩ := hrest.letters_of_name hlater
      obtain ⟨front, back, rfl, hfront, hback⟩ := ih hchain.of_cons hlater
      refine ⟨word ++ front, back, (List.append_assoc _ _ _).symm, ?_, hback⟩
      cases front with
      | nil =>
        rw [List.append_nil]
        refine (hreads.boundary hrest hchain).resolve_right fun hother ↦ ?_
        have hhead := any_isNameCharacter_append hnonempty hletters back
        exact Bool.false_ne_true (hother.symm.trans hhead)
      | cons first front =>
        rwa [List.getLast?_append_cons]

/-! ### Names in trees -/

mutual

/-- The names that a tree reads; those of its functions are not among them. -/
def Expression.names : Expression → List String
  | .number _ => []
  | .name text => [text]
  | .signed _ operand => operand.names
  | .binary _ left right => left.names ++ right.names
  | .call _ arguments => namesAll arguments

/-- The names that several trees read. -/
def namesAll : List Expression → List String
  | [] => []
  | first :: rest => first.names ++ namesAll rest

end

theorem namesAll_eq_flatMap (trees : List Expression) :
    namesAll trees = trees.flatMap Expression.names := by
  induction trees with
  | nil => rfl
  | cons first rest ih => rw [namesAll, ih, List.flatMap_cons]

theorem mem_namesAll {trees : List Expression} {tree : Expression} (htree : tree ∈ trees)
    (hname : name ∈ tree.names) : name ∈ namesAll trees := by
  rw [namesAll_eq_flatMap]
  exact List.mem_flatMap.mpr ⟨tree, htree, hname⟩

/-- The names that several arguments read stand among their lexemes. -/
theorem mem_separated_of_mem_namesAll {arguments : List (List Lexeme × Expression)}
    (hname : name ∈ namesAll (arguments.map Prod.snd))
    (hall : ∀ argument ∈ arguments, name ∈ argument.2.names → .name name ∈ argument.1) :
    .name name ∈ separated arguments := by
  induction arguments with
  | nil => cases hname
  | cons first rest ih =>
    rw [List.map_cons, namesAll, List.mem_append] at hname
    have hfirst := hall first List.mem_cons_self
    have hlater := fun hrest ↦
      ih hrest fun argument hargument ↦ hall argument (List.mem_cons_of_mem _ hargument)
    by_cases hrest : rest = []
    · subst hrest
      rw [separated_singleton]
      exact hfirst (hname.resolve_right (by simp [namesAll]))
    · rw [separated_cons hrest, List.mem_append]
      exact hname.imp hfirst fun hbehind ↦ List.mem_cons_of_mem _ (hlater hbehind)

/-- The names that a tree reads are among the lexemes that derive it. -/
theorem Derives.mem_of_mem_names {category : Category} {nesting : Nat} {tree : Expression}
    (hderives : Derives category nesting lexemes tree) (hname : name ∈ tree.names) :
    .name name ∈ lexemes := by
  induction hderives with
  | product _ ih | unary _ ih | power _ ih | primary _ ih => exact ih hname
  | add _ _ _ hfront hback | multiply _ _ _ hfront hback | raise _ _ hfront hback =>
    rw [Expression.names, List.mem_append] at hname
    rw [List.mem_append]
    exact hname.imp hfront fun hright ↦ List.mem_cons_of_mem _ (hback hright)
  | sign _ _ ih => exact List.mem_cons_of_mem _ (ih hname)
  | number value => cases hname
  | name text =>
    obtain rfl := List.mem_singleton.mp hname
    exact List.mem_cons_self
  | call function arguments _ ih =>
    have harguments := mem_separated_of_mem_namesAll hname ih
    exact List.mem_cons_of_mem _ (List.mem_cons_of_mem _ (List.mem_append_left _ harguments))
  | group _ ih => exact List.mem_cons_of_mem _ (List.mem_append_left _ (ih hname))

variable {lookUp other : String → Option Float}

mutual

/-- The value of a tree depends only on the values of the names that it reads. -/
theorem evaluate_congr (tree : Expression)
    (hagree : ∀ name ∈ tree.names, lookUp name = other name) :
    tree.evaluate lookUp = tree.evaluate other := by
  cases tree with
  | number value => rw [Expression.evaluate, Expression.evaluate]
  | name text =>
    have hname := hagree text List.mem_cons_self
    rw [Expression.evaluate, Expression.evaluate, nameValue, nameValue, hname]
  | signed sign operand =>
    rw [Expression.evaluate, Expression.evaluate, evaluate_congr operand hagree]
  | binary operator left right =>
    rw [Expression.names] at hagree
    rw [Expression.evaluate, Expression.evaluate,
      evaluate_congr left fun name hname ↦ hagree name (List.mem_append_left _ hname),
      evaluate_congr right fun name hname ↦ hagree name (List.mem_append_right _ hname)]
  | call function arguments =>
    rw [Expression.evaluate, Expression.evaluate, evaluateAll_congr arguments hagree]

theorem evaluateAll_congr (trees : List Expression)
    (hagree : ∀ name ∈ namesAll trees, lookUp name = other name) :
    evaluateAll lookUp trees = evaluateAll other trees := by
  cases trees with
  | nil => rw [evaluateAll, evaluateAll]
  | cons first rest =>
    rw [namesAll] at hagree
    rw [evaluateAll, evaluateAll,
      evaluate_congr first fun name hname ↦ hagree name (List.mem_append_left _ hname),
      evaluateAll_congr rest fun name hname ↦ hagree name (List.mem_append_right _ hname)]

end

/-- A name that the tree of a text reads consists of characters of names and stands in the text
with no other one next to it. -/
theorem standsApart_of_mem_names {tree : Expression} (hparse : parse text = .ok tree)
    (hname : name ∈ tree.names) :
    name.toList.all isNameCharacter = true ∧ StandsApart name.toList text := by
  obtain ⟨tokens, htokens, _, hderives⟩ := (denotes_iff_parse_eq_ok text tree).mpr hparse
  have hspells := spells_iff_ofText.mpr ⟨tokens, htokens, rfl⟩
  have hmember := hderives.mem_of_mem_names hname
  exact ⟨(hspells.letters_of_name hmember).2,
    hspells.standsApart_of_name hderives.isChain hmember⟩

end Formulary.Formula
