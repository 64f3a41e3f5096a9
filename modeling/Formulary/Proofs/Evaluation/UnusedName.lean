import Formulary.Proofs.Evaluation.SubstitutedFormula
import Formulary.Proofs.Formula.OperandName

/-!
# Names that a formula does not use

A word that stands in a legible text, that is a plain one in which no exponent follows a point, is a
name that the tree of the text reads or calls: `not_standsAsWord_of_unused`. It can stand neither in
a word in which no identifier starts, `Occurs.of_unopened`, nor in a plain word unless it is the
whole of it, `Occurs.of_plain`; and no token is of another kind, `Reads.of_occurs`. A text in which
no name of a rule occurs is kept by the rules, `replaceFrom_of_not_occurs`.
-/

set_option autoImplicit false
set_option relaxedAutoImplicit false

namespace Formulary.Name

open Formulary.Text

variable {before : Option Char} {name word text rest : List Char} {character : Char}

/-! ### Occurrences -/

/-- A word stands in a text with no character of a word next to it. -/
def StandsAsWord (word text : List Char) : Prop :=
  ∃ front back, text = front ++ (word ++ back) ∧
    front.getLast?.any isWordCharacter = false ∧ back.head?.any isWordCharacter = false

theorem not_standsAsWord_of_not_mem (hword : character ∈ word) (htext : character ∉ text) :
    ¬StandsAsWord word text := by
  rintro ⟨front, back, rfl, -⟩
  exact htext (List.mem_append_right front (List.mem_append_left back hword))

/-- A name stands, at word boundaries, somewhere in a text that follows `before`. -/
def Occurs (name : List Char) (before : Option Char) (text : List Char) : Prop :=
  ∃ done rest, text = done ++ rest ∧ occursAt name (lastOr before done) rest = true

theorem StandsAsWord.occurs (hedges : hasPlainEdges name = true)
    (hstands : StandsAsWord name text) : Occurs name none text := by
  obtain ⟨front, back, rfl, hfront, hback⟩ := hstands
  refine ⟨front, name ++ back, rfl, (occursAt_iff hedges _).mpr ⟨back, rfl, ?_, hback⟩⟩
  rwa [lastOr, Option.or_none]

theorem Occurs.standsAsWord (hedges : hasPlainEdges name = true)
    (hoccurs : Occurs name before text) : StandsAsWord name text := by
  obtain ⟨done, rest, rfl, hoccurs⟩ := hoccurs
  obtain ⟨behind, rfl, hfront, hbehind⟩ := (occursAt_iff hedges _).mp hoccurs
  refine ⟨done, behind, rfl, ?_, hbehind⟩
  cases hlast : done.getLast? with
  | none => rfl
  | some last => rwa [lastOr, hlast, Option.some_or] at hfront

theorem Occurs.of_cons (hoccurs : Occurs name before (character :: text)) :
    occursAt name before (character :: text) = true ∨ Occurs name (some character) text := by
  obtain ⟨done, rest, htext, hoccurs⟩ := hoccurs
  cases done with
  | nil =>
    rw [List.nil_append] at htext
    exact Or.inl (htext ▸ hoccurs)
  | cons other done =>
    obtain ⟨rfl, rfl⟩ := List.cons.inj htext
    rw [lastOr_cons] at hoccurs
    exact Or.inr ⟨done, rest, rfl, hoccurs⟩

/-- A text in which no name of a rule occurs is kept. -/
theorem replaceFrom_of_not_occurs {rules : List Rule}
    (hnone : ∀ rule ∈ rules, ¬Occurs rule.name before text) :
    replaceFrom rules before 0 text = text := by
  induction text generalizing before with
  | nil => rfl
  | cons character text ih =>
    have hfirst : ∀ rule ∈ rules, occursAt rule.name before (character :: text) = false :=
      fun rule hrule ↦ Bool.eq_false_iff.mpr fun hoccurs ↦
        hnone rule hrule ⟨[], _, rfl, hoccurs⟩
    rw [replaceFrom_of_none hfirst, ih]
    rintro rule hrule ⟨done, rest, rfl, hoccurs⟩
    exact hnone rule hrule ⟨character :: done, rest, rfl, by rwa [lastOr_cons]⟩

/-- An identifier that occurs occurs behind a word in which none starts. -/
theorem Occurs.of_unopened (hname : isIdentifier name = true) (hword : Unopened before word)
    (hoccurs : Occurs name before (word ++ rest)) : Occurs name (lastOr before word) rest := by
  induction word generalizing before with
  | nil => exact hoccurs
  | cons character word ih =>
    rcases hoccurs.of_cons with hhere | hlater
    · have hnone : occursAt name before (character :: (word ++ rest)) = false :=
        not_occursAt_of_unopened (hasPlainEdges_of_isIdentifier hname)
          ((Bool.and_eq_true _ _).mp hname).1 hword.1
      exact absurd (hnone.symm.trans hhere) Bool.false_ne_true
    · rw [lastOr_cons]
      exact ih hword.2 hlater

/-- An identifier that occurs is a plain word or occurs behind it. -/
theorem Occurs.of_plain (hname : isIdentifier name = true) (hnonempty : word ≠ [])
    (hword : word.all isPlainCharacter = true) (hrest : rest.head?.any isWordCharacter = false)
    (hoccurs : Occurs name before (word ++ rest)) :
    name = word ∨ Occurs name (lastOr before word) rest := by
  obtain ⟨first, others, rfl⟩ := List.exists_cons_of_ne_nil hnonempty
  rcases hoccurs.of_cons with hhere | hlater
  · exact Or.inl (eq_of_occursAt hname hword hrest hhere)
  · rw [List.all_cons, Bool.and_eq_true] at hword
    rw [lastOr_cons]
    exact Or.inr (hlater.of_unopened hname (unopened_of_plain hword.2 hword.1))

end Formulary.Name

namespace Formulary.Formula

open Formulary.Name Formulary.Number Formulary.Text

variable {before : Option Char} {word text rest front back : List Char} {lexeme : Lexeme}
  {lexemes : List Lexeme} {name : String} {tree : Expression}

/-! ### Lexemes and trees -/

theorem mem_separated {arguments : List (List Lexeme × Expression)}
    (hmember : .name name ∈ separated arguments) :
    ∃ argument ∈ arguments, .name name ∈ argument.1 := by
  induction arguments with
  | nil => cases hmember
  | cons first rest ih =>
    by_cases hrest : rest = []
    · subst hrest
      rw [separated_singleton] at hmember
      exact ⟨first, List.mem_cons_self, hmember⟩
    · rw [separated_cons hrest, List.mem_append, List.mem_cons] at hmember
      rcases hmember with hfirst | hcomma | hlater
      · exact ⟨first, List.mem_cons_self, hfirst⟩
      · cases hcomma
      · obtain ⟨argument, hargument, hname⟩ := ih hlater
        exact ⟨argument, List.mem_cons_of_mem _ hargument, hname⟩

/-- The names among the lexemes of a tree are those that it reads and those that it calls. -/
theorem Derives.mem_names_or_functions {category : Category} {nesting : Nat}
    (hderives : Derives category nesting lexemes tree) (hname : .name name ∈ lexemes) :
    name ∈ tree.names ∨ name ∈ tree.functions := by
  induction hderives with
  | product _ ih | unary _ ih | power _ ih | primary _ ih => exact ih hname
  | add _ _ _ hleft hright | multiply _ _ _ hleft hright | raise _ _ hleft hright =>
    rw [Expression.names, Expression.functions, List.mem_append, List.mem_append]
    rcases List.mem_append.mp hname with hfront | hback
    · exact (hleft hfront).imp Or.inl Or.inl
    · rcases List.mem_cons.mp hback with hmark | hback
      · cases hmark
      · exact (hright hback).imp Or.inr Or.inr
  | sign _ _ ih =>
    rcases List.mem_cons.mp hname with hmark | hback
    · cases hmark
    · exact ih hback
  | number value => cases List.mem_singleton.mp hname
  | name text =>
    obtain rfl := Lexeme.name.inj (List.mem_singleton.mp hname)
    exact Or.inl List.mem_cons_self
  | call function arguments _ ih =>
    simp only [List.mem_cons, List.mem_append, reduceCtorEq, List.not_mem_nil, false_or,
      or_false] at hname
    rw [Expression.names, Expression.functions]
    rcases hname with hfunction | harguments
    · exact Or.inr (List.mem_cons.mpr (Or.inl (Lexeme.name.inj hfunction)))
    · obtain ⟨argument, hargument, hhere⟩ := mem_separated harguments
      have htree : argument.2 ∈ arguments.map Prod.snd := List.mem_map_of_mem hargument
      exact (ih argument hargument hhere).imp (mem_namesAll htree)
        fun hfunction ↦ List.mem_cons_of_mem _ (mem_functionsAll htree hfunction)
  | group _ ih =>
    simp only [List.mem_cons, List.mem_append, reduceCtorEq, List.not_mem_nil, false_or,
      or_false] at hname
    exact ih hname

/-! ### Names in texts -/

/-- A plain text in which no exponent follows a point. -/
structure Legible (text : List Char) : Prop where
  ascii : ∀ character ∈ text, character.toNat < 128
  small : occursIn ['.', 'e'] text = false
  capital : occursIn ['.', 'E'] text = false

theorem Legible.append (htext : Legible (front ++ back)) : Legible front ∧ Legible back :=
  ⟨⟨fun character hmember ↦ htext.ascii character (List.mem_append_left back hmember),
      (occursIn_append htext.small).1, (occursIn_append htext.capital).1⟩,
    ⟨fun character hmember ↦ htext.ascii character (List.mem_append_right front hmember),
      (occursIn_append htext.small).2, (occursIn_append htext.capital).2⟩⟩

/-- An identifier that occurs in front of a rest is read there as a name, is the prefix of
functions, or occurs in the rest. -/
theorem Reads.of_occurs (hreads : Reads text lexeme rest) (htext : Legible text)
    (hrest : Legible rest) (hword : isIdentifier word = true)
    (hoccurs : Occurs word before (text ++ rest)) :
    word = functionPrefix ∨ lexeme = .name (String.ofList word) ∨
      Occurs word (lastOr before text) rest := by
  cases hreads with
  | number hscan =>
    have hnumeral := unopened_characters before (wellFormed_of_scan hscan) htext.small htext.capital
    exact Or.inr (Or.inr (hoccurs.of_unopened hword hnumeral))
  | @name first others _ hstart hothers hbehind _ =>
    have hplain : (first :: others).all isPlainCharacter = true :=
      all_isPlainCharacter htext.ascii (by simp [hothers, isNameCharacter_of_isNameStart hstart])
    rcases hoccurs.of_plain hword (List.cons_ne_nil _ _) hplain
      (head?_isWordCharacter hrest.ascii hbehind) with rfl | hlater
    · exact Or.inr (Or.inl rfl)
    · exact Or.inr (Or.inr hlater)
  | @function function _ hnonempty hletters hbehind =>
    rw [List.append_assoc] at hoccurs
    rcases hoccurs.of_plain hword (by decide) (by decide) rfl with hprefix | hlater
    · exact Or.inl hprefix
    have hpoint : ['.'].any isNameCharacter = false := by decide
    have hinside : Occurs word (some '.') (function ++ rest) :=
      hlater.of_unopened hword (unopened_of_no_name hpoint)
    have hascii : ∀ character ∈ function, character.toNat < 128 := fun character hmember ↦
      htext.ascii character (List.mem_append_right _ (List.mem_cons_of_mem _ hmember))
    rcases hinside.of_plain hword hnonempty (all_isPlainCharacter hascii hletters)
      (head?_isWordCharacter hrest.ascii hbehind) with rfl | hlater
    · exact Or.inr (Or.inl rfl)
    · rw [lastOr_append, lastOr_cons]
      exact Or.inr (Or.inr hlater)
  | power =>
    have hstars : ['*', '*'].any isNameCharacter = false := by decide
    exact Or.inr (Or.inr (hoccurs.of_unopened hword (unopened_of_no_name hstars)))
  | @mark character _ _ hmark _ =>
    have hother : [character].any isNameCharacter = false := by
      simpa using (classes_of_markOf? hmark).2.1
    exact Or.inr (Or.inr (hoccurs.of_unopened hword (unopened_of_no_name hother)))

/-- An identifier that occurs in a legible text is a name among its lexemes or the prefix of
functions. -/
theorem Spells.mem_of_occurs (hspells : Spells text lexemes) (htext : Legible text)
    (hword : isIdentifier word = true) (hmath : word ≠ functionPrefix)
    (hoccurs : Occurs word before text) : .name (String.ofList word) ∈ lexemes := by
  induction hspells generalizing before with
  | nil =>
    obtain ⟨done, rest, hempty, hoccurs⟩ := hoccurs
    obtain ⟨-, rfl⟩ := List.append_eq_nil_iff.mp hempty.symm
    obtain ⟨behind, hnil, -⟩ := (occursAt_iff (hasPlainEdges_of_isIdentifier hword) _).mp hoccurs
    obtain ⟨rfl, -⟩ := List.append_eq_nil_iff.mp hnil.symm
    cases hword
  | @space character rest lexemes hwhite _ ih =>
    have hother : [character].any isNameCharacter = false := by
      simpa using isNameCharacter_of_isWhiteSpace hwhite
    rw [← List.singleton_append] at htext hoccurs
    exact ih htext.append.2 (hoccurs.of_unopened hword (unopened_of_no_name hother))
  | word hreads _ ih =>
    obtain ⟨hhere, hlater⟩ := htext.append
    rcases hreads.of_occurs hhere hlater hword hoccurs with hprefix | rfl | hbehind
    · exact absurd hprefix hmath
    · exact List.mem_cons_self
    · exact List.mem_cons_of_mem _ (ih hlater hbehind)

/-- A name that the tree of a legible text neither reads nor calls does not stand in the text. -/
theorem not_standsAsWord_of_unused {category : Category} {nesting : Nat}
    (hspells : Spells text lexemes) (hderives : Derives category nesting lexemes tree)
    (htext : Legible text) (hname : isIdentifier name.toList = true)
    (hmath : name.toList ≠ functionPrefix) (hread : name ∉ tree.names)
    (hcalled : name ∉ tree.functions) : ¬StandsAsWord name.toList text := by
  intro hstands
  have hmember := hspells.mem_of_occurs htext hname hmath
    (hstands.occurs (hasPlainEdges_of_isIdentifier hname))
  rw [String.ofList_toList] at hmember
  exact (hderives.mem_names_or_functions hmember).elim hread hcalled

end Formulary.Formula
