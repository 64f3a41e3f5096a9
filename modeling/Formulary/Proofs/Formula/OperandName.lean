import Formulary.Proofs.Formula.Names
import Formulary.Proofs.Name.PlainAlias

/-!
# Names that stand as operands

The names of a tree are those among its lexemes that no opening parenthesis follows,
`Derives.operandNames_eq`. In the text such a name stands as an operand, `StandsAsOperand`: a break,
that is white space, a mark or an end of the text, is in front of it, and behind it another one but
the opening parenthesis. What stands so is always read as a name, whatever the rest of the text is,
`Spells.mem_operandNames`, and a substitution of other plain words leaves it where it is,
`Replaces.standsAsOperand`.
-/

set_option autoImplicit false
set_option relaxedAutoImplicit false

namespace Formulary.Formula

open Formulary.Name Formulary.Text Formulary.Number

variable {text word rest : List Char} {lexeme : Lexeme} {lexemes front back : List Lexeme}
  {name : String}

/-! ### Lexemes -/

/-- The names among some lexemes that no opening parenthesis follows. -/
def operandNames : List Lexeme → List String
  | [] => []
  | .number _ :: rest => operandNames rest
  | .mark _ :: rest => operandNames rest
  | .name text :: rest =>
    if rest.head? = some (.mark .openParenthesis) then operandNames rest
    else text :: operandNames rest

theorem operandNames_append (hback : back.head? ≠ some (.mark .openParenthesis)) :
    operandNames (front ++ back) = operandNames front ++ operandNames back := by
  induction front with
  | nil => rfl
  | cons lexeme front ih =>
    cases lexeme with
    | number value => exact ih
    | mark value => exact ih
    | name text =>
      have hhead : (front ++ back).head? = some (.mark .openParenthesis) ↔
          front.head? = some (.mark .openParenthesis) := by
        cases front with
        | nil => exact iff_of_false hback (by simp)
        | cons first front => exact Iff.rfl
      rw [List.cons_append, operandNames, operandNames, ih]
      simp only [hhead]
      split <;> rfl

theorem mem_operandNames_iff : name ∈ operandNames lexemes ↔
    ∃ front back, lexemes = front ++ .name name :: back ∧
      back.head? ≠ some (.mark .openParenthesis) := by
  constructor
  · intro hname
    induction lexemes with
    | nil => cases hname
    | cons lexeme lexemes ih =>
      have hlater (hlater : name ∈ operandNames lexemes) :
          ∃ front back, lexeme :: lexemes = front ++ .name name :: back ∧
            back.head? ≠ some (.mark .openParenthesis) := by
        obtain ⟨front, back, rfl, hback⟩ := ih hlater
        exact ⟨lexeme :: front, back, rfl, hback⟩
      cases lexeme with
      | number value => exact hlater hname
      | mark value => exact hlater hname
      | name text =>
        rw [operandNames] at hname
        split at hname
        · exact hlater hname
        · rename_i hopen
          rcases List.mem_cons.mp hname with rfl | hrest
          · exact ⟨[], lexemes, rfl, hopen⟩
          · exact hlater hrest
  · rintro ⟨front, back, rfl, hback⟩
    rw [operandNames_append (by simp), operandNames, if_neg hback]
    exact List.mem_append_right _ List.mem_cons_self

theorem operandNames_joined {mark : Mark} (hmark : mark ≠ .openParenthesis) :
    operandNames (front ++ .mark mark :: back) = operandNames front ++ operandNames back :=
  operandNames_append (by simpa using hmark)

theorem operandNames_separated {arguments : List (List Lexeme × Expression)}
    (harguments : ∀ argument ∈ arguments, operandNames argument.1 = argument.2.names) :
    operandNames (separated arguments) = namesAll (arguments.map Prod.snd) := by
  rw [read_separated rfl (fun _ _ ↦ operandNames_joined (by decide)), namesAll_eq_flatMap,
    List.flatMap_map]
  exact List.flatMap_congr harguments

theorem Joins.ne_openParenthesis {category : Category} {mark : Mark} {operator : Operator}
    (hjoins : Joins category mark operator) : mark ≠ .openParenthesis := by
  rintro rfl
  cases hjoins

/-- The names that a tree reads are those among its lexemes that no opening parenthesis follows. -/
theorem Derives.operandNames_eq {category : Category} {nesting : Nat} {tree : Expression}
    (hderives : Derives category nesting lexemes tree) : operandNames lexemes = tree.names := by
  induction hderives with
  | product _ ih | unary _ ih | power _ ih | primary _ ih => exact ih
  | add hjoins _ _ hfront hback | multiply hjoins _ _ hfront hback =>
    rw [operandNames_joined hjoins.ne_openParenthesis, hfront, hback, Expression.names]
  | raise _ _ hfront hback =>
    rw [operandNames_joined (by decide), hfront, hback, Expression.names]
  | sign _ _ ih => exact ih
  | number value => rfl
  | name text => rfl
  | call function arguments _ ih =>
    rw [operandNames, List.head?_cons, if_pos rfl, operandNames, operandNames_joined (by decide),
      operandNames_separated ih, Expression.names, operandNames, List.append_nil]
  | group _ ih =>
    rw [operandNames, operandNames_joined (by decide), ih, operandNames, List.append_nil]

/-! ### Breaks -/

/-- Whether a character belongs to no number and no name but ends them. -/
def isBreak (character : Char) : Bool :=
  isWhiteSpace character || (markOf? character).isSome

/-- A break belongs to no name and is no point. -/
theorem classes_of_isBreak {character : Char} (hbreak : isBreak character = true) :
    isNameCharacter character = false ∧ character ≠ '.' := by
  rw [isBreak, Bool.or_eq_true, Option.isSome_iff_exists] at hbreak
  rcases hbreak with hwhite | ⟨mark, hmark⟩
  · refine ⟨isNameCharacter_of_isWhiteSpace hwhite, ?_⟩
    rintro rfl
    exact absurd hwhite (by decide)
  · obtain ⟨-, hname, -, hpoint⟩ := classes_of_markOf? hmark
    exact ⟨hname, hpoint⟩

theorem isBreak_of_markOf? {character : Char} {mark : Mark}
    (hmark : markOf? character = some mark) : isBreak character = true := by
  rw [isBreak, hmark, Option.isSome_some, Bool.or_true]

/-- A word stands in a text as an operand: behind a break or an end, and in front of one other than
the opening parenthesis, with white space between them or not. -/
def StandsAsOperand (word text : List Char) : Prop :=
  ∃ front gap back, text = front ++ (word ++ (gap ++ back)) ∧
    (∀ character ∈ front.getLast?, isBreak character = true) ∧
    (∀ character ∈ gap, isWhiteSpace character = true) ∧
    ∀ character ∈ back.head?, (markOf? character).isSome = true ∧ character ≠ '('

/-! ### Names of trees in texts -/

/-- A word that ends in front of a name, and is not glued to it, ends with a break. -/
theorem Reads.isBreak_getLast? (hreads : Reads word lexeme rest) (hspells : Spells rest lexemes)
    (hchain : (lexeme :: lexemes).IsChain Adjoins)
    (hname : rest.head?.any isNameCharacter = true) :
    ∀ character ∈ word.getLast?, isBreak character = true := by
  have hnone (hrest : rest.head?.any isNameCharacter = false) :
      ∀ character ∈ word.getLast?, isBreak character = true :=
    absurd (hrest.symm.trans hname) Bool.false_ne_true
  cases hreads with
  | number _ => exact hnone (head?_of_no_operand hspells (no_operand_of_isChain hchain rfl)).1
  | name _ _ hrest _ => exact hnone hrest
  | function _ _ hrest => exact hnone hrest
  | power =>
    rintro character ⟨⟩
    decide
  | mark hmark _ =>
    rintro character ⟨⟩
    exact isBreak_of_markOf? hmark

/-- A text that spells neither an operand nor an opening parenthesis first starts, behind white
space, with another mark. -/
theorem Spells.exists_gap (hspells : Spells text lexemes)
    (hoperand : ∀ next ∈ lexemes.head?, next.isOperand = false)
    (hopen : lexemes.head? ≠ some (.mark .openParenthesis)) :
    ∃ gap back, text = gap ++ back ∧ (∀ character ∈ gap, isWhiteSpace character = true) ∧
      ∀ character ∈ back.head?, (markOf? character).isSome = true ∧ character ≠ '(' := by
  induction hspells with
  | nil => exact ⟨[], [], rfl, by simp, by simp⟩
  | @space character rest lexemes hwhite _ ih =>
    obtain ⟨gap, back, rfl, hgap, hback⟩ := ih hoperand hopen
    refine ⟨character :: gap, back, rfl, fun other hother ↦ ?_, hback⟩
    rcases List.mem_cons.mp hother with rfl | hlater
    · exact hwhite
    · exact hgap other hlater
  | @word word rest lexeme lexemes hreads _ ih =>
    refine ⟨[], word ++ rest, rfl, by simp, ?_⟩
    have hother := hoperand lexeme rfl
    cases hreads with
    | number _ | name _ _ _ _ | function _ _ _ => cases hother
    | power =>
      rintro character ⟨⟩
      decide
    | mark hmark _ =>
      rintro character ⟨⟩
      refine ⟨by rw [hmark]; rfl, ?_⟩
      rintro rfl
      obtain rfl := Option.some.inj hmark
      exact hopen rfl

/-- A name among the lexemes of a text, without the prefix of functions and with no opening
parenthesis behind it, stands in the text as an operand. -/
theorem Spells.standsAsOperand (hspells : Spells text lexemes) (hchain : lexemes.IsChain Adjoins)
    (hbare : ¬(functionPrefix ++ ['.']) <:+: text) (hname : name ∈ operandNames lexemes) :
    StandsAsOperand name.toList text := by
  obtain ⟨front, back, hlexemes, hback⟩ := mem_operandNames_iff.mp hname
  clear hname
  induction hspells generalizing front with
  | nil => cases front <;> cases hlexemes
  | @space character rest lexemes hwhite _ ih =>
    obtain ⟨before, gap, behind, rfl, hbefore, hgap, hbehind⟩ :=
      ih hchain (fun h ↦ hbare (h.trans (List.suffix_cons _ _).isInfix)) front hlexemes
    refine ⟨character :: before, gap, behind, rfl, fun other hother ↦ ?_, hgap, hbehind⟩
    cases before with
    | nil =>
      rw [List.getLast?_singleton] at hother
      obtain rfl := Option.some.inj hother
      rw [isBreak, hwhite, Bool.true_or]
    | cons first before => exact hbefore other (by rwa [List.getLast?_cons_cons] at hother)
  | @word word rest lexeme lexemes hreads hrest ih =>
    cases front with
    | nil =>
      obtain ⟨rfl, rfl⟩ := List.cons.inj hlexemes
      obtain ⟨gap, behind, rfl, hgap, hbehind⟩ :=
        hrest.exists_gap (no_operand_of_isChain hchain rfl) hback
      cases hreads with
      | name _ _ _ _ =>
        exact ⟨[], gap, behind, by simp, by simp, hgap, hbehind⟩
      | @function function _ _ _ _ =>
        refine absurd ⟨[], function ++ (gap ++ behind), ?_⟩ hbare
        simp
    | cons first front =>
      obtain ⟨rfl, rfl⟩ := List.cons.inj hlexemes
      obtain ⟨before, gap, behind, rfl, hbefore, hgap, hbehind⟩ := ih hchain.of_cons
        (fun h ↦ hbare (h.trans (List.suffix_append word rest).isInfix)) front rfl
      refine ⟨word ++ before, gap, behind, by simp, fun other hother ↦ ?_, hgap, hbehind⟩
      cases before with
      | nil =>
        rw [List.append_nil] at hother
        have hletters := hrest.letters_of_name (List.mem_append_right _ List.mem_cons_self)
        exact hreads.isBreak_getLast? hrest hchain
          (any_isNameCharacter_append hletters.1 hletters.2 _) other hother
      | cons first before =>
        rw [List.getLast?_append_cons] at hother
        exact hbefore other hother

/-! ### Operands of texts in trees -/

/-- What starts a name does not follow a break. -/
def Follows (first second : Char) : Prop :=
  isBreak first = true → isPlainStart second = false

theorem isChain_of_no_break (hnone : ∀ character ∈ text, isBreak character = false) :
    text.IsChain Follows := by
  refine List.isChain_iff_getElem.mpr fun place hplace hbreak ↦ ?_
  rw [hnone _ (List.getElem_mem _)] at hbreak
  cases hbreak

theorem isChain_of_no_start (hnone : ∀ character ∈ text, isPlainStart character = false) :
    text.IsChain Follows :=
  List.isChain_iff_getElem.mpr fun _ _ _ ↦ hnone _ (List.getElem_mem _)

theorem classes_of_isAsciiDigit {character : Char} (hdigit : isAsciiDigit character = true) :
    isBreak character = false ∧ isPlainStart character = false := by
  refine ⟨Bool.eq_false_iff.mpr fun hbreak ↦ ?_, isPlainStart_of_isAsciiDigit hdigit⟩
  have hname := (classes_of_isBreak hbreak).1
  exact Bool.false_ne_true (hname.symm.trans (digit_in_name hdigit).2)

/-- In a numeral the breaks are the signs of exponents, and digits follow them. -/
theorem isChain_characters {numeral : Numeral} (hnumeral : numeral.WellFormed) :
    numeral.characters.IsChain Follows := by
  obtain ⟨whole, fraction, exponent⟩ := numeral
  obtain ⟨hwhole, hfraction, -, hexponent⟩ := hnumeral
  have hfigures : ∀ character ∈ whole ++ fractionCharacters fraction,
      isBreak character = false ∧ isPlainStart character = false := by
    intro character hmember
    rcases List.mem_append.mp hmember with hdigit | hbehind
    · exact classes_of_isAsciiDigit (List.all_eq_true.mp hwhole character hdigit)
    · cases fraction with
      | none => cases hbehind
      | some figures =>
        rcases List.mem_cons.mp hbehind with rfl | hdigit
        · decide
        · exact classes_of_isAsciiDigit (List.all_eq_true.mp hfraction character hdigit)
  rw [Numeral.characters]
  refine List.isChain_append.mpr
    ⟨isChain_of_no_break fun character hmember ↦ (hfigures character hmember).1, ?_, ?_⟩
  · cases exponent with
    | none => exact List.IsChain.nil
    | some exponent =>
      obtain ⟨-, hsign, hdigits, -⟩ := hexponent exponent rfl
      have htail : ∀ character ∈ exponent.sign.toList ++ exponent.figures,
          isPlainStart character = false := by
        intro character hmember
        rcases List.mem_append.mp hmember with hhere | hdigit
        · rcases hsign character (Option.mem_toList.mp hhere) with rfl | rfl <;> decide
        · exact isPlainStart_of_isAsciiDigit (List.all_eq_true.mp hdigits character hdigit)
      exact List.isChain_cons.mpr ⟨fun next hnext _ ↦ htail next (List.mem_of_mem_head? hnext),
        isChain_of_no_start htail⟩
  · intro last hlast _ _ hbreak
    rw [(hfigures last (List.mem_of_getLast? hlast)).1] at hbreak
    cases hbreak

/-- Within a word nothing that starts a name follows a break. -/
theorem Reads.isChain (hreads : Reads word lexeme rest) : word.IsChain Follows := by
  have hname {letters : List Char} (hletters : letters.all isNameCharacter = true) :
      ∀ character ∈ letters, isBreak character = false := by
    refine fun character hmember ↦ Bool.eq_false_iff.mpr fun hbreak ↦ ?_
    have hnone := (classes_of_isBreak hbreak).1
    exact Bool.false_ne_true (hnone.symm.trans (List.all_eq_true.mp hletters character hmember))
  cases hreads with
  | number hscan => exact isChain_characters (wellFormed_of_scan hscan)
  | name hstart hothers _ _ =>
    refine isChain_of_no_break (hname ?_)
    rw [List.all_cons, isNameCharacter_of_isNameStart hstart, hothers, Bool.and_self]
  | function _ hword _ =>
    refine isChain_of_no_break fun character hmember ↦ ?_
    rcases List.mem_append.mp hmember with hbegins | hbehind
    · exact hname (by decide) character hbegins
    · rcases List.mem_cons.mp hbehind with rfl | hletter
      · decide
      · exact hname hword character hletter
  | power =>
    refine isChain_of_no_start fun character hmember ↦ ?_
    rcases List.mem_pair.mp hmember with rfl | rfl <;> decide
  | mark _ _ => exact List.IsChain.singleton _

/-- A word is not read across a break in front of what starts a name. -/
theorem Reads.exists_of_append_eq (hreads : Reads word lexeme rest) {before behind : List Char}
    {first : Char} (hbefore : before ≠ [])
    (hbreak : ∀ character ∈ before.getLast?, isBreak character = true)
    (hstart : isPlainStart first = true) (hsplit : word ++ rest = before ++ first :: behind) :
    ∃ left, before = word ++ left ∧ rest = left ++ first :: behind := by
  rcases List.append_eq_append_iff.mp hsplit with ⟨left, hleft, hrest⟩ | ⟨left, hword, hbehind⟩
  · exact ⟨left, hleft, hrest⟩
  · cases left with
    | nil =>
      rw [List.append_nil] at hword
      rw [List.nil_append] at hbehind
      exact ⟨[], by rw [hword, List.append_nil], hbehind.symm⟩
    | cons other left =>
      obtain ⟨rfl, -⟩ := List.cons.inj hbehind
      have hchain := hreads.isChain
      rw [hword] at hchain
      have hlast := List.getLast?_eq_some_getLast hbefore
      have hnone := (List.isChain_append.mp hchain).2.2 _ hlast first rfl (hbreak _ hlast)
      exact absurd (hnone.symm.trans hstart) Bool.false_ne_true

/-- A word that starts a name behind a break and is not glued to what follows is read as a name,
whatever is in front of it. -/
theorem Spells.exists_of_break {before behind : List Char} (hspells : Spells text lexemes)
    (htext : text = before ++ (word ++ behind))
    (hbreak : ∀ character ∈ before.getLast?, isBreak character = true)
    (hword : isIdentifier word = true) (hmath : word ≠ functionPrefix)
    (hbehind : behind.head?.any isNameCharacter = false) :
    ∃ front back, lexemes = front ++ .name (String.ofList word) :: back ∧ Spells behind back := by
  obtain ⟨first, others, rfl⟩ : ∃ first others, word = first :: others := by
    cases word with
    | nil => cases hword
    | cons first others => exact ⟨first, others, rfl⟩
  rw [isIdentifier, Bool.and_eq_true, List.all_cons, Bool.and_eq_true] at hword
  have hstart : isPlainStart first = true := hword.1
  induction hspells generalizing before with
  | nil => cases before <;> cases htext
  | @space character rest lexemes hwhite _ ih =>
    cases before with
    | nil =>
      obtain ⟨rfl, -⟩ := List.cons.inj htext
      have hbreaks : isBreak character = true := by rw [isBreak, hwhite, Bool.true_or]
      have hnone := (classes_of_isBreak hbreaks).1
      have hname := (classes_of_isPlainCharacter hword.2.1).1
      exact absurd (hnone.symm.trans hname) Bool.false_ne_true
    | cons other before =>
      obtain ⟨rfl, hrest⟩ := List.cons.inj htext
      refine ih (fun last hlast ↦ hbreak last ?_) hrest
      cases before with
      | nil => cases hlast
      | cons second before => rwa [List.getLast?_cons_cons]
  | @word written rest lexeme lexemes hreads hrest ih =>
    cases before with
    | nil =>
      have hothers : others.all isNameCharacter = true := by
        refine List.all_eq_true.mpr fun character hmember ↦ ?_
        exact (classes_of_isPlainCharacter (List.all_eq_true.mp hword.2.2 character hmember)).1
      have hnameStart : isNameStart first = true := by
        rwa [isNameStart_of_ascii (isAscii_of_isPlainCharacter hword.2.1)]
      have hhere : Reads (first :: others) (.name (String.ofList (first :: others))) behind :=
        .name hnameStart hothers hbehind fun h ↦ hmath h.1
      rw [List.nil_append] at htext
      have hscan := scanLexeme_of_reads hreads
      rw [htext, scanLexeme_of_reads hhere] at hscan
      obtain ⟨rfl, hlength⟩ := Prod.mk.inj (Except.ok.inj hscan)
      obtain ⟨-, rfl⟩ := List.append_inj htext hlength.symm
      exact ⟨[], lexemes, rfl, hrest⟩
    | cons other before =>
      obtain ⟨left, hleft, hbeyond⟩ :=
        hreads.exists_of_append_eq (List.cons_ne_nil _ _) hbreak hstart htext
      have hlast : ∀ character ∈ left.getLast?, isBreak character = true := by
        intro last hlast
        refine hbreak last ?_
        rw [hleft]
        cases left with
        | nil => cases hlast
        | cons second left => rwa [List.getLast?_append_cons]
      obtain ⟨front, back, rfl, hback⟩ := ih hlast hbeyond
      exact ⟨lexeme :: front, back, rfl, hback⟩

/-- A text that starts, behind white space, with no opening parenthesis spells none first. -/
theorem Spells.head?_ne_openParenthesis {gap behind : List Char} (hspells : Spells text lexemes)
    (htext : text = gap ++ behind) (hgap : ∀ character ∈ gap, isWhiteSpace character = true)
    (hbehind : ∀ character ∈ behind.head?, (markOf? character).isSome = true ∧ character ≠ '(') :
    lexemes.head? ≠ some (.mark .openParenthesis) := by
  induction hspells generalizing gap with
  | nil => simp
  | @space character rest lexemes hwhite _ ih =>
    cases gap with
    | nil =>
      obtain ⟨hmark, -⟩ := hbehind character (by rw [← List.nil_append behind, ← htext]; rfl)
      obtain ⟨mark, hmark⟩ := Option.isSome_iff_exists.mp hmark
      rw [(classes_of_markOf? hmark).2.2.1] at hwhite
      cases hwhite
    | cons other gap =>
      obtain ⟨rfl, hrest⟩ := List.cons.inj htext
      exact ih hrest fun character hmember ↦ hgap character (List.mem_cons_of_mem _ hmember)
  | @word word rest lexeme lexemes hreads _ _ =>
    obtain ⟨first, others, hword, hwhite⟩ := hreads.exists_cons
    cases gap with
    | cons other gap =>
      rw [hword] at htext
      obtain ⟨rfl, -⟩ := List.cons.inj htext
      rw [hgap first List.mem_cons_self] at hwhite
      cases hwhite
    | nil =>
      obtain ⟨-, hopen⟩ := hbehind first (by rw [← List.nil_append behind, ← htext, hword]; rfl)
      rintro ⟨⟩
      cases hreads with
      | mark hmark _ =>
        obtain ⟨rfl, -⟩ := List.cons.inj hword
        unfold markOf? at hmark
        split at hmark <;> first | exact hopen rfl | cases hmark

/-- A word that stands in a text as an operand is among the names of its lexemes that no opening
parenthesis follows. -/
theorem Spells.mem_operandNames (hspells : Spells text lexemes) (hword : isIdentifier word = true)
    (hmath : word ≠ functionPrefix) (hstands : StandsAsOperand word text) :
    String.ofList word ∈ operandNames lexemes := by
  obtain ⟨before, gap, behind, htext, hbefore, hgap, hbehind⟩ := hstands
  have hnext : (gap ++ behind).head?.any isNameCharacter = false := by
    cases gap with
    | cons first gap => exact isNameCharacter_of_isWhiteSpace (hgap first List.mem_cons_self)
    | nil =>
      cases behind with
      | nil => rfl
      | cons first behind =>
        obtain ⟨mark, hmark⟩ := Option.isSome_iff_exists.mp (hbehind first rfl).1
        exact (classes_of_markOf? hmark).2.1
  obtain ⟨front, back, rfl, hback⟩ := hspells.exists_of_break htext hbefore hword hmath hnext
  exact mem_operandNames_iff.mpr
    ⟨front, back, rfl, hback.head?_ne_openParenthesis rfl hgap hbehind⟩

end Formulary.Formula

namespace Formulary.Name

open Formulary.Formula Formulary.Text

variable {rules : List Rule} {before : Option Char} {text result front back word : List Char}
  {character : Char}

/-! ### Operands that are not replaced -/

/-- Rules whose names are plain throughout. -/
def ArePlain (rules : List Rule) : Prop :=
  ∀ rule ∈ rules, rule.name ≠ [] ∧ rule.name.all isPlainCharacter = true

theorem not_plain_of_isBreak (hbreak : isBreak character = true) :
    isPlainCharacter character = false :=
  not_plain_of_not_name (show (some character).any isNameCharacter = false from
    (classes_of_isBreak hbreak).1)

theorem any_plain_of_isBreak {character? : Option Char}
    (hbreak : ∀ character ∈ character?, isBreak character = true) :
    character?.any isPlainCharacter = false := by
  cases character? with
  | none => rfl
  | some character => exact not_plain_of_isBreak (hbreak character rfl)

/-- Where a rule applies, nothing plain is next to its name. -/
theorem ArePlain.apart (hrules : ArePlain rules) {rule : Rule} (hrule : rule ∈ rules)
    {rest : List Char} (hoccurs : occursAt rule.name before (rule.name ++ rest) = true) :
    before.any isPlainCharacter = false ∧ rest.head?.any isPlainCharacter = false := by
  obtain ⟨hnonempty, hplain⟩ := hrules rule hrule
  obtain ⟨behind, hsplit, hbefore, hbehind⟩ :=
    (occursAt_iff (hasPlainEdges_of_plain hnonempty hplain) _).mp hoccurs
  obtain rfl := List.append_cancel_left hsplit
  exact ⟨not_plain_of_not_word hbefore, not_plain_of_not_word hbehind⟩

theorem Replaces.eq_nil (hreplaces : Replaces rules before [] result) (hrules : ArePlain rules) :
    result = [] := by
  generalize htext : [] = text at hreplaces
  cases hreplaces with
  | nil => rfl
  | keep _ _ => cases htext
  | replace hrule _ _ => exact absurd (List.append_eq_nil_iff.mp htext.symm).1 (hrules _ hrule).1

/-- What ends with no plain character is made into something with the same end, whatever follows
it. -/
theorem Replaces.exists_split (hreplaces : Replaces rules before text result)
    (hrules : ArePlain rules) (htext : text = front ++ back)
    (hfront : front.getLast?.any isPlainCharacter = false) :
    ∃ done rest, result = done ++ rest ∧ Replaces rules (lastOr before front) back rest ∧
      done.getLast? = front.getLast? := by
  induction hreplaces generalizing front with
  | nil =>
    obtain ⟨rfl, rfl⟩ := List.append_eq_nil_iff.mp htext.symm
    exact ⟨[], [], rfl, .nil, rfl⟩
  | @keep before first rest result hnone hrest ih =>
    cases front with
    | nil =>
      obtain rfl : first :: rest = back := htext
      exact ⟨[], first :: result, rfl, .keep hnone hrest, rfl⟩
    | cons other front =>
      obtain ⟨rfl, hbehind⟩ := List.cons.inj htext
      have hlast : front.getLast?.any isPlainCharacter = false := by
        cases front with
        | nil => rfl
        | cons second front => rwa [List.getLast?_cons_cons] at hfront
      obtain ⟨done, later, rfl, hlater, hend⟩ := ih hbehind hlast
      exact ⟨first :: done, later, rfl, by rwa [lastOr_cons], by
        rw [List.getLast?_cons, List.getLast?_cons, hend]⟩
  | @replace before rule rest result hrule hoccurs hrest ih =>
    obtain ⟨hnonempty, hplain⟩ := hrules rule hrule
    rcases List.append_eq_append_iff.mp htext with ⟨left, rfl, hleft⟩ | ⟨left, hname, rfl⟩
    · cases left with
      | nil =>
        rw [List.append_nil, List.getLast?_eq_some_getLast hnonempty] at hfront
        have hlast := List.all_eq_true.mp hplain _ (List.getLast_mem hnonempty)
        exact absurd (hfront.symm.trans hlast) Bool.false_ne_true
      | cons second left =>
        rw [List.getLast?_append_cons] at hfront
        obtain ⟨done, later, rfl, hlater, hend⟩ := ih hleft hfront
        refine ⟨rule.replacement ++ done, later, (List.append_assoc _ _ _).symm, ?_, ?_⟩
        · rwa [lastOr_append]
        · have hdone : done ≠ [] := by
            rintro rfl
            rw [List.getLast?_nil, List.getLast?_cons] at hend
            cases hend
          rw [List.getLast?_append_of_ne_nil _ hdone, List.getLast?_append_cons, hend]
    · cases front with
      | nil =>
        rw [List.nil_append] at hname
        rw [← hname]
        exact ⟨[], _, rfl, .replace hrule hoccurs hrest, rfl⟩
      | cons first front =>
        rw [hname, List.all_append, Bool.and_eq_true] at hplain
        have hnonempty := List.cons_ne_nil first front
        have hlast := List.all_eq_true.mp hplain.1 _ (List.getLast_mem hnonempty)
        rw [List.getLast?_eq_some_getLast hnonempty] at hfront
        exact absurd (hfront.symm.trans hlast) Bool.false_ne_true

/-- A character that is not plain is kept. -/
theorem Replaces.exists_of_other {rest : List Char}
    (hreplaces : Replaces rules before (character :: rest) result) (hrules : ArePlain rules)
    (hother : isPlainCharacter character = false) :
    ∃ later, result = character :: later ∧ Replaces rules (some character) rest later := by
  generalize htext : character :: rest = text at hreplaces
  cases hreplaces with
  | nil => cases htext
  | keep _ hrest =>
    obtain ⟨rfl, rfl⟩ := List.cons.inj htext
    exact ⟨_, rfl, hrest⟩
  | @replace _ rule _ _ hrule _ _ =>
    obtain ⟨hnonempty, hplain⟩ := hrules rule hrule
    obtain ⟨first, others, hname⟩ := List.exists_cons_of_ne_nil hnonempty
    rw [hname] at htext hplain
    obtain ⟨rfl, -⟩ := List.cons.inj htext
    exact absurd (hother.symm.trans (List.all_eq_true.mp hplain _ List.mem_cons_self))
      Bool.false_ne_true

/-- What is plain behind a plain character is kept. -/
theorem Replaces.exists_of_run (hreplaces : Replaces rules before (word ++ back) result)
    (hrules : ArePlain rules) (hword : word.all isPlainCharacter = true)
    (hbefore : before.any isPlainCharacter = true) :
    ∃ later, result = word ++ later ∧ Replaces rules (lastOr before word) back later := by
  induction word generalizing before result with
  | nil => exact ⟨result, rfl, hreplaces⟩
  | cons first word ih =>
    rw [List.all_cons, Bool.and_eq_true] at hword
    generalize htext : first :: word ++ back = text at hreplaces
    cases hreplaces with
    | nil => cases htext
    | keep _ hrest =>
      obtain ⟨rfl, rfl⟩ := List.cons.inj htext
      obtain ⟨later, rfl, hlater⟩ := ih hrest hword.2 hword.1
      exact ⟨later, rfl, by rwa [lastOr_cons]⟩
    | replace hrule hoccurs _ =>
      obtain ⟨hnone, -⟩ := hrules.apart hrule hoccurs
      exact absurd (hnone.symm.trans hbefore) Bool.false_ne_true

/-- A plain word with nothing plain behind it that is no name of a rule is kept. -/
theorem Replaces.exists_of_word (hreplaces : Replaces rules before (word ++ back) result)
    (hrules : ArePlain rules) (hnonempty : word ≠ []) (hword : word.all isPlainCharacter = true)
    (hnone : ∀ rule ∈ rules, rule.name ≠ word)
    (hback : back.head?.any isPlainCharacter = false) :
    ∃ later, result = word ++ later ∧ Replaces rules (lastOr before word) back later := by
  obtain ⟨first, others, rfl⟩ := List.exists_cons_of_ne_nil hnonempty
  generalize htext : first :: others ++ back = text at hreplaces
  cases hreplaces with
  | nil => cases htext
  | keep _ hrest =>
    obtain ⟨rfl, rfl⟩ := List.cons.inj htext
    rw [List.all_cons, Bool.and_eq_true] at hword
    obtain ⟨later, rfl, hlater⟩ := hrest.exists_of_run hrules hword.2 hword.1
    exact ⟨later, rfl, by rwa [lastOr_cons]⟩
  | @replace _ rule rest _ hrule hoccurs _ =>
    obtain ⟨-, hapart⟩ := hrules.apart hrule hoccurs
    obtain ⟨-, hplain⟩ := hrules rule hrule
    -- the name would have to end where the word does
    rcases List.append_eq_append_iff.mp htext with ⟨left, hname, rfl⟩ | ⟨left, hsplit, rfl⟩
    · cases left with
      | nil => exact absurd (by rw [hname, List.append_nil]) (hnone rule hrule)
      | cons second left =>
        simp only [hname, List.all_append, List.all_cons, Bool.and_eq_true] at hplain
        exact absurd (hback.symm.trans hplain.2.1) Bool.false_ne_true
    · cases left with
      | nil => exact absurd (by rw [hsplit, List.append_nil]) (hnone rule hrule)
      | cons second left =>
        simp only [hsplit, List.all_append, List.all_cons, Bool.and_eq_true] at hword
        exact absurd (hapart.symm.trans hword.2.1) Bool.false_ne_true

/-- White space is kept, and a break behind it. -/
theorem Replaces.exists_of_gap {gap : List Char}
    (hreplaces : Replaces rules before (gap ++ back) result) (hrules : ArePlain rules)
    (hgap : ∀ character ∈ gap, isWhiteSpace character = true)
    (hback : ∀ character ∈ back.head?, isBreak character = true) :
    ∃ later, result = gap ++ later ∧ later.head? = back.head? := by
  induction gap generalizing before result with
  | nil =>
    refine ⟨result, rfl, ?_⟩
    cases back with
    | nil => rw [hreplaces.eq_nil hrules]
    | cons first back =>
      obtain ⟨later, rfl, -⟩ :=
        hreplaces.exists_of_other hrules (not_plain_of_isBreak (hback first rfl))
      rfl
  | cons first gap ih =>
    have hbreak : isBreak first = true := by
      rw [isBreak, hgap first List.mem_cons_self, Bool.true_or]
    obtain ⟨later, rfl, hlater⟩ := hreplaces.exists_of_other hrules (not_plain_of_isBreak hbreak)
    obtain ⟨rest, rfl, hrest⟩ :=
      ih hlater fun character hmember ↦ hgap character (List.mem_cons_of_mem first hmember)
    exact ⟨rest, rfl, hrest⟩

/-- A plain word that stands as an operand and is no name of a rule is left where it is. -/
theorem Replaces.standsAsOperand (hreplaces : Replaces rules none text result)
    (hrules : ArePlain rules) (hnonempty : word ≠ []) (hword : word.all isPlainCharacter = true)
    (hnone : ∀ rule ∈ rules, rule.name ≠ word) (hstands : StandsAsOperand word text) :
    StandsAsOperand word result := by
  obtain ⟨front, gap, back, htext, hfront, hgap, hback⟩ := hstands
  have hbreak : ∀ character ∈ back.head?, isBreak character = true := fun character hcharacter ↦ by
    rw [isBreak, (hback character hcharacter).1, Bool.or_true]
  have hbehind : (gap ++ back).head?.any isPlainCharacter = false := by
    refine any_plain_of_isBreak fun character hcharacter ↦ ?_
    cases gap with
    | nil => exact hbreak character hcharacter
    | cons first gap =>
      obtain rfl := Option.some.inj hcharacter
      rw [isBreak, hgap first List.mem_cons_self, Bool.true_or]
  obtain ⟨done, rest, rfl, hrest, hend⟩ :=
    hreplaces.exists_split hrules htext (any_plain_of_isBreak hfront)
  obtain ⟨later, rfl, hlater⟩ := hrest.exists_of_word hrules hnonempty hword hnone hbehind
  obtain ⟨others, rfl, hhead⟩ := hlater.exists_of_gap hrules hgap hbreak
  exact ⟨done, gap, others, rfl, by rwa [hend], hgap, by rwa [hhead]⟩

end Formulary.Name
