import Formulary.Proofs.Formula.Gaps
import Formulary.Proofs.Name.CandidateRuns
import Formulary.Proofs.Text.Passages

/-!
# Candidates and the names of a tree

The search for candidates and the lexer each read a formula on their own, the one for words with
white space between them and the other for tokens. In a formula that is parsed they find the same
names from left to right, `candidates_eq_words`. This rests on `Reads.pieces_append`: where a token
ends, a run does, as no two numbers or names stand side by side. A run that is no name of the tree
is part of a number literal, such as the `e5` of `2e5`, or the prefix of a function, which is
reserved.
-/

set_option autoImplicit false
set_option relaxedAutoImplicit false

namespace Formulary.Name

open Formulary.Text

variable {cut : List Piece} {text : List Char} {position : Nat} {passage : Passage}

/-! ### Candidates and where they stand -/

/-- The runs among some pieces, of which the first has a position. -/
def runsAt : Nat → List Piece → List Passage
  | _, [] => []
  | position, .other _ :: rest => runsAt (position + 1) rest
  | position, .run word :: rest => ⟨position, word⟩ :: runsAt (position + word.length) rest

/-- The candidates of a formula and where they stand. -/
def candidatePassages (formula : String) : List Passage :=
  (runsAt 0 (pieces formula.toList)).filter (·.text ∉ reservedWords)

theorem runsAt_append (position : Nat) (front back : List Piece) :
    runsAt position (front ++ back) = runsAt position front ++
      runsAt (position + (front.flatMap Piece.characters).length) back := by
  induction front generalizing position with
  | nil => rfl
  | cons piece front ih =>
    cases piece with
    | other character =>
      rw [List.cons_append, runsAt, runsAt, ih, List.flatMap_cons, Piece.characters,
        List.length_append, List.length_singleton, Nat.add_assoc]
    | run word =>
      rw [List.cons_append, runsAt, runsAt, ih, List.flatMap_cons, Piece.characters,
        List.length_append, Nat.add_assoc, List.cons_append]

theorem map_characters_runsAt (position : Nat) (cut : List Piece) :
    (runsAt position cut).map Passage.characters = cut.filterMap Piece.run? := by
  induction cut generalizing position with
  | nil => rfl
  | cons piece cut ih =>
    cases piece with
    | other character => exact ih (position + 1)
    | run word => rw [runsAt, List.map_cons, ih, List.filterMap_cons, Piece.run?]

/-- The candidates of a formula are those that the search finds. -/
theorem map_text_candidatePassages (formula : String) :
    (candidatePassages formula).map Passage.text = candidates formula [] := by
  have htexts : (runsAt 0 (pieces formula.toList)).map Passage.text =
      (runs formula.toList).map String.ofList := by
    rw [runs_eq_of_dissects (dissects_pieces formula.toList), ← map_characters_runsAt 0,
      List.map_map]
    rfl
  rw [candidates, ← htexts, candidatePassages, List.filter_map]
  congr 1
  exact List.filter_congr fun passage _ ↦ by simp

/-- A run stands where its position says. -/
theorem Dissects.exists_of_mem_runsAt (hcut : Dissects cut text)
    (hpassage : passage ∈ runsAt position cut) :
    Name.isRun passage.characters = true ∧ ∃ front back,
      text = front ++ (passage.characters ++ back) ∧
        passage.position = position + front.length := by
  induction hcut generalizing position with
  | nil => cases hpassage
  | @other character others rest _ _ ih =>
    obtain ⟨hrun, front, back, rfl, hposition⟩ := ih hpassage
    exact ⟨hrun, character :: front, back, rfl, by rw [hposition, List.length_cons]; omega⟩
  | @run word others rest hrun _ _ ih =>
    rcases List.mem_cons.mp hpassage with rfl | hlater
    · exact ⟨hrun, [], rest, rfl, rfl⟩
    · obtain ⟨hinside, front, back, rfl, hposition⟩ := ih hlater
      refine ⟨hinside, word ++ front, back, (List.append_assoc _ _ _).symm, ?_⟩
      rw [hposition, List.length_append, Nat.add_assoc]

theorem between_of_mem_runsAt (hpassage : passage ∈ runsAt position (pieces text)) :
    passage.Between position (position + text.length) := by
  obtain ⟨hrun, front, back, hsplit, hposition⟩ :=
    (dissects_pieces text).exists_of_mem_runsAt hpassage
  have hsome : 0 < passage.characters.length :=
    List.length_pos_of_ne_nil (ne_nil_of_hasPlainEdges (hasPlainEdges_of_isRun hrun))
  have hlength := congrArg List.length hsplit
  rw [List.length_append, List.length_append] at hlength
  refine ⟨?_, ?_, ?_⟩
  · omega
  · exact Nat.lt_add_of_pos_right hsome
  · rw [Passage.finish]
    omega

end Formulary.Name

namespace Formulary.Formula

open Formulary.Name Formulary.Number Formulary.Text

variable {text word rest whole : List Char} {lexeme : Lexeme} {lexemes : List Lexeme}
  {position : Nat} {tokens : List Token} {tree : Expression}

/-! ### Names of trees in order -/

mutual

/-- The names in a tree and those of the functions that it calls, from left to right. -/
def Expression.words : Expression → List String
  | .number _ => []
  | .name text => [text]
  | .signed _ operand => operand.words
  | .binary _ left right => left.words ++ right.words
  | .call function arguments => function :: wordsAll arguments

/-- The names in several trees and those of the functions that they call, from left to right. -/
def wordsAll : List Expression → List String
  | [] => []
  | first :: rest => first.words ++ wordsAll rest

end

theorem wordsAll_eq_flatMap (trees : List Expression) :
    wordsAll trees = trees.flatMap Expression.words := by
  induction trees with
  | nil => rfl
  | cons first rest ih => rw [wordsAll, ih, List.flatMap_cons]

/-- The name that a lexeme is. -/
def Lexeme.name? : Lexeme → Option String
  | .name text => some text
  | _ => none

theorem filterMap_name?_joined (front back : List Lexeme) (mark : Mark) :
    (front ++ .mark mark :: back).filterMap Lexeme.name? =
      front.filterMap Lexeme.name? ++ back.filterMap Lexeme.name? := by
  rw [List.filterMap_append, List.filterMap_cons_none rfl]

theorem filterMap_name?_separated {arguments : List (List Lexeme × Expression)}
    (harguments : ∀ argument ∈ arguments,
      argument.1.filterMap Lexeme.name? = argument.2.words) :
    (separated arguments).filterMap Lexeme.name? = wordsAll (arguments.map Prod.snd) := by
  rw [read_separated rfl (fun front back ↦ filterMap_name?_joined front back .comma),
    wordsAll_eq_flatMap, List.flatMap_map]
  exact List.flatMap_congr harguments

/-- The names among the lexemes of a tree are those of the tree, in the same order. -/
theorem Derives.filterMap_name? {category : Category} {nesting : Nat}
    (hderives : Derives category nesting lexemes tree) :
    lexemes.filterMap Lexeme.name? = tree.words := by
  induction hderives with
  | product _ ih | unary _ ih | power _ ih | primary _ ih => exact ih
  | add _ _ _ hfront hback | multiply _ _ _ hfront hback | raise _ _ hfront hback =>
    rw [filterMap_name?_joined, hfront, hback, Expression.words]
  | sign _ _ ih => exact ih
  | number value => rfl
  | name text => rfl
  | call function arguments _ ih =>
    have hfunction : Lexeme.name? (.name function) = some function := rfl
    rw [List.filterMap_cons_some hfunction, List.filterMap_cons_none rfl, filterMap_name?_joined,
      filterMap_name?_separated ih, Expression.words, List.filterMap_nil, List.append_nil]
  | group _ ih =>
    rw [List.filterMap_cons_none rfl, filterMap_name?_joined, ih, List.filterMap_nil,
      List.append_nil]

/-! ### Number literals -/

/-- The number literal that a token of a text was read from. -/
def Token.literal? (text : List Char) (token : Token) : Option Passage :=
  match token.lexeme with
  | .number _ => (Numeral.scan (text.drop token.position)).map fun scanned ↦
    ⟨token.position, scanned.1.characters⟩
  | _ => none

/-- The number literals of a text, from left to right. -/
def literals (text : List Char) : List Passage :=
  match Token.ofText text with
  | .error _ => []
  | .ok tokens => tokens.filterMap (Token.literal? text)

/-- A number is read from all of its word. -/
theorem literal?_of_number {numeral : Numeral}
    (hscan : Numeral.scan (numeral.characters ++ rest) = some (numeral, rest))
    (hwhole : whole.drop position = numeral.characters ++ rest) :
    Token.literal? whole ⟨.number numeral.value, position⟩ =
      some ⟨position, numeral.characters⟩ := by
  rw [Token.literal?, hwhole, hscan]
  rfl

theorem Reads.eq_of_literal? {passage : Passage} (hreads : Reads word lexeme rest)
    (hwhole : whole.drop position = word ++ rest)
    (hliteral : Token.literal? whole ⟨lexeme, position⟩ = some passage) :
    passage = ⟨position, word⟩ := by
  cases hreads with
  | number hscan =>
    rw [literal?_of_number hscan hwhole] at hliteral
    exact (Option.some.inj hliteral).symm
  | name _ _ _ _ | function _ _ _ | power | mark _ _ => cases hliteral

theorem position_of_literal? {token : Token} {passage : Passage}
    (hliteral : token.literal? whole = some passage) : passage.position = token.position := by
  rw [Token.literal?] at hliteral
  split at hliteral
  · obtain ⟨scanned, -, rfl⟩ := Option.map_eq_some_iff.mp hliteral
    rfl
  · cases hliteral

/-- No number literal of a text stands in front of it. -/
theorem SpellsAt.le_position {passage : Passage} (hspells : SpellsAt position text tokens)
    (hpassage : passage ∈ tokens.filterMap (Token.literal? whole)) :
    position ≤ passage.position := by
  induction hspells with
  | nil => cases hpassage
  | space _ _ ih => exact (Nat.le_add_right _ _).trans (ih hpassage)
  | @word position word rest lexeme tokens _ _ ih =>
    obtain ⟨token, htoken, hliteral⟩ := List.mem_filterMap.mp hpassage
    rcases List.mem_cons.mp htoken with rfl | hlater
    · exact (position_of_literal? hliteral).ge
    · exact (Nat.le_add_right _ _).trans (ih (List.mem_filterMap.mpr ⟨token, hlater, hliteral⟩))

/-! ### Runs in words -/

/-- ASCII characters of names are a run if a digit does not come first. -/
theorem isRun_of_all_name {first : Char} {others : List Char}
    (hascii : ∀ character ∈ first :: others, character.toNat < 128)
    (hletters : (first :: others).all isNameCharacter = true)
    (hdigit : isAsciiDigit first = false) : isRun (first :: others) = true := by
  have hplain := all_isPlainCharacter hascii hletters
  have hfirst := List.all_eq_true.mp hplain first List.mem_cons_self
  rw [isPlainCharacter, hdigit, Bool.or_false] at hfirst
  refine isRun_of_isIdentifier ?_
  rw [isIdentifier, hplain, Bool.and_true]
  exact hfirst

/-- The prefix of a function is a run of its own. -/
theorem pieces_of_function (hrun : isRun word = true) :
    pieces (functionPrefix ++ '.' :: word) = [.run functionPrefix, .other '.', .run word] := by
  have hends : EndsRun ('.' :: word) := (endsRun_cons_of_not_white (by decide)).mpr (by decide)
  have hpoint : isPlainStart '.' = false := by decide
  rw [Name.pieces_append hends, pieces_of_isRun (by decide), pieces_cons_of_not_start hpoint,
    pieces_of_isRun hrun]
  rfl

theorem isPlainStart_of_markOf? {character : Char} {mark : Mark}
    (hmark : markOf? character = some mark) : isPlainStart character = false := by
  have hname : (some character).any isNameCharacter = false := (classes_of_markOf? hmark).2.1
  exact isPlainStart_of_not_plain (not_plain_of_not_name hname)

/-- Where a word ends that is read, a run does. -/
theorem Reads.pieces_append (hreads : Reads word lexeme rest) (hspells : Spells rest lexemes)
    (hchain : (lexeme :: lexemes).IsChain Adjoins) :
    pieces (word ++ rest) = pieces word ++ pieces rest := by
  have hends (hoperand : lexeme.isOperand = true) : EndsRun rest := by
    have hbehind := hspells.trimStart_of_no_operand (no_operand_of_isChain hchain hoperand)
    exact not_plain_of_not_name hbehind
  cases hreads with
  | number _ | name _ _ _ _ | function _ _ _ => exact Name.pieces_append (hends rfl)
  | power =>
    have hstar : isPlainStart '*' = false := by decide
    rw [List.cons_append, pieces_cons_of_not_start hstar, List.cons_append,
      pieces_cons_of_not_start hstar]
    rfl
  | mark hmark _ =>
    have hstart := isPlainStart_of_markOf? hmark
    rw [List.cons_append, pieces_cons_of_not_start hstart, pieces_cons_of_not_start hstart]
    rfl

/-! ### Both searches -/

/-- The prefix of functions stands in front of no digit. -/
def PrefixesNoDigit (text : List Char) : Prop :=
  ∀ digit, isAsciiDigit digit = true → ¬functionPrefix ++ ['.', digit] <:+: text

theorem PrefixesNoDigit.of_append (hprefixes : PrefixesNoDigit (word ++ rest)) :
    PrefixesNoDigit word ∧ PrefixesNoDigit rest := by
  constructor
  · intro digit hdigit hinside
    exact hprefixes digit hdigit (hinside.trans (List.prefix_append word rest).isInfix)
  · intro digit hdigit hinside
    exact hprefixes digit hdigit (hinside.trans (List.suffix_append word rest).isInfix)

/-- Of the runs in a word, those outside of its number literal are the name that it is read as, but
for the prefix of functions. -/
theorem Reads.outside_runsAt (hreads : Reads word lexeme rest)
    (hwhole : whole.drop position = word ++ rest)
    (hascii : ∀ character ∈ word, character.toNat < 128) (hprefixes : PrefixesNoDigit word) :
    ((outside ([⟨lexeme, position⟩].filterMap (Token.literal? whole))
        (runsAt position (pieces word))).map Passage.text).filter (· ∉ reservedWords) =
      ([lexeme].filterMap Lexeme.name?).filter (· ∉ reservedWords) := by
  cases hreads with
  | @number numeral rest hscan =>
    have hnone : outside [⟨position, numeral.characters⟩]
        (runsAt position (pieces numeral.characters)) = [] := by
      refine List.filter_eq_nil_iff.mpr fun passage hpassage ↦ ?_
      have hbetween := between_of_mem_runsAt hpassage
      have hwithin : passage.isWithin ⟨position, numeral.characters⟩ = true :=
        Passage.isWithin_iff.mpr ⟨hbetween.start_le, hbetween.finish_le⟩
      rw [List.any_cons, hwithin]
      exact Bool.false_ne_true
    rw [List.filterMap_cons_some (literal?_of_number hscan hwhole), List.filterMap_nil, hnone]
    rfl
  | @name first others rest hstart hothers hrest hplain =>
    have hletters : (first :: others).all isNameCharacter = true := by
      rw [List.all_cons, isNameCharacter_of_isNameStart hstart, hothers, Bool.and_self]
    rw [pieces_of_isRun (isRun_of_all_name hascii hletters (isAsciiDigit_of_isNameStart hstart))]
    rfl
  | @function word rest hsome hletters hrest =>
    obtain ⟨first, others, rfl⟩ := List.exists_cons_of_ne_nil hsome
    have hdigit : isAsciiDigit first = false :=
      Bool.eq_false_iff.mpr fun hdigit ↦ hprefixes first hdigit ⟨[], others, rfl⟩
    have hinside : ∀ character ∈ first :: others, character.toNat < 128 := fun character hmember ↦
      hascii character (List.mem_append_right _ (List.mem_cons_of_mem _ hmember))
    have hreserved : String.ofList functionPrefix ∈ reservedWords := by decide
    rw [pieces_of_function (isRun_of_all_name hinside hletters hdigit)]
    show (String.ofList functionPrefix :: [String.ofList (first :: others)]).filter
      (· ∉ reservedWords) = _
    rw [List.filter_cons_of_neg (by simpa using hreserved)]
    rfl
  | power => rfl
  | mark hmark _ =>
    rw [pieces_cons_of_not_start (isPlainStart_of_markOf? hmark)]
    rfl

/-- Of the runs in a text, those outside of its number literals are the names that it is read as,
but for those that are reserved. -/
theorem SpellsAt.outside_runsAt (hspells : SpellsAt position text tokens)
    (hchain : (tokens.map Token.lexeme).IsChain Adjoins) (hwhole : whole.drop position = text)
    (hascii : ∀ character ∈ text, character.toNat < 128) (hprefixes : PrefixesNoDigit text) :
    ((outside (tokens.filterMap (Token.literal? whole))
        (runsAt position (pieces text))).map Passage.text).filter (· ∉ reservedWords) =
      ((tokens.map Token.lexeme).filterMap Lexeme.name?).filter (· ∉ reservedWords) := by
  induction hspells with
  | nil => rfl
  | @space position character rest tokens hwhite _ ih =>
    have hstart := isPlainStart_of_not_plain (isPlainCharacter_of_isWhiteSpace hwhite)
    rw [← List.singleton_append] at hprefixes
    rw [pieces_cons_of_not_start hstart, runsAt]
    refine ih hchain ?_ (fun other hother ↦ hascii other (List.mem_cons_of_mem _ hother))
      hprefixes.of_append.2
    rw [← List.drop_drop, hwhole, List.drop_one, List.tail_cons]
  | @word position word rest lexeme tokens hreads hrest ih =>
    obtain ⟨hhere, hlater⟩ := hprefixes.of_append
    have hdrop : whole.drop (position + word.length) = rest := by
      rw [← List.drop_drop, hwhole, List.drop_left]
    have hword := hreads.outside_runsAt hwhole
      (fun character hcharacter ↦ hascii character (List.mem_append_left _ hcharacter)) hhere
    have hothers := ih hchain.of_cons hdrop
      (fun character hcharacter ↦ hascii character (List.mem_append_right _ hcharacter)) hlater
    have hends : ∀ literal ∈ [⟨lexeme, position⟩].filterMap (Token.literal? whole),
        literal.finish ≤ position + word.length := by
      intro literal hliteral
      obtain ⟨token, htoken, hliteral⟩ := List.mem_filterMap.mp hliteral
      obtain rfl := List.mem_singleton.mp htoken
      rw [hreads.eq_of_literal? hwhole hliteral, Passage.finish]
    -- the runs in the word lie in no later literal, and those behind it not in its own
    rw [hreads.pieces_append hrest.spells hchain, runsAt_append,
      characters_of_dissects (dissects_pieces word), ← List.singleton_append, List.filterMap_append,
      outside_append,
      outside_append_of_before (fun _ ↦ between_of_mem_runsAt) fun _ ↦ hrest.le_position,
      outside_append_of_behind (fun _ ↦ between_of_mem_runsAt) hends, List.map_append,
      List.filter_append, hword, hothers, List.map_append, List.filterMap_append,
      List.filter_append]
    rfl

/-- In an ASCII formula that is parsed and in which the prefix of functions stands in front of no
digit, the candidates outside of its number literals are the names in the tree and those of the
functions that it calls, from left to right, but for those that are reserved. Every candidate
stands in the formula where its position says. -/
theorem candidates_eq_words {formula : String}
    (hascii : ∀ character ∈ formula.toList, character.toNat < 128)
    (hparse : parse formula.toList = .ok tree) (hprefixes : PrefixesNoDigit formula.toList) :
    (candidatePassages formula).map Passage.text = candidates formula [] ∧
      (∀ candidate ∈ candidatePassages formula,
        candidate.characters <+: formula.toList.drop candidate.position) ∧
      (outside (literals formula.toList) (candidatePassages formula)).map Passage.text =
        tree.words.filter (· ∉ reservedWords) := by
  refine ⟨map_text_candidatePassages formula, fun candidate hcandidate ↦ ?_, ?_⟩
  · obtain ⟨-, front, back, hsplit, hposition⟩ :=
      (dissects_pieces _).exists_of_mem_runsAt (List.mem_filter.mp hcandidate).1
    rw [hposition, Nat.zero_add, hsplit, List.drop_left]
    exact List.prefix_append _ _
  · obtain ⟨tokens, htokens, -, hderives⟩ := (denotes_iff_parse_eq_ok _ tree).mpr hparse
    have hspells := spellsAt_of_tokensFrom (Nat.le_refl _) htokens
    have hall := hspells.outside_runsAt hderives.isChain rfl hascii hprefixes
    rw [hderives.filterMap_name?, List.filter_map] at hall
    rw [← hall, literals, htokens, candidatePassages, outside, outside, List.filter_filter,
      List.filter_filter]
    congr 1
    exact List.filter_congr fun passage _ ↦ Bool.and_comm _ _

/-- The exponent of a number is a candidate, and a name may stand behind the prefix of functions. -/
theorem candidates_eq_words_larger :
    let formula := "Math.max(Rate, 2E5) * Math.Cost"
    parse formula.toList = .ok
        (.binary .multiply (.call "max" [.name "Rate", .number 200000.0]) (.name "Cost")) ∧
      candidates formula [] = ["Rate", "E5", "Cost"] ∧
      (outside (literals formula.toList) (candidatePassages formula)).map Passage.text =
        ["Rate", "Cost"] := by
  intro formula
  have htokens : Token.ofText formula.toList =
      .ok [⟨.name "max", 0⟩, ⟨.mark .openParenthesis, 8⟩, ⟨.name "Rate", 9⟩, ⟨.mark .comma, 13⟩,
        ⟨.number 200000.0, 15⟩, ⟨.mark .closeParenthesis, 18⟩, ⟨.mark .star, 20⟩,
        ⟨.name "Cost", 22⟩] := by decide +kernel
  have hcall : Derives .primary 1
      [.name "max", .mark .openParenthesis, .name "Rate", .mark .comma, .number 200000.0,
        .mark .closeParenthesis]
      (.call "max" [.name "Rate", .number 200000.0]) := by
    refine .call "max"
      [([.name "Rate"], .name "Rate"), ([.number 200000.0], .number 200000.0)] ?_
    rw [List.forall_mem_cons, List.forall_mem_singleton]
    exact ⟨.product (.unary (.power (.primary (.name "Rate")))),
      .product (.unary (.power (.primary (.number 200000.0))))⟩
  have hderives : Derives .sum 2
      [.name "max", .mark .openParenthesis, .name "Rate", .mark .comma, .number 200000.0,
        .mark .closeParenthesis, .mark .star, .name "Cost"]
      (.binary .multiply (.call "max" [.name "Rate", .number 200000.0]) (.name "Cost")) :=
    .product (.multiply .star (.unary (.power (.primary hcall))) (.power (.primary (.name "Cost"))))
  have hparse := (denotes_iff_parse_eq_ok formula.toList _).mp
    ⟨_, htokens, List.cons_ne_nil _ _, hderives.of_le (by decide)⟩
  have hprefixes : PrefixesNoDigit formula.toList := fun digit hdigit ↦
    of_ascii
      (fun digit ↦ isAsciiDigit digit = true → ¬functionPrefix ++ ['.', digit] <:+: formula.toList)
      (by decide +kernel) (isAscii_of_isAsciiDigit hdigit) hdigit
  have hwords := candidates_eq_words (isAscii_of_all (by decide +kernel)) hparse hprefixes
  exact ⟨hparse, by decide +kernel, hwords.2.2.trans (by decide +kernel)⟩

end Formulary.Formula
