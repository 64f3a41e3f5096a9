import Formulary.Proofs.Formula.Gaps
import Formulary.Proofs.Formula.LexingErrors
import Formulary.Proofs.Formula.LongestNumeral
import Formulary.Proofs.Text.Passages
import Mathlib.Data.List.Forall2

/-!
# Tokens cover a text

The lexer cuts a text into white space and the passages that its tokens are read from, `Tiles`. It
does so from where it is to the end of the text, or to the place where it fails, `FailsAt`: each of
its rounds puts one white character or one passage in front of what the later rounds cut,
`Cut.space` and `Cut.passage`. The main statement, `tokens_tile_text`, says this of whole texts. It
also says that the lexer never fails at a number, because whatever starts one is the text of a
numeral.
-/

set_option autoImplicit false
set_option relaxedAutoImplicit false

namespace Formulary.Formula

open Formulary.Number Formulary.Text

variable {text word rest : List Char} {start stop : Nat} {tokens : List Token}
  {passages : List Passage} {lexeme : Lexeme} {first character : Char}

/-! ### Tilings -/

/-- Tokens tile a part of a text if each is read off a passage that starts at its position, the
passages stand in this part from left to right, and all else in it is white space. -/
structure Tiles (text : List Char) (start stop : Nat) (tokens : List Token)
    (passages : List Passage) : Prop where
  start_le : start ≤ stop
  inOrder : InOrder text passages
  reads : List.Forall₂ (fun token passage ↦ token.position = passage.position ∧
    Reads passage.characters token.lexeme (text.drop passage.finish)) tokens passages
  between : ∀ passage ∈ passages, passage.Between start stop
  covered_iff : ∀ index character, start ≤ index → index < stop →
    text[index]? = some character →
      ((∃ passage ∈ passages, passage.Covers index) ↔ isWhiteSpace character = false)

theorem tiles_nil (text : List Char) (start : Nat) : Tiles text start start [] [] :=
  ⟨Nat.le_refl start, inOrder_nil text, .nil, by simp, by omega⟩

/-- A white character in front of a tiling belongs to none of its passages. -/
theorem Tiles.space (htiles : Tiles text (start + 1) stop tokens passages)
    (hfirst : text[start]? = some first) (hwhite : isWhiteSpace first = true) :
    Tiles text start stop tokens passages := by
  refine ⟨Nat.le_of_succ_le htiles.start_le, htiles.inOrder, htiles.reads,
    fun passage hpassage ↦ ?_, fun index character hstart hstop hcharacter ↦ ?_⟩
  · obtain ⟨hbegins, hsome, hends⟩ := htiles.between passage hpassage
    exact ⟨Nat.le_of_succ_le hbegins, hsome, hends⟩
  · rcases Nat.eq_or_lt_of_le hstart with rfl | hlater
    · obtain rfl : first = character := Option.some.inj (hfirst.symm.trans hcharacter)
      refine iff_of_false ?_ (by rw [hwhite]; decide)
      rintro ⟨passage, hpassage, hcovers⟩
      exact absurd ((htiles.between passage hpassage).start_le.trans hcovers.1)
        (Nat.not_succ_le_self start)
    · exact htiles.covered_iff index character hlater hstop hcharacter

theorem Reads.length_pos (hreads : Reads word lexeme rest) : 0 < word.length := by
  obtain ⟨first, others, rfl, -⟩ := hreads.exists_cons
  exact Nat.succ_pos others.length

/-- A word that is read in front of a tiling is the first passage of a longer one. -/
theorem Tiles.passage (htiles : Tiles text (start + word.length) stop tokens passages)
    (hdrop : text.drop start = word ++ rest) (hreads : Reads word lexeme rest) :
    Tiles text start stop (⟨lexeme, start⟩ :: tokens) (⟨start, word⟩ :: passages) := by
  have hsome : word ≠ [] := List.ne_nil_of_length_pos hreads.length_pos
  have hbehind : text.drop (start + word.length) = rest := by
    rw [← List.drop_drop, hdrop, List.drop_left]
  have hle : start ≤ start + word.length := Nat.le_add_right _ _
  refine ⟨hle.trans htiles.start_le, ?_, ?_, ?_, fun index character hstart hstop hcharacter ↦ ?_⟩
  · refine htiles.inOrder.cons ?_ hsome fun later hlater ↦ (htiles.between later hlater).start_le
    exact hdrop ▸ List.prefix_append word rest
  · refine .cons ⟨rfl, ?_⟩ htiles.reads
    show Reads word lexeme (text.drop (start + word.length))
    rwa [hbehind]
  · refine List.forall_mem_cons.mpr ⟨⟨Nat.le_refl start, ?_, htiles.start_le⟩, ?_⟩
    · exact Nat.lt_add_of_pos_right hreads.length_pos
    · intro passage hpassage
      obtain ⟨hbegins, hlater, hends⟩ := htiles.between passage hpassage
      exact ⟨hle.trans hbegins, hlater, hends⟩
  · rw [List.exists_mem_cons_iff]
    by_cases hinside : index < start + word.length
    · refine iff_of_true (Or.inl ⟨hstart, hinside⟩) (hreads.not_white character ?_)
      obtain ⟨offset, rfl⟩ := Nat.exists_eq_add_of_le hstart
      rw [← List.getElem?_drop, hdrop, List.getElem?_append_left (by omega)] at hcharacter
      exact List.mem_of_getElem? hcharacter
    · have hlater := htiles.covered_iff index character (Nat.le_of_not_lt hinside) hstop hcharacter
      rw [← hlater, or_iff_right]
      exact fun hcovers ↦ hinside hcovers.2

/-- The positions of tokens that tile a part of a text are strictly increasing and lie in this
part. -/
theorem Tiles.positions (htiles : Tiles text start stop tokens passages) :
    (tokens.map Token.position).Pairwise (· < ·) ∧ ∀ token ∈ tokens, token.position < stop := by
  have hsame : tokens.map Token.position = passages.map Passage.position := by
    rw [← List.forall₂_eq_eq_eq, List.forall₂_map_left_iff, List.forall₂_map_right_iff]
    exact htiles.reads.imp fun _ _ hread ↦ hread.1
  refine ⟨hsame ▸ htiles.inOrder.pairwise_position, fun token htoken ↦ ?_⟩
  have hposition := List.mem_map_of_mem (f := Token.position) htoken
  rw [hsame] at hposition
  obtain ⟨passage, hpassage, hequal⟩ := List.mem_map.mp hposition
  obtain ⟨-, hsome, hends⟩ := htiles.between passage hpassage
  rw [← hequal]
  exact hsome.trans_le hends

/-! ### Failures -/

/-- A text at whose front the lexer fails: it starts with a character that starts neither a number
nor a name nor a mark, or with the prefix of functions and no name behind the point of it. In the
second case the failure is at the point. -/
inductive FailsAt : List Char → SyntaxError → Prop
  | character {first : Char} {rest : List Char} :
    isWhiteSpace first = false → startsNumber (first :: rest) = false →
    isNameStart first = false → markOf? first = none →
    FailsAt (first :: rest) ⟨0, .unexpectedCharacter first⟩
  | function {rest : List Char} :
    rest.head?.any isNameCharacter = false →
    FailsAt (functionPrefix ++ '.' :: rest) ⟨functionPrefix.length, .missingFunctionName⟩

theorem failsAt_of_scanLexeme {error : SyntaxError} (hwhite : isWhiteSpace first = false)
    (hscan : scanLexeme (first :: rest) = .error error) : FailsAt (first :: rest) error := by
  obtain ⟨hnumber, hother⟩ := scanLexeme_eq_error_iff.mp hscan
  split at hother
  · obtain ⟨rfl, behind, htext, hbehind⟩ := scanName_eq_error_iff.mp hother
    rw [htext]
    exact .function hbehind
  · rename_i hstart
    obtain ⟨rfl, hmark⟩ := scanMark_cons_eq_error_iff.mp hother
    exact .character hwhite hnumber (Bool.eq_false_iff.mpr hstart) hmark

/-! ### The whole lexer -/

/-- What the lexer makes of a text from a position on: a tiling of all the rest, or a tiling up to a
place where it fails. -/
def Cut (text : List Char) (start : Nat) : Except SyntaxError (List Token) → Prop
  | .ok tokens => ∃ passages, Tiles text start text.length tokens passages
  | .error error => ∃ tokens passages stop failure, Tiles text start stop tokens passages ∧
    FailsAt (text.drop stop) failure ∧ error = failure.shift stop

theorem cut_nil (hrest : text.drop start = []) (hstart : start ≤ text.length) :
    Cut text start (.ok []) := by
  obtain rfl := Nat.le_antisymm hstart (List.drop_eq_nil_iff.mp hrest)
  exact ⟨[], tiles_nil text _⟩

theorem Cut.space {result : Except SyntaxError (List Token)} (hcut : Cut text (start + 1) result)
    (hfirst : text[start]? = some first) (hwhite : isWhiteSpace first = true) :
    Cut text start result := by
  cases result with
  | ok tokens =>
    obtain ⟨passages, htiles⟩ := hcut
    exact ⟨passages, htiles.space hfirst hwhite⟩
  | error error =>
    obtain ⟨tokens, passages, stop, failure, htiles, hfails⟩ := hcut
    exact ⟨tokens, passages, stop, failure, htiles.space hfirst hwhite, hfails⟩

/-- A word in front of a cut adds its token to those of the cut. -/
theorem Cut.passage {result : Except SyntaxError (List Token)}
    (hcut : Cut text (start + word.length) result) (hdrop : text.drop start = word ++ rest)
    (hreads : Reads word lexeme rest) :
    Cut text start (result.map (⟨lexeme, start⟩ :: ·)) := by
  cases result with
  | ok tokens =>
    obtain ⟨passages, htiles⟩ := hcut
    exact ⟨_, htiles.passage hdrop hreads⟩
  | error error =>
    obtain ⟨tokens, passages, stop, failure, htiles, hfails⟩ := hcut
    exact ⟨_, _, stop, failure, htiles.passage hdrop hreads, hfails⟩

/-- The rounds of the lexer cut a text from the position that they start at. -/
theorem cut_tokensFrom {rounds : Nat} (hrest : text.drop start = rest)
    (hstart : start ≤ text.length) (hrounds : rest.length ≤ rounds) :
    Cut text start (tokensFrom rounds start rest) := by
  induction rounds generalizing start rest with
  | zero =>
    obtain rfl : rest = [] := List.eq_nil_of_length_eq_zero (Nat.le_zero.mp hrounds)
    exact cut_nil hrest hstart
  | succ rounds ih =>
    cases rest with
    | nil => exact cut_nil hrest hstart
    | cons first others =>
      have hlength := congrArg List.length hrest
      rw [List.length_drop, List.length_cons] at hlength
      rw [tokensFrom]
      split
      · rename_i hwhite
        have hbehind : text.drop (start + 1) = others := by
          rw [← List.drop_drop, hrest, List.drop_one, List.tail_cons]
        have hfirst : text[start]? = some first := by
          rw [← List.head?_drop, hrest, List.head?_cons]
        exact (ih hbehind (by omega) (Nat.le_of_succ_le_succ hrounds)).space hfirst hwhite
      · rename_i hwhite
        cases hscan : scanLexeme (first :: others) with
        | error error =>
          refine ⟨[], [], start, error, tiles_nil text start, ?_, rfl⟩
          rw [hrest]
          exact failsAt_of_scanLexeme (Bool.eq_false_iff.mpr hwhite) hscan
        | ok scanned =>
          obtain ⟨lexeme, width⟩ := scanned
          obtain ⟨word, behind, htext, rfl, hreads⟩ := reads_of_scanLexeme hscan
          rw [htext] at hrest
          have hbehind : text.drop (start + word.length) = behind := by
            rw [← List.drop_drop, hrest, List.drop_left]
          have hwords := congrArg List.length htext
          rw [List.length_append, List.length_cons] at hwords
          rw [List.length_cons] at hrounds
          have hsome := hreads.length_pos
          have hcut := (ih hbehind (by omega) (by omega)).passage hrest hreads
          simp only [htext, List.drop_left]
          cases hlater : tokensFrom rounds (start + word.length) behind with
          | error error => rwa [hlater] at hcut
          | ok tokens => rwa [hlater] at hcut

/-- The tokens of a text tile it: the text is white space and the passages that the tokens are read
from, each starting at the position of its token, and no two of them overlap; the positions strictly
increase and lie in the text. Where the lexer fails, complete tokens and white space tile the text
up to a place that starts no token, and the error is there, or at the point of a prefix of functions
that starts there. A number is no cause of failure: what is read wherever one starts is the text of
a numeral, and a number is made of it. -/
theorem tokens_tile_text (text : List Char) :
    (∀ tokens, Token.ofText text = .ok tokens →
      (∃ passages, Tiles text 0 text.length tokens passages) ∧
        (tokens.map Token.position).Pairwise (· < ·) ∧
        ∀ token ∈ tokens, token.position < text.length) ∧
    (∀ error, Token.ofText text = .error error →
      ∃ tokens passages stop failure, Tiles text 0 stop tokens passages ∧
        FailsAt (text.drop stop) failure ∧ error = failure.shift stop) ∧
    ∀ position, startsNumber (text.drop position) = true →
      ∃ word ∈ numeralTexts, ∃ value, word <+: text.drop position ∧ ReadAsDouble word value ∧
        scanLexeme (text.drop position) = .ok (.number value, word.length) := by
  have hcut : Cut text 0 (Token.ofText text) :=
    cut_tokensFrom rfl (Nat.zero_le text.length) (Nat.le_refl text.length)
  refine ⟨fun tokens htokens ↦ ?_, fun error herror ↦ ?_, fun position hstarts ↦ ?_⟩
  · rw [htokens] at hcut
    obtain ⟨passages, htiles⟩ := hcut
    exact ⟨⟨passages, htiles⟩, htiles.positions⟩
  · rwa [herror] at hcut
  · obtain ⟨numeral, rest, hscan, hlexeme⟩ := scanLexeme_of_startsNumber hstarts
    have hnumeral := wellFormed_of_scan hscan
    exact ⟨_, mem_numeralTexts_iff.mpr ⟨numeral, hnumeral, rfl⟩, numeral.value,
      ⟨rest, (Numeral.eq_append_of_scan hscan).symm⟩, readAsDouble_characters hnumeral, hlexeme⟩

end Formulary.Formula
