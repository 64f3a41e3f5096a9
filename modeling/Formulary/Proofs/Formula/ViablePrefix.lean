import Formulary.Proofs.Formula.ParserLookahead

/-!
# Where a formula goes wrong

Lexemes are viable if some formula starts with them, at whatever depth it nests. The parser reports
an error behind tokens that can be completed. A formula that started with these and the token at the
error would be found with enough levels, but the parser with these levels fails there as well. So
the main statement, `position_of_parse_eq_error`, says that an error stands at the first token that
makes the tokens not viable, or at the end of the text where all of them are viable.
-/

set_option autoImplicit false
set_option relaxedAutoImplicit false

namespace Formulary.Formula

/-- Some formula starts with these lexemes, however deep it nests. -/
def Viable (lexemes : List Lexeme) : Prop :=
  ∃ nesting back tree, Derives .sum nesting (lexemes ++ back) tree

/-- What some formula starts with it also starts with without its end. -/
theorem Viable.of_append {front back : List Lexeme} (hviable : Viable (front ++ back)) :
    Viable front := by
  obtain ⟨nesting, rest, tree, hderives⟩ := hviable
  exact ⟨nesting, back ++ rest, tree, by rwa [← List.append_assoc]⟩

/-- If a formula starts with some tokens, there are others that go on like the last of them and with
which the formula is found, given enough levels. -/
theorem Viable.exists_sum_eq_ok {done : List Token} {token : Token}
    (hviable : Viable ((done ++ [token]).map Token.lexeme)) (finish levels : Nat) :
    ∃ more other tree, other.head? = some token ∧
      sum (unary finish (levels + more)) (done ++ other) = .ok (tree, []) := by
  obtain ⟨nesting, back, tree, hderives⟩ := hviable
  have hparses := (hderives.of_le (Nat.le_add_left nesting levels)).parses finish
  have hback : (back.map (Token.mk · 0)).map Token.lexeme = back := by
    rw [List.map_map]
    exact List.map_id back
  have hfound := hparses.sum_eq_ok (done ++ token :: back.map (Token.mk · 0)) []
    (by simp [hback]) (stops_nil .sum)
  rw [List.append_nil] at hfound
  exact ⟨nesting, _, tree, rfl, hfound⟩

/-- An error that is no want of levels stands behind tokens with which a formula starts, and with
the token at the error none does. -/
theorem exists_viable_of_parseTokens {finish : Nat} {tokens : List Token} {error : SyntaxError}
    (hparsed : parseTokens finish tokens = .error error) (hcause : error.cause ≠ .nestedTooDeep) :
    ∃ done rest, tokens = done ++ rest ∧ error.position = here finish rest ∧
      Viable (done.map Token.lexeme) ∧
      ∀ token ∈ rest.head?, ¬Viable ((done ++ [token]).map Token.lexeme) := by
  have hunary := unary_widens finish deepest
  rw [parseTokens] at hparsed
  split at hparsed
  · rename_i other hsum
    obtain rfl : other = error := Except.error.inj hparsed
    obtain ⟨done, rest, rfl, hplace⟩ :=
      sum_failsAlike hunary (unary_failsAlike finish deepest) _ _ hsum hcause
    obtain ⟨back, tree, hderives⟩ := hplace.completes
    refine ⟨done, rest, rfl, hplace.position, ⟨_, back, tree, hderives⟩,
      fun token htoken hviable ↦ ?_⟩
    obtain ⟨more, later, found, hlater, hfound⟩ := hviable.exists_sum_eq_ok finish deepest
    rw [hplace.fails more later (hlater.trans htoken.symm)] at hfound
    cases hfound
  · cases hparsed
  · rename_i expression token rest hsum
    obtain rfl := Except.error.inj hparsed
    obtain ⟨taken, rfl, htaken, hthere⟩ := (sum_widens hunary).exists_taken hsum
    refine ⟨taken, token :: rest, rfl, rfl,
      ⟨deepest, [], expression, by rwa [List.append_nil]⟩, fun first hfirst hviable ↦ ?_⟩
    -- The formula would have to end where the sum ends, in front of the token.
    obtain ⟨more, later, found, hlater, hfound⟩ := hviable.exists_sum_eq_ok finish deepest
    rw [hthere more later (hlater.trans hfirst.symm)] at hfound
    obtain rfl : later = [] := congrArg Prod.snd (Except.ok.inj hfound)
    cases hlater

/-- An error in the tokens of a formula, unless it is a want of levels, stands at the end of the
text if a formula starts with all of the tokens, and else at the first token with which and those in
front of it no formula starts. -/
theorem position_of_parse_eq_error {text : List Char} {tokens : List Token} {error : SyntaxError}
    (htokens : Token.ofText text = .ok tokens) (hsome : tokens ≠ [])
    (hparsed : parse text = .error error) (hcause : error.cause ≠ .nestedTooDeep) :
    (Viable (tokens.map Token.lexeme) → error.position = text.length) ∧
      (¬Viable (tokens.map Token.lexeme) → ∃ done token rest, tokens = done ++ token :: rest ∧
        error.position = token.position ∧ Viable (done.map Token.lexeme) ∧
        ¬Viable ((done ++ [token]).map Token.lexeme)) := by
  have hfailed : parseTokens text.length tokens = .error error := by
    rw [parse, htokens] at hparsed
    split at hparsed
    · cases ‹Except.ok tokens = Except.error _›
    · cases ‹Except.ok tokens = Except.ok []›
      exact absurd rfl hsome
    · cases ‹Except.ok tokens = Except.ok _›
      exact hparsed
  obtain ⟨done, rest, rfl, hposition, hdone, hnext⟩ := exists_viable_of_parseTokens hfailed hcause
  cases rest with
  | nil =>
    rw [List.append_nil]
    exact ⟨fun _ ↦ hposition, fun hnone ↦ absurd hdone hnone⟩
  | cons token rest =>
    have hnone := hnext token rfl
    refine ⟨fun hall ↦ absurd ?_ hnone, fun _ ↦ ⟨done, token, rest, rfl, hposition, hdone, hnone⟩⟩
    rw [← List.singleton_append, ← List.append_assoc, List.map_append] at hall
    exact hall.of_append

/-- The error in `Net * (Tax + ) - Fee` is the closing parenthesis. -/
theorem position_of_missing_operand :
    ∃ done token rest, Token.ofText "Net * (Tax + ) - Fee".toList = .ok (done ++ token :: rest) ∧
      parse "Net * (Tax + ) - Fee".toList = .error ⟨13, .unexpectedMark .closeParenthesis⟩ ∧
      token.position = 13 ∧ Viable (done.map Token.lexeme) ∧
      ¬Viable ((done ++ [token]).map Token.lexeme) := by
  have htokens : Token.ofText "Net * (Tax + ) - Fee".toList =
      .ok [⟨.name "Net", 0⟩, ⟨.mark .star, 4⟩, ⟨.mark .openParenthesis, 6⟩, ⟨.name "Tax", 7⟩,
        ⟨.mark .plus, 11⟩, ⟨.mark .closeParenthesis, 13⟩, ⟨.mark .minus, 15⟩,
        ⟨.name "Fee", 17⟩] := by
    decide +kernel
  have hparsed : parse "Net * (Tax + ) - Fee".toList =
      .error ⟨13, .unexpectedMark .closeParenthesis⟩ := by
    rw [parse, htokens]
    rfl
  obtain ⟨hend, hnone⟩ :=
    position_of_parse_eq_error htokens (List.cons_ne_nil _ _) hparsed (by decide)
  obtain ⟨done, token, rest, hsplit, hposition, hdone, hnext⟩ :=
    hnone fun hall ↦ absurd (hend hall) (by decide)
  exact ⟨done, token, rest, hsplit ▸ htokens, hparsed, hposition.symm, hdone, hnext⟩

end Formulary.Formula
