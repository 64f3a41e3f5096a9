import Formulary.Proofs.Formula.Grammar

/-!
# What the parser accepts is derived

A parser is `Sound` for a relation when it takes off the front of its tokens some that the relation
ties to its result. Each combinator keeps soundness for the categories of the grammar, and
`unary_sound` closes the circle by induction on the levels left.
-/

set_option autoImplicit false
set_option relaxedAutoImplicit false

namespace Formulary.Formula

/-- A parser takes off tokens that a relation ties to its result. -/
def Sound {Result : Type} (parser : Parse Result) (derives : List Lexeme → Result → Prop) : Prop :=
  ∀ tokens result rest, parser tokens = .ok (result, rest) →
    ∃ taken, tokens = taken ++ rest ∧ derives (taken.map Token.lexeme) result

/-- A sound parser leaves no more tokens than it was given. -/
theorem Sound.length_le {Result : Type} {parser : Parse Result}
    {derives : List Lexeme → Result → Prop} (hsound : Sound parser derives)
    {tokens rest : List Token} {result : Result} (hparsed : parser tokens = .ok (result, rest)) :
    rest.length ≤ tokens.length := by
  obtain ⟨taken, rfl, _⟩ := hsound tokens result rest hparsed
  simp

/-! ### Chains -/

theorem additive?_eq_some_iff (lexeme : Lexeme) (operator : Operator) :
    additive? lexeme = some operator ↔ ∃ mark, lexeme = .mark mark ∧ Joins .sum mark operator := by
  constructor
  · intro hsome
    unfold additive? at hsome
    split at hsome
    · cases hsome
      exact ⟨_, rfl, .plus⟩
    · cases hsome
      exact ⟨_, rfl, .minus⟩
    · cases hsome
  · rintro ⟨mark, rfl, hjoins⟩
    cases hjoins <;> rfl

theorem multiplicative?_eq_some_iff (lexeme : Lexeme) (operator : Operator) :
    multiplicative? lexeme = some operator ↔
      ∃ mark, lexeme = .mark mark ∧ Joins .product mark operator := by
  constructor
  · intro hsome
    unfold multiplicative? at hsome
    split at hsome
    · cases hsome
      exact ⟨_, rfl, .star⟩
    · cases hsome
      exact ⟨_, rfl, .slash⟩
    · cases hsome
      exact ⟨_, rfl, .percent⟩
    · cases hsome
  · rintro ⟨mark, rfl, hjoins⟩
    cases hjoins <;> rfl

section Chain

variable {operator? : Lexeme → Option Operator} {operand : Parse Expression}
variable {derives extended : List Lexeme → Expression → Prop}

/-- Continuing a chain extends whatever the expression so far was derived from. -/
theorem continueChain_sound (hoperand : Sound operand derives)
    (hstep : ∀ front left lexeme operator back right, extended front left →
      operator? lexeme = some operator → derives back right →
      extended (front ++ lexeme :: back) (.binary operator left right)) :
    ∀ (rounds : Nat) (left : Expression) (tokens : List Token) (result : Expression)
      (rest : List Token) (front : List Lexeme), extended front left →
      continueChain operator? operand rounds left tokens = .ok (result, rest) →
      ∃ taken, tokens = taken ++ rest ∧ extended (front ++ taken.map Token.lexeme) result := by
  intro rounds
  induction rounds with
  | zero =>
    intro left tokens result rest front hleft hparsed
    obtain ⟨rfl, rfl⟩ : left = result ∧ tokens = rest := by simpa [continueChain] using hparsed
    exact ⟨[], rfl, by simpa using hleft⟩
  | succ rounds ih =>
    intro left tokens result rest front hleft hparsed
    cases tokens with
    | nil =>
      obtain ⟨rfl, rfl⟩ : left = result ∧ [] = rest := by simpa [continueChain] using hparsed
      exact ⟨[], rfl, by simpa using hleft⟩
    | cons token tokens =>
      rw [continueChain] at hparsed
      split at hparsed
      · obtain ⟨rfl, rfl⟩ : left = result ∧ token :: tokens = rest := by simpa using hparsed
        exact ⟨[], rfl, by simpa using hleft⟩
      · rename_i operator hoperator
        split at hparsed
        · cases hparsed
        · rename_i right after hright
          obtain ⟨back, rfl, hback⟩ := hoperand _ _ _ hright
          obtain ⟨taken, rfl, htaken⟩ := ih _ _ _ _ _
            (hstep front left token.lexeme operator _ right hleft hoperator hback) hparsed
          exact ⟨token :: back ++ taken, by simp, by simpa using htaken⟩

theorem chain_sound (hoperand : Sound operand derives)
    (hbase : ∀ lexemes tree, derives lexemes tree → extended lexemes tree)
    (hstep : ∀ front left lexeme operator back right, extended front left →
      operator? lexeme = some operator → derives back right →
      extended (front ++ lexeme :: back) (.binary operator left right)) :
    Sound (chain operator? operand) extended := by
  intro tokens result rest hparsed
  rw [chain] at hparsed
  split at hparsed
  · cases hparsed
  · rename_i first after hfirst
    obtain ⟨front, rfl, hfront⟩ := hoperand _ _ _ hfirst
    obtain ⟨taken, rfl, htaken⟩ := continueChain_sound hoperand hstep _ _ _ _ _ _
      (hbase _ _ hfront) hparsed
    exact ⟨front ++ taken, by simp, by simpa using htaken⟩

end Chain

section Operators

variable {nesting : Nat} {operator : Operator} {lexeme : Lexeme} {front back : List Lexeme}
variable {left right : Expression}

/-- An operator and a unary behind it extend a product. -/
theorem Derives.extend_product (hfront : Derives .product nesting front left)
    (hoperator : multiplicative? lexeme = some operator)
    (hback : Derives .unary nesting back right) :
    Derives .product nesting (front ++ lexeme :: back) (.binary operator left right) := by
  obtain ⟨mark, rfl, hjoins⟩ := (multiplicative?_eq_some_iff lexeme operator).mp hoperator
  exact .multiply hjoins hfront hback

/-- An operator and a product behind it extend a sum. -/
theorem Derives.extend_sum (hfront : Derives .sum nesting front left)
    (hoperator : additive? lexeme = some operator)
    (hback : Derives .product nesting back right) :
    Derives .sum nesting (front ++ lexeme :: back) (.binary operator left right) := by
  obtain ⟨mark, rfl, hjoins⟩ := (additive?_eq_some_iff lexeme operator).mp hoperator
  exact .add hjoins hfront hback

variable {operand : Parse Expression}

theorem product_sound (hoperand : Sound operand (Derives .unary nesting)) :
    Sound (chain multiplicative? operand) (Derives .product nesting) :=
  chain_sound hoperand (fun _ _ ↦ .unary) fun _ _ _ _ _ _ ↦ Derives.extend_product

theorem sum_sound (hoperand : Sound operand (Derives .unary nesting)) :
    Sound (sum operand) (Derives .sum nesting) :=
  chain_sound (product_sound hoperand) (fun _ _ ↦ .product) fun _ _ _ _ _ _ ↦ Derives.extend_sum

end Operators

/-! ### Calls and primaries -/

/-- Closing takes one closing parenthesis. -/
theorem close_eq_ok_iff {Result : Type} {finish : Nat} {cause : SyntaxCause} {result other : Result}
    {tokens rest : List Token} :
    close finish cause result tokens = .ok (other, rest) ↔
      other = result ∧ ∃ position, tokens = ⟨.mark .closeParenthesis, position⟩ :: rest := by
  unfold close
  split
  · rename_i position after
    simp [eq_comm]
  · rename_i hother
    constructor
    · intro hclosed
      cases hclosed
    · rintro ⟨_, position, rfl⟩
      exact absurd rfl (hother position rest)

/-- The list of arguments of a call: each is derived, and commas separate them. -/
theorem arguments_sound {derives : List Lexeme → Expression → Prop} {argument : Parse Expression}
    (hargument : Sound argument derives) :
    ∀ (rounds : Nat) (tokens : List Token) (values : List Expression) (rest : List Token),
      arguments argument rounds tokens = .ok (values, rest) →
      ∃ taken pairs, tokens = taken ++ rest ∧ pairs ≠ [] ∧
        taken.map Token.lexeme = separated pairs ∧ values = pairs.map Prod.snd ∧
        ∀ pair ∈ pairs, derives pair.1 pair.2 := by
  have hlast : ∀ (tokens : List Token) (value : Expression) (rest : List Token),
      argument tokens = .ok (value, rest) →
      ∃ taken pairs, tokens = taken ++ rest ∧ pairs ≠ [] ∧
        taken.map Token.lexeme = separated pairs ∧ [value] = pairs.map Prod.snd ∧
        ∀ pair ∈ pairs, derives pair.1 pair.2 := by
    intro tokens value rest hparsed
    obtain ⟨taken, rfl, htaken⟩ := hargument _ _ _ hparsed
    exact ⟨taken, [(taken.map Token.lexeme, value)], rfl, by simp, by simp, by simp,
      by simpa using htaken⟩
  intro rounds
  induction rounds with
  | zero =>
    intro tokens values rest hparsed
    rw [arguments] at hparsed
    split at hparsed
    · cases hparsed
    · rename_i value after hvalue
      cases hparsed
      exact hlast _ _ _ hvalue
  | succ rounds ih =>
    intro tokens values rest hparsed
    rw [arguments] at hparsed
    split at hparsed
    · cases hparsed
    · rename_i value position after hvalue
      split at hparsed
      · cases hparsed
      · rename_i others behind hothers
        cases hparsed
        obtain ⟨front, rfl, hfront⟩ := hargument _ _ _ hvalue
        obtain ⟨back, pairs, rfl, hpairs, hback, rfl, hderives⟩ := ih _ _ _ hothers
        refine ⟨front ++ ⟨.mark .comma, position⟩ :: back,
          (front.map Token.lexeme, value) :: pairs, by simp, by simp, ?_, by simp, ?_⟩
        · rw [separated_cons hpairs]
          simp [hback]
        · intro pair hpair
          rcases List.mem_cons.mp hpair with rfl | hpair
          · exact hfront
          · exact hderives pair hpair
    · rename_i value after _ hvalue
      cases hparsed
      exact hlast _ _ _ hvalue

/-- The rest of a call: arguments and a closing parenthesis. -/
theorem call_sound {derives : List Lexeme → Expression → Prop} {argument : Parse Expression}
    (hargument : Sound argument derives) {finish : Nat} {function : String}
    {tokens rest : List Token} {tree : Expression}
    (hparsed : call finish function argument tokens = .ok (tree, rest)) :
    ∃ taken pairs, tokens = taken ++ rest ∧
      taken.map Token.lexeme = separated pairs ++ [.mark .closeParenthesis] ∧
      tree = .call function (pairs.map Prod.snd) ∧ ∀ pair ∈ pairs, derives pair.1 pair.2 := by
  unfold call at hparsed
  split at hparsed
  · rename_i position after
    cases hparsed
    exact ⟨[⟨.mark .closeParenthesis, position⟩], [], by simp, by simp, by simp, by simp⟩
  · split at hparsed
    · cases hparsed
    · rename_i values after hvalues
      obtain ⟨rfl, position, rfl⟩ := close_eq_ok_iff.mp hparsed
      obtain ⟨taken, pairs, rfl, _, hpairs, rfl, hderives⟩ :=
        arguments_sound hargument _ _ _ _ hvalues
      exact ⟨taken ++ [⟨.mark .closeParenthesis, position⟩], pairs, by simp, by simp [hpairs],
        rfl, hderives⟩

theorem primary_sound {nesting finish : Nat} {inner : Parse Expression}
    (hinner : Sound inner (Derives .sum nesting)) :
    Sound (primary finish inner) (Derives .primary nesting) := by
  intro tokens tree rest hparsed
  cases tokens with
  | nil => cases hparsed
  | cons token tokens =>
    obtain ⟨lexeme, position⟩ := token
    rw [primary] at hparsed
    split at hparsed
    · rename_i value hlexeme
      obtain rfl : lexeme = .number value := hlexeme
      cases hparsed
      exact ⟨[_], rfl, .number value⟩
    · rename_i text hlexeme
      obtain rfl : lexeme = .name text := hlexeme
      split at hparsed
      · rename_i opening after
        obtain ⟨taken, pairs, rfl, hpairs, rfl, hderives⟩ := call_sound hinner hparsed
        refine ⟨⟨.name text, position⟩ :: ⟨.mark .openParenthesis, opening⟩ :: taken, rfl, ?_⟩
        have hcall := Derives.call text pairs hderives
        rw [← hpairs] at hcall
        exact hcall
      · cases hparsed
        exact ⟨[_], rfl, .name text⟩
    · rename_i hlexeme
      obtain rfl : lexeme = .mark .openParenthesis := hlexeme
      split at hparsed
      · cases hparsed
      · rename_i expression after hexpression
        obtain ⟨rfl, closing, rfl⟩ := close_eq_ok_iff.mp hparsed
        obtain ⟨taken, rfl, htaken⟩ := hinner _ _ _ hexpression
        refine ⟨⟨.mark .openParenthesis, position⟩ ::
          (taken ++ [⟨.mark .closeParenthesis, closing⟩]), by simp, ?_⟩
        simpa using htaken.group
    · cases hparsed

/-! ### Powers and signs -/

theorem power_sound {nesting finish : Nat} {operand : Parse Expression}
    (hoperand : Sound operand (Derives .unary nesting)) :
    Sound (power finish operand) (Derives .power nesting) := by
  intro tokens tree rest hparsed
  have hprimary : Sound (primary finish (sum operand)) (Derives .primary nesting) :=
    primary_sound (sum_sound hoperand)
  rw [power] at hparsed
  split at hparsed
  · cases hparsed
  · rename_i base position after hbase
    split at hparsed
    · cases hparsed
    · rename_i exponent behind hexponent
      cases hparsed
      obtain ⟨front, rfl, hfront⟩ := hprimary _ _ _ hbase
      obtain ⟨back, rfl, hback⟩ := hoperand _ _ _ hexponent
      exact ⟨front ++ ⟨.mark .caret, position⟩ :: back, by simp,
        by simpa using Derives.raise hfront hback⟩
  · rename_i base after _ hbase
    cases hparsed
    obtain ⟨taken, rfl, htaken⟩ := hprimary _ _ _ hbase
    exact ⟨taken, rfl, htaken.primary⟩

theorem sign?_eq_some_iff (lexeme : Lexeme) (sign : Sign) :
    sign? lexeme = some sign ↔ ∃ mark, lexeme = .mark mark ∧ Signs mark sign := by
  constructor
  · intro hsome
    unfold sign? at hsome
    split at hsome
    · cases hsome
      exact ⟨_, rfl, .minus⟩
    · cases hsome
      exact ⟨_, rfl, .plus⟩
    · cases hsome
  · rintro ⟨mark, rfl, hsigns⟩
    cases hsigns <;> rfl

/-- The levels left bound the nesting of what is accepted. -/
theorem unary_sound (finish levels : Nat) :
    Sound (unary finish levels) (Derives .unary levels) := by
  induction levels with
  | zero =>
    intro tokens tree rest hparsed
    cases hparsed
  | succ levels ih =>
    intro tokens tree rest hparsed
    rw [unary] at hparsed
    split at hparsed
    · rename_i sign after hsign
      split at hparsed
      · cases hparsed
      · rename_i operand behind hoperand
        cases hparsed
        obtain ⟨taken, rfl, htaken⟩ := ih _ _ _ hoperand
        cases tokens with
        | nil => cases hsign
        | cons token tokens =>
          obtain ⟨other, hother, hpair⟩ := Option.map_eq_some_iff.mp hsign
          obtain ⟨rfl, rfl⟩ := Prod.mk.inj hpair
          obtain ⟨mark, hmark, hsigns⟩ := (sign?_eq_some_iff token.lexeme other).mp hother
          refine ⟨token :: taken, rfl, ?_⟩
          rw [List.map_cons, hmark]
          exact .sign hsigns htaken
    · obtain ⟨taken, rfl, htaken⟩ := power_sound ih _ _ _ hparsed
      exact ⟨taken, rfl, htaken.power⟩

/-- What is accepted as a formula is derived as a sum. -/
theorem derives_of_parseTokens {finish : Nat} {tokens : List Token} {tree : Expression}
    (hparsed : parseTokens finish tokens = .ok tree) :
    Derives .sum deepest (tokens.map Token.lexeme) tree := by
  rw [parseTokens] at hparsed
  split at hparsed
  · cases hparsed
  · rename_i expression hexpression
    cases hparsed
    obtain ⟨taken, htokens, htaken⟩ :=
      sum_sound (unary_sound finish deepest) _ _ _ hexpression
    rw [htokens, List.append_nil]
    exact htaken
  · cases hparsed

end Formulary.Formula
