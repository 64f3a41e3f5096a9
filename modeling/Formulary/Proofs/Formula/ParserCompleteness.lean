import Formulary.Proofs.Formula.ParserSoundness

/-!
# What is derived is accepted

A parser finds an expression at the front of a list of tokens if what follows does not go on with
it: `Stops` says so for each category. `Derives.parses` is an induction on the derivation, in which
sums and products are found up to an operator that may follow and the loop goes on from there.

The main statement, `parse_eq_ok_iff_denotes`, says that the parser accepts exactly the texts that
denote a tree and returns that tree, so that no text denotes two.
-/

set_option autoImplicit false
set_option relaxedAutoImplicit false

namespace Formulary.Formula

/-! ### What may follow -/

/-- The marks that go on with an expression of a category. -/
def Category.continuing : Category → List Mark
  | .sum => [.plus, .minus, .star, .slash, .percent, .caret, .openParenthesis]
  | .product => [.star, .slash, .percent, .caret, .openParenthesis]
  | .unary => [.caret, .openParenthesis]
  | .power => [.caret, .openParenthesis]
  | .primary => [.openParenthesis]

/-- The tokens that follow do not go on with an expression of a category. -/
def Stops (category : Category) (rest : List Token) : Prop :=
  ∀ token ∈ rest.head?, ∀ mark ∈ category.continuing, token.lexeme ≠ .mark mark

theorem stops_nil (category : Category) : Stops category [] := by
  simp [Stops]

theorem stops_cons {category : Category} {token : Token} {mark : Mark}
    (hlexeme : token.lexeme = .mark mark) (hmark : mark ∉ category.continuing)
    (rest : List Token) : Stops category (token :: rest) := by
  intro other hother continuing hcontinuing hequal
  obtain rfl : token = other := by simpa using hother
  rw [hlexeme] at hequal
  obtain rfl := Lexeme.mark.inj hequal
  exact hmark hcontinuing

theorem Stops.mono {category looser : Category} {rest : List Token} (hstops : Stops looser rest)
    (hfewer : ∀ mark ∈ category.continuing, mark ∈ looser.continuing) : Stops category rest :=
  fun token htoken mark hmark ↦ hstops token htoken mark (hfewer mark hmark)

/-! ### Loops -/

section Chain

variable {operator? : Lexeme → Option Operator} {operand : Parse Expression}

/-- A loop ends where no operator follows. -/
theorem continueChain_of_stops {rest : List Token}
    (hstops : ∀ token ∈ rest.head?, operator? token.lexeme = none) (rounds : Nat)
    (left : Expression) :
    continueChain operator? operand rounds left rest = .ok (left, rest) := by
  cases rounds with
  | zero => rfl
  | succ rounds =>
    cases rest with
    | nil => rfl
    | cons token rest => simp [continueChain, hstops token rfl]

/-- The number of rounds makes no difference as long as it covers the tokens. -/
theorem continueChain_rounds {derives : List Lexeme → Expression → Prop}
    (hoperand : Sound operand derives) :
    ∀ (first second : Nat) (left : Expression) (tokens : List Token),
      tokens.length ≤ first → tokens.length ≤ second →
      continueChain operator? operand first left tokens =
        continueChain operator? operand second left tokens := by
  intro first
  induction first with
  | zero =>
    intro second left tokens hfirst _
    obtain rfl := List.length_eq_zero_iff.mp (Nat.le_zero.mp hfirst)
    cases second <;> rfl
  | succ first ih =>
    intro second left tokens hfirst hsecond
    cases tokens with
    | nil => cases second <;> rfl
    | cons token tokens =>
      obtain ⟨second, rfl⟩ := Nat.exists_eq_succ_of_ne_zero (Nat.ne_zero_of_lt hsecond)
      simp only [List.length_cons] at hfirst hsecond
      rw [continueChain, continueChain]
      cases hoperator : operator? token.lexeme with
      | none => rfl
      | some operator =>
        cases hright : operand tokens with
        | error error => rfl
        | ok found =>
          have hshorter := hoperand.length_le hright
          exact ih second _ _ (by omega) (by omega)

/-- A loop takes an operator and an operand that follow, and goes on. -/
theorem continueChain_step {derives : List Lexeme → Expression → Prop}
    (hoperand : Sound operand derives) {token : Token} {operator : Operator}
    {left right : Expression} {back rest : List Token}
    (hoperator : operator? token.lexeme = some operator)
    (hright : operand (back ++ rest) = .ok (right, rest)) :
    continueChain operator? operand (token :: back ++ rest).length left (token :: back ++ rest) =
      continueChain operator? operand rest.length (.binary operator left right) rest := by
  rw [List.cons_append, List.length_cons, continueChain, hoperator, hright]
  exact continueChain_rounds hoperand _ _ _ _ (by simp) le_rfl

/-- A chain that is found up to an operator goes on with the operand behind it. -/
theorem chain_extend {derives : List Lexeme → Expression → Prop} (hoperand : Sound operand derives)
    {category : Category} {mark : Mark} {operator : Operator} {front back : List Lexeme}
    {left right : Expression} {tokens rest : List Token}
    (hoperator : operator? (.mark mark) = some operator) (hmark : mark ∉ category.continuing)
    (hlexemes : tokens.map Token.lexeme = front ++ .mark mark :: back)
    (hfront : ∀ tokens rest : List Token, tokens.map Token.lexeme = front → Stops category rest →
      chain operator? operand (tokens ++ rest) =
        continueChain operator? operand rest.length left rest)
    (hback : ∀ tokens : List Token, tokens.map Token.lexeme = back →
      operand (tokens ++ rest) = .ok (right, rest)) :
    chain operator? operand (tokens ++ rest) =
      continueChain operator? operand rest.length (.binary operator left right) rest := by
  obtain ⟨ahead, behind, rfl, hahead, hbehind⟩ := List.map_eq_append_iff.mp hlexemes
  obtain ⟨token, others, rfl, hlexeme, hothers⟩ := List.map_eq_cons_iff.mp hbehind
  have hfollows : Stops category (token :: others ++ rest) := stops_cons hlexeme hmark _
  rw [List.append_assoc, hfront ahead _ hahead hfollows]
  rw [← hlexeme] at hoperator
  exact continueChain_step hoperand hoperator (hback others hothers)

/-- Where a category may end, none of its operators follows. -/
theorem operator?_eq_none {category : Category}
    (hjoins : ∀ lexeme operator, operator? lexeme = some operator ↔
      ∃ mark, lexeme = .mark mark ∧ Joins category mark operator)
    {rest : List Token} (hstops : Stops category rest) :
    ∀ token ∈ rest.head?, operator? token.lexeme = none := by
  intro token htoken
  by_contra hsome
  obtain ⟨operator, hoperator⟩ := Option.ne_none_iff_exists'.mp hsome
  obtain ⟨mark, hlexeme, hjoin⟩ := (hjoins _ _).mp hoperator
  exact hstops token htoken mark (by cases hjoin <;> simp [Category.continuing]) hlexeme

end Chain

/-! ### Calls -/

/-- Arguments that are each found are found together, up to the closing parenthesis. -/
theorem arguments_eq_ok {argument : Parse Expression} (closing : Nat) (rest : List Token) :
    ∀ (pairs : List (List Lexeme × Expression)) (rounds : Nat) (tokens : List Token),
      pairs ≠ [] → pairs.length ≤ rounds + 1 → tokens.map Token.lexeme = separated pairs →
      (∀ pair ∈ pairs, ∀ front back : List Token, front.map Token.lexeme = pair.1 →
        Stops .sum back → argument (front ++ back) = .ok (pair.2, back)) →
      arguments argument rounds (tokens ++ ⟨.mark .closeParenthesis, closing⟩ :: rest) =
        .ok (pairs.map Prod.snd, ⟨.mark .closeParenthesis, closing⟩ :: rest) := by
  intro pairs
  induction pairs with
  | nil => simp
  | cons pair pairs ih =>
    intro rounds tokens _ hrounds hlexemes hargument
    have hclosed : Stops .sum (⟨.mark .closeParenthesis, closing⟩ :: rest) :=
      stops_cons rfl (by simp [Category.continuing]) rest
    cases pairs with
    | nil =>
      have hfound := hargument pair List.mem_cons_self tokens _ (by simpa using hlexemes) hclosed
      cases rounds with
      | zero => simp [arguments, hfound]
      | succ rounds => simp [arguments, hfound]
    | cons next others =>
      rw [separated_cons (List.cons_ne_nil _ _)] at hlexemes
      obtain ⟨front, behind, rfl, hfront, hbehind⟩ := List.map_eq_append_iff.mp hlexemes
      obtain ⟨token, back, rfl, hcomma, hback⟩ := List.map_eq_cons_iff.mp hbehind
      obtain ⟨lexeme, position⟩ := token
      obtain rfl : lexeme = .mark .comma := hcomma
      obtain ⟨rounds, rfl⟩ : ∃ fewer, rounds = fewer + 1 :=
        ⟨rounds - 1, by simp only [List.length_cons] at hrounds; omega⟩
      have hfound := hargument pair List.mem_cons_self front
        (⟨.mark .comma, position⟩ :: back ++ ⟨.mark .closeParenthesis, closing⟩ :: rest) hfront
        (stops_cons rfl (by simp [Category.continuing]) _)
      have hothers := ih rounds back (List.cons_ne_nil _ _)
        (by simp only [List.length_cons] at hrounds ⊢; omega) hback
        (fun other hother ↦ hargument other (List.mem_cons_of_mem _ hother))
      rw [List.append_assoc, arguments, hfound]
      simp [hothers]

/-- Separated arguments are at least as many lexemes as there are arguments, but for one. -/
theorem length_le_separated : ∀ pairs : List (List Lexeme × Expression),
    pairs.length ≤ (separated pairs).length + 1
  | [] => by simp
  | [pair] => by simp
  | pair :: next :: others => by
    have hothers := length_le_separated (next :: others)
    rw [separated_cons (List.cons_ne_nil _ _)]
    simp only [List.length_cons, List.length_append] at hothers ⊢
    omega

/-- The rest of a call is found if each argument is. -/
theorem call_eq_ok {finish : Nat} {function : String} {argument : Parse Expression}
    {pairs : List (List Lexeme × Expression)} {tokens rest : List Token}
    (hlexemes : tokens.map Token.lexeme = separated pairs ++ [.mark .closeParenthesis])
    (hopen : ∀ pair ∈ pairs, ∃ first others, pair.1 = first :: others ∧
      first ≠ .mark .closeParenthesis)
    (hargument : ∀ pair ∈ pairs, ∀ front back : List Token, front.map Token.lexeme = pair.1 →
      Stops .sum back → argument (front ++ back) = .ok (pair.2, back)) :
    call finish function argument (tokens ++ rest) =
      .ok (.call function (pairs.map Prod.snd), rest) := by
  obtain ⟨front, behind, rfl, hfront, hbehind⟩ := List.map_eq_append_iff.mp hlexemes
  obtain ⟨token, back, rfl, hclosing, hback⟩ := List.map_eq_cons_iff.mp hbehind
  obtain rfl := List.map_eq_nil_iff.mp hback
  obtain ⟨lexeme, closing⟩ := token
  obtain rfl : lexeme = .mark .closeParenthesis := hclosing
  cases pairs with
  | nil =>
    obtain rfl : front = [] := by simpa using hfront
    rfl
  | cons pair others =>
    obtain ⟨first, remaining, hpair, hfirst⟩ := hopen pair List.mem_cons_self
    -- The first argument does not look like a call without arguments.
    have hstart : ∃ later, separated (pair :: others) = first :: later := by
      cases others with
      | nil => exact ⟨remaining, by simpa using hpair⟩
      | cons next others =>
        exact ⟨_, by rw [separated_cons (List.cons_ne_nil _ _), hpair]; rfl⟩
    obtain ⟨later, hlater⟩ := hstart
    obtain ⟨start, tail, rfl, hstart, _⟩ := List.map_eq_cons_iff.mp (hfront.trans hlater)
    have hlength : (pair :: others).length ≤
        (start :: tail ++ [Token.mk (.mark .closeParenthesis) closing] ++ rest).length + 1 := by
      have hshort := length_le_separated (pair :: others)
      rw [← hfront, List.length_map] at hshort
      simp only [List.length_append]
      omega
    have hfound := arguments_eq_ok closing rest (pair :: others) _ (start :: tail)
      (List.cons_ne_nil _ _) hlength hfront hargument
    rw [call]
    · rw [List.append_assoc] at hfound ⊢
      simp only [List.singleton_append] at hfound ⊢
      rw [hfound]
      rfl
    · intro position after hequal
      obtain ⟨rfl, _⟩ := List.cons.inj hequal
      exact hfirst hstart.symm

/-! ### One category after the other -/

/-- The parser of a category finds a tree at the front of any tokens with some lexemes. A sum or a
product is found as far as it goes, and its loop goes on with what follows. -/
def Parses (finish : Nat) : Category → Nat → List Lexeme → Expression → Prop
  | .sum, nesting, lexemes, tree => ∀ tokens rest : List Token,
    tokens.map Token.lexeme = lexemes → Stops .product rest →
    sum (unary finish nesting) (tokens ++ rest) =
      continueChain additive? (chain multiplicative? (unary finish nesting)) rest.length tree rest
  | .product, nesting, lexemes, tree => ∀ tokens rest : List Token,
    tokens.map Token.lexeme = lexemes → Stops .unary rest →
    chain multiplicative? (unary finish nesting) (tokens ++ rest) =
      continueChain multiplicative? (unary finish nesting) rest.length tree rest
  | .unary, nesting, lexemes, tree => ∀ tokens rest : List Token,
    tokens.map Token.lexeme = lexemes → Stops .unary rest →
    unary finish nesting (tokens ++ rest) = .ok (tree, rest)
  | .power, nesting, lexemes, tree => ∀ tokens rest : List Token,
    tokens.map Token.lexeme = lexemes → Stops .power rest →
    power finish (unary finish nesting) (tokens ++ rest) = .ok (tree, rest)
  | .primary, nesting, lexemes, tree => ∀ tokens rest : List Token,
    tokens.map Token.lexeme = lexemes → Stops .primary rest →
    primary finish (sum (unary finish nesting)) (tokens ++ rest) = .ok (tree, rest)

/-- A sum is found where what follows does not go on with it. -/
theorem Parses.sum_eq_ok {finish nesting : Nat} {lexemes : List Lexeme} {tree : Expression}
    (hparses : Parses finish .sum nesting lexemes tree) (tokens rest : List Token)
    (hlexemes : tokens.map Token.lexeme = lexemes) (hstops : Stops .sum rest) :
    sum (Formula.unary finish nesting) (tokens ++ rest) = .ok (tree, rest) := by
  rw [hparses tokens rest hlexemes (hstops.mono (by simp [Category.continuing]))]
  exact continueChain_of_stops (operator?_eq_none additive?_eq_some_iff hstops) _ _

/-- A product is found where what follows does not go on with it. -/
theorem Parses.product_eq_ok {finish nesting : Nat} {lexemes : List Lexeme} {tree : Expression}
    (hparses : Parses finish .product nesting lexemes tree) (tokens rest : List Token)
    (hlexemes : tokens.map Token.lexeme = lexemes) (hstops : Stops .product rest) :
    chain multiplicative? (Formula.unary finish nesting) (tokens ++ rest) = .ok (tree, rest) := by
  rw [hparses tokens rest hlexemes (hstops.mono (by simp [Category.continuing]))]
  exact continueChain_of_stops (operator?_eq_none multiplicative?_eq_some_iff hstops) _ _

section Steps

variable {finish position levels : Nat} {rest : List Token}

/-- A sign applies to what is found behind it. -/
theorem unary_sign {token : Token} {sign : Sign} (hsign : sign? token.lexeme = some sign)
    (tokens : List Token) :
    unary finish (levels + 1) (token :: tokens) =
      match unary finish levels tokens with
      | .error error => .error error
      | .ok (operand, after) => .ok (.signed sign operand, after) := by
  have htaken : takeSign? (token :: tokens) = some (sign, tokens) := by
    rw [takeSign?, hsign]
    rfl
  cases hoperand : unary finish levels tokens <;> simp only [unary, htaken, hoperand]

/-- What starts with no sign is found as a power. -/
theorem unary_eq_power {tokens : List Token}
    (hsign : ∀ token ∈ tokens.head?, sign? token.lexeme = none) :
    unary finish (levels + 1) tokens = power finish (unary finish levels) tokens := by
  have htaken : takeSign? tokens = none := by
    cases tokens with
    | nil => rfl
    | cons token tokens =>
      rw [takeSign?, hsign token rfl]
      rfl
  rw [unary, htaken]

variable {operand inner : Parse Expression} {tokens : List Token} {base : Expression}

/-- A primary is found as a power where no caret follows. -/
theorem power_eq_primary (hbase : primary finish (sum operand) tokens = .ok (base, rest))
    (hcaret : ∀ token ∈ rest.head?, token.lexeme ≠ .mark .caret) :
    power finish operand tokens = .ok (base, rest) := by
  rw [power, hbase]
  split
  · rename_i hequal
    cases hequal
  · rename_i other position after hequal
    obtain ⟨_, rfl⟩ : _ ∧ _ := by simpa using hequal
    exact absurd rfl (hcaret _ rfl)
  · rename_i hequal
    exact hequal.symm

/-- A caret raises a primary to what is found behind it. -/
theorem power_raise
    (hbase : primary finish (sum operand) tokens = .ok (base, ⟨.mark .caret, position⟩ :: rest)) :
    power finish operand tokens =
      match operand rest with
      | .error error => .error error
      | .ok (exponent, after) => .ok (.binary .power base exponent, after) := by
  cases hexponent : operand rest <;> simp only [power, hbase, hexponent]

/-- A parenthesis opens an expression, behind which another one closes it. -/
theorem primary_group (tokens : List Token) :
    primary finish inner (⟨.mark .openParenthesis, position⟩ :: tokens) =
      match inner tokens with
      | .error error => .error error
      | .ok (tree, rest) => close finish .unclosedParenthesis tree rest := rfl

/-- A name is found where no parenthesis opens behind it. -/
theorem primary_name {text : String}
    (hopen : ∀ token ∈ rest.head?, token.lexeme ≠ .mark .openParenthesis) :
    primary finish inner (⟨.name text, position⟩ :: rest) = .ok (.name text, rest) := by
  simp only [primary]
  split
  · exact absurd rfl (hopen _ rfl)
  · rfl

end Steps

/-- Whatever the grammar derives, the parser finds. -/
theorem Derives.parses (finish : Nat) {category : Category} {nesting : Nat}
    {lexemes : List Lexeme} {tree : Expression}
    (hderives : Derives category nesting lexemes tree) :
    Parses finish category nesting lexemes tree := by
  induction hderives with
  | product _ ih =>
    intro tokens rest hlexemes hstops
    rw [sum, chain, ih.product_eq_ok tokens rest hlexemes hstops]
  | @add nesting mark operator _ _ left right hjoins _ _ ihfront ihback =>
    intro tokens rest hlexemes hstops
    exact chain_extend (product_sound (unary_sound finish nesting))
      ((additive?_eq_some_iff _ _).mpr ⟨mark, rfl, hjoins⟩)
      (by cases hjoins <;> simp [Category.continuing]) hlexemes ihfront
      fun back hback ↦ ihback.product_eq_ok back rest hback hstops
  | unary _ ih =>
    intro tokens rest hlexemes hstops
    rw [chain, ih tokens rest hlexemes hstops]
  | @multiply nesting mark operator _ _ left right hjoins _ _ ihfront ihback =>
    intro tokens rest hlexemes hstops
    exact chain_extend (unary_sound finish nesting)
      ((multiplicative?_eq_some_iff _ _).mpr ⟨mark, rfl, hjoins⟩)
      (by cases hjoins <;> simp [Category.continuing]) hlexemes ihfront
      fun back hback ↦ ihback back rest hback hstops
  | @sign nesting mark sign _ tree hsigns _ ih =>
    intro tokens rest hlexemes hstops
    obtain ⟨token, operand, rfl, hmark, hoperand⟩ := List.map_eq_cons_iff.mp hlexemes
    rw [List.cons_append, unary_sign ((sign?_eq_some_iff _ _).mpr ⟨mark, hmark, hsigns⟩),
      ih operand rest hoperand hstops]
  | @power nesting _ tree hpower ih =>
    intro tokens rest hlexemes hstops
    obtain ⟨first, others, rfl, _, hfirst⟩ := hpower.exists_cons
    obtain ⟨token, behind, rfl, hmark, _⟩ := List.map_eq_cons_iff.mp hlexemes
    have hsign : ∀ first ∈ (token :: behind ++ rest).head?, sign? first.lexeme = none := by
      rintro _ ⟨⟩
      exact hmark ▸ hfirst (Or.inl rfl)
    rw [unary_eq_power hsign]
    exact ih (token :: behind) rest hlexemes (hstops.mono (by simp [Category.continuing]))
  | primary _ ih =>
    intro tokens rest hlexemes hstops
    exact power_eq_primary
      (ih tokens rest hlexemes (hstops.mono (by simp [Category.continuing])))
      fun token htoken ↦ hstops token htoken .caret (by simp [Category.continuing])
  | raise _ _ ihbase ihexponent =>
    intro tokens rest hlexemes hstops
    obtain ⟨front, behind, rfl, hfront, hbehind⟩ := List.map_eq_append_iff.mp hlexemes
    obtain ⟨⟨lexeme, position⟩, back, rfl, rfl, hback⟩ := List.map_eq_cons_iff.mp hbehind
    have hfollows : Stops .primary (⟨.mark .caret, position⟩ :: back ++ rest) :=
      stops_cons rfl (by simp [Category.continuing]) _
    have hbase := ihbase front _ hfront hfollows
    rw [List.cons_append] at hbase
    rw [List.append_assoc, List.cons_append, power_raise hbase,
      ihexponent back rest hback (hstops.mono (by simp [Category.continuing]))]
  | number value =>
    intro tokens rest hlexemes _
    obtain ⟨⟨lexeme, position⟩, behind, rfl, rfl, hbehind⟩ := List.map_eq_cons_iff.mp hlexemes
    obtain rfl := List.map_eq_nil_iff.mp hbehind
    rfl
  | name text =>
    intro tokens rest hlexemes hstops
    obtain ⟨⟨lexeme, position⟩, behind, rfl, rfl, hbehind⟩ := List.map_eq_cons_iff.mp hlexemes
    obtain rfl := List.map_eq_nil_iff.mp hbehind
    exact primary_name fun token htoken ↦
      hstops token htoken .openParenthesis (by simp [Category.continuing])
  | call function pairs hpairs ih =>
    intro tokens rest hlexemes _
    obtain ⟨⟨lexeme, position⟩, behind, rfl, rfl, hbehind⟩ := List.map_eq_cons_iff.mp hlexemes
    obtain ⟨⟨lexeme, opening⟩, inside, rfl, rfl, hinside⟩ := List.map_eq_cons_iff.mp hbehind
    refine call_eq_ok hinside (fun pair hpair ↦ ?_) fun pair hpair front back hfront hback ↦ ?_
    · obtain ⟨first, others, hequal, hopen, _⟩ := (hpairs pair hpair).exists_cons
      exact ⟨first, others, hequal, hopen⟩
    · exact (ih pair hpair).sum_eq_ok front back hfront hback
  | group _ ih =>
    intro tokens rest hlexemes _
    obtain ⟨⟨lexeme, position⟩, behind, rfl, rfl, hbehind⟩ := List.map_eq_cons_iff.mp hlexemes
    obtain ⟨inside, ending, rfl, hinside, hending⟩ := List.map_eq_append_iff.mp hbehind
    obtain ⟨⟨lexeme, closing⟩, nothing, rfl, rfl, hnothing⟩ := List.map_eq_cons_iff.mp hending
    obtain rfl := List.map_eq_nil_iff.mp hnothing
    have hfound := ih.sum_eq_ok inside (⟨.mark .closeParenthesis, closing⟩ :: rest) hinside
      (stops_cons rfl (by simp [Category.continuing]) rest)
    rw [List.cons_append, List.append_assoc, List.singleton_append, primary_group, hfound]
    rfl

/-- What is derived as a sum is accepted as a formula. -/
theorem parseTokens_of_derives {finish : Nat} {tokens : List Token} {tree : Expression}
    (hderives : Derives .sum deepest (tokens.map Token.lexeme) tree) :
    parseTokens finish tokens = .ok tree := by
  have hfound := (hderives.parses finish).sum_eq_ok tokens [] rfl (stops_nil .sum)
  rw [List.append_nil] at hfound
  rw [parseTokens, hfound]

/-- A text is parsed when it has tokens and these are parsed. -/
theorem parse_eq_ok_iff (text : List Char) (tree : Expression) :
    parse text = .ok tree ↔ ∃ tokens, Token.ofText text = .ok tokens ∧ tokens ≠ [] ∧
      parseTokens text.length tokens = .ok tree := by
  rw [parse]
  split
  · rename_i error herror
    simp [herror]
  · rename_i hnone
    simp [hnone]
  · rename_i tokens hsome htokens
    constructor
    · intro hparsed
      exact ⟨tokens, htokens, fun hnone ↦ hsome hnone, hparsed⟩
    · rintro ⟨others, hothers, _, hparsed⟩
      rw [htokens] at hothers
      obtain rfl := Except.ok.inj hothers
      exact hparsed

/-- The tree that a text denotes is the one that the parser returns. -/
theorem denotes_iff_parse_eq_ok (text : List Char) (tree : Expression) :
    Denotes text tree ↔ parse text = .ok tree := by
  rw [parse_eq_ok_iff]
  constructor
  · rintro ⟨tokens, htokens, hsome, hderives⟩
    exact ⟨tokens, htokens, hsome, parseTokens_of_derives hderives⟩
  · rintro ⟨tokens, htokens, hsome, hparsed⟩
    exact ⟨tokens, htokens, hsome, derives_of_parseTokens hparsed⟩

/-- The parser accepts exactly the texts that denote a tree, and returns that tree; hence no text
denotes two. -/
theorem parse_eq_ok_iff_denotes (text : List Char) (tree : Expression) :
    (parse text = .ok tree ↔ Denotes text tree) ∧
      ∀ other, Denotes text tree → Denotes text other → tree = other := by
  refine ⟨(denotes_iff_parse_eq_ok text tree).symm, fun other htree hother ↦ ?_⟩
  rw [denotes_iff_parse_eq_ok] at htree hother
  exact Except.ok.inj (htree.symm.trans hother)

end Formulary.Formula
