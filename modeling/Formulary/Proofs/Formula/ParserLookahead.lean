import Formulary.Proofs.Formula.ParserCompleteness

/-!
# The parser looks one token ahead

What the parser finds or reports depends on the tokens in front of the place where it stops and on
the token there, on nothing behind it, and a parser with more levels left stops at the same place.
`FindsAlike` and `FailsAlike` say so of a parser and the parsers with more levels; `FailsAlike` says
besides that the tokens in front of an error can be completed to what the parser looks for. Each
combinator keeps both, and `unary_widens` and `unary_failsAlike` close the circle by induction on
the levels left.
-/

set_option autoImplicit false
set_option relaxedAutoImplicit false

namespace Formulary.Formula

/-! ### The first of some tokens -/

/-- Tokens start with a lexeme of some kind or do not. -/
theorem head_cases {Kind : Type} (kind? : Lexeme → Option Kind) (tokens : List Token) :
    (∀ token ∈ tokens.head?, kind? token.lexeme = none) ∨
      ∃ token behind kind, tokens = token :: behind ∧ kind? token.lexeme = some kind := by
  cases tokens with
  | nil => exact Or.inl (by simp)
  | cons token behind =>
    cases hkind : kind? token.lexeme with
    | none => exact Or.inl (by simpa using hkind)
    | some kind => exact Or.inr ⟨token, behind, kind, rfl, hkind⟩

/-- Tokens start with a mark or do not. -/
theorem mark_cases (mark : Mark) (tokens : List Token) :
    (∀ token ∈ tokens.head?, token.lexeme ≠ .mark mark) ∨
      ∃ position behind, tokens = ⟨.mark mark, position⟩ :: behind := by
  cases tokens with
  | nil => exact Or.inl (by simp)
  | cons token behind =>
    by_cases hmark : token.lexeme = .mark mark
    · exact Or.inr ⟨token.position, behind, by rw [← hmark]⟩
    · exact Or.inl (by simpa using hmark)

theorem head?_append_congr {rest other : List Token} (hother : other.head? = rest.head?)
    (front : List Token) : (front ++ other).head? = (front ++ rest).head? := by
  rw [List.head?_append, List.head?_append, hother]

/-! ### A parser and those with more levels -/

section Wider

variable {Result : Type}

/-- What a parser finds is found by all of some others too, whatever stands behind the next
token. -/
def FindsAlike (parser : Parse Result) (wider : Nat → Parse Result) : Prop :=
  ∀ tokens result rest, parser tokens = .ok (result, rest) →
    ∃ taken, tokens = taken ++ rest ∧ ∀ more other, other.head? = rest.head? →
      wider more (taken ++ other) = .ok (result, other)

/-- An error belongs between the tokens that have been read and the rest: the former can be
completed to something that a relation ties to a result, and all of some parsers report the error
there, whatever stands behind the next token. -/
structure FailsBetween (finish : Nat) (derives : List Lexeme → Result → Prop)
    (wider : Nat → Parse Result) (error : SyntaxError) (done rest : List Token) : Prop where
  position : error.position = here finish rest
  completes : ∃ back result, derives (done.map Token.lexeme ++ back) result
  fails : ∀ more other, other.head? = rest.head? → wider more (done ++ other) = .error error

/-- A parser fails only for want of a level or at a place where all of some others fail too. -/
def FailsAlike (finish : Nat) (derives : List Lexeme → Result → Prop) (parser : Parse Result)
    (wider : Nat → Parse Result) : Prop :=
  ∀ tokens error, parser tokens = .error error → error.cause ≠ .nestedTooDeep →
    ∃ done rest, tokens = done ++ rest ∧ FailsBetween finish derives wider error done rest

/-- Sound parsers that all find what a sound one finds. -/
structure Widens (derives : List Lexeme → Result → Prop)
    (widely : Nat → List Lexeme → Result → Prop) (parser : Parse Result)
    (wider : Nat → Parse Result) : Prop where
  sound : Sound parser derives
  widelySound : ∀ more, Sound (wider more) (widely more)
  finds : FindsAlike parser wider

variable {derives : List Lexeme → Result → Prop} {widely : Nat → List Lexeme → Result → Prop}
variable {parser : Parse Result} {wider : Nat → Parse Result}

/-- The tokens that are taken off are those that the result is derived from. -/
theorem Widens.exists_taken (hwidens : Widens derives widely parser wider)
    {tokens rest : List Token} {result : Result} (hparsed : parser tokens = .ok (result, rest)) :
    ∃ taken, tokens = taken ++ rest ∧ derives (taken.map Token.lexeme) result ∧
      ∀ more other, other.head? = rest.head? →
        wider more (taken ++ other) = .ok (result, other) := by
  obtain ⟨taken, rfl, hfound⟩ := hwidens.finds _ _ _ hparsed
  obtain ⟨same, hsame, hderives⟩ := hwidens.sound _ _ _ hparsed
  obtain rfl := List.append_cancel_right hsame
  exact ⟨taken, rfl, hderives, hfound⟩

variable {Whole : Type} {whole : List Lexeme → Whole → Prop} {outer : Nat → Parse Whole}
variable {finish : Nat} {error : SyntaxError} {done rest : List Token}

/-- An error of a part is one of the whole behind what precedes the part. -/
theorem FailsBetween.behind (hfails : FailsBetween finish derives wider error done rest)
    (front : List Token)
    (hcompletes : ∀ back result, derives back result →
      ∃ more all, whole (front.map Token.lexeme ++ (back ++ more)) all)
    (houter : ∀ more tokens, tokens.head? = (done ++ rest).head? →
      wider more tokens = .error error → outer more (front ++ tokens) = .error error) :
    FailsBetween finish whole outer error (front ++ done) rest := by
  obtain ⟨back, result, hback⟩ := hfails.completes
  obtain ⟨more, all, hall⟩ := hcompletes _ _ hback
  refine ⟨hfails.position, ⟨back ++ more, all, by simpa using hall⟩, fun levels other hother ↦ ?_⟩
  rw [List.append_assoc]
  exact houter levels _ (head?_append_congr hother done) (hfails.fails levels other hother)

/-- An error of the first part is one of the whole. -/
theorem FailsBetween.first (hfails : FailsBetween finish derives wider error done rest)
    (hcompletes : ∀ back result, derives back result → ∃ more all, whole (back ++ more) all)
    (houter : ∀ more tokens, tokens.head? = (done ++ rest).head? →
      wider more tokens = .error error → outer more tokens = .error error) :
    FailsBetween finish whole outer error done rest :=
  hfails.behind [] hcompletes houter

end Wider

/-! ### Sums and products -/

section Chain

variable {operator? : Lexeme → Option Operator} {operand : Parse Expression}
variable {wider : Nat → Parse Expression} {widely : Nat → List Lexeme → Expression → Prop}
variable {derives extended : List Lexeme → Expression → Prop} {finish : Nat}
variable {token : Token} {operator : Operator} {tokens rest : List Token}

/-- What continues an expression, with as many rounds as there are tokens. -/
def continuation (operator? : Lexeme → Option Operator) (operand : Parse Expression)
    (left : Expression) : Parse Expression := fun tokens ↦
  continueChain operator? operand tokens.length left tokens

theorem continuation_of_none (hnone : ∀ token ∈ tokens.head?, operator? token.lexeme = none)
    (left : Expression) :
    continuation operator? operand left tokens = .ok (left, tokens) :=
  continueChain_of_stops hnone _ left

theorem continuation_of_error {error : SyntaxError}
    (hoperator : operator? token.lexeme = some operator) (herror : operand tokens = .error error)
    (left : Expression) :
    continuation operator? operand left (token :: tokens) = .error error := by
  rw [continuation, List.length_cons, continueChain, hoperator, herror]

theorem continuation_of_ok (hoperand : Sound operand derives) {right : Expression}
    (hoperator : operator? token.lexeme = some operator)
    (hright : operand tokens = .ok (right, rest)) (left : Expression) :
    continuation operator? operand left (token :: tokens) =
      continuation operator? operand (.binary operator left right) rest := by
  obtain ⟨back, rfl, _⟩ := hoperand _ _ _ hright
  exact continueChain_step hoperand hoperator hright

theorem continuation_findsAlike (hoperand : Widens derives widely operand wider)
    (left : Expression) :
    FindsAlike (continuation operator? operand left)
      (fun more ↦ continuation operator? (wider more) left) := by
  intro tokens result rest hparsed
  -- Each round takes an operator and an operand, so this is no induction on the list itself.
  induction hlength : tokens.length using Nat.strongRecOn generalizing tokens left with
  | _ length ih =>
    subst hlength
    obtain hnone | ⟨token, behind, operator, rfl, hoperator⟩ := head_cases operator? tokens
    · rw [continuation_of_none hnone] at hparsed
      cases hparsed
      refine ⟨[], rfl, fun more other hother ↦ continuation_of_none ?_ _⟩
      rwa [List.nil_append, hother]
    · cases hright : operand behind with
      | error error =>
        rw [continuation_of_error hoperator hright] at hparsed
        cases hparsed
      | ok found =>
        obtain ⟨right, after⟩ := found
        rw [continuation_of_ok hoperand.sound hoperator hright] at hparsed
        obtain ⟨back, rfl, hback⟩ := hoperand.finds _ _ _ hright
        have hshorter : after.length < (token :: (back ++ after)).length := by
          rw [List.length_cons, List.length_append]
          omega
        obtain ⟨taken, rfl, htaken⟩ := ih after.length hshorter _ _ hparsed rfl
        refine ⟨token :: (back ++ taken), by simp, fun more other hother ↦ ?_⟩
        have hoperand' := hback more _ (head?_append_congr hother taken)
        beta_reduce
        rw [List.cons_append, List.append_assoc,
          continuation_of_ok (hoperand.widelySound more) hoperator hoperand']
        exact htaken more other hother

theorem chain_findsAlike (hoperand : Widens derives widely operand wider) :
    FindsAlike (chain operator? operand) (fun more ↦ chain operator? (wider more)) := by
  intro tokens result rest hparsed
  rw [chain] at hparsed
  split at hparsed
  · cases hparsed
  · rename_i first after hfirst
    obtain ⟨front, rfl, hfront⟩ := hoperand.finds _ _ _ hfirst
    obtain ⟨taken, rfl, htaken⟩ := continuation_findsAlike hoperand first _ _ _ hparsed
    refine ⟨front ++ taken, by simp, fun more other hother ↦ ?_⟩
    beta_reduce
    rw [List.append_assoc, chain, hfront more _ (head?_append_congr hother taken)]
    exact htaken more other hother

theorem continuation_failsAlike (hoperand : Widens derives widely operand wider)
    (hfails : FailsAlike finish derives operand wider)
    (hstep : ∀ front left lexeme operator back right, extended front left →
      operator? lexeme = some operator → derives back right →
      extended (front ++ lexeme :: back) (.binary operator left right))
    {front : List Lexeme} {left : Expression} (hfront : extended front left) :
    FailsAlike finish (fun back ↦ extended (front ++ back)) (continuation operator? operand left)
      (fun more ↦ continuation operator? (wider more) left) := by
  intro tokens error hparsed hcause
  induction hlength : tokens.length using Nat.strongRecOn generalizing tokens left front with
  | _ length ih =>
    subst hlength
    obtain hnone | ⟨token, behind, operator, rfl, hoperator⟩ := head_cases operator? tokens
    · rw [continuation_of_none hnone] at hparsed
      cases hparsed
    · cases hright : operand behind with
      | error other =>
        rw [continuation_of_error hoperator hright] at hparsed
        obtain rfl : other = error := Except.error.inj hparsed
        obtain ⟨done, rest, rfl, hplace⟩ := hfails _ _ hright hcause
        refine ⟨[token] ++ done, rest, rfl, hplace.behind [token] (fun back result hback ↦ ?_)
          fun more tokens _ htokens ↦ continuation_of_error hoperator htokens left⟩
        exact ⟨[], _, by simpa using hstep _ _ _ _ _ _ hfront hoperator hback⟩
      | ok found =>
        obtain ⟨right, after⟩ := found
        rw [continuation_of_ok hoperand.sound hoperator hright] at hparsed
        obtain ⟨back, rfl, hback, hfound⟩ := hoperand.exists_taken hright
        have hshorter : after.length < (token :: (back ++ after)).length := by
          rw [List.length_cons, List.length_append]
          omega
        obtain ⟨done, rest, rfl, hplace⟩ := ih after.length hshorter
          (hstep _ _ _ _ _ _ hfront hoperator hback) _ hparsed rfl
        refine ⟨token :: back ++ done, rest, by simp, hplace.behind (token :: back)
          (fun more result hmore ↦ ⟨[], result, by simpa using hmore⟩)
          fun more tokens htokens hfailed ↦ ?_⟩
        rw [List.cons_append,
          continuation_of_ok (hoperand.widelySound more) hoperator (hfound more _ htokens)]
        exact hfailed

theorem chain_failsAlike (hoperand : Widens derives widely operand wider)
    (hfails : FailsAlike finish derives operand wider)
    (hbase : ∀ lexemes tree, derives lexemes tree → extended lexemes tree)
    (hstep : ∀ front left lexeme operator back right, extended front left →
      operator? lexeme = some operator → derives back right →
      extended (front ++ lexeme :: back) (.binary operator left right)) :
    FailsAlike finish extended (chain operator? operand)
      (fun more ↦ chain operator? (wider more)) := by
  intro tokens error hparsed hcause
  rw [chain] at hparsed
  split at hparsed
  · rename_i other hfirst
    obtain rfl : other = error := Except.error.inj hparsed
    obtain ⟨done, rest, rfl, hplace⟩ := hfails _ _ hfirst hcause
    refine ⟨done, rest, rfl, hplace.first (fun back result hback ↦ ?_)
      fun more tokens _ hfailed ↦ by rw [chain, hfailed]⟩
    exact ⟨[], result, by simpa using hbase _ _ hback⟩
  · rename_i first after hfirst
    obtain ⟨front, rfl, hfront, hfound⟩ := hoperand.exists_taken hfirst
    obtain ⟨done, rest, rfl, hplace⟩ := continuation_failsAlike hoperand hfails hstep
      (hbase _ _ hfront) _ _ hparsed hcause
    refine ⟨front ++ done, rest, by simp, hplace.behind front
      (fun back result hback ↦ ⟨[], result, by simpa using hback⟩)
      fun more tokens htokens hfailed ↦ ?_⟩
    rw [chain, hfound more _ htokens]
    exact hfailed

end Chain

/-! ### Arguments -/

section Arguments

variable {argument : Parse Expression} {derives : List Lexeme → Expression → Prop}
variable {wider : Nat → Parse Expression} {widely : Nat → List Lexeme → Expression → Prop}
variable {finish position : Nat} {tokens rest : List Token} {value : Expression}

/-- The arguments of a call, with as many rounds as there are tokens. -/
def listed (argument : Parse Expression) : Parse (List Expression) := fun tokens ↦
  arguments argument tokens.length tokens

/-- Some values are derived from lexemes with commas between them. -/
def DerivesListed (derives : List Lexeme → Expression → Prop) (lexemes : List Lexeme)
    (values : List Expression) : Prop :=
  ∃ pairs, pairs ≠ [] ∧ lexemes = separated pairs ∧ values = pairs.map Prod.snd ∧
    ∀ pair ∈ pairs, derives pair.1 pair.2

theorem DerivesListed.singleton {lexemes : List Lexeme} (hderives : derives lexemes value) :
    DerivesListed derives lexemes [value] :=
  ⟨[(lexemes, value)], by simp, by simp, by simp, by simpa using hderives⟩

theorem DerivesListed.cons {front back : List Lexeme} {values : List Expression}
    (hback : DerivesListed derives back values) (hfront : derives front value) :
    DerivesListed derives (front ++ .mark .comma :: back) (value :: values) := by
  obtain ⟨pairs, hpairs, rfl, rfl, hderives⟩ := hback
  exact ⟨(front, value) :: pairs, List.cons_ne_nil _ _,
    (separated_cons hpairs (front, value)).symm, rfl, List.forall_mem_cons.mpr ⟨hfront, hderives⟩⟩

theorem arguments_of_error {error : SyntaxError} (herror : argument tokens = .error error)
    (rounds : Nat) : arguments argument rounds tokens = .error error := by
  cases rounds with
  | zero => rw [arguments, herror]
  | succ rounds => rw [arguments, herror]

theorem arguments_of_last (hvalue : argument tokens = .ok (value, rest))
    (hlast : ∀ token ∈ rest.head?, token.lexeme ≠ .mark .comma) (rounds : Nat) :
    arguments argument rounds tokens = .ok ([value], rest) := by
  cases rounds with
  | zero => rw [arguments, hvalue]
  | succ rounds =>
    rw [arguments, hvalue]
    cases rest with
    | nil => rfl
    | cons token rest =>
      split
      · rename_i hequal
        cases hequal
      · rename_i hequal
        cases hequal
        exact absurd rfl (hlast _ rfl)
      · rename_i hequal
        cases hequal
        rfl

theorem arguments_of_comma
    (hvalue : argument tokens = .ok (value, ⟨.mark .comma, position⟩ :: rest)) (rounds : Nat) :
    arguments argument (rounds + 1) tokens =
      match arguments argument rounds rest with
      | .error error => .error error
      | .ok (others, after) => .ok (value :: others, after) := by
  cases hothers : arguments argument rounds rest <;> simp only [arguments, hvalue, hothers]

/-- The number of rounds makes no difference as long as it covers the tokens. -/
theorem arguments_rounds (hargument : Sound argument derives) {first second : Nat}
    (hfirst : tokens.length ≤ first) (hsecond : tokens.length ≤ second) :
    arguments argument first tokens = arguments argument second tokens := by
  induction hlength : tokens.length using Nat.strongRecOn generalizing first second tokens with
  | _ length ih =>
    subst hlength
    cases hvalue : argument tokens with
    | error error => rw [arguments_of_error hvalue, arguments_of_error hvalue]
    | ok found =>
      obtain ⟨value, rest⟩ := found
      obtain hlast | ⟨position, behind, rfl⟩ := mark_cases .comma rest
      · rw [arguments_of_last hvalue hlast, arguments_of_last hvalue hlast]
      · have hshorter : behind.length + 1 ≤ tokens.length := hargument.length_le hvalue
        obtain ⟨first, rfl⟩ := Nat.exists_eq_add_one_of_ne_zero (n := first) (by omega)
        obtain ⟨second, rfl⟩ := Nat.exists_eq_add_one_of_ne_zero (n := second) (by omega)
        have hfewer : behind.length ≤ first := by omega
        have hother : behind.length ≤ second := by omega
        rw [arguments_of_comma hvalue, arguments_of_comma hvalue,
          ih behind.length hshorter hfewer hother rfl]

theorem listed_of_comma (hargument : Sound argument derives)
    (hvalue : argument tokens = .ok (value, ⟨.mark .comma, position⟩ :: rest)) :
    listed argument tokens =
      match listed argument rest with
      | .error error => .error error
      | .ok (others, after) => .ok (value :: others, after) := by
  have hshorter : rest.length + 1 ≤ tokens.length := hargument.length_le hvalue
  rw [listed, arguments_rounds hargument (Nat.le_refl _) (Nat.le_succ _),
    arguments_of_comma hvalue, listed,
    arguments_rounds hargument (by omega) (Nat.le_refl rest.length)]

theorem listed_sound (hargument : Sound argument derives) :
    Sound (listed argument) (DerivesListed derives) := by
  intro tokens values rest hparsed
  obtain ⟨taken, pairs, rfl, hpairs, hlexemes, rfl, hderives⟩ :=
    arguments_sound hargument _ _ _ _ hparsed
  exact ⟨taken, rfl, pairs, hpairs, hlexemes, rfl, hderives⟩

theorem listed_widens (hargument : Widens derives widely argument wider) :
    Widens (DerivesListed derives) (fun more ↦ DerivesListed (widely more)) (listed argument)
      (fun more ↦ listed (wider more)) := by
  refine ⟨listed_sound hargument.sound, fun more ↦ listed_sound (hargument.widelySound more), ?_⟩
  intro tokens values rest hparsed
  induction hlength : tokens.length using Nat.strongRecOn generalizing tokens values with
  | _ length ih =>
    subst hlength
    cases hvalue : argument tokens with
    | error error =>
      rw [listed, arguments_of_error hvalue] at hparsed
      cases hparsed
    | ok found =>
      obtain ⟨value, after⟩ := found
      have hshorter := hargument.sound.length_le hvalue
      obtain ⟨front, rfl, hfound⟩ := hargument.finds _ _ _ hvalue
      obtain hlast | ⟨position, behind, rfl⟩ := mark_cases .comma after
      · rw [listed, arguments_of_last hvalue hlast] at hparsed
        cases hparsed
        refine ⟨front, rfl, fun more other hother ↦ ?_⟩
        exact arguments_of_last (hfound more other hother) (by rwa [hother]) _
      · rw [listed_of_comma hargument.sound hvalue] at hparsed
        split at hparsed
        · cases hparsed
        · rename_i others later hothers
          cases hparsed
          obtain ⟨taken, rfl, htaken⟩ := ih behind.length hshorter _ _ hothers rfl
          refine ⟨front ++ ⟨.mark .comma, position⟩ :: taken, by simp, fun more other hother ↦ ?_⟩
          have hfirst := hfound more (⟨.mark .comma, position⟩ :: (taken ++ other)) rfl
          have hbehind := htaken more other hother
          beta_reduce at hbehind ⊢
          rw [List.append_assoc, List.cons_append,
            listed_of_comma (hargument.widelySound more) hfirst, hbehind]

theorem listed_failsAlike (hargument : Widens derives widely argument wider)
    (hfails : FailsAlike finish derives argument wider) :
    FailsAlike finish (DerivesListed derives) (listed argument)
      (fun more ↦ listed (wider more)) := by
  intro tokens error hparsed hcause
  induction hlength : tokens.length using Nat.strongRecOn generalizing tokens with
  | _ length ih =>
    subst hlength
    cases hvalue : argument tokens with
    | error other =>
      rw [listed, arguments_of_error hvalue] at hparsed
      obtain rfl : other = error := Except.error.inj hparsed
      obtain ⟨done, rest, rfl, hplace⟩ := hfails _ _ hvalue hcause
      refine ⟨done, rest, rfl, hplace.first (fun back value hback ↦ ?_)
        fun more tokens _ hfailed ↦ arguments_of_error hfailed _⟩
      exact ⟨[], [value], by simpa using DerivesListed.singleton hback⟩
    | ok found =>
      obtain ⟨value, after⟩ := found
      have hshorter := hargument.sound.length_le hvalue
      obtain ⟨front, rfl, hfront, hfound⟩ := hargument.exists_taken hvalue
      obtain hlast | ⟨position, behind, rfl⟩ := mark_cases .comma after
      · rw [listed, arguments_of_last hvalue hlast] at hparsed
        cases hparsed
      · rw [listed_of_comma hargument.sound hvalue] at hparsed
        split at hparsed
        · rename_i other hothers
          obtain rfl : other = error := Except.error.inj hparsed
          obtain ⟨done, rest, rfl, hplace⟩ := ih behind.length hshorter _ hothers rfl
          refine ⟨(front ++ [⟨.mark .comma, position⟩]) ++ done, rest, by simp,
            hplace.behind (front ++ [⟨.mark .comma, position⟩])
              (fun back values hback ↦ ⟨[], _, by simpa using hback.cons hfront⟩)
              fun more tokens _ hfailed ↦ ?_⟩
          have hfirst := hfound more (⟨.mark .comma, position⟩ :: tokens) rfl
          rw [List.append_assoc, List.singleton_append,
            listed_of_comma (hargument.widelySound more) hfirst, hfailed]
        · cases hparsed

end Arguments

/-! ### Calls and primaries -/

section Primary

variable {inner : Parse Expression} {wider : Nat → Parse Expression}
variable {widely : Nat → List Lexeme → Expression → Prop}
variable {finish nesting position : Nat} {function : String} {tokens other : List Token}

/-- A missing closing parenthesis is reported at the next token. -/
theorem close_eq_error {Result : Type} {cause : SyntaxCause}
    (hopen : ∀ token ∈ tokens.head?, token.lexeme ≠ .mark .closeParenthesis)
    (hother : other.head? = tokens.head?) (result : Result) :
    close finish cause result other = .error ⟨here finish tokens, cause⟩ := by
  cases other with
  | nil =>
    obtain rfl := List.head?_eq_none_iff.mp hother.symm
    rfl
  | cons token behind =>
    obtain ⟨later, rfl⟩ := List.head?_eq_some_iff.mp hother.symm
    rw [close]
    · rfl
    · rintro position rest hequal
      cases hequal
      exact hopen _ rfl rfl

/-- What does not start with a closing parenthesis is read as arguments. -/
theorem call_of_open
    (hopen : ∀ token ∈ tokens.head?, token.lexeme ≠ .mark .closeParenthesis) :
    call finish function inner tokens =
      match listed inner tokens with
      | .error error => .error error
      | .ok (values, rest) => close finish .unclosedArguments (.call function values) rest := by
  rw [call]
  · rfl
  · rintro position rest rfl
    exact hopen _ rfl rfl

theorem call_findsAlike (hinner : Widens (Derives .sum nesting) widely inner wider) :
    FindsAlike (call finish function inner) (fun more ↦ call finish function (wider more)) := by
  intro tokens tree rest hparsed
  obtain hopen | ⟨position, behind, rfl⟩ := mark_cases .closeParenthesis tokens
  · rw [call_of_open hopen] at hparsed
    split at hparsed
    · cases hparsed
    · rename_i values after hvalues
      obtain ⟨rfl, closing, rfl⟩ := close_eq_ok_iff.mp hparsed
      obtain ⟨taken, rfl, htaken⟩ := (listed_widens hinner).finds _ _ _ hvalues
      refine ⟨taken ++ [⟨.mark .closeParenthesis, closing⟩], by simp, fun more other _ ↦ ?_⟩
      have hhead : (taken ++ ⟨.mark .closeParenthesis, closing⟩ :: other).head? =
          (taken ++ ⟨.mark .closeParenthesis, closing⟩ :: rest).head? :=
        head?_append_congr (by rfl) taken
      have hfound := htaken more (⟨.mark .closeParenthesis, closing⟩ :: other) rfl
      beta_reduce at hfound ⊢
      rw [List.append_assoc, List.singleton_append, call_of_open (by rwa [hhead]), hfound]
      rfl
  · cases hparsed
    exact ⟨[⟨.mark .closeParenthesis, position⟩], rfl, fun _ _ _ ↦ rfl⟩

/-- Where a call fails, one of its arguments does or its parenthesis is missing. -/
theorem call_failsAlike (hinner : Widens (Derives .sum nesting) widely inner wider)
    (hfails : FailsAlike finish (Derives .sum nesting) inner wider) :
    FailsAlike finish
      (fun back ↦ Derives .primary nesting (.name function :: .mark .openParenthesis :: back))
      (call finish function inner) (fun more ↦ call finish function (wider more)) := by
  have hcall : ∀ (lexemes : List Lexeme) (values : List Expression),
      DerivesListed (Derives .sum nesting) lexemes values →
      Derives .primary nesting (.name function :: .mark .openParenthesis ::
        (lexemes ++ [.mark .closeParenthesis])) (.call function values) := by
    rintro _ _ ⟨pairs, _, rfl, rfl, hpairs⟩
    exact .call function pairs hpairs
  intro tokens error hparsed hcause
  obtain hopen | ⟨position, behind, rfl⟩ := mark_cases .closeParenthesis tokens
  · rw [call_of_open hopen] at hparsed
    split at hparsed
    · rename_i other hvalues
      obtain rfl : other = error := Except.error.inj hparsed
      obtain ⟨done, rest, rfl, hplace⟩ := listed_failsAlike hinner hfails _ _ hvalues hcause
      refine ⟨done, rest, rfl, hplace.first (fun back values hback ↦ ⟨_, _, hcall _ _ hback⟩)
        fun more tokens htokens hfailed ↦ ?_⟩
      rw [call_of_open (by rwa [htokens]), hfailed]
    · rename_i values after hvalues
      obtain ⟨taken, rfl, htaken, hfound⟩ := (listed_widens hinner).exists_taken hvalues
      obtain hafter | ⟨closing, behind, rfl⟩ := mark_cases .closeParenthesis after
      · rw [close_eq_error hafter rfl] at hparsed
        obtain rfl := Except.error.inj hparsed
        refine ⟨taken, after, rfl, rfl, ⟨_, _, hcall _ _ htaken⟩, fun more other hother ↦ ?_⟩
        rw [call_of_open (by rwa [head?_append_congr hother taken]), hfound more other hother]
        exact close_eq_error hafter hother _
      · cases hparsed
  · cases hparsed

/-- A name in front of an opening parenthesis is the function of a call. -/
theorem primary_call {opening : Nat} :
    primary finish inner
        (⟨.name function, position⟩ :: ⟨.mark .openParenthesis, opening⟩ :: tokens) =
      call finish function inner tokens := rfl

theorem primary_mark {mark : Mark} (hmark : mark ≠ .openParenthesis) :
    primary finish inner (⟨.mark mark, position⟩ :: tokens) =
      .error ⟨position, .unexpectedMark mark⟩ := by
  cases mark <;> first | rfl | exact absurd rfl hmark

theorem primary_findsAlike (hinner : Widens (Derives .sum nesting) widely inner wider) :
    FindsAlike (primary finish inner) (fun more ↦ primary finish (wider more)) := by
  intro tokens tree rest hparsed
  cases tokens with
  | nil => cases hparsed
  | cons token tokens =>
    obtain ⟨lexeme, position⟩ := token
    cases lexeme with
    | number value =>
      cases hparsed
      exact ⟨[⟨.number value, position⟩], rfl, fun _ _ _ ↦ rfl⟩
    | name text =>
      obtain hopen | ⟨opening, behind, rfl⟩ := mark_cases .openParenthesis tokens
      · rw [primary_name hopen] at hparsed
        cases hparsed
        refine ⟨[⟨.name text, position⟩], rfl, fun more other hother ↦ ?_⟩
        beta_reduce
        rw [List.singleton_append, primary_name (by rwa [hother])]
      · obtain ⟨taken, rfl, htaken⟩ := call_findsAlike hinner _ _ _ hparsed
        exact ⟨⟨.name text, position⟩ :: ⟨.mark .openParenthesis, opening⟩ :: taken, rfl, htaken⟩
    | mark mark =>
      by_cases hmark : mark = .openParenthesis
      · subst hmark
        rw [primary_group] at hparsed
        split at hparsed
        · cases hparsed
        · rename_i expression after hexpression
          obtain ⟨rfl, closing, rfl⟩ := close_eq_ok_iff.mp hparsed
          obtain ⟨taken, rfl, htaken⟩ := hinner.finds _ _ _ hexpression
          refine ⟨⟨.mark .openParenthesis, position⟩ ::
            (taken ++ [⟨.mark .closeParenthesis, closing⟩]), by simp, fun more other _ ↦ ?_⟩
          have hfound := htaken more (⟨.mark .closeParenthesis, closing⟩ :: other) rfl
          beta_reduce
          rw [List.cons_append, List.append_assoc, List.singleton_append, primary_group, hfound]
          rfl
      · rw [primary_mark hmark] at hparsed
        cases hparsed

/-- Where a group fails, what it encloses does or its parenthesis is missing. -/
theorem group_failsAlike (hinner : Widens (Derives .sum nesting) widely inner wider)
    (hfails : FailsAlike finish (Derives .sum nesting) inner wider) {error : SyntaxError}
    (hparsed : primary finish inner (⟨.mark .openParenthesis, position⟩ :: tokens) = .error error)
    (hcause : error.cause ≠ .nestedTooDeep) :
    ∃ done rest, ⟨.mark .openParenthesis, position⟩ :: tokens = done ++ rest ∧
      FailsBetween finish (Derives .primary nesting) (fun more ↦ primary finish (wider more)) error
        done rest := by
  rw [primary_group] at hparsed
  split at hparsed
  · rename_i other hexpression
    obtain rfl : other = error := Except.error.inj hparsed
    obtain ⟨done, rest, rfl, hplace⟩ := hfails _ _ hexpression hcause
    refine ⟨[⟨.mark .openParenthesis, position⟩] ++ done, rest, rfl,
      hplace.behind _ (fun back tree hback ↦ ⟨_, tree, hback.group⟩)
        fun more tokens _ hfailed ↦ ?_⟩
    rw [List.singleton_append, primary_group, hfailed]
  · rename_i expression after hexpression
    obtain ⟨taken, rfl, htaken, hfound⟩ := hinner.exists_taken hexpression
    obtain hafter | ⟨closing, behind, rfl⟩ := mark_cases .closeParenthesis after
    · rw [close_eq_error hafter rfl] at hparsed
      obtain rfl := Except.error.inj hparsed
      refine ⟨⟨.mark .openParenthesis, position⟩ :: taken, after, rfl, rfl,
        ⟨_, _, htaken.group⟩, fun more other hother ↦ ?_⟩
      rw [List.cons_append, primary_group, hfound more other hother]
      exact close_eq_error hafter hother _
    · cases hparsed

theorem primary_failsAlike (hinner : Widens (Derives .sum nesting) widely inner wider)
    (hfails : FailsAlike finish (Derives .sum nesting) inner wider) :
    FailsAlike finish (Derives .primary nesting) (primary finish inner)
      (fun more ↦ primary finish (wider more)) := by
  intro tokens error hparsed hcause
  cases tokens with
  | nil =>
    obtain rfl := Except.error.inj hparsed
    refine ⟨[], [], rfl, rfl, ⟨_, _, .name "x"⟩, fun more other hother ↦ ?_⟩
    obtain rfl := List.head?_eq_none_iff.mp hother
    rfl
  | cons token tokens =>
    obtain ⟨lexeme, position⟩ := token
    cases lexeme with
    | number value => cases hparsed
    | name text =>
      obtain hopen | ⟨opening, behind, rfl⟩ := mark_cases .openParenthesis tokens
      · rw [primary_name hopen] at hparsed
        cases hparsed
      · rw [primary_call] at hparsed
        obtain ⟨done, rest, rfl, hplace⟩ := call_failsAlike hinner hfails _ _ hparsed hcause
        refine ⟨[⟨.name text, position⟩, ⟨.mark .openParenthesis, opening⟩] ++ done, rest, rfl,
          hplace.behind [⟨.name text, position⟩, ⟨.mark .openParenthesis, opening⟩]
            (fun back tree hback ↦ ⟨[], tree, ?_⟩) fun more tokens _ hfailed ↦ hfailed⟩
        rwa [List.append_nil]
    | mark mark =>
      by_cases hmark : mark = .openParenthesis
      · subst hmark
        exact group_failsAlike hinner hfails hparsed hcause
      · rw [primary_mark hmark] at hparsed
        obtain rfl := Except.error.inj hparsed
        refine ⟨[], _, rfl, rfl, ⟨_, _, .name "x"⟩, fun more other hother ↦ ?_⟩
        obtain ⟨behind, rfl⟩ := List.head?_eq_some_iff.mp hother
        exact primary_mark hmark

end Primary

/-! ### Powers and signs -/

section Unary

variable {operand : Parse Expression} {wider : Nat → Parse Expression} {nesting finish : Nat}
variable (hoperand : Widens (Derives .unary nesting)
  (fun more ↦ Derives .unary (nesting + more)) operand wider)

include hoperand

theorem product_widens :
    Widens (Derives .product nesting) (fun more ↦ Derives .product (nesting + more))
      (chain multiplicative? operand) (fun more ↦ chain multiplicative? (wider more)) :=
  ⟨product_sound hoperand.sound, fun more ↦ product_sound (hoperand.widelySound more),
    chain_findsAlike hoperand⟩

theorem sum_widens :
    Widens (Derives .sum nesting) (fun more ↦ Derives .sum (nesting + more))
      (sum operand) (fun more ↦ sum (wider more)) :=
  ⟨sum_sound hoperand.sound, fun more ↦ sum_sound (hoperand.widelySound more),
    chain_findsAlike (product_widens hoperand)⟩

theorem primary_widens :
    Widens (Derives .primary nesting) (fun more ↦ Derives .primary (nesting + more))
      (primary finish (sum operand)) (fun more ↦ primary finish (sum (wider more))) :=
  ⟨primary_sound (sum_widens hoperand).sound,
    fun more ↦ primary_sound ((sum_widens hoperand).widelySound more),
    primary_findsAlike (sum_widens hoperand)⟩

theorem sum_failsAlike (hfails : FailsAlike finish (Derives .unary nesting) operand wider) :
    FailsAlike finish (Derives .sum nesting) (sum operand) (fun more ↦ sum (wider more)) := by
  have hproduct : FailsAlike finish (Derives .product nesting) (chain multiplicative? operand)
      (fun more ↦ chain multiplicative? (wider more)) :=
    chain_failsAlike hoperand hfails (fun _ _ ↦ .unary) fun _ _ _ _ _ _ ↦ Derives.extend_product
  exact chain_failsAlike (product_widens hoperand) hproduct (fun _ _ ↦ .product)
    fun _ _ _ _ _ _ ↦ Derives.extend_sum

theorem power_findsAlike :
    FindsAlike (power finish operand) (fun more ↦ power finish (wider more)) := by
  intro tokens tree rest hparsed
  cases hbase : primary finish (sum operand) tokens with
  | error error =>
    rw [power, hbase] at hparsed
    cases hparsed
  | ok found =>
    obtain ⟨base, after⟩ := found
    obtain ⟨front, rfl, hfound⟩ := (primary_widens hoperand).finds _ _ _ hbase
    obtain hcaret | ⟨position, behind, rfl⟩ := mark_cases .caret after
    · rw [power_eq_primary hbase hcaret] at hparsed
      cases hparsed
      exact ⟨front, rfl, fun more other hother ↦
        power_eq_primary (hfound more other hother) (by rwa [hother])⟩
    · rw [power_raise hbase] at hparsed
      split at hparsed
      · cases hparsed
      · rename_i exponent later hexponent
        cases hparsed
        obtain ⟨taken, rfl, htaken⟩ := hoperand.finds _ _ _ hexponent
        refine ⟨front ++ ⟨.mark .caret, position⟩ :: taken, by simp, fun more other hother ↦ ?_⟩
        have hraised := hfound more (⟨.mark .caret, position⟩ :: (taken ++ other)) rfl
        beta_reduce
        rw [List.append_assoc, List.cons_append, power_raise hraised, htaken more other hother]

theorem power_failsAlike (hfails : FailsAlike finish (Derives .unary nesting) operand wider) :
    FailsAlike finish (Derives .power nesting) (power finish operand)
      (fun more ↦ power finish (wider more)) := by
  intro tokens error hparsed hcause
  cases hbase : primary finish (sum operand) tokens with
  | error other =>
    rw [power, hbase] at hparsed
    obtain rfl : other = error := Except.error.inj hparsed
    obtain ⟨done, rest, rfl, hplace⟩ := primary_failsAlike (sum_widens hoperand)
      (sum_failsAlike hoperand hfails) _ _ hbase hcause
    refine ⟨done, rest, rfl, hplace.first (fun back tree hback ↦ ⟨[], tree, ?_⟩)
      fun more tokens _ hfailed ↦ by rw [power, hfailed]⟩
    rw [List.append_nil]
    exact hback.primary
  | ok found =>
    obtain ⟨base, after⟩ := found
    obtain ⟨front, rfl, hfront, hfound⟩ := (primary_widens hoperand).exists_taken hbase
    obtain hcaret | ⟨position, behind, rfl⟩ := mark_cases .caret after
    · rw [power_eq_primary hbase hcaret] at hparsed
      cases hparsed
    · rw [power_raise hbase] at hparsed
      split at hparsed
      · rename_i other hexponent
        obtain rfl : other = error := Except.error.inj hparsed
        obtain ⟨done, rest, rfl, hplace⟩ := hfails _ _ hexponent hcause
        refine ⟨(front ++ [⟨.mark .caret, position⟩]) ++ done, rest, by simp,
          hplace.behind (front ++ [⟨.mark .caret, position⟩])
            (fun back exponent hback ↦ ⟨[], _, by simpa using hfront.raise hback⟩)
            fun more tokens _ hfailed ↦ ?_⟩
        have hraised := hfound more (⟨.mark .caret, position⟩ :: tokens) rfl
        rw [List.append_assoc, List.singleton_append, power_raise hraised, hfailed]
      · cases hparsed

end Unary

/-- With more levels the parser finds what it finds with some. -/
theorem unary_widens (finish levels : Nat) :
    Widens (Derives .unary levels) (fun more ↦ Derives .unary (levels + more))
      (unary finish levels) (fun more ↦ unary finish (levels + more)) := by
  induction levels with
  | zero =>
    refine ⟨unary_sound finish 0, fun more ↦ unary_sound finish _, ?_⟩
    intro tokens tree rest hparsed
    cases hparsed
  | succ levels ih =>
    refine ⟨unary_sound finish _, fun more ↦ unary_sound finish _, ?_⟩
    intro tokens tree rest hparsed
    simp only [Nat.add_right_comm levels 1]
    obtain hnone | ⟨token, behind, sign, rfl, hsign⟩ := head_cases sign? tokens
    · rw [unary_eq_power hnone] at hparsed
      obtain ⟨taken, rfl, htaken⟩ := power_findsAlike ih _ _ _ hparsed
      refine ⟨taken, rfl, fun more other hother ↦ ?_⟩
      rw [unary_eq_power (by rwa [head?_append_congr hother taken])]
      exact htaken more other hother
    · rw [unary_sign hsign] at hparsed
      split at hparsed
      · cases hparsed
      · rename_i operand after hoperand
        cases hparsed
        obtain ⟨taken, rfl, htaken⟩ := ih.finds _ _ _ hoperand
        refine ⟨token :: taken, rfl, fun more other hother ↦ ?_⟩
        have hfound := htaken more other hother
        beta_reduce at hfound ⊢
        rw [List.cons_append, unary_sign hsign, hfound]

/-- With more levels the parser fails where it fails with some, unless these were too few. -/
theorem unary_failsAlike (finish levels : Nat) :
    FailsAlike finish (Derives .unary levels) (unary finish levels)
      (fun more ↦ unary finish (levels + more)) := by
  induction levels with
  | zero =>
    intro tokens error hparsed hcause
    obtain rfl := Except.error.inj hparsed
    exact absurd rfl hcause
  | succ levels ih =>
    intro tokens error hparsed hcause
    simp only [Nat.add_right_comm levels 1]
    obtain hnone | ⟨token, behind, sign, rfl, hsign⟩ := head_cases sign? tokens
    · rw [unary_eq_power hnone] at hparsed
      obtain ⟨done, rest, rfl, hplace⟩ :=
        power_failsAlike (unary_widens finish levels) ih _ _ hparsed hcause
      refine ⟨done, rest, rfl, hplace.first (fun back tree hback ↦ ⟨[], tree, ?_⟩)
        fun more tokens htokens hfailed ↦ ?_⟩
      · rw [List.append_nil]
        exact hback.power
      · rw [unary_eq_power (by rwa [htokens])]
        exact hfailed
    · rw [unary_sign hsign] at hparsed
      split at hparsed
      · rename_i other hoperand
        obtain rfl : other = error := Except.error.inj hparsed
        obtain ⟨done, rest, rfl, hplace⟩ := ih _ _ hoperand hcause
        refine ⟨[token] ++ done, rest, rfl, hplace.behind [token]
          (fun back tree hback ↦ ⟨[], .signed sign tree, ?_⟩) fun more tokens _ hfailed ↦ ?_⟩
        · obtain ⟨mark, hmark, hsigns⟩ := (sign?_eq_some_iff token.lexeme sign).mp hsign
          rw [List.append_nil, List.map_singleton, hmark]
          exact .sign hsigns hback
        · rw [List.singleton_append, unary_sign hsign, hfailed]
      · cases hparsed

end Formulary.Formula
