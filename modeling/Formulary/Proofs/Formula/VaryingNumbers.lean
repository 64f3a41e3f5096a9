import Formulary.Proofs.Formula.Grammar

/-!
# Formulas that differ in their numbers

`Varies` says that lexemes are those of another list but for their numbers: a number may be another
one or, unless it follows a name, a negative one in parentheses. Behind a name the parentheses would
make a call. Lexemes that vary so are formulas together: a derivation of the first ones goes through
for the second ones on two more levels, `Derives.exists_second`, and one of the second ones for the
first ones on the same levels, `Derives.exists_first`. The latter rests on `Derives.balanced`: what
the grammar derives closes what it opens, so that a derivation never ends inside the parentheses of
a negative number.
-/

set_option autoImplicit false
set_option relaxedAutoImplicit false

namespace Formulary.Formula

variable {before : Option Lexeme} {first second front back lexemes : List Lexeme}
  {category : Category} {nesting : Nat} {tree : Expression}

/-! ### Parentheses -/

/-- The number of parentheses that are open behind some lexemes, with so many open in front of
them; none where one is closed that was not open. -/
def openAfter : Nat → List Lexeme → Option Nat
  | count, [] => some count
  | count, .mark .openParenthesis :: rest => openAfter (count + 1) rest
  | 0, .mark .closeParenthesis :: _ => none
  | count + 1, .mark .closeParenthesis :: rest => openAfter count rest
  | count, _ :: rest => openAfter count rest

/-- Lexemes that close what they open and nothing else. -/
def Balanced (lexemes : List Lexeme) : Prop :=
  ∀ count, openAfter count lexemes = some count

theorem openAfter_append (count : Nat) (front back : List Lexeme) :
    openAfter count (front ++ back) = (openAfter count front).bind (openAfter · back) := by
  fun_induction openAfter count front <;> simp_all [openAfter]

theorem balanced_nil : Balanced [] :=
  fun _ ↦ rfl

theorem Balanced.append (hfront : Balanced front) (hback : Balanced back) :
    Balanced (front ++ back) := fun count ↦ by
  rw [openAfter_append, hfront count]
  exact hback count

/-- A lexeme that is no parenthesis. -/
def Lexeme.IsPlain (lexeme : Lexeme) : Prop :=
  lexeme ≠ .mark .openParenthesis ∧ lexeme ≠ .mark .closeParenthesis

theorem openAfter_cons {lexeme : Lexeme} (hlexeme : lexeme.IsPlain) (count : Nat)
    (rest : List Lexeme) : openAfter count (lexeme :: rest) = openAfter count rest := by
  obtain ⟨hopen, hclose⟩ := hlexeme
  match lexeme, count with
  | .number _, 0 => rfl
  | .number _, _ + 1 => rfl
  | .name _, 0 => rfl
  | .name _, _ + 1 => rfl
  | .mark mark, 0 => cases mark <;> first | rfl | exact absurd rfl hopen | exact absurd rfl hclose
  | .mark mark, _ + 1 =>
    cases mark <;> first | rfl | exact absurd rfl hopen | exact absurd rfl hclose

theorem Balanced.cons {lexeme : Lexeme} (hlexeme : lexeme.IsPlain) (hlexemes : Balanced lexemes) :
    Balanced (lexeme :: lexemes) :=
  fun count ↦ (openAfter_cons hlexeme count lexemes).trans (hlexemes count)

theorem Balanced.enclosed (hlexemes : Balanced lexemes) :
    Balanced (.mark .openParenthesis :: (lexemes ++ [.mark .closeParenthesis])) := fun count ↦ by
  rw [openAfter, openAfter_append, hlexemes (count + 1)]
  rfl

theorem balanced_separated {arguments : List (List Lexeme × Expression)}
    (harguments : ∀ argument ∈ arguments, Balanced argument.1) :
    Balanced (separated arguments) :=
  separated_induction balanced_nil
    (fun _ _ hfront hback ↦ hfront.append (.cons (by simp [Lexeme.IsPlain]) hback)) harguments

theorem Joins.isPlain {mark : Mark} {operator : Operator} (hjoins : Joins category mark operator) :
    (Lexeme.mark mark).IsPlain := by
  cases hjoins <;> simp [Lexeme.IsPlain]

theorem Signs.isPlain {mark : Mark} {sign : Sign} (hsign : Signs mark sign) :
    (Lexeme.mark mark).IsPlain := by
  cases hsign <;> simp [Lexeme.IsPlain]

/-- What the grammar derives closes what it opens and nothing else. -/
theorem Derives.balanced (hderives : Derives category nesting lexemes tree) :
    Balanced lexemes := by
  induction hderives with
  | product _ ih | unary _ ih | power _ ih | primary _ ih => exact ih
  | add hjoins _ _ hfront hback | multiply hjoins _ _ hfront hback =>
    exact hfront.append (.cons hjoins.isPlain hback)
  | raise _ _ hfront hback => exact hfront.append (.cons (by simp [Lexeme.IsPlain]) hback)
  | sign hsign _ ih => exact .cons hsign.isPlain ih
  | number value => exact .cons (by simp [Lexeme.IsPlain]) balanced_nil
  | name text => exact .cons (by simp [Lexeme.IsPlain]) balanced_nil
  | call function arguments _ ih =>
    exact .cons (by simp [Lexeme.IsPlain]) (balanced_separated ih).enclosed
  | group _ ih => exact ih.enclosed

/-! ### Lexemes that vary -/

/-- The lexemes of a negative number in parentheses. -/
def negativeLexemes (value : Float) : List Lexeme :=
  [.mark .openParenthesis, .mark .minus, .number value, .mark .closeParenthesis]

/-- Lexemes behind `before` that vary in their numbers: a number may be another one or, unless it
follows a name, a negative one in parentheses. -/
inductive Varies : Option Lexeme → List Lexeme → List Lexeme → Prop
  | nil {before : Option Lexeme} : Varies before [] []
  | keep {before : Option Lexeme} {first second : List Lexeme} (lexeme : Lexeme) :
    Varies (some lexeme) first second → Varies before (lexeme :: first) (lexeme :: second)
  | number {before : Option Lexeme} {first second : List Lexeme} (value other : Float) :
    Varies (some (.number value)) first second →
    Varies before (.number value :: first) (.number other :: second)
  | negative {before : Option Lexeme} {first second : List Lexeme} (value other : Float) :
    (∀ text, before ≠ some (.name text)) → Varies (some (.number value)) first second →
    Varies before (.number value :: first) (negativeLexemes other ++ second)

theorem derives_negativeLexemes (value : Float) (nesting : Nat) :
    Derives .primary (nesting + 2) (negativeLexemes value) (.signed .negative (.number value)) :=
  .group (.product (.unary (.sign .minus (.power (.primary (.number value))))))

/-! ### Parts of what varies -/

/-- Lexemes that end inside the parentheses of a negative number. -/
def EndsInside (lexemes : List Lexeme) : Prop :=
  ∃ earlier, lexemes = earlier ++ [.mark .openParenthesis] ∨
    ∃ value, lexemes = earlier ++ [.mark .openParenthesis, .mark .minus, .number value]

theorem EndsInside.cons (hends : EndsInside lexemes) (lexeme : Lexeme) :
    EndsInside (lexeme :: lexemes) := by
  obtain ⟨earlier, rfl | ⟨value, rfl⟩⟩ := hends
  · exact ⟨lexeme :: earlier, Or.inl rfl⟩
  · exact ⟨lexeme :: earlier, Or.inr ⟨value, rfl⟩⟩

/-- Balanced lexemes end inside no parentheses. -/
theorem Balanced.not_endsInside (hlexemes : Balanced lexemes) : ¬EndsInside lexemes := by
  have hopened (earlier : List Lexeme) {inner : List Lexeme}
      (hinner : ∀ count, openAfter count inner = some (count + 1)) :
      lexemes ≠ earlier ++ inner := by
    rintro rfl
    have hzero := hlexemes 0
    rw [openAfter_append] at hzero
    cases hearlier : openAfter 0 earlier <;> simp [hearlier, hinner] at hzero
  rintro ⟨earlier, hends | ⟨value, hends⟩⟩
  · exact hopened earlier (fun _ ↦ rfl) hends
  · exact hopened earlier (fun _ ↦ rfl) hends

/-- What varies from two lists side by side is two lists side by side. -/
theorem Varies.of_append (hvaries : Varies before (front ++ back) second) :
    ∃ between secondFront secondBack, second = secondFront ++ secondBack ∧
      Varies before front secondFront ∧ Varies between back secondBack := by
  induction front generalizing before second with
  | nil => exact ⟨before, [], second, rfl, .nil, hvaries⟩
  | cons lexeme front ih =>
    cases hvaries with
    | keep _ hrest =>
      obtain ⟨between, secondFront, secondBack, rfl, hfront, hback⟩ := ih hrest
      exact ⟨between, _, secondBack, rfl, .keep lexeme hfront, hback⟩
    | number value other hrest =>
      obtain ⟨between, secondFront, secondBack, rfl, hfront, hback⟩ := ih hrest
      exact ⟨between, _, secondBack, rfl, .number value other hfront, hback⟩
    | negative value other hname hrest =>
      obtain ⟨between, secondFront, secondBack, rfl, hfront, hback⟩ := ih hrest
      exact ⟨between, _, secondBack, (List.append_assoc ..).symm,
        .negative value other hname hfront, hback⟩

theorem Varies.of_mark_cons {mark : Mark} (hvaries : Varies before (.mark mark :: first) second) :
    ∃ rest, second = .mark mark :: rest ∧ Varies (some (.mark mark)) first rest := by
  cases hvaries with
  | keep _ hrest => exact ⟨_, rfl, hrest⟩

/-- What varies from a list with a mark in it has that mark. -/
theorem Varies.of_append_mark {mark : Mark}
    (hvaries : Varies before (front ++ .mark mark :: back) second) :
    ∃ secondFront secondBack, second = secondFront ++ .mark mark :: secondBack ∧
      Varies before front secondFront ∧ Varies (some (.mark mark)) back secondBack := by
  obtain ⟨_, secondFront, _, rfl, hfront, hbehind⟩ := hvaries.of_append
  obtain ⟨secondBack, rfl, hback⟩ := hbehind.of_mark_cons
  exact ⟨secondFront, secondBack, rfl, hfront, hback⟩

/-- The negative number at the front of a list with a mark behind lexemes that end inside no
parentheses stands in front of that mark. -/
theorem exists_eq_negativeLexemes_append {value : Float} {mark : Mark} {rest : List Lexeme}
    (hmark : Lexeme.mark mark ≠ .mark .openParenthesis) (hfront : ¬EndsInside front)
    (hsplit : negativeLexemes value ++ rest = front ++ .mark mark :: back) :
    ∃ later, front = negativeLexemes value ++ later ∧ rest = later ++ .mark mark :: back := by
  match front, hsplit with
  | [], hsplit => cases hsplit; exact absurd rfl hmark
  | [_], hsplit => cases hsplit; exact absurd ⟨[], Or.inl rfl⟩ hfront
  | [_, _], hsplit => cases hsplit
  | [_, _, _], hsplit => cases hsplit; exact absurd ⟨[], Or.inr ⟨value, rfl⟩⟩ hfront
  | _ :: _ :: _ :: _ :: later, hsplit => cases hsplit; exact ⟨later, rfl, rfl⟩

/-- What a list with a mark in it varies from has that mark, unless it belongs to a negative
number. -/
theorem Varies.exists_append_mark {mark : Mark}
    (hmark : Lexeme.mark mark ≠ .mark .openParenthesis) (hfront : ¬EndsInside front)
    (hvaries : Varies before first (front ++ .mark mark :: back)) :
    ∃ firstFront firstBack, first = firstFront ++ .mark mark :: firstBack ∧
      Varies before firstFront front ∧ Varies (some (.mark mark)) firstBack back := by
  generalize hsecond : front ++ Lexeme.mark mark :: back = second at hvaries
  induction hvaries generalizing front with
  | nil => simp at hsecond
  | @keep before first second lexeme hrest ih =>
    cases front with
    | nil => cases hsecond; exact ⟨[], first, rfl, .nil, hrest⟩
    | cons _ front =>
      cases hsecond
      obtain ⟨firstFront, firstBack, rfl, hfirst, hback⟩ :=
        ih (fun hends ↦ hfront (hends.cons lexeme)) rfl
      exact ⟨_, firstBack, rfl, .keep lexeme hfirst, hback⟩
  | number value other hrest ih =>
    cases front with
    | nil => cases hsecond
    | cons _ front =>
      cases hsecond
      obtain ⟨firstFront, firstBack, rfl, hfirst, hback⟩ :=
        ih (fun hends ↦ hfront (hends.cons (.number other))) rfl
      exact ⟨_, firstBack, rfl, .number value other hfirst, hback⟩
  | negative value other hname hrest ih =>
    obtain ⟨later, rfl, hlater⟩ := exists_eq_negativeLexemes_append hmark hfront hsecond.symm
    have hinside : ¬EndsInside later := fun hends ↦
      hfront ((((hends.cons _).cons _).cons _).cons _)
    obtain ⟨firstFront, firstBack, rfl, hfirst, hback⟩ := ih hinside hlater.symm
    exact ⟨_, firstBack, rfl, .negative value other hname hfirst, hback⟩

theorem Varies.eq_nil (hvaries : Varies before first []) : first = [] := by
  generalize hsecond : ([] : List Lexeme) = second at hvaries
  cases hvaries with
  | nil => rfl
  | keep => cases hsecond
  | number => cases hsecond
  | negative => cases hsecond

theorem Varies.exists_mark_cons {mark : Mark}
    (hmark : Lexeme.mark mark ≠ .mark .openParenthesis)
    (hvaries : Varies before first (.mark mark :: second)) :
    ∃ rest, first = .mark mark :: rest ∧ Varies (some (.mark mark)) rest second := by
  have hnone : ¬EndsInside [] := by simp [EndsInside]
  rw [← List.nil_append (Lexeme.mark mark :: second)] at hvaries
  obtain ⟨firstFront, rest, rfl, hfront, hrest⟩ := hvaries.exists_append_mark hmark hnone
  exact ⟨rest, by rw [hfront.eq_nil, List.nil_append], hrest⟩

/-- Behind a name, an opening parenthesis belongs to no negative number. -/
theorem Varies.exists_open_cons {text : String}
    (hvaries : Varies (some (.name text)) first (.mark .openParenthesis :: second)) :
    ∃ rest, first = .mark .openParenthesis :: rest ∧
      Varies (some (.mark .openParenthesis)) rest second := by
  generalize hopened : Lexeme.mark .openParenthesis :: second = whole at hvaries
  cases hvaries with
  | nil => cases hopened
  | keep _ hrest => cases hopened; exact ⟨_, rfl, hrest⟩
  | number => cases hopened
  | negative _ _ hname _ => exact absurd rfl (hname text)

/-! ### Arguments -/

/-- Arguments that are related to other lexemes, where each argument has a derivation of what it is
related to, are related to arguments. -/
theorem exists_separated (related : List Lexeme → List Lexeme → Prop) {levels : Nat}
    {arguments : List (List Lexeme × Expression)}
    (hnil : ∀ others, related [] others → others = [])
    (hcomma : ∀ front back others, ¬EndsInside front →
      related (front ++ .mark .comma :: back) others →
        ∃ otherFront otherBack, others = otherFront ++ .mark .comma :: otherBack ∧
          related front otherFront ∧ related back otherBack)
    (hbalanced : ∀ argument ∈ arguments, Balanced argument.1)
    (harguments : ∀ argument ∈ arguments, ∀ others, related argument.1 others →
      ∃ tree, Derives .sum levels others tree)
    (hrelated : related (separated arguments) lexemes) :
    ∃ others : List (List Lexeme × Expression), lexemes = separated others ∧
      ∀ other ∈ others, Derives .sum levels other.1 other.2 := by
  -- A comma stands in front of the rest only if there is a rest, on either side.
  suffices hothers : ∃ others : List (List Lexeme × Expression), lexemes = separated others ∧
      (arguments ≠ [] → others ≠ []) ∧ ∀ other ∈ others, Derives .sum levels other.1 other.2 by
    obtain ⟨others, hlexemes, _, hderives⟩ := hothers
    exact ⟨others, hlexemes, hderives⟩
  induction arguments generalizing lexemes with
  | nil => exact ⟨[], hnil lexemes hrelated, by simp, by simp⟩
  | cons argument rest ih =>
    have hargument := harguments argument List.mem_cons_self
    by_cases hrest : rest = []
    · rw [hrest, separated_singleton] at hrelated
      obtain ⟨tree, htree⟩ := hargument lexemes hrelated
      exact ⟨[(lexemes, tree)], by simp, by simp, by simpa using htree⟩
    · rw [separated_cons hrest] at hrelated
      obtain ⟨part, later, rfl, hpart, hlater⟩ := hcomma _ _ _
        (hbalanced argument List.mem_cons_self).not_endsInside hrelated
      obtain ⟨tree, htree⟩ := hargument part hpart
      obtain ⟨others, rfl, hnonempty, hderives⟩ :=
        ih (fun other hother ↦ hbalanced other (List.mem_cons_of_mem argument hother))
          (fun other hother ↦ harguments other (List.mem_cons_of_mem argument hother)) hlater
      refine ⟨(part, tree) :: others, (separated_cons (hnonempty hrest) (part, tree)).symm,
        by simp, fun other hother ↦ ?_⟩
      rcases List.mem_cons.mp hother with rfl | hother
      · exact htree
      · exact hderives other hother

/-! ### From the numbers to what varies from them -/

/-- A derivation goes through on two more levels for what varies from its lexemes. -/
theorem Derives.exists_second (hderives : Derives category nesting first tree)
    (hvaries : Varies before first second) :
    ∃ other, Derives category (nesting + 2) second other := by
  induction hderives generalizing before second with
  | product _ ih => exact (ih hvaries).imp fun _ ↦ .product
  | unary _ ih => exact (ih hvaries).imp fun _ ↦ .unary
  | power _ ih => exact (ih hvaries).imp fun _ ↦ .power
  | primary _ ih => exact (ih hvaries).imp fun _ ↦ .primary
  | add hjoins _ _ hfront hback =>
    obtain ⟨_, _, rfl, hleft, hright⟩ := hvaries.of_append_mark
    obtain ⟨⟨left, hleft⟩, ⟨right, hright⟩⟩ := And.intro (hfront hleft) (hback hright)
    exact ⟨_, .add hjoins hleft hright⟩
  | multiply hjoins _ _ hfront hback =>
    obtain ⟨_, _, rfl, hleft, hright⟩ := hvaries.of_append_mark
    obtain ⟨⟨left, hleft⟩, ⟨right, hright⟩⟩ := And.intro (hfront hleft) (hback hright)
    exact ⟨_, .multiply hjoins hleft hright⟩
  | raise _ _ hfront hback =>
    obtain ⟨_, _, rfl, hleft, hright⟩ := hvaries.of_append_mark
    obtain ⟨⟨base, hbase⟩, ⟨exponent, hexponent⟩⟩ := And.intro (hfront hleft) (hback hright)
    exact ⟨_, .raise hbase hexponent⟩
  | sign hsign _ ih =>
    obtain ⟨rest, rfl, hrest⟩ := hvaries.of_mark_cons
    exact (ih hrest).imp' _ fun _ ↦ .sign hsign
  | @number nesting value =>
    cases hvaries with
    | keep _ hrest => cases hrest; exact ⟨_, .number value⟩
    | number _ other hrest => cases hrest; exact ⟨_, .number other⟩
    | negative _ other _ hrest => cases hrest; exact ⟨_, derives_negativeLexemes other nesting⟩
  | name text =>
    cases hvaries with
    | keep _ hrest => cases hrest; exact ⟨_, .name text⟩
  | call function arguments harguments ih =>
    cases hvaries with
    | keep _ hrest =>
      obtain ⟨_, rfl, hopened⟩ := hrest.of_mark_cons
      obtain ⟨_, _, rfl, hinner, hbehind⟩ := hopened.of_append_mark
      cases hbehind
      obtain ⟨others, rfl, hothers⟩ := exists_separated
        (fun first second ↦ ∃ before, Varies before first second)
        (by rintro _ ⟨_, ⟨⟩⟩; rfl)
        (fun _ _ _ _ ⟨_, hvaries⟩ ↦
          have ⟨secondFront, secondBack, hsecond, hfront, hback⟩ := hvaries.of_append_mark
          ⟨secondFront, secondBack, hsecond, ⟨_, hfront⟩, ⟨_, hback⟩⟩)
        (fun argument hargument ↦ (harguments argument hargument).balanced)
        (fun argument hargument _ ⟨_, hvaries⟩ ↦ ih argument hargument hvaries) ⟨_, hinner⟩
      exact ⟨_, .call function others hothers⟩
  | group _ ih =>
    obtain ⟨_, rfl, hopened⟩ := hvaries.of_mark_cons
    obtain ⟨_, _, rfl, hinner, hbehind⟩ := hopened.of_append_mark
    cases hbehind
    exact (ih hinner).imp fun _ ↦ .group

/-! ### From what varies back to the numbers -/

/-- A primary in parentheses that varies from some lexemes. -/
theorem exists_of_group (hlexemes : Balanced lexemes)
    (hinner : ∀ before first, Varies before first lexemes → ∃ tree, Derives .sum nesting first tree)
    (hvaries : Varies before first
      (.mark .openParenthesis :: (lexemes ++ [.mark .closeParenthesis]))) :
    ∃ tree, Derives .primary nesting first tree := by
  generalize hsecond :
    Lexeme.mark .openParenthesis :: (lexemes ++ [.mark .closeParenthesis]) = second at hvaries
  cases hvaries with
  | nil => cases hsecond
  | keep lexeme hrest =>
    cases hsecond
    obtain ⟨inner, behind, rfl, hfirst, hbehind⟩ :=
      hrest.exists_append_mark (by decide) hlexemes.not_endsInside
    obtain rfl := hbehind.eq_nil
    exact (hinner _ _ hfirst).imp fun _ ↦ .group
  | number => cases hsecond
  | negative value other hname hrest =>
    -- The parentheses are those of the negative number, so what varies from it is that number only;
    -- anything longer would close them before its end.
    match lexemes, hsecond with
    | [], hsecond => cases hsecond
    | [_], hsecond => cases hsecond
    | [_, _], hsecond =>
      cases hsecond
      exact hrest.eq_nil ▸ ⟨_, .number value⟩
    | _ :: _ :: _ :: _, hsecond =>
      cases hsecond
      cases hlexemes 0

/-- A derivation of what varies goes through for the lexemes that it varies from. -/
theorem Derives.exists_first (hderives : Derives category nesting second tree)
    (hvaries : Varies before first second) :
    ∃ other, Derives category nesting first other := by
  induction hderives generalizing before first with
  | product _ ih => exact (ih hvaries).imp fun _ ↦ .product
  | unary _ ih => exact (ih hvaries).imp fun _ ↦ .unary
  | power _ ih => exact (ih hvaries).imp fun _ ↦ .power
  | primary _ ih => exact (ih hvaries).imp fun _ ↦ .primary
  | add hjoins hleft _ hfront hback =>
    obtain ⟨firstFront, firstBack, rfl, hfirst, hlater⟩ :=
      hvaries.exists_append_mark hjoins.isPlain.1 hleft.balanced.not_endsInside
    obtain ⟨⟨left, hleft⟩, ⟨right, hright⟩⟩ := And.intro (hfront hfirst) (hback hlater)
    exact ⟨_, .add hjoins hleft hright⟩
  | multiply hjoins hleft _ hfront hback =>
    obtain ⟨firstFront, firstBack, rfl, hfirst, hlater⟩ :=
      hvaries.exists_append_mark hjoins.isPlain.1 hleft.balanced.not_endsInside
    obtain ⟨⟨left, hleft⟩, ⟨right, hright⟩⟩ := And.intro (hfront hfirst) (hback hlater)
    exact ⟨_, .multiply hjoins hleft hright⟩
  | raise hbase _ hfront hback =>
    obtain ⟨firstFront, firstBack, rfl, hfirst, hlater⟩ :=
      hvaries.exists_append_mark (by decide) hbase.balanced.not_endsInside
    obtain ⟨⟨base, hbase⟩, ⟨exponent, hexponent⟩⟩ := And.intro (hfront hfirst) (hback hlater)
    exact ⟨_, .raise hbase hexponent⟩
  | sign hsign _ ih =>
    obtain ⟨rest, rfl, hrest⟩ := hvaries.exists_mark_cons hsign.isPlain.1
    exact (ih hrest).imp' _ fun _ ↦ .sign hsign
  | @number nesting value =>
    cases hvaries with
    | keep _ hrest => exact hrest.eq_nil ▸ ⟨_, .number value⟩
    | number other _ hrest => exact hrest.eq_nil ▸ ⟨_, .number other⟩
  | name text =>
    cases hvaries with
    | keep _ hrest => exact hrest.eq_nil ▸ ⟨_, .name text⟩
  | call function arguments harguments ih =>
    have hbalanced := fun argument hargument ↦ (harguments argument hargument).balanced
    cases hvaries with
    | keep _ hrest =>
      obtain ⟨_, rfl, hopened⟩ := hrest.exists_open_cons
      obtain ⟨inner, _, rfl, hinner, hbehind⟩ :=
        hopened.exists_append_mark (by decide) (balanced_separated hbalanced).not_endsInside
      obtain rfl := hbehind.eq_nil
      obtain ⟨others, rfl, hothers⟩ := exists_separated
        (fun second first ↦ ∃ before, Varies before first second)
        (fun _ ⟨_, hvaries⟩ ↦ hvaries.eq_nil)
        (fun _ _ _ hfront ⟨_, hvaries⟩ ↦
          have ⟨firstFront, firstBack, hfirst, hfront, hback⟩ :=
            hvaries.exists_append_mark (by decide) hfront
          ⟨firstFront, firstBack, hfirst, ⟨_, hfront⟩, ⟨_, hback⟩⟩)
        hbalanced (fun argument hargument _ ⟨_, hvaries⟩ ↦ ih argument hargument hvaries)
        ⟨_, hinner⟩
      exact ⟨_, .call function others hothers⟩
  | group hinner ih => exact exists_of_group hinner.balanced (fun _ _ ↦ ih) hvaries

end Formulary.Formula
