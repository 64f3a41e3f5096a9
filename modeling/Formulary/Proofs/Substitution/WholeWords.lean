import Formulary.Proofs.Name.PlainName
import Mathlib.Data.List.Basic

/-!
# Words that stand in a text

`StandsIn word text` says that a word occurs in a text with no plain character next to it. The
search for whole words passes over the characters of each occurrence that does not stand alone, so
it may miss a later one that overlaps it. That takes a loose border of the word: a border in which
two occurrences can overlap such that only the later one stands alone. A word without a loose border
is found wherever it stands alone, `containsWord_of_standsAloneIn`; among these words are those made
of characters of names, `not_hasLooseBorder_of_all`, and those without a border,
`not_hasLooseBorder_of_isBorderless`.
-/

set_option autoImplicit false
set_option relaxedAutoImplicit false

namespace Formulary.Name

open Formulary.Text

/-- A word occurs in a text with no plain character next to it. -/
def StandsIn (word text : List Char) : Prop :=
  ∃ front back, text = front ++ (word ++ back) ∧
    front.getLast?.any isPlainCharacter = false ∧ back.head?.any isPlainCharacter = false

/-- A word stands alone somewhere in a text. -/
def StandsAloneIn (word text : List Char) : Prop :=
  ∃ front back, text = front ++ (word ++ back) ∧
    standsAlone word front.getLast? back.head? = true

/-- Whether no beginning of a word, apart from nothing and the whole of it, is also an end of it. -/
def isBorderless (word : List Char) : Bool :=
  (List.range word.length).all fun length ↦
    length == 0 || !(word.take length).isSuffixOf word

theorem isBorderless_iff (word : List Char) : isBorderless word = true ↔
    ∀ border, border ≠ [] → border.length < word.length → border <+: word →
      ¬border <:+ word := by
  simp only [isBorderless, List.all_eq_true, List.mem_range, Bool.or_eq_true, beq_iff_eq,
    Bool.not_eq_true', ← Bool.not_eq_true, List.isSuffixOf_iff_suffix]
  constructor
  · intro hborderless border hnonempty hshorter hbegins hsuffix
    have htake := List.prefix_iff_eq_take.mp hbegins
    rcases hborderless border.length hshorter with hzero | hother
    · exact hnonempty (List.eq_nil_of_length_eq_zero hzero)
    · exact hother (htake ▸ hsuffix)
  · intro hborderless length hlength
    refine (Nat.eq_zero_or_pos length).imp_right fun hpositive ↦ ?_
    refine hborderless _ ?_ ?_ (List.take_prefix length word)
    · exact List.ne_nil_of_length_pos (by rw [List.length_take]; omega)
    · rw [List.length_take]
      omega

/-! ### Loose borders -/

/-- A border is a beginning of a word that is also an end of it, so that two occurrences of the word
may share it: `period ++ word` is `word ++ rest`. It is loose if nothing is glued to the second
occurrence in front, while something may be glued to the first one: a character in front of it, or
the one behind it, with which the second one goes on. -/
structure IsLooseBorder (word period border rest : List Char) : Prop where
  period_ne_nil : period ≠ []
  border_ne_nil : border ≠ []
  ends : word = period ++ border
  begins : word = border ++ rest
  detached : opensName word = true → period.getLast?.any isNameCharacter = false
  glued : opensName word = true ∨ (closesName word = true ∧ rest.head?.any isNameCharacter = true)

/-- A word has a loose border. -/
def HasLooseBorder (word : List Char) : Prop :=
  ∃ period border rest, IsLooseBorder word period border rest

variable {word period back : List Char} {before : Option Char}

theorem not_hasLooseBorder_of_isBorderless (hborderless : isBorderless word = true) :
    ¬HasLooseBorder word := by
  rintro ⟨period, border, rest, hloose⟩
  have hshorter : border.length < word.length := by
    have hperiod := List.length_pos_iff.mpr hloose.period_ne_nil
    rw [hloose.ends, List.length_append]
    omega
  exact (isBorderless_iff word).mp hborderless border hloose.border_ne_nil hshorter
    ⟨rest, hloose.begins.symm⟩ ⟨period, hloose.ends.symm⟩

/-- Within characters of names every occurrence is glued to what is in front of it. -/
theorem not_hasLooseBorder_of_all (hword : word.all isNameCharacter = true) :
    ¬HasLooseBorder word := by
  rintro ⟨period, border, rest, hloose⟩
  have hperiod : period.all isNameCharacter = true := by
    rw [hloose.ends, List.all_append, Bool.and_eq_true] at hword
    exact hword.1
  obtain ⟨first, others, rfl⟩ := List.exists_cons_of_ne_nil hloose.period_ne_nil
  have hopens : opensName word = true := by
    rw [hloose.ends]
    exact List.all_eq_true.mp hperiod first List.mem_cons_self
  have hdetached := hloose.detached hopens
  rw [List.getLast?_eq_some_getLast hloose.period_ne_nil] at hdetached
  exact Bool.false_ne_true (hdetached.symm.trans
    (List.all_eq_true.mp hperiod _ (List.getLast_mem hloose.period_ne_nil)))

/-- A word that begins inside of itself and in what follows has a border there. -/
theorem exists_border (hbegins : word <+: period ++ (word ++ back))
    (hshorter : period.length < word.length) :
    ∃ border rest, border ≠ [] ∧ word = period ++ border ∧ word = border ++ rest := by
  obtain ⟨border, hends⟩ := List.prefix_of_prefix_length_le
    (List.prefix_append period (word ++ back)) hbegins (Nat.le_of_lt hshorter)
  rw [← hends, List.prefix_append_right_inj, hends] at hbegins
  have hlength : border.length ≤ word.length := by
    rw [← hends, List.length_append]
    omega
  obtain ⟨rest, hrest⟩ :=
    List.prefix_of_prefix_length_le hbegins (List.prefix_append word back) hlength
  refine ⟨border, rest, ?_, hends.symm, hrest.symm⟩
  rintro rfl
  rw [← hends, List.append_nil] at hshorter
  exact Nat.lt_irrefl _ hshorter

/-- Of two occurrences that overlap in no loose border, the first one stands alone if the second one
does. -/
theorem standsAlone_of_overlap (hloose : ¬HasLooseBorder word) (hperiod : period ≠ [])
    (hbegins : word <+: period ++ (word ++ back)) (hshorter : period.length < word.length)
    (halone : standsAlone word (lastOr before period) back.head? = true) :
    standsAlone word before ((period ++ (word ++ back)).drop word.length).head? = true := by
  obtain ⟨border, rest, hborder, hends, hrest⟩ := exists_border hbegins hshorter
  have hsome : rest ≠ [] := by
    rintro rfl
    rw [List.append_nil] at hrest
    rw [hrest] at hends
    exact hperiod (List.self_eq_append_left.mp hends)
  have hbehind : ((period ++ (word ++ back)).drop word.length).head? = rest.head? := by
    have hwhole : period ++ (word ++ back) = word ++ (rest ++ back) := by
      rw [hrest, List.append_assoc, ← List.append_assoc, ← hends, ← hrest]
    rw [hwhole, List.drop_left, List.head?_append_of_ne_nil rest hsome]
  have hdetached := ((standsAlone_eq_true_iff _ _ _).mp halone).1
  rw [lastOr, List.getLast?_eq_some_getLast hperiod, Option.some_or,
    ← List.getLast?_eq_some_getLast hperiod] at hdetached
  rw [hbehind]
  by_contra hglued
  refine hloose ⟨period, border, rest, hperiod, hborder, hends, hrest, hdetached, ?_⟩
  rw [standsAlone_eq_true_iff, not_and_or] at hglued
  rcases hglued with hfront | hback
  · exact Or.inl (Classical.not_imp.mp hfront).1
  · obtain ⟨hcloses, hnext⟩ := Classical.not_imp.mp hback
    exact Or.inr ⟨hcloses, Bool.not_eq_false _ ▸ hnext⟩

/-! ### The search -/

/-- The search passes over what it has found. -/
theorem containsWordFrom_skip (before : Option Char) (passed text : List Char) :
    containsWordFrom word before passed.length (passed ++ text) =
      containsWordFrom word (lastOr before passed) 0 text := by
  induction passed generalizing before with
  | nil => rfl
  | cons character passed ih =>
    rw [List.cons_append, List.length_cons, containsWordFrom, ih, lastOr_cons]

/-- At an occurrence the search ends if it stands alone and else goes on behind it. -/
theorem containsWordFrom_append (hword : word ≠ []) (before : Option Char) (back : List Char) :
    containsWordFrom word before 0 (word ++ back) =
      (standsAlone word before back.head? ||
        containsWordFrom word (lastOr before word) 0 back) := by
  obtain ⟨first, others, rfl⟩ := List.exists_cons_of_ne_nil hword
  have hbegins : (first :: others).isPrefixOf (first :: others ++ back) = true :=
    List.isPrefixOf_iff_prefix.mpr (List.prefix_append _ back)
  rw [List.cons_append, containsWordFrom, ← List.cons_append, if_pos hbegins, List.drop_left,
    lastOr_cons, ← containsWordFrom_skip]
  rfl

/-- A word without a loose border that stands alone behind a front is found from inside the
front. -/
theorem containsWordFrom_of_standsAlone {front : List Char} {skipped : Nat} (hword : word ≠ [])
    (hloose : ¬HasLooseBorder word) (hskipped : skipped ≤ front.length)
    (halone : standsAlone word (lastOr before front) back.head? = true) :
    containsWordFrom word before skipped (front ++ (word ++ back)) = true := by
  induction front generalizing before skipped with
  | nil =>
    obtain rfl : skipped = 0 := Nat.le_zero.mp hskipped
    rw [lastOr_nil] at halone
    rw [List.nil_append, containsWordFrom_append hword, halone, Bool.true_or]
  | cons character front ih =>
    have hbehind := halone
    rw [lastOr_cons] at hbehind
    rw [List.cons_append]
    cases skipped with
    | succ skipped => exact ih (Nat.le_of_succ_le_succ hskipped) hbehind
    | zero =>
      rw [containsWordFrom]
      split
      · rename_i hbegins
        rw [Bool.or_eq_true]
        rcases Nat.lt_or_ge (character :: front).length word.length with hshorter | hlength
        · exact Or.inl (standsAlone_of_overlap hloose (List.cons_ne_nil _ _)
            (List.isPrefixOf_iff_prefix.mp hbegins) hshorter halone)
        · rw [List.length_cons] at hlength
          exact Or.inr (ih (by omega) hbehind)
      · exact ih (Nat.zero_le _) hbehind

/-- What the search finds stands alone. -/
theorem exists_of_containsWordFrom {text : List Char} {before : Option Char} {skipped : Nat}
    (hfound : containsWordFrom word before skipped text = true) :
    ∃ front back, text = front ++ (word ++ back) ∧
      standsAlone word (lastOr before front) back.head? = true := by
  induction text generalizing before skipped with
  | nil => rw [containsWordFrom] at hfound; cases hfound
  | cons character rest ih =>
    have hlater {skipped : Nat}
        (hrest : containsWordFrom word (some character) skipped rest = true) :
        ∃ front back, character :: rest = front ++ (word ++ back) ∧
          standsAlone word (lastOr before front) back.head? = true := by
      obtain ⟨front, back, hsplit, halone⟩ := ih hrest
      exact ⟨character :: front, back, by rw [hsplit, List.cons_append], by rwa [lastOr_cons]⟩
    cases skipped with
    | succ skipped => exact hlater hfound
    | zero =>
      rw [containsWordFrom] at hfound
      split at hfound
      · rename_i hbegins
        rw [Bool.or_eq_true] at hfound
        rcases hfound with halone | hrest
        · obtain ⟨back, hback⟩ := List.isPrefixOf_iff_prefix.mp hbegins
          refine ⟨[], back, hback.symm, ?_⟩
          rwa [← hback, List.drop_left] at halone
        · exact hlater hrest
      · exact hlater hfound

/-- A whole word stands alone somewhere. -/
theorem standsAloneIn_of_containsWord {text word : String}
    (hfound : containsWord text word = true) : StandsAloneIn word.toList text.toList := by
  rw [containsWord, Bool.and_eq_true] at hfound
  obtain ⟨front, back, hsplit, halone⟩ := exists_of_containsWordFrom hfound.2
  rw [lastOr, Option.or_none] at halone
  exact ⟨front, back, hsplit, halone⟩

/-- A word without a loose border is found wherever it stands alone. -/
theorem containsWord_of_standsAloneIn {text word : String} (hword : word.toList ≠ [])
    (hloose : ¬HasLooseBorder word.toList) (hstands : StandsAloneIn word.toList text.toList) :
    containsWord text word = true := by
  obtain ⟨front, back, hsplit, halone⟩ := hstands
  rw [containsWord, Bool.and_eq_true, and_iff_right (by simpa using hword), hsplit]
  refine containsWordFrom_of_standsAlone hword hloose (Nat.zero_le _) ?_
  rwa [lastOr, Option.or_none]

/-- A borderless word is found exactly where it stands alone. -/
theorem containsWord_iff_of_isBorderless {text word : String} (hword : word.toList ≠ [])
    (hborderless : isBorderless word.toList = true) :
    containsWord text word = true ↔ StandsAloneIn word.toList text.toList :=
  ⟨standsAloneIn_of_containsWord,
    containsWord_of_standsAloneIn hword (not_hasLooseBorder_of_isBorderless hborderless)⟩

/-- In ASCII text a word with plain edges is found where it stands, if it is all plain or has no
border. -/
theorem containsWord_of_standsIn {text word : String}
    (htext : ∀ character ∈ text.toList, character.toNat < 128)
    (hedges : hasPlainEdges word.toList = true)
    (hword : word.toList.all isPlainCharacter = true ∨ isBorderless word.toList = true)
    (hstands : StandsIn word.toList text.toList) : containsWord text word = true := by
  obtain ⟨front, back, hsplit, hfront, hback⟩ := hstands
  rw [hsplit] at htext
  have hbefore : front.getLast?.any isNameCharacter = false := by
    refine (classes_of_not_plain (fun character hcharacter ↦ htext character ?_) hfront).1
    exact List.mem_append_left _ (List.mem_of_getLast? hcharacter)
  have hafter : back.head?.any isNameCharacter = false := by
    refine (classes_of_not_plain (fun character hcharacter ↦ htext character ?_) hback).1
    exact List.mem_append_right _ (List.mem_append_right _ (List.mem_of_head? hcharacter))
  have hloose : ¬HasLooseBorder word.toList := by
    refine hword.elim (fun hplain ↦ not_hasLooseBorder_of_all ?_) not_hasLooseBorder_of_isBorderless
    rw [List.all_eq_true] at hplain ⊢
    exact fun character hcharacter ↦ (classes_of_isPlainCharacter (hplain character hcharacter)).1
  exact containsWord_of_standsAloneIn (ne_nil_of_hasPlainEdges hedges) hloose
    ⟨front, back, hsplit, (standsAlone_iff hedges _).mpr ⟨hbefore, hafter⟩⟩

end Formulary.Name
