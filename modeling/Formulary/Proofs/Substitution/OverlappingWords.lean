import Formulary.Proofs.Substitution.WholeWords

/-!
# Words that overlap themselves

The search for whole words goes on behind each occurrence, also behind one that does not stand
alone, so it never looks at a later one that begins inside of it. Where two occurrences of a word
overlap in a loose border and a character of names is in front of both, the search fails, although
the second one stands alone, `exists_missed_of_isLooseBorder`. So the words that are found wherever
they stand alone are just those without a loose border, `containsWord_iff_standsAloneIn`.
-/

set_option autoImplicit false
set_option relaxedAutoImplicit false

namespace Formulary.Name

open Formulary.Text

/-! ### Words that are missed -/

variable {word period border rest : List Char}

theorem IsLooseBorder.length_lt (hloose : IsLooseBorder word period border rest) :
    rest.length < word.length := by
  have hborder := List.length_pos_iff.mpr hloose.border_ne_nil
  rw [hloose.begins, List.length_append]
  omega

/-- A text that is shorter than a word does not contain it. -/
theorem containsWordFrom_of_length_lt {text : List Char} (hshorter : text.length < word.length)
    (before : Option Char) (skipped : Nat) : containsWordFrom word before skipped text = false := by
  rw [← Bool.not_eq_true]
  intro hfound
  obtain ⟨front, back, rfl, _⟩ := exists_of_containsWordFrom hfound
  simp only [List.length_append] at hshorter
  omega

theorem exists_isNameCharacter_ne_head (word : List Char) :
    ∃ character, isNameCharacter character = true ∧ word.head? ≠ some character := by
  by_cases hhead : word.head? = some 'x'
  · exact ⟨'y', by decide, by rw [hhead]; decide⟩
  · exact ⟨'x', by decide, hhead⟩

/-- Behind a character of names, two occurrences of a word that overlap in a loose border are
missed: the first one does not stand alone, and the second one is passed over. -/
theorem exists_missed_of_isLooseBorder (hloose : IsLooseBorder word period border rest) :
    ∃ text, StandsAloneIn word text ∧ containsWordFrom word none 0 text = false := by
  obtain ⟨character, hcharacter, hhead⟩ := exists_isNameCharacter_ne_head word
  have hword : word ≠ [] := List.length_pos_iff.mp (Nat.zero_lt_of_lt hloose.length_lt)
  refine ⟨character :: (period ++ word), ⟨character :: period, [], by simp, ?_⟩, ?_⟩
  · refine (standsAlone_eq_true_iff _ _ _).mpr ⟨fun hopens ↦ ?_, fun _ ↦ rfl⟩
    rw [List.getLast?_cons_of_ne_nil hloose.period_ne_nil]
    exact hloose.detached hopens
  · have hglued : standsAlone word (some character) rest.head? = false := by
      rw [← Bool.not_eq_true, standsAlone_eq_true_iff]
      rintro ⟨hfront, hback⟩
      rcases hloose.glued with hopens | ⟨hcloses, hnext⟩
      · exact Bool.false_ne_true ((hfront hopens).symm.trans hcharacter)
      · exact Bool.false_ne_true ((hback hcloses).symm.trans hnext)
    have hoverlap : period ++ word = word ++ rest := by
      conv_lhs => rw [hloose.begins]
      rw [← List.append_assoc, ← hloose.ends]
    have hfirst : ¬word.isPrefixOf (character :: (word ++ rest)) = true := by
      rw [List.isPrefixOf_iff_prefix]
      rintro ⟨others, hothers⟩
      have hsame := congrArg List.head? hothers
      rw [List.head?_append_of_ne_nil word hword] at hsame
      exact hhead hsame
    rw [hoverlap, containsWordFrom, if_neg hfirst, containsWordFrom_append hword, hglued,
      Bool.false_or]
    exact containsWordFrom_of_length_lt hloose.length_lt _ _

/-! ### Which words are found -/

/-- What is found stands alone, and just those words are found wherever they stand alone that are
not empty and have no loose border. -/
theorem containsWord_iff_standsAloneIn (word : String) :
    (∀ text : String, containsWord text word = true → StandsAloneIn word.toList text.toList) ∧
      ((∀ text : String, StandsAloneIn word.toList text.toList → containsWord text word = true) ↔
        word ≠ "" ∧ ¬HasLooseBorder word.toList) := by
  refine ⟨fun _ ↦ standsAloneIn_of_containsWord, fun hfound ↦ ⟨?_, ?_⟩, ?_⟩
  · rintro rfl
    exact absurd (hfound "" ⟨[], [], rfl, rfl⟩) (by decide)
  · rintro ⟨period, border, rest, hloose⟩
    obtain ⟨text, hstands, hmissed⟩ := exists_missed_of_isLooseBorder hloose
    have hthere := hfound (String.ofList text) (by rwa [String.toList_ofList])
    rw [containsWord, String.toList_ofList, hmissed, Bool.and_false] at hthere
    cases hthere
  · rintro ⟨hword, hloose⟩ text hstands
    refine containsWord_of_standsAloneIn ?_ hloose hstands
    rwa [ne_eq, String.toList_eq_nil_iff]

/-- The second of two overlapping occurrences stands alone and is missed. -/
theorem overlapping_word_missed :
    StandsAloneIn "a a".toList "ba a a".toList ∧ containsWord "ba a a" "a a" = false :=
  ⟨⟨"ba ".toList, [], rfl, by decide +kernel⟩, by decide +kernel⟩

end Formulary.Name
