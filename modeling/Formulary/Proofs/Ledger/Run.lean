import Formulary.Proofs.Ledger.Keys
import Mathlib.Data.List.Nodup

/-!
# A ledger after any postings

A posting is one operation on a ledger: a value for a word, a parameter, a result of a calculation
or the removal of one. A posting keeps what a parameter answers to, `get?_post_of_isParameterKey`;
any other value is revised, `Posting.revise`, and a value that is missing may be fixed,
`Posting.fixes?`. Every ledger that postings lead to holds each word once, no empty one and finite
values only, `wellFormed_ofPostings`. The main statement, `ofPostings_keeps_rules`, says what this
means for later postings.
-/

set_option autoImplicit false
set_option relaxedAutoImplicit false

namespace Formulary.Ledger

open Formulary.Name Formulary.Number

/-! ### Postings -/

/-- One operation on a ledger. -/
inductive Posting where
  | word (key : String) (value : Float)
  | parameter (overrides : Overrides) (source : Parameter)
  | result (name : String) (value : Float)
  | removal (name : String)

/-- A ledger after one more posting. -/
def post (ledger : Ledger) : Posting → Ledger
  | .word key value => ledger.insert key value
  | .parameter overrides source => insertParameter overrides ledger source
  | .result name value => ledger.insertCalculation name value
  | .removal name => ledger.removeCalculation name

/-- The ledger after some postings. -/
def ofPostings (postings : List Posting) : Ledger :=
  postings.foldl post empty

theorem ofPostings_append_singleton (postings : List Posting) (posting : Posting) :
    ofPostings (postings ++ [posting]) = (ofPostings postings).post posting :=
  List.foldl_append

/-- The value that a posting fixes for a word. -/
def Posting.fixes? (key : String) : Posting → Option Float
  | .word written value =>
    if written = key ∧ key ≠ "" ∧ value.isFinite = true then some value else none
  | .parameter overrides source =>
    if key ∈ parameterKeys source ∧ key ≠ "" then parameterValue overrides source else none
  | .result _ _ => none
  | .removal _ => none

/-- What a posting makes of the value of a word that no parameter answers to. -/
def Posting.revise (key : String) (current : Option Float) : Posting → Option Float
  | .word _ _ => current
  | .parameter _ _ => current
  | .result name value =>
    if Answers name key ∧ value.isFinite = true then some value else current
  | .removal name => if key ∈ aliases name then none else current

/-! ### Well-formed ledgers -/

variable {ledger : Ledger} {key word : String} {value : Float} {entries : List LedgerEntry}

/-- A ledger that holds each word once, no empty word and only finite values. -/
structure WellFormed (ledger : Ledger) : Prop where
  once : (ledger.entries.map (·.key)).Nodup
  named : ∀ entry ∈ ledger.entries, entry.key ≠ ""
  finite : ∀ entry ∈ ledger.entries, entry.value.isFinite = true

theorem wellFormed_empty : empty.WellFormed :=
  ⟨List.nodup_nil, by simp [empty], by simp [empty]⟩

/-- Words with one more behind them, if it is new. -/
def withWord (words : List String) (word : String) : List String :=
  if word ∈ words then words else words ++ [word]

theorem nodup_withWord {words : List String} (hwords : words.Nodup) (word : String) :
    (withWord words word).Nodup := by
  rw [withWord]
  split
  · exact hwords
  · rename_i hnew
    rw [← List.concat_eq_append]
    exact hwords.concat hnew

theorem withWord_cons_self (word : String) (words : List String) :
    withWord (word :: words) word = word :: words :=
  if_pos List.mem_cons_self

theorem withWord_cons_of_ne {other : String} (hother : other ≠ word) (words : List String) :
    withWord (other :: words) word = other :: withWord words word := by
  rw [withWord, withWord]
  by_cases hword : word ∈ words <;> simp [hword, Ne.symm hother]

theorem keys_fixWord (word : String) (value : Float) (entries : List LedgerEntry) :
    (fixWord word value entries).map (·.key) = withWord (entries.map (·.key)) word := by
  induction entries with
  | nil => rfl
  | cons entry rest ih =>
    rw [fixWord]
    split
    · rename_i hword
      rw [List.map_cons, List.map_cons, hword, withWord_cons_self]
    · rename_i hother
      rw [List.map_cons, List.map_cons, ih, withWord_cons_of_ne hother]

theorem keys_put (word : String) (value : Float) (entries : List LedgerEntry) :
    (put word value entries).map (·.key) = withWord (entries.map (·.key)) word := by
  induction entries with
  | nil => rfl
  | cons entry rest ih =>
    rw [put]
    split
    · rename_i hword
      have hkey : (if entry.isParameter then entry else { entry with value }).key = word := by
        split <;> exact hword
      rw [List.map_cons, List.map_cons, hkey, hword, withWord_cons_self]
    · rename_i hother
      rw [List.map_cons, List.map_cons, ih, withWord_cons_of_ne hother]

theorem mem_put {entry : LedgerEntry} (hentry : entry ∈ put word value entries) :
    entry = ⟨word, value, false⟩ ∨ entry ∈ entries ∨
      ∃ old ∈ entries, entry = { old with value } := by
  induction entries with
  | nil => exact Or.inl (List.mem_singleton.mp hentry)
  | cons first rest ih =>
    rw [put] at hentry
    split at hentry
    · rcases List.mem_cons.mp hentry with rfl | hrest
      · split
        · exact Or.inr (Or.inl List.mem_cons_self)
        · exact Or.inr (Or.inr ⟨first, List.mem_cons_self, rfl⟩)
      · exact Or.inr (Or.inl (List.mem_cons_of_mem _ hrest))
    · rcases List.mem_cons.mp hentry with rfl | hrest
      · exact Or.inr (Or.inl List.mem_cons_self)
      · rcases ih hrest with hnew | hsame | ⟨old, hold, hput⟩
        · exact Or.inl hnew
        · exact Or.inr (Or.inl (List.mem_cons_of_mem _ hsame))
        · exact Or.inr (Or.inr ⟨old, List.mem_cons_of_mem _ hold, hput⟩)

theorem WellFormed.insert (hledger : ledger.WellFormed) (word : String) (value : Float) :
    (ledger.insert word value).WellFormed := by
  rw [Ledger.insert]
  split
  · exact hledger
  · rename_i hpassed
    obtain ⟨hword, hfinite⟩ : word ≠ "" ∧ value.isFinite = true := by simpa using hpassed
    refine ⟨?_, fun entry hentry ↦ ?_, fun entry hentry ↦ ?_⟩
    · rw [keys_fixWord]
      exact nodup_withWord hledger.once word
    · rcases mem_fixWord hentry with rfl | hold | ⟨old, hold, rfl⟩
      · exact hword
      · exact hledger.named entry hold
      · exact hledger.named old hold
    · rcases mem_fixWord hentry with rfl | hold | ⟨old, hold, rfl⟩
      · exact hfinite
      · exact hledger.finite entry hold
      · exact hledger.finite old hold

theorem WellFormed.put (hledger : ledger.WellFormed) (hword : word ≠ "")
    (hfinite : value.isFinite = true) : (Ledger.mk (put word value ledger.entries)).WellFormed := by
  refine ⟨?_, fun entry hentry ↦ ?_, fun entry hentry ↦ ?_⟩
  · rw [keys_put]
    exact nodup_withWord hledger.once word
  · rcases mem_put hentry with rfl | hold | ⟨old, hold, rfl⟩
    · exact hword
    · exact hledger.named entry hold
    · exact hledger.named old hold
  · rcases mem_put hentry with rfl | hold | ⟨old, hold, rfl⟩
    · exact hfinite
    · exact hledger.finite entry hold
    · exact hfinite

theorem WellFormed.insertParameter (hledger : ledger.WellFormed) (overrides : Overrides)
    (parameter : Parameter) : (insertParameter overrides ledger parameter).WellFormed := by
  rw [Ledger.insertParameter]
  split
  · exact List.foldlRecOn (motive := WellFormed) _ _ hledger fun _ hcurrent word _ ↦
      hcurrent.insert word _
  · exact hledger

theorem WellFormed.insertCalculation (hledger : ledger.WellFormed) (name : String)
    (value : Float) : (ledger.insertCalculation name value).WellFormed := by
  rw [Ledger.insertCalculation]
  split
  · rename_i hfinite
    refine List.foldlRecOn (motive := fun entries ↦ (Ledger.mk entries).WellFormed) _ _ hledger
      fun _ hcurrent word hword ↦ hcurrent.put ?_ hfinite
    simpa using (List.mem_filter.mp hword).2
  · exact hledger

theorem WellFormed.removeCalculation (hledger : ledger.WellFormed) (name : String) :
    (ledger.removeCalculation name).WellFormed where
  once := hledger.once.sublist (List.filter_sublist.map _)
  named entry hentry := hledger.named entry (List.mem_filter.mp hentry).1
  finite entry hentry := hledger.finite entry (List.mem_filter.mp hentry).1

theorem WellFormed.post (hledger : ledger.WellFormed) (posting : Posting) :
    (ledger.post posting).WellFormed := by
  cases posting with
  | word key value => exact hledger.insert key value
  | parameter overrides source => exact hledger.insertParameter overrides source
  | result name value => exact hledger.insertCalculation name value
  | removal name => exact hledger.removeCalculation name

/-- Postings lead to well-formed ledgers only. -/
theorem wellFormed_ofPostings (postings : List Posting) : (ofPostings postings).WellFormed :=
  List.foldlRecOn (motive := WellFormed) postings _ wellFormed_empty fun _ hledger posting _ ↦
    hledger.post posting

/-! ### Removed results -/

theorem entry?_eq_none {entries : List LedgerEntry} (hnew : key ∉ entries.map (·.key)) :
    Ledger.entry? ⟨entries⟩ key = none := by
  refine List.find?_eq_none.mpr fun entry hentry hkey ↦ hnew ?_
  rw [← eq_of_beq hkey]
  exact List.mem_map_of_mem hentry

/-- A removal takes away the words of the calculation that no parameter answers to. -/
theorem entry?_removeCalculation (honce : (entries.map (·.key)).Nodup) (name key : String) :
    Ledger.entry? ((Ledger.mk entries).removeCalculation name) key =
      if key ∈ aliases name ∧ (Ledger.mk entries).isParameterKey key = false then none
      else Ledger.entry? ⟨entries⟩ key := by
  induction entries with
  | nil => simp [removeCalculation, entry?]
  | cons entry rest ih =>
    obtain ⟨hfresh, honce⟩ := List.nodup_cons.mp honce
    have hrest := ih honce
    rw [removeCalculation] at hrest ⊢
    rw [isParameterKey] at hrest ⊢
    rw [List.filter_cons, entry?_cons]
    by_cases hkey : entry.key = key
    · subst hkey
      -- The word has no entry but this one, so it is gone if this one is.
      have hgone : Ledger.entry? ⟨rest.filter fun entry ↦
          entry.isParameter || !(aliases name).contains entry.key⟩ entry.key = none :=
        entry?_eq_none fun hmember ↦ hfresh ((List.filter_sublist.map _).subset hmember)
      have hanswer : Option.any (·.isParameter) (some entry) = entry.isParameter := rfl
      rw [if_pos rfl, hanswer]
      by_cases hkept : (entry.isParameter || !(aliases name).contains entry.key) = true
      · rw [if_pos hkept, entry?_cons, if_pos rfl, if_neg]
        rintro ⟨halias, hfixed⟩
        rw [hfixed, List.contains_iff_mem.mpr halias] at hkept
        cases hkept
      · rw [if_neg hkept, hgone, if_pos]
        simpa [and_comm] using hkept
    · rw [if_neg hkey, ← hrest]
      split
      · rw [entry?_cons, if_neg hkey]
      · rfl

theorem isParameterKey_removeCalculation (hledger : ledger.WellFormed) (name key : String) :
    (ledger.removeCalculation name).isParameterKey key = ledger.isParameterKey key := by
  rw [isParameterKey, entry?_removeCalculation hledger.once]
  split
  · rename_i hremoved
    exact hremoved.2.symm
  · rfl

theorem get?_removeCalculation (hledger : ledger.WellFormed) (name key : String) :
    (ledger.removeCalculation name).get? key =
      if key ∈ aliases name ∧ ledger.isParameterKey key = false then none
      else ledger.get? key := by
  rw [get?, entry?_removeCalculation hledger.once]
  split <;> rfl

/-! ### What a posting does to a word -/

theorem insert_of_not_finite (hinfinite : value.isFinite = false) (ledger : Ledger)
    (word : String) : ledger.insert word value = ledger := by
  rw [insert, hinfinite]
  simp

/-- A posting fixes the words that it gives a value to as those of a parameter. -/
theorem isParameterKey_post (hledger : ledger.WellFormed) (posting : Posting) (key : String) :
    (ledger.post posting).isParameterKey key = true ↔
      ledger.isParameterKey key = true ∨ (posting.fixes? key).isSome = true := by
  cases posting with
  | word written value =>
    show (ledger.insert written value).isParameterKey key = true ↔ _
    cases hfinite : value.isFinite with
    | true =>
      rw [isParameterKey_insert hfinite]
      simp [Posting.fixes?, hfinite, or_comm]
    | false => simp [insert_of_not_finite hfinite, Posting.fixes?, hfinite]
  | parameter overrides source =>
    show (insertParameter overrides ledger source).isParameterKey key = true ↔ _
    rw [isParameterKey_insertParameter, Posting.fixes?]
    by_cases hkey : key ∈ parameterKeys source ∧ key ≠ ""
    · simp [hkey, or_comm]
    · simp only [hkey, and_false, if_false, false_or, Option.isSome_none, Bool.false_eq_true,
        or_false]
  | result name value =>
    show (ledger.insertCalculation name value).isParameterKey key = true ↔ _
    simp [isParameterKey_insertCalculation, Posting.fixes?]
  | removal name =>
    show (ledger.removeCalculation name).isParameterKey key = true ↔ _
    simp [isParameterKey_removeCalculation hledger, Posting.fixes?]

/-- A word that a parameter answers to has a value. -/
theorem exists_get?_of_isParameterKey (hparameter : ledger.isParameterKey key = true) :
    ∃ value, ledger.get? key = some value := by
  obtain ⟨entry, hentry, _⟩ := (Option.any_eq_true _ _).mp hparameter
  exact ⟨entry.value, by rw [get?, hentry, Option.map_some]⟩

/-- A posting keeps the value of a word that a parameter answers to. -/
theorem get?_post_of_isParameterKey (hledger : ledger.WellFormed) (posting : Posting)
    (hparameter : ledger.isParameterKey key = true) :
    (ledger.post posting).get? key = ledger.get? key := by
  obtain ⟨kept, hkept⟩ := exists_get?_of_isParameterKey hparameter
  cases posting with
  | word written value =>
    show (ledger.insert written value).get? key = _
    cases hfinite : value.isFinite with
    | true => rw [get?_insert hfinite, hkept, Option.some_or]
    | false => rw [insert_of_not_finite hfinite]
  | parameter overrides source =>
    show (insertParameter overrides ledger source).get? key = _
    rw [get?_insertParameter, hkept, Option.some_or]
  | result name value =>
    show (ledger.insertCalculation name value).get? key = _
    cases hfinite : value.isFinite with
    | true => simp [get?_insertCalculation hfinite, hparameter]
    | false => simp [insertCalculation, hfinite]
  | removal name =>
    show (ledger.removeCalculation name).get? key = _
    simp [get?_removeCalculation hledger, hparameter]

/-- A posting revises the value of a word that no parameter answers to; a value that is missing may
then be fixed. -/
theorem get?_post (hledger : ledger.WellFormed) (posting : Posting)
    (hfree : ledger.isParameterKey key = false) :
    (ledger.post posting).get? key =
      (posting.revise key (ledger.get? key)).or (posting.fixes? key) := by
  cases posting with
  | word written value =>
    show (ledger.insert written value).get? key = (ledger.get? key).or _
    cases hfinite : value.isFinite with
    | true => simp [get?_insert hfinite, Posting.fixes?, hfinite]
    | false => simp [insert_of_not_finite hfinite, Posting.fixes?, hfinite]
  | parameter overrides source => exact get?_insertParameter overrides ledger source key
  | result name value =>
    show (ledger.insertCalculation name value).get? key = (Posting.revise _ _ _).or none
    rw [Option.or_none, Posting.revise]
    cases hfinite : value.isFinite with
    | true => simp [get?_insertCalculation hfinite, hfree]
    | false => simp [insertCalculation, hfinite]
  | removal name =>
    show (ledger.removeCalculation name).get? key = (Posting.revise _ _ _).or none
    simp [get?_removeCalculation hledger, hfree, Posting.revise]

/-! ### Runs of postings -/

/-- A word that a parameter answers to keeps that and its value through all later postings. -/
theorem foldl_post_of_isParameterKey (hledger : ledger.WellFormed)
    (hparameter : ledger.isParameterKey key = true) (later : List Posting) :
    (later.foldl post ledger).isParameterKey key = true ∧
      (later.foldl post ledger).get? key = ledger.get? key := by
  induction later generalizing ledger with
  | nil => exact ⟨hparameter, rfl⟩
  | cons posting later ih =>
    have hkept := (isParameterKey_post hledger posting key).mpr (Or.inl hparameter)
    obtain ⟨hstill, hvalue⟩ := ih (hledger.post posting) hkept
    exact ⟨hstill, hvalue.trans (get?_post_of_isParameterKey hledger posting hparameter)⟩

/-- After any postings a ledger holds each word once, no empty one and finite values only; a word
that a parameter answers to has a value, which no later posting changes or takes away. A finite
result then stands under the name of its calculation, the identifier of the name and the name with
underscores for white space, where no parameter answers to them, and the removal of a calculation
takes away just these three words where no parameter answers to them. -/
theorem ofPostings_keeps_rules (postings : List Posting) :
    (ofPostings postings).WellFormed ∧
    (∀ key, (ofPostings postings).isParameterKey key = true →
      ∃ value, (ofPostings postings).get? key = some value) ∧
    (∀ later key, (ofPostings postings).isParameterKey key = true →
      (ofPostings (postings ++ later)).isParameterKey key = true ∧
        (ofPostings (postings ++ later)).get? key = (ofPostings postings).get? key) ∧
    (∀ name value, value.isFinite = true →
      ∀ key ∈ [name, identifier name, underscored name], key ≠ "" →
      (ofPostings (postings ++ [.result name value])).isParameterKey key = false →
        (ofPostings (postings ++ [.result name value])).get? key = some value) ∧
    ∀ name key,
      Ledger.entry? (ofPostings (postings ++ [.removal name])) key =
        if key ∈ [name, identifier name, underscored name] ∧
          (ofPostings postings).isParameterKey key = false then none
        else Ledger.entry? (ofPostings postings) key := by
  have hledger := wellFormed_ofPostings postings
  refine ⟨hledger, fun key ↦ exists_get?_of_isParameterKey, fun later key hparameter ↦ ?_, ?_, ?_⟩
  · have happend : ofPostings (postings ++ later) = later.foldl post (ofPostings postings) :=
      List.foldl_append
    rw [happend]
    exact foldl_post_of_isParameterKey hledger hparameter later
  · intro name value hfinite key halias hkey hfree
    rw [ofPostings_append_singleton] at hfree ⊢
    rw [post, isParameterKey_insertCalculation] at hfree
    rw [post, get?_insertCalculation hfinite, if_pos ⟨⟨halias, hkey⟩, hfree⟩]
  · intro name key
    rw [ofPostings_append_singleton]
    exact entry?_removeCalculation hledger.once name key

end Formulary.Ledger
