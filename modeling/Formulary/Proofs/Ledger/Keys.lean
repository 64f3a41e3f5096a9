import Formulary.Ledger

/-!
# What a ledger knows

Each operation of a ledger is described by what it does to the values and to the words of
parameters, which follows from what it does to the entry of a word, `entry?_put` and
`entry?_fixWord`: `get?_insertCalculation` and `isParameterKey_insertCalculation` for a result,
`isParameterKey_ofParameters` for the words of the parameters, whose values come from the first one
that answers to a word, `get?_ofParameters_eq_findSome?`. A ledger with several
results knows the words that they answer to from them, `get?_withResults`, unless a parameter
answers to the word, `get?_withResults_of_isParameterKey`.
-/

set_option autoImplicit false
set_option relaxedAutoImplicit false

namespace Formulary.Ledger

open Formulary.Name Formulary.Number

variable {ledger base : Ledger} {key : String}

/-! ### Words and entries -/

theorem entry?_cons (entry : LedgerEntry) (entries : List LedgerEntry) (key : String) :
    Ledger.entry? ⟨entry :: entries⟩ key =
      if entry.key = key then some entry else Ledger.entry? ⟨entries⟩ key := by
  unfold entry?
  rw [List.find?_cons]
  by_cases hkey : entry.key = key
  · simp [hkey]
  · have hother : (entry.key == key) = false := beq_eq_false_iff_ne.mpr hkey
    rw [hother, if_neg hkey]

/-- A word fixed for a parameter keeps the value that it has. -/
theorem entry?_fixWord (word : String) (value : Float) (entries : List LedgerEntry)
    (key : String) :
    Ledger.entry? ⟨fixWord word value entries⟩ key =
      if word = key then
        some ((Ledger.entry? ⟨entries⟩ key).elim ⟨word, value, true⟩
          fun entry ↦ { entry with isParameter := true })
      else Ledger.entry? ⟨entries⟩ key := by
  induction entries with
  | nil =>
    rw [fixWord, entry?_cons]
    rfl
  | cons entry rest ih =>
    rw [fixWord]
    by_cases hentry : entry.key = word
    · rw [if_pos hentry, entry?_cons, entry?_cons]
      by_cases hkey : word = key
      · simp [hentry, hkey]
      · simp [hentry, hkey]
    · rw [if_neg hentry, entry?_cons, entry?_cons, ih]
      by_cases hkey : entry.key = key
      · have hother : word ≠ key := fun h ↦ hentry (hkey.trans h.symm)
        simp [hkey, hother]
      · simp [hkey]

/-- A word gets a new result, unless a parameter answers to it. -/
theorem entry?_put (written : String) (value : Float) (entries : List LedgerEntry)
    (key : String) :
    Ledger.entry? ⟨put written value entries⟩ key =
      if written = key then
        some ((Ledger.entry? ⟨entries⟩ key).elim ⟨written, value, false⟩
          fun entry ↦ if entry.isParameter then entry else { entry with value })
      else Ledger.entry? ⟨entries⟩ key := by
  induction entries with
  | nil =>
    rw [put, entry?_cons]
    rfl
  | cons entry rest ih =>
    rw [put]
    by_cases hentry : entry.key = written
    · rw [if_pos hentry, entry?_cons, entry?_cons]
      by_cases hfixed : entry.isParameter = true
      · by_cases hkey : written = key <;> simp [hfixed, hentry, hkey]
      · by_cases hkey : written = key <;> simp [hfixed, hentry, hkey]
    · rw [if_neg hentry, entry?_cons, entry?_cons, ih]
      by_cases hkey : entry.key = key
      · have hother : written ≠ key := fun h ↦ hentry (hkey.trans h.symm)
        simp [hkey, hother]
      · simp [hkey]

/-! ### Results of calculations -/

theorem isParameterKey_put (written : String) (value : Float) (entries : List LedgerEntry)
    (key : String) :
    (Ledger.mk (put written value entries)).isParameterKey key =
      (Ledger.mk entries).isParameterKey key := by
  rw [isParameterKey, isParameterKey, entry?_put]
  split
  · cases Ledger.entry? ⟨entries⟩ key with
    | none => rfl
    | some entry => by_cases hfixed : entry.isParameter = true <;> simp [hfixed]
  · rfl

theorem get?_put (written : String) (value : Float) (entries : List LedgerEntry) (key : String) :
    (Ledger.mk (put written value entries)).get? key =
      if written = key ∧ (Ledger.mk entries).isParameterKey key = false then some value
      else (Ledger.mk entries).get? key := by
  rw [get?, get?, isParameterKey, entry?_put]
  by_cases hkey : written = key
  · cases Ledger.entry? ⟨entries⟩ key with
    | none => simp [hkey]
    | some entry => by_cases hfixed : entry.isParameter = true <;> simp [hkey, hfixed]
  · simp [hkey]

theorem isParameterKey_foldl_put (words : List String) (value : Float)
    (entries : List LedgerEntry) (key : String) :
    (Ledger.mk (words.foldl (fun entries word ↦ put word value entries) entries)).isParameterKey
        key = (Ledger.mk entries).isParameterKey key := by
  induction words generalizing entries with
  | nil => rfl
  | cons word words ih => rw [List.foldl_cons, ih, isParameterKey_put]

theorem get?_foldl_put (words : List String) (value : Float) (entries : List LedgerEntry)
    (key : String) :
    (Ledger.mk (words.foldl (fun entries word ↦ put word value entries) entries)).get? key =
      if key ∈ words ∧ (Ledger.mk entries).isParameterKey key = false then some value
      else (Ledger.mk entries).get? key := by
  induction words generalizing entries with
  | nil => simp
  | cons word words ih =>
    rw [List.foldl_cons, ih, get?_put, isParameterKey_put]
    simp only [List.mem_cons]
    by_cases hparameter : (Ledger.mk entries).isParameterKey key = true
    · simp [hparameter]
    · by_cases hkey : word = key
      · simp [hkey, hparameter]
      · simp [Ne.symm hkey, hkey]

/-- A result of a calculation leaves the words of parameters alone. -/
theorem isParameterKey_insertCalculation (ledger : Ledger) (name : String) (value : Float)
    (key : String) :
    (ledger.insertCalculation name value).isParameterKey key = ledger.isParameterKey key := by
  rw [insertCalculation]
  split
  · exact isParameterKey_foldl_put _ value ledger.entries key
  · rfl

/-- Whether a calculation answers to a word. -/
def Answers (name key : String) : Prop :=
  key ∈ aliases name ∧ key ≠ ""

instance (name key : String) : Decidable (Answers name key) :=
  inferInstanceAs (Decidable (_ ∧ _))

/-- A finite result is the new value of the words of its calculation that no parameter answers
to. -/
theorem get?_insertCalculation {value : Float} (hfinite : value.isFinite = true) (ledger : Ledger)
    (name key : String) :
    (ledger.insertCalculation name value).get? key =
      if Answers name key ∧ ledger.isParameterKey key = false then some value
      else ledger.get? key := by
  have hwords : key ∈ (aliases name).filter (fun word ↦ !word.isEmpty) ↔ Answers name key := by
    simp [Answers]
  rw [insertCalculation, if_pos hfinite, get?_foldl_put]
  simp only [hwords]

/-! ### Several results -/

/-- A ledger with the results of some calculations, given with their names. -/
def withResults (base : Ledger) (results : List (String × Float)) : Ledger :=
  results.foldl (fun ledger result ↦ ledger.insertCalculation result.1 result.2) base

theorem withResults_append (base : Ledger) (earlier later : List (String × Float)) :
    base.withResults (earlier ++ later) = (base.withResults earlier).withResults later :=
  List.foldl_append

variable {results : List (String × Float)}

/-- Results do not change the words of parameters. -/
theorem get?_withResults_of_isParameterKey
    (hfinite : ∀ result ∈ results, result.2.isFinite = true)
    (hparameter : base.isParameterKey key = true) :
    (base.withResults results).get? key = base.get? key := by
  induction results generalizing base with
  | nil => rfl
  | cons result results ih =>
    have hkept : (base.insertCalculation result.1 result.2).isParameterKey key = true := by
      rw [isParameterKey_insertCalculation, hparameter]
    have hhere := get?_insertCalculation (hfinite result List.mem_cons_self) base result.1 key
    rw [if_neg (by simp [hparameter])] at hhere
    rw [← hhere]
    exact ih (fun other hother ↦ hfinite other (List.mem_cons_of_mem _ hother)) hkept

/-- Where all results for a word agree, the ledger knows the word from them, and else as before. -/
theorem get?_withResults (hfinite : ∀ result ∈ results, result.2.isFinite = true)
    (hparameter : base.isParameterKey key = false) {value : Float}
    (hagree : ∀ result ∈ results, Answers result.1 key → result.2 = value) :
    (base.withResults results).get? key =
      if ∃ result ∈ results, Answers result.1 key then some value else base.get? key := by
  induction results generalizing base with
  | nil => simp [withResults]
  | cons result results ih =>
    have hkept : (base.insertCalculation result.1 result.2).isParameterKey key = false := by
      rw [isParameterKey_insertCalculation, hparameter]
    show ((base.insertCalculation result.1 result.2).withResults results).get? key = _
    rw [ih (fun other hother ↦ hfinite other (List.mem_cons_of_mem _ hother)) hkept
      fun other hother ↦ hagree other (List.mem_cons_of_mem _ hother),
      get?_insertCalculation (hfinite result List.mem_cons_self)]
    by_cases hanswers : Answers result.1 key
    · have hvalue := hagree result List.mem_cons_self hanswers
      simp [hanswers, hparameter, hvalue]
    · simp only [hanswers, false_and, if_false, List.mem_cons, or_and_right, exists_or,
        exists_eq_left, false_or]

/-- A word that no result answers to keeps its value. -/
theorem get?_withResults_of_unanswered (hfinite : ∀ result ∈ results, result.2.isFinite = true)
    (hnone : ∀ result ∈ results, ¬Answers result.1 key) :
    (base.withResults results).get? key = base.get? key := by
  by_cases hparameter : base.isParameterKey key = true
  · exact get?_withResults_of_isParameterKey hfinite hparameter
  · have hvacuous : ∀ result ∈ results, Answers result.1 key → result.2 = 0.0 :=
      fun result hresult hanswers ↦ absurd hanswers (hnone result hresult)
    rw [get?_withResults hfinite (Bool.eq_false_iff.mpr hparameter) hvacuous, if_neg]
    rintro ⟨result, hresult, hanswers⟩
    exact hnone result hresult hanswers

/-- What a ledger with results knows, it knew before or from a result. -/
theorem of_get?_withResults (hfinite : ∀ result ∈ results, result.2.isFinite = true)
    {value : Float} (hvalue : (base.withResults results).get? key = some value) :
    base.get? key = some value ∨ ∃ result ∈ results, Answers result.1 key ∧ result.2 = value := by
  induction results generalizing base with
  | nil => exact Or.inl hvalue
  | cons result results ih =>
    have hlater := ih (fun other hother ↦ hfinite other (List.mem_cons_of_mem _ hother)) hvalue
    rw [get?_insertCalculation (hfinite result List.mem_cons_self)] at hlater
    rcases hlater with hknown | ⟨other, hother, hanswers⟩
    · split at hknown
      · rename_i hhere
        exact Or.inr ⟨result, List.mem_cons_self, hhere.1, Option.some.inj hknown⟩
      · exact Or.inl hknown
    · exact Or.inr ⟨other, List.mem_cons_of_mem _ hother, hanswers⟩

/-! ### Parameters -/

theorem mem_fixWord {key : String} {value : Float} {entries : List LedgerEntry}
    {entry : LedgerEntry} (hentry : entry ∈ fixWord key value entries) :
    entry = ⟨key, value, true⟩ ∨ entry ∈ entries ∨
      ∃ old ∈ entries, entry = { old with isParameter := true } := by
  induction entries with
  | nil => exact Or.inl (List.mem_singleton.mp hentry)
  | cons first rest ih =>
    rw [fixWord] at hentry
    split at hentry
    · rcases List.mem_cons.mp hentry with rfl | hrest
      · exact Or.inr (Or.inr ⟨first, List.mem_cons_self, rfl⟩)
      · exact Or.inr (Or.inl (List.mem_cons_of_mem _ hrest))
    · rcases List.mem_cons.mp hentry with rfl | hrest
      · exact Or.inr (Or.inl List.mem_cons_self)
      · rcases ih hrest with hnew | hsame | ⟨old, hold, hfixed⟩
        · exact Or.inl hnew
        · exact Or.inr (Or.inl (List.mem_cons_of_mem _ hsame))
        · exact Or.inr (Or.inr ⟨old, List.mem_cons_of_mem _ hold, hfixed⟩)

theorem isParameterKey_fixWord (word : String) (value : Float) (entries : List LedgerEntry)
    (key : String) : (Ledger.mk (fixWord word value entries)).isParameterKey key = true ↔
      word = key ∨ (Ledger.mk entries).isParameterKey key = true := by
  rw [isParameterKey, isParameterKey, entry?_fixWord]
  by_cases hkey : word = key
  · cases Ledger.entry? ⟨entries⟩ key with
    | none => simp [hkey]
    | some entry => simp [hkey]
  · simp [hkey]

theorem isParameterKey_insert {word : String} {value : Float} (hfinite : value.isFinite = true)
    (ledger : Ledger) (key : String) : (ledger.insert word value).isParameterKey key = true ↔
      (word = key ∧ key ≠ "") ∨ ledger.isParameterKey key = true := by
  rw [insert]
  by_cases hempty : word.isEmpty = true
  · have hword : word = "" := String.isEmpty_iff.mp hempty
    rw [if_pos (by simp [hempty])]
    refine ⟨Or.inr, fun h ↦ h.resolve_left ?_⟩
    rintro ⟨rfl, hnonempty⟩
    exact hnonempty hword
  · have hword : word ≠ "" := fun h ↦ hempty (String.isEmpty_iff.mpr h)
    rw [if_neg (by simp [hempty, hfinite]), isParameterKey_fixWord]
    refine or_congr_left ⟨fun h ↦ ⟨h, h ▸ hword⟩, And.left⟩

theorem isParameterKey_foldl_insert {value : Float} (hfinite : value.isFinite = true)
    (words : List String) (ledger : Ledger) (key : String) :
    (words.foldl (fun current word ↦ current.insert word value) ledger).isParameterKey key = true ↔
      (key ∈ words ∧ key ≠ "") ∨ ledger.isParameterKey key = true := by
  induction words generalizing ledger with
  | nil => simp
  | cons word words ih =>
    rw [List.foldl_cons, ih, isParameterKey_insert hfinite, List.mem_cons]
    grind

theorem isFinite_of_parameterValue {overrides : Overrides} {parameter : Parameter} {value : Float}
    (hvalue : parameterValue overrides parameter = some value) : value.isFinite = true := by
  rw [parameterValue, Option.or_eq_some_iff] at hvalue
  rcases hvalue with hentered | ⟨_, hstored⟩
  · obtain ⟨quantity, _, hreading⟩ := Option.bind_eq_some_iff.mp hentered
    exact Quantity.isFinite_of_reading hreading
  · obtain ⟨recorded, _, hrecorded⟩ := List.exists_of_findSome?_eq_some hstored
    obtain ⟨quantity, _, hreading⟩ := Option.bind_eq_some_iff.mp hrecorded
    exact Quantity.isFinite_of_reading hreading

/-- A parameter with a value answers to its words. -/
theorem isParameterKey_insertParameter (overrides : Overrides) (ledger : Ledger)
    (parameter : Parameter) (key : String) :
    (insertParameter overrides ledger parameter).isParameterKey key = true ↔
      ((parameterValue overrides parameter).isSome = true ∧ key ∈ parameterKeys parameter ∧
        key ≠ "") ∨ ledger.isParameterKey key = true := by
  rw [insertParameter]
  cases hvalue : parameterValue overrides parameter with
  | none => simp
  | some value =>
    show ((parameterKeys parameter).foldl _ ledger).isParameterKey key = true ↔ _
    rw [isParameterKey_foldl_insert (isFinite_of_parameterValue hvalue)]
    simp

/-- The words of parameters are those of the parameters that have a value. -/
theorem isParameterKey_ofParameters (parameters : List Parameter) (overrides : Overrides)
    (key : String) : (ofParameters parameters overrides).isParameterKey key = true ↔
      ∃ parameter ∈ parameters, (parameterValue overrides parameter).isSome = true ∧
        key ∈ parameterKeys parameter ∧ key ≠ "" := by
  have hfold (ledger : Ledger) :
      (parameters.foldl (insertParameter overrides) ledger).isParameterKey key = true ↔
        (∃ parameter ∈ parameters, (parameterValue overrides parameter).isSome = true ∧
          key ∈ parameterKeys parameter ∧ key ≠ "") ∨ ledger.isParameterKey key = true := by
    induction parameters generalizing ledger with
    | nil => simp
    | cons parameter parameters ih =>
      rw [List.foldl_cons, ih, isParameterKey_insertParameter]
      simp only [List.mem_cons, or_and_right, exists_or, exists_eq_left]
      grind
  rw [ofParameters, hfold]
  exact or_iff_left Bool.false_ne_true

/-! ### Values of parameters -/

theorem get?_fixWord (word : String) (value : Float) (entries : List LedgerEntry) (key : String) :
    (Ledger.mk (fixWord word value entries)).get? key =
      ((Ledger.mk entries).get? key).or (if word = key then some value else none) := by
  rw [get?, get?, entry?_fixWord]
  by_cases hkey : word = key
  · cases Ledger.entry? ⟨entries⟩ key <;> simp [hkey]
  · simp [hkey]

theorem get?_insert {value : Float} (hfinite : value.isFinite = true) (ledger : Ledger)
    (word key : String) : (ledger.insert word value).get? key =
      (ledger.get? key).or (if word = key ∧ key ≠ "" then some value else none) := by
  rw [insert]
  by_cases hempty : word = ""
  · subst hempty
    have hnone : ¬("" = key ∧ key ≠ "") := fun h ↦ h.2 h.1.symm
    rw [if_pos (by simp), if_neg hnone, Option.or_none]
  · rw [if_neg (by simp [hempty, hfinite]), get?_fixWord]
    by_cases hkey : word = key
    · simp [← hkey, hempty]
    · simp [hkey]

theorem get?_foldl_insert {value : Float} (hfinite : value.isFinite = true) (words : List String)
    (ledger : Ledger) (key : String) :
    (words.foldl (fun current word ↦ current.insert word value) ledger).get? key =
      (ledger.get? key).or (if key ∈ words ∧ key ≠ "" then some value else none) := by
  induction words generalizing ledger with
  | nil => simp
  | cons word words ih =>
    rw [List.foldl_cons, ih, get?_insert hfinite, Option.or_assoc]
    congr 1
    by_cases hkey : word = key
    · by_cases hempty : key = "" <;> simp [hkey, hempty]
    · simp [hkey, Ne.symm hkey]

/-- A parameter gives its number to those of its words that have no value yet. -/
theorem get?_insertParameter (overrides : Overrides) (ledger : Ledger) (parameter : Parameter)
    (key : String) : (insertParameter overrides ledger parameter).get? key =
      (ledger.get? key).or (if key ∈ parameterKeys parameter ∧ key ≠ "" then
        parameterValue overrides parameter else none) := by
  rw [insertParameter]
  cases hvalue : parameterValue overrides parameter with
  | none => simp
  | some value => exact get?_foldl_insert (isFinite_of_parameterValue hvalue) _ ledger key

/-- The ledger of parameters knows a word from the first parameter with a number that answers to
it. -/
theorem get?_ofParameters_eq_findSome? (parameters : List Parameter) (overrides : Overrides)
    (key : String) : (ofParameters parameters overrides).get? key =
      parameters.findSome? fun parameter ↦
        if key ∈ parameterKeys parameter ∧ key ≠ "" then parameterValue overrides parameter
        else none := by
  have hfold (ledger : Ledger) : (parameters.foldl (insertParameter overrides) ledger).get? key =
      (ledger.get? key).or (parameters.findSome? fun parameter ↦
        if key ∈ parameterKeys parameter ∧ key ≠ "" then parameterValue overrides parameter
        else none) := by
    induction parameters generalizing ledger with
    | nil => simp
    | cons parameter parameters ih =>
      rw [List.foldl_cons, ih, get?_insertParameter, Option.or_assoc, List.findSome?_cons]
      cases (if key ∈ parameterKeys parameter ∧ key ≠ "" then parameterValue overrides parameter
        else none) <;> rfl
  exact (hfold empty).trans (Option.none_or)

/-- Every entry of a ledger holds a finite value that a parameter answers with. -/
def IsFixed (ledger : Ledger) : Prop :=
  ∀ entry ∈ ledger.entries, entry.isParameter = true ∧ entry.value.isFinite = true

theorem isFixed_insert (hfixed : ledger.IsFixed) (word : String) (value : Float) :
    (ledger.insert word value).IsFixed := by
  intro entry hentry
  rw [insert] at hentry
  split at hentry
  · exact hfixed entry hentry
  · rename_i hpassed
    have hfinite : value.isFinite = true := by
      simp only [Bool.or_eq_true, Bool.not_eq_true', not_or, Bool.not_eq_false] at hpassed
      exact hpassed.2
    rcases mem_fixWord hentry with rfl | hold | ⟨old, hold, rfl⟩
    · exact ⟨rfl, hfinite⟩
    · exact hfixed entry hold
    · exact ⟨rfl, (hfixed old hold).2⟩

theorem isFixed_insertParameter (overrides : Overrides) (hfixed : ledger.IsFixed)
    (parameter : Parameter) : (insertParameter overrides ledger parameter).IsFixed := by
  rw [insertParameter]
  split
  · exact List.foldlRecOn (motive := IsFixed) _ _ hfixed fun _ hcurrent word _ ↦
      isFixed_insert hcurrent word _
  · exact hfixed

/-- The ledger of parameters holds finite values that parameters answer with, and nothing else. -/
theorem isFixed_ofParameters (parameters : List Parameter) (overrides : Overrides) :
    (ofParameters parameters overrides).IsFixed := by
  have hempty : empty.IsFixed := fun entry hentry ↦ absurd hentry List.not_mem_nil
  exact List.foldlRecOn (motive := IsFixed) parameters _ hempty fun _ hledger parameter _ ↦
    isFixed_insertParameter overrides hledger parameter

/-- What the ledger of parameters knows is finite and a word of a parameter. -/
theorem get?_ofParameters {parameters : List Parameter} {overrides : Overrides} {value : Float}
    (hvalue : (ofParameters parameters overrides).get? key = some value) :
    (ofParameters parameters overrides).isParameterKey key = true ∧ value.isFinite = true := by
  obtain ⟨entry, hfound, rfl⟩ := Option.map_eq_some_iff.mp hvalue
  obtain ⟨hparameter, hfinite⟩ :=
    isFixed_ofParameters parameters overrides entry (List.mem_of_find?_eq_some hfound)
  refine ⟨?_, hfinite⟩
  rw [isParameterKey, hfound]
  exact hparameter

end Formulary.Ledger
