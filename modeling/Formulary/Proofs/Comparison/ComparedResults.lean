import Formulary.Comparison
import Formulary.Proofs.Request.TableOrder
import Mathlib.Data.List.Nodup

/-!
# Comparisons of two tables

A comparison goes through the names of the first table and then through those that the second one
has alone; of tables in order these are the names of either one, each once. A result counts at the
number that it reads as, or at zero, `countsAs_iff`. Two names may have one title, so a row is known
by the name beside which it stands and not by what it shows. By the main statement,
`compareResults_covers`, there is one row for each name, and the comparison the other way round has
the same rows with their numbers exchanged.
-/

set_option autoImplicit false
set_option relaxedAutoImplicit false

namespace Formulary

open Formulary.Number

variable {first second : Results} {name : String} {row : ComparisonRow}
variable {result : Option Json.Value} {value : Json.Value} {number : Float}

/-! ### Names -/

/-- The names that only the second of two tables has. -/
theorem mem_further_iff :
    name ∈ ((second.map Prod.fst).filter fun name ↦ (Table.find? name first).isNone) ↔
      name ∈ second.map Prod.fst ∧ name ∉ first.map Prod.fst := by
  rw [List.mem_filter, Option.isNone_iff_eq_none, Table.find?_eq_none_iff]

theorem mem_comparedNames_iff : name ∈ comparedNames first second ↔
    name ∈ first.map Prod.fst ∨ name ∈ second.map Prod.fst := by
  rw [comparedNames, List.mem_append, mem_further_iff]
  tauto

theorem nodup_comparedNames (hfirst : Table.Ascending first) (hsecond : Table.Ascending second) :
    (comparedNames first second).Nodup := by
  refine List.Nodup.append hfirst.nodup (hsecond.nodup.filter _) fun name hname hfurther ↦ ?_
  exact (mem_further_iff.mp hfurther).2 hname

/-! ### Numbers -/

/-- A JSON value reads as a number: it is a finite one, or a text with a finite one at its front. -/
inductive ReadsAs : Json.Value → Float → Prop
  | number {written : Json.Number} (hfinite : written.toDouble.isFinite = true) :
      ReadsAs (.number written) written.toDouble
  | text {text : String} {number : Float} (hleading : leadingNumber text.toList = some number) :
      ReadsAs (.text text) number

/-- A result, if there is one, counts at the number that it reads as, and else at zero. -/
def CountsAs (result : Option Json.Value) (number : Float) : Prop :=
  (∃ value, result = some value ∧ ReadsAs value number) ∨
    (¬∃ value other, result = some value ∧ ReadsAs value other) ∧ number = 0.0

/-- The number that a JSON value reads as. -/
def valueReading : Json.Value → Option Float
  | .number written => finite? written.toDouble
  | .text text => leadingNumber text.toList
  | _ => none

theorem valueReading_eq_some_iff : valueReading value = some number ↔ ReadsAs value number := by
  constructor
  · intro hreading
    cases value with
    | number written =>
      obtain ⟨rfl, hfinite⟩ := finite?_eq_some_iff.mp hreading
      exact .number hfinite
    | text text => exact .text hreading
    | _ => cases hreading
  · rintro (hfinite | hleading)
    · exact finite?_eq_some_iff.mpr ⟨rfl, hfinite⟩
    · exact hleading

theorem resultNumberOr_eq (result : Option Json.Value) :
    resultNumberOr result = (result.bind valueReading).getD 0.0 := by
  cases result with
  | none => rfl
  | some value => cases value <;> rfl

theorem countsAs_iff : CountsAs result number ↔ number = resultNumberOr result := by
  simp only [CountsAs, ← valueReading_eq_some_iff, ← Option.bind_eq_some_iff, resultNumberOr_eq]
  rw [exists_comm]
  simp only [← Option.bind_eq_some_iff]
  cases result.bind valueReading with
  | none => simp
  | some read => simp [eq_comm]

theorem ReadsAs.isFinite (hreads : ReadsAs value number) : number.isFinite = true := by
  cases hreads with
  | number hfinite => exact hfinite
  | text hleading => exact isFinite_of_leadingNumber hleading

theorem CountsAs.isFinite (hcounts : CountsAs result number) : number.isFinite = true := by
  rcases hcounts with ⟨value, -, hreads⟩ | ⟨-, rfl⟩
  · exact hreads.isFinite
  · decide

/-! ### Rows -/

/-- A row compares what two tables have under a name. -/
structure ComparisonRow.Compares (row : ComparisonRow) (first second : Results) (name : String) :
    Prop where
  metric : row.metric = metricTitle name
  first : CountsAs (Table.find? name first) row.first
  second : CountsAs (Table.find? name second) row.second
  difference : row.difference = row.second - row.first
  percentChange : row.percentChange = changeInPercent row.first row.difference

/-- The rows of two tables beside the names that they are about. -/
def comparedRows (first second : Results) : List (String × ComparisonRow) :=
  (comparedNames first second).zip (compareResults first second)

/-- The row of two tables that compares them under a name. -/
theorem mem_comparedRows_iff : (name, row) ∈ comparedRows first second ↔
    name ∈ comparedNames first second ∧ row.Compares first second name := by
  rw [comparedRows, compareResults, ← List.map_prod_left_eq_zip, List.mem_map]
  constructor
  · rintro ⟨other, hother, hsame⟩
    obtain ⟨rfl, rfl⟩ := Prod.mk.inj hsame
    exact ⟨hother, rfl, countsAs_iff.mpr rfl, countsAs_iff.mpr rfl, rfl, rfl⟩
  · rintro ⟨hname, hmetric, hfirst, hsecond, hdifference, hpercent⟩
    refine ⟨name, hname, ?_⟩
    obtain ⟨metric, _, _, _, _⟩ := row
    rw [countsAs_iff] at hfirst hsecond
    simp only at hmetric hfirst hsecond hdifference hpercent
    subst hmetric hfirst hsecond hdifference hpercent
    rfl

/-- A comparison of two tables in order has one row for each name of either one, first for the names
of the first table and then for those of the second one alone, each time in ascending order. The row
of a name has its title and the two numbers, always finite, at which the results of this name count;
the comparison the other way round has a row for the same name with the same title and the two
numbers exchanged. -/
theorem compareResults_covers (hfirst : Table.Ascending first)
    (hsecond : Table.Ascending second) :
    (comparedNames first second).Nodup ∧
    (∀ name, name ∈ comparedNames first second ↔
      name ∈ first.map Prod.fst ∨ name ∈ second.map Prod.fst) ∧
    (∃ further : List String, comparedNames first second = first.map Prod.fst ++ further ∧
      (first.map Prod.fst).Pairwise (· < ·) ∧ further.Pairwise (· < ·) ∧
      ∀ name ∈ further, name ∉ first.map Prod.fst) ∧
    (comparedNames first second).length = (compareResults first second).length ∧
    ∀ name row, (name, row) ∈ comparedRows first second →
      row.Compares first second name ∧ row.first.isFinite = true ∧ row.second.isFinite = true ∧
      ∃ swapped, (name, swapped) ∈ comparedRows second first ∧ swapped.metric = row.metric ∧
        swapped.first = row.second ∧ swapped.second = row.first := by
  refine ⟨nodup_comparedNames hfirst hsecond, fun _ ↦ mem_comparedNames_iff, ?_, ?_, ?_⟩
  · refine ⟨_, rfl, hfirst, hsecond.filter _, fun name hfurther ↦ ?_⟩
    exact (mem_further_iff.mp hfurther).2
  · rw [compareResults, List.length_map]
  · intro name row hrow
    obtain ⟨hname, hcompares⟩ := mem_comparedRows_iff.mp hrow
    refine ⟨hcompares, hcompares.first.isFinite, hcompares.second.isFinite, ?_⟩
    have hother : name ∈ comparedNames second first :=
      mem_comparedNames_iff.mpr (mem_comparedNames_iff.mp hname).symm
    have hswapped : (ComparisonRow.of name row.second row.first).Compares second first name :=
      ⟨rfl, hcompares.second, hcompares.first, rfl, rfl⟩
    exact ⟨_, mem_comparedRows_iff.mpr ⟨hother, hswapped⟩, hcompares.metric.symm, rfl, rfl⟩

/-- A fee that falls away beside a cost that has fallen. -/
theorem compareResults_covers_fee :
    let before : Results := [("cost", .number (.double 200.0)), ("fee", .text "12.5 EUR")]
    let after : Results := [("cost", .number (.integer 150)), ("gain", .text "Error")]
    Table.Ascending before ∧ Table.Ascending after ∧
      comparedNames before after = ["cost", "fee", "gain"] ∧
      (compareResults before after).length = 3 ∧
      ∃ row swapped, ("fee", row) ∈ comparedRows before after ∧
        ("fee", swapped) ∈ comparedRows after before ∧
        row.first = 12.5 ∧ row.second = 0.0 ∧ swapped.first = 0.0 ∧ swapped.second = 12.5 := by
  intro before after
  have hbefore : before.Ascending := by
    rw [Table.Ascending]
    decide +kernel
  have hafter : after.Ascending := by
    rw [Table.Ascending]
    decide +kernel
  have hnames : comparedNames before after = ["cost", "fee", "gain"] := by decide +kernel
  have hrow : ("fee", ComparisonRow.of "fee" 12.5 0.0) ∈ comparedRows before after := by
    refine mem_comparedRows_iff.mpr ⟨by simp [hnames], rfl, Or.inl ⟨_, rfl, .text ?_⟩, ?_, rfl, rfl⟩
    · decide +kernel
    · exact countsAs_iff.mpr rfl
  obtain ⟨-, -, -, hlength, hrows⟩ := compareResults_covers hbefore hafter
  obtain ⟨-, -, -, swapped, hswapped, -, hfirst, hsecond⟩ := hrows "fee" _ hrow
  exact ⟨hbefore, hafter, hnames, by rw [← hlength, hnames]; rfl, _, swapped, hrow, hswapped, rfl,
    rfl, hfirst, hsecond⟩

end Formulary
