import Formulary.Proofs.Request.BuiltRequest
import Formulary.Response

/-!
# Replies by position

The target of a built request lists the displayed calculations in their order, and a reply gives the
values of a response to the target by place. Hence the results hold, under each identifier, the
value at the last place that has both a value and a displayed calculation with that identifier,
`readReply_positional`. Calculations that are not displayed take no place, and those with a blank
formula take theirs.
-/

set_option autoImplicit false
set_option relaxedAutoImplicit false

namespace Formulary

open Formulary.Name

variable {settings : Settings} {solution : Solution} {overrides : Overrides} {request : Request}
variable {response : Json.Value} {values : List Json.Value}

/-! ### Places of names -/

section

variable {Entry : Type} {names : List String} {entries : List Entry} {name : String} {value : Entry}

/-- Of the first `count` names, the last one that is `name` stands at a place. -/
def IsLastPlace (names : List String) (count : Nat) (name : String) (place : Nat) : Prop :=
  place < count ∧ names[place]? = some name ∧
    ∀ later < count, place < later → names[later]? ≠ some name

instance (names : List String) (count : Nat) (name : String) (place : Nat) :
    Decidable (IsLastPlace names count name place) :=
  inferInstanceAs (Decidable (_ ∧ _))

theorem isLastPlace_of_nodup (hnodup : names.Nodup) {count place : Nat} (hcount : place < count)
    (hplace : names[place]? = some name) : IsLastPlace names count name place := by
  refine ⟨hcount, hplace, fun later _ hlater hsame ↦ ?_⟩
  obtain ⟨hbound, _⟩ := List.getElem?_eq_some_iff.mp hplace
  have heq : place = later := (List.getElem?_inj hbound hnodup).mp (hplace.trans hsame.symm)
  omega

/-- A table of names and values answers with the value at the last place of a name. -/
theorem find?_ofEntries_zip_eq_some_iff :
    Table.find? name (Table.ofEntries (names.zip entries)) = some value ↔
      ∃ place, IsLastPlace names entries.length name place ∧ entries[place]? = some value := by
  simp only [Table.find?_ofEntries_eq_some_iff, List.getElem?_zip_eq_some, Ne, not_and,
    IsLastPlace]
  constructor
  · rintro ⟨place, ⟨hplace, hvalue⟩, hlast⟩
    obtain ⟨hbound, _⟩ := List.getElem?_eq_some_iff.mp hvalue
    refine ⟨place, ⟨hbound, hplace, fun later hcount hlater hsame ↦ ?_⟩, hvalue⟩
    exact hlast later hlater entries[later] hsame (List.getElem?_eq_getElem hcount)
  · rintro ⟨place, ⟨-, hplace, hlast⟩, hvalue⟩
    refine ⟨place, ⟨hplace, hvalue⟩, fun later hlater other hsame hother ↦ ?_⟩
    exact hlast later (List.getElem?_eq_some_iff.mp hother).1 hlater hsame

/-- A table of names and values has the names that stand at a place with a value. -/
theorem mem_keys_ofEntries_zip : name ∈ (Table.ofEntries (names.zip entries)).map Prod.fst ↔
      ∃ place, place < min names.length entries.length ∧ names[place]? = some name := by
  rw [Table.mem_keys_ofEntries, List.mem_map]
  constructor
  · rintro ⟨⟨_, value⟩, hentry, rfl⟩
    obtain ⟨place, hplace⟩ := List.mem_iff_getElem?.mp hentry
    obtain ⟨hname, hvalue⟩ := List.getElem?_zip_eq_some.mp hplace
    exact ⟨place, lt_min (List.getElem?_eq_some_iff.mp hname).1
      (List.getElem?_eq_some_iff.mp hvalue).1, hname⟩
  · rintro ⟨place, hbound, hname⟩
    have hvalue := List.getElem?_eq_getElem (lt_min_iff.mp hbound).2
    exact ⟨_, List.mem_iff_getElem?.mpr
      ⟨place, (List.getElem?_zip_eq_some (z := (name, _))).mpr ⟨hname, hvalue⟩⟩, rfl⟩

end

/-! ### Targets and responses -/

/-- The identifiers of the displayed calculations in their order. -/
def Solution.displayedNames (solution : Solution) : List String :=
  (solution.calculations.filter (·.isDisplayed)).map fun calculation ↦ identifier calculation.name

/-- A response carries some values: it is their list, or an object with the list as its result. -/
def Carries (response : Json.Value) (values : List Json.Value) : Prop :=
  response = .list values ∨ response.field? "result" = some (.list values)

theorem responseValues_of_carries (hcarries : Carries response values) :
    responseValues response = values := by
  rcases hcarries with rfl | hresult
  · rfl
  · rw [responseValues, hresult]
    rfl

/-- The results of a built request are the table of the displayed calculations and the values. -/
theorem results_of_built (hbuilt : (buildRequest settings solution overrides).result = .ok request)
    (hcarries : Carries response values) :
    (request.readReply response).results =
      Table.ofEntries (solution.displayedNames.zip values) := by
  rw [eq_requestOf_of_built hbuilt, ← responseValues_of_carries hcarries]
  rfl

/-! ### Results -/

/-- The results of a built request, read from a response that carries a list of values, list the
identifiers in ascending order. They have those that stand at a place with a value, each with the
value at its last such place; if no identifier stands at two places, they are the identifiers with
the values at their places. -/
theorem readReply_positional
    (hbuilt : (buildRequest settings solution overrides).result = .ok request)
    (hcarries : Carries response values) :
    (request.readReply response).results.Ascending ∧
      (∀ name, name ∈ (request.readReply response).results.map Prod.fst ↔
        ∃ place, place < min solution.displayedNames.length values.length ∧
          solution.displayedNames[place]? = some name) ∧
      (∀ name value, (name, value) ∈ (request.readReply response).results ↔
        ∃ place, IsLastPlace solution.displayedNames values.length name place ∧
          values[place]? = some value) ∧
      (solution.displayedNames.Nodup →
        ∀ name value, (name, value) ∈ (request.readReply response).results ↔
          ∃ place : Nat, solution.displayedNames[place]? = some name ∧
            values[place]? = some value) := by
  rw [results_of_built hbuilt hcarries]
  have hascending := Table.ascending_ofEntries (solution.displayedNames.zip values)
  have hentries (name : String) (value : Json.Value) :
      (name, value) ∈ Table.ofEntries (solution.displayedNames.zip values) ↔
        ∃ place, IsLastPlace solution.displayedNames values.length name place ∧
          values[place]? = some value := by
    rw [← Table.find?_eq_some_iff_mem hascending, find?_ofEntries_zip_eq_some_iff]
  refine ⟨hascending, fun name ↦ mem_keys_ofEntries_zip, hentries, fun hnodup name value ↦ ?_⟩
  rw [hentries]
  constructor
  · rintro ⟨place, ⟨-, hname, -⟩, hvalue⟩
    exact ⟨place, hname, hvalue⟩
  · rintro ⟨place, hname, hvalue⟩
    have hcount := (List.getElem?_eq_some_iff.mp hvalue).1
    exact ⟨place, isLastPlace_of_nodup hnodup hcount hname, hvalue⟩

/-- Two costs with one identifier, a margin without a formula, a yield, and a tax that is not
displayed. -/
def accounts : Solution where
  parameters := []
  calculations := [
    { id := "1", name := "Unit Cost", formula := "1", displayResult := some true },
    { id := "2", name := "Tax", formula := "2" },
    { id := "3", name := "Margin", formula := " ", displayResult := some true },
    { id := "4", name := "Unit_Cost", formula := "3", displayResult := some true },
    { id := "5", name := "Yield", formula := "4", displayResult := some true }]

/-- Three values for the four places of the accounts. -/
def threeValues : List Json.Value :=
  [.number (.integer 10), .number (.integer 20), .number (.integer 30)]

/-- The margin has the second of three values, the unit cost the third, and the yield none. -/
theorem readReply_accounts :
    ∃ request, (buildRequest .standard accounts []).result = .ok request ∧
      Carries (.object [("result", .list threeValues)]) threeValues ∧
      let results := (request.readReply (.object [("result", .list threeValues)])).results
      ("Margin", .number (.integer 20)) ∈ results ∧
        ("Unit_Cost", .number (.integer 30)) ∈ results ∧ "Yield" ∉ results.map Prod.fst := by
  have hpolicy : Settings.standard.collisionPolicy ≠ .refuse := by decide
  have hbuilt := built_of_ne_refuse hpolicy accounts []
  have hcarries : Carries (.object [("result", .list threeValues)]) threeValues := Or.inr rfl
  have hnames : accounts.displayedNames = ["Unit_Cost", "Margin", "Unit_Cost", "Yield"] := by
    decide +kernel
  obtain ⟨-, hkeys, hentries, -⟩ := readReply_positional hbuilt hcarries
  rw [hnames] at hkeys hentries
  refine ⟨_, hbuilt, hcarries, (hentries _ _).mpr ⟨1, by decide, rfl⟩,
    (hentries _ _).mpr ⟨2, by decide, rfl⟩, fun hyield ↦ ?_⟩
  obtain ⟨place, hplace, hsame⟩ := (hkeys _).mp hyield
  have hnone : ∀ place < 3, ["Unit_Cost", "Margin", "Unit_Cost", "Yield"][place]? ≠
      some "Yield" := by decide
  exact hnone place hplace hsame

end Formulary
