import Formulary.Proofs.Registry.Run
import Formulary.Proofs.Request.BuiltRequest
import Mathlib.Data.List.Find

/-!
# Requests whose names collide

Two names collide if they differ and share an identifier. The registry of a solution reports the
collisions of its declared names, and the one that it reports first, `head?_collisions_eq_some_iff`,
belongs to the first declared name that collides with any. A policy that lets names merge gives the
request in any case; the one that refuses them fails exactly on that first collision, and gives the
same request otherwise. This is `buildRequest_judges_collisions`.
-/

set_option autoImplicit false
set_option relaxedAutoImplicit false

namespace Formulary.Name

/-! ### Lists without their repetitions -/

section Repetitions

variable {Item : Type} [DecidableEq Item] {items : List Item}

/-- A search finds the same with and without repetitions. -/
theorem find?_eraseDups (wanted : Item → Bool) (items : List Item) :
    items.eraseDups.find? wanted = items.find? wanted := by
  induction items using List.reverseRecOn with
  | nil => simp
  | append_singleton items item ih =>
    rw [eraseDups_append_singleton, List.find?_append]
    split
    · rename_i hknown
      rw [ih]
      cases hfound : items.find? wanted with
      | some other => rfl
      | none =>
        have hother := List.find?_eq_none.mp hfound item hknown
        rw [List.find?_cons_of_neg hother, List.find?_nil, Option.or_none]
    · rw [List.find?_append, ih]

/-- Two of the items of a list differ if it is longer than one without repetitions. -/
theorem one_lt_length_eraseDups_iff {item : Item} (hitem : item ∈ items) :
    1 < items.eraseDups.length ↔ ∃ other ∈ items, item ≠ other := by
  have hnodup := nodup_eraseDups items
  have hmember (other : Item) : other ∈ items.eraseDups ↔ other ∈ items := List.mem_eraseDups
  cases hitems : items.eraseDups with
  | nil =>
    have hnone := (hmember item).mpr hitem
    rw [hitems] at hnone
    cases hnone
  | cons first rest =>
    rw [hitems] at hnodup hmember
    cases rest with
    | nil =>
      have hsame (other : Item) (hother : other ∈ items) : other = first :=
        List.mem_singleton.mp ((hmember other).mpr hother)
      constructor
      · intro hlong
        cases hlong with
        | step hlong => cases hlong
      · rintro ⟨other, hother, hdiffer⟩
        exact absurd ((hsame item hitem).trans (hsame other hother).symm) hdiffer
    | cons second rest =>
      have hdiffer : first ≠ second := fun h ↦
        (List.nodup_cons.mp hnodup).1 (h ▸ List.mem_cons_self)
      refine ⟨fun _ ↦ ?_, fun _ ↦ by simp⟩
      by_cases hfirst : item = first
      · refine ⟨second, (hmember second).mp (by simp), hfirst ▸ hdiffer⟩
      · exact ⟨first, (hmember first).mp List.mem_cons_self, hfirst⟩

end Repetitions

/-! ### Collisions -/

/-- Two names differ and have one identifier. -/
def Collide (first second : String) : Prop :=
  first ≠ second ∧ identifier first = identifier second ∧ identifier first ≠ ""

instance (first second : String) : Decidable (Collide first second) :=
  inferInstanceAs (Decidable (_ ∧ _))

/-- The first collision among some names: its identifier is that of the first name that collides
with any of them, and its names are all that have this identifier, each where it came first. -/
structure IsFirstCollision (names : List String) (collision : Collision) : Prop where
  first : ∃ front name back, names = front ++ name :: back ∧
    identifier name = collision.identifier ∧ (∃ other ∈ names, Collide name other) ∧
      ∀ earlier ∈ front, ∀ other ∈ names, ¬Collide earlier other
  names : collision.names =
    (names.filter fun name ↦ identifier name = collision.identifier).eraseDups

variable {names : List String} {name : String}

/-- The group of a name has several names if the name collides with any. -/
theorem one_lt_length_groupOf_iff (hname : name ∈ names) (hsome : identifier name ≠ "") :
    1 < (Registry.groupOf names (identifier name)).names.length ↔
      ∃ other ∈ names, Collide name other := by
  have hgroup : name ∈ names.filter fun other ↦ identifier other = identifier name := by
    simp [hname]
  rw [Registry.groupOf, one_lt_length_eraseDups_iff hgroup]
  refine exists_congr fun other ↦ ?_
  rw [List.mem_filter, decide_eq_true_eq, Collide]
  constructor
  · rintro ⟨⟨hother, hshared⟩, hdiffer⟩
    exact ⟨hother, hdiffer, hshared.symm, hsome⟩
  · rintro ⟨hother, hdiffer, hshared, -⟩
    exact ⟨⟨hother, hshared.symm⟩, hdiffer⟩

/-- Names without an identifier belong to no group. -/
theorem groupOf_identified {shared : String} (hsome : shared ≠ "") :
    Registry.groupOf (Registry.identified names) shared = Registry.groupOf names shared := by
  have hnames : (Registry.identified names).filter (fun name ↦ identifier name = shared) =
      names.filter fun name ↦ identifier name = shared := by
    rw [Registry.identified, List.filter_filter]
    refine List.filter_congr fun name _ ↦ ?_
    by_cases hshared : identifier name = shared <;> simp [hshared, hsome]
  rw [Registry.groupOf, Registry.groupOf, hnames]

/-- The first group with several names is that of the first name that collides. -/
theorem find?_groups (names : List String) :
    (Registry.groups (Registry.identified names)).find? (fun group ↦ 1 < group.names.length) =
      (names.find? fun name ↦ ∃ other ∈ names, Collide name other).map fun name ↦
        Registry.groupOf names (identifier name) := by
  have hcollides (name : String) (hname : name ∈ names) :
      decide ((decide (identifier name ≠ "") = true) ∧
        (decide (1 < (Registry.groupOf (Registry.identified names)
          (identifier name)).names.length)) = true) =
      decide (∃ other ∈ names, Collide name other) := by
    rw [decide_eq_decide, decide_eq_true_eq, decide_eq_true_eq]
    constructor
    · rintro ⟨hsome, hseveral⟩
      rw [groupOf_identified hsome] at hseveral
      exact (one_lt_length_groupOf_iff hname hsome).mp hseveral
    · rintro ⟨other, hother, hcollide⟩
      refine ⟨hcollide.2.2, ?_⟩
      rw [groupOf_identified hcollide.2.2]
      exact (one_lt_length_groupOf_iff hname hcollide.2.2).mpr ⟨other, hother, hcollide⟩
  rw [Registry.groups, List.find?_map, find?_eraseDups, List.find?_map, Option.map_map]
  show ((List.filter _ names).find? _).map _ = _
  rw [List.find?_filter]
  simp only [Function.comp_apply]
  rw [List.find?_congr hcollides]
  refine Option.map_congr fun name hname ↦ ?_
  obtain ⟨other, -, hcollide⟩ : ∃ other ∈ names, Collide name other := by
    simpa using List.find?_some hname
  exact groupOf_identified hcollide.2.2

theorem find?_groups_eq_some_iff {collision : Collision} :
    (Registry.groups (Registry.identified names)).find? (fun group ↦ 1 < group.names.length) =
      some collision ↔ IsFirstCollision names collision := by
  rw [find?_groups, Option.map_eq_some_iff]
  constructor
  · rintro ⟨name, hfound, rfl⟩
    obtain ⟨hcollides, front, back, hsplit, hfront⟩ := List.find?_eq_some_iff_append.mp hfound
    refine ⟨⟨front, name, back, hsplit, rfl, of_decide_eq_true hcollides,
      fun earlier hearlier other hother hcollide ↦ ?_⟩, rfl⟩
    have hnone := hfront earlier hearlier
    rw [Bool.not_eq_true', decide_eq_false_iff_not] at hnone
    exact hnone ⟨other, hother, hcollide⟩
  · rintro ⟨⟨front, name, back, hsplit, hname, hcollides, hfront⟩, hnames⟩
    refine ⟨name, List.find?_eq_some_iff_append.mpr ⟨decide_eq_true hcollides, front, back, hsplit,
      fun earlier hearlier ↦ ?_⟩, ?_⟩
    · rw [Bool.not_eq_true', decide_eq_false_iff_not]
      rintro ⟨other, hother, hcollide⟩
      exact hfront earlier hearlier other hother hcollide
    · rw [hname, Registry.groupOf, ← hnames]

end Formulary.Name

namespace Formulary

open Formulary.Name

/-! ### The registry of a solution -/

/-- The registry of a solution comes from a run that declares the names of its records. -/
theorem registry_eq_ofRun (solution : Solution) (reserved : List String) :
    ∃ steps, solution.registry reserved = Registry.ofRun steps ∧
      Registry.declaredNames steps = solution.declaredNames := by
  refine ⟨solution.declaredNames.map .declared ++
    (solution.formulas.flatMap fun formula ↦ candidates formula reserved).map .discovered, ?_, ?_⟩
  · rw [Registry.ofRun, List.foldl_append, List.foldl_map, List.foldl_map]
    rfl
  · rw [Registry.declaredNames, List.filterMap_append, List.filterMap_map, List.filterMap_map]
    simp [Function.comp_def, Registry.Registration.declaredName?]

/-- The first collision that a registry reports is the first one among the declared names. -/
theorem head?_collisions_eq_some_iff (solution : Solution) (reserved : List String)
    {collision : Collision} : (solution.registry reserved).collisions.head? = some collision ↔
      IsFirstCollision solution.declaredNames collision := by
  obtain ⟨steps, hregistry, hnames⟩ := registry_eq_ofRun solution reserved
  rw [hregistry, Registry.collisions, Registry.declared_ofRun, hnames, List.head?_filter,
    find?_groups_eq_some_iff]

/-- There is a first collision just where two names collide. -/
theorem exists_isFirstCollision_iff {names : List String} :
    (∃ collision, IsFirstCollision names collision) ↔
      ∃ first ∈ names, ∃ second ∈ names, Collide first second := by
  simp only [← find?_groups_eq_some_iff, find?_groups, Option.map_eq_some_iff]
  constructor
  · rintro ⟨_, name, hfound, -⟩
    exact ⟨name, List.mem_of_find?_eq_some hfound, by simpa using List.find?_some hfound⟩
  · rintro ⟨first, hfirst, hcollides⟩
    have hsome : (names.find? fun name ↦ ∃ other ∈ names, Collide name other).isSome = true :=
      List.find?_isSome.mpr ⟨first, hfirst, decide_eq_true hcollides⟩
    obtain ⟨name, hfound⟩ := Option.isSome_iff_exists.mp hsome
    exact ⟨_, name, hfound, rfl⟩

/-! ### Requests -/

/-- The settings with another policy for collisions. -/
def Settings.withPolicy (settings : Settings) (policy : CollisionPolicy) : Settings :=
  { settings with collisionPolicy := policy }

/-- Under the policy that refuses collisions the first one that the registry reports decides. -/
theorem result_refuse (settings : Settings) (solution : Solution) (overrides : Overrides) :
    (buildRequest (settings.withPolicy .refuse) solution overrides).result =
      (solution.registry settings.reservedWords).collisions.head?.elim
        (.ok (requestOf settings solution overrides)) (.error ∘ .namesCollide) := by
  simp only [buildRequest, Settings.withPolicy]
  cases (solution.registry settings.reservedWords).collisions <;> rfl

theorem result_refuse_eq_error_iff {settings : Settings} {solution : Solution}
    {overrides : Overrides} {error : RequestError} :
    (buildRequest (settings.withPolicy .refuse) solution overrides).result = .error error ↔
      ∃ collision, IsFirstCollision solution.declaredNames collision ∧
        error = .namesCollide collision := by
  simp only [result_refuse, ← head?_collisions_eq_some_iff solution settings.reservedWords]
  cases (solution.registry settings.reservedWords).collisions.head? with
  | none => simp
  | some collision => simp [eq_comm]

/-- Policies that let names merge give one request. The policy that refuses collisions fails if and
only if two declared names collide, with the first collision among the declared names, whatever
stands in the formulas; otherwise it gives the same request. -/
theorem buildRequest_judges_collisions (settings : Settings) (solution : Solution)
    (overrides : Overrides) :
    ∃ request,
      (buildRequest (settings.withPolicy .warn) solution overrides).result = .ok request ∧
      (buildRequest (settings.withPolicy .ignore) solution overrides).result = .ok request ∧
      ((∃ error,
          (buildRequest (settings.withPolicy .refuse) solution overrides).result = .error error) ↔
        ∃ first ∈ solution.declaredNames, ∃ second ∈ solution.declaredNames,
          Collide first second) ∧
      (∀ error,
        (buildRequest (settings.withPolicy .refuse) solution overrides).result = .error error ↔
          ∃ collision, IsFirstCollision solution.declaredNames collision ∧
            error = .namesCollide collision) ∧
      ((¬∃ first ∈ solution.declaredNames, ∃ second ∈ solution.declaredNames,
          Collide first second) →
        (buildRequest (settings.withPolicy .refuse) solution overrides).result = .ok request) ∧
      ∀ (otherSettings : Settings) (other : Solution) (otherOverrides : Overrides),
        other.declaredNames = solution.declaredNames → ∀ error,
          (buildRequest (otherSettings.withPolicy .refuse) other otherOverrides).result =
              .error error ↔
            (buildRequest (settings.withPolicy .refuse) solution overrides).result =
              .error error := by
  refine ⟨requestOf settings solution overrides, rfl, rfl, ?_,
    fun _ ↦ result_refuse_eq_error_iff, fun hnone ↦ ?_, fun _ other _ hnames error ↦ ?_⟩
  · rw [← exists_isFirstCollision_iff]
    simp only [result_refuse_eq_error_iff]
    exact ⟨fun ⟨_, collision, hfirst, _⟩ ↦ ⟨collision, hfirst⟩,
      fun ⟨collision, hfirst⟩ ↦ ⟨_, collision, hfirst, rfl⟩⟩
  · rw [result_refuse]
    cases hfirst : (solution.registry settings.reservedWords).collisions.head? with
    | none => rfl
    | some collision =>
      exact absurd (exists_isFirstCollision_iff.mp
        ⟨collision, (head?_collisions_eq_some_iff solution _).mp hfirst⟩) hnone
  · rw [result_refuse_eq_error_iff, result_refuse_eq_error_iff, hnames]

/-- The collision that is reported is the one declared first, not the one completed first. -/
example : (buildRequest .strict
    { parameters := [{ id := "1", name := "Total Cost" }, { id := "2", name := "Unit, Price" }]
      calculations := [{ id := "3", name := "Unit Price" }, { id := "4", name := "Total_Cost" },
        { id := "5", name := "Total Cost" }] } []).result =
    .error (.namesCollide ⟨"Total_Cost", ["Total Cost", "Total_Cost"]⟩) := by
  decide +kernel

end Formulary
