import Formulary.Proofs.Name.IdentifierText
import Formulary.Proofs.Registry.Rules
import Mathlib.Data.List.Nodup

/-!
# What a registry holds after any registrations

A run of a registry registers names, each as one that a record declares or as one that was found in
a formula. The registry then lists the names that have an identifier, each once and in the order in
which they first came, `entries_ofRun`. Beside them it keeps the declared ones by identifier,
`declared_ofRun`, so that its collisions are the identifiers that several declared names share.
The main statement, `holds_first_registrations`, puts both together; names that were only found
in a formula have no part in a collision, whenever they came.
-/

set_option autoImplicit false
set_option relaxedAutoImplicit false

namespace Formulary.Name

open Formulary.Text

/-! ### Lists without repetitions -/

section Repetitions

variable {Item : Type} [DecidableEq Item]

/-- A further item counts if it is new. -/
theorem eraseDups_append_singleton (items : List Item) (item : Item) :
    (items ++ [item]).eraseDups =
      if item ∈ items then items.eraseDups else items.eraseDups ++ [item] := by
  rw [List.eraseDups_append]
  split
  · rename_i hknown
    simp [List.removeAll, hknown]
  · rename_i hnew
    simp [List.removeAll, hnew, List.eraseDups_cons]

theorem nodup_eraseDups (items : List Item) : items.eraseDups.Nodup := by
  induction items using List.reverseRecOn with
  | nil => simp
  | append_singleton items item ih =>
    rw [eraseDups_append_singleton]
    split
    · exact ih
    · rename_i hnew
      rw [← List.concat_eq_append]
      exact ih.concat (mt List.mem_eraseDups.mp hnew)

end Repetitions

namespace Registry

/-! ### Runs -/

/-- The registration of a name: of one that a record declares, or of one that a formula holds. -/
inductive Registration where
  | declared (name : String)
  | discovered (name : String)
  deriving Repr, DecidableEq

/-- The name that is registered. -/
def Registration.name : Registration → String
  | .declared name => name
  | .discovered name => name

/-- The name that is registered, if a record declares it. -/
def Registration.declaredName? : Registration → Option String
  | .declared name => some name
  | .discovered _ => none

/-- A registry after one more registration. -/
def register (registry : Registry) : Registration → Registry
  | .declared name => registry.declare name
  | .discovered name => registry.discover name

/-- The registry after some registrations. -/
def ofRun (steps : List Registration) : Registry :=
  steps.foldl register empty

theorem ofRun_append_singleton (steps : List Registration) (step : Registration) :
    ofRun (steps ++ [step]) = (ofRun steps).register step :=
  List.foldl_append

/-- The names among some that have an identifier. -/
def identified (names : List String) : List String :=
  names.filter fun name ↦ identifier name ≠ ""

/-- The names that a run declares. -/
def declaredNames (steps : List Registration) : List String :=
  steps.filterMap Registration.declaredName?

/-- A name can be mapped if it has an identifier; blank names have none. -/
theorem isMappable_eq (name : String) : isMappable name = decide (identifier name ≠ "") := by
  rw [isMappable]
  by_cases hnone : identifier name = ""
  · simp [hnone]
  · have hfilled : isBlankName name = false :=
      isBlank_of_identifierCharacters_ne_nil fun hempty ↦ hnone (by rw [identifier, hempty])
    simp [hnone, hfilled]

theorem identified_append_singleton (names : List String) (name : String) :
    identified (names ++ [name]) =
      if isMappable name = true then identified names ++ [name] else identified names := by
  rw [identified, List.filter_append, isMappable_eq]
  by_cases hnone : identifier name = "" <;> simp [identified, hnone]

/-! ### Entries -/

/-- The entry of a name that has an identifier. -/
def entryOf (name : String) : String × String :=
  (name, identifier name)

/-- Both kinds of registration enter a name that can be mapped, and nothing else. -/
theorem entries_register (registry : Registry) (step : Registration) :
    (registry.register step).entries =
      if isMappable step.name = true then (registry.addEntry step.name).entries
      else registry.entries := by
  cases step with
  | declared name =>
    show (registry.declare name).entries = _
    rw [declare]
    split <;> rename_i hmappable <;> simp [Registration.name, hmappable]
  | discovered name =>
    show (registry.discover name).entries = _
    rw [discover]
    split <;> rename_i hmappable <;> simp [Registration.name, hmappable]

/-- The entries after a run: the names with an identifier, each where it came first. -/
theorem entries_ofRun (steps : List Registration) :
    (ofRun steps).entries =
      (identified (steps.map Registration.name)).eraseDups.map entryOf := by
  induction steps using List.reverseRecOn with
  | nil => rfl
  | append_singleton steps step ih =>
    have hknown : ((ofRun steps).entries.any fun entry ↦ entry.1 == step.name) = true ↔
        step.name ∈ identified (steps.map Registration.name) := by
      rw [ih, List.any_map, List.any_eq_true]
      simp [entryOf]
    rw [ofRun_append_singleton, entries_register, List.map_append, List.map_singleton,
      identified_append_singleton]
    split
    · rw [eraseDups_append_singleton, addEntry]
      by_cases hname : step.name ∈ identified (steps.map Registration.name)
      · rw [if_pos (hknown.mpr hname), if_pos hname, ih]
      · rw [if_neg (mt hknown.mp hname), if_neg hname, List.map_append, ← ih]
        rfl
    · exact ih

theorem lookup_map_entryOf (names : List String) (key : String) :
    (names.map entryOf).lookup key = if key ∈ names then some (identifier key) else none := by
  induction names with
  | nil => rfl
  | cons name names ih =>
    rw [List.map_cons, entryOf, List.lookup_cons, ih]
    by_cases hkey : key = name
    · simp [hkey]
    · simp [hkey, beq_eq_false_iff_ne.mpr hkey]

/-- A registry answers for a name just where it has an entry for it. -/
theorem get?_ofRun_eq_some_iff (steps : List Registration) (key value : String) :
    (ofRun steps).get? key = some value ↔ (key, value) ∈ (ofRun steps).entries := by
  rw [get?, entries_ofRun, lookup_map_entryOf, Option.ite_none_right_eq_some, List.mem_map]
  constructor
  · rintro ⟨hkey, hvalue⟩
    exact ⟨key, hkey, Prod.ext rfl (Option.some.inj hvalue)⟩
  · rintro ⟨name, hname, hentry⟩
    obtain ⟨rfl, rfl⟩ := Prod.mk.inj hentry
    exact ⟨hname, rfl⟩

/-! ### Declared names -/

/-- The names among some that share an identifier, each once. -/
def groupOf (names : List String) (shared : String) : Collision :=
  ⟨shared, (names.filter fun name ↦ identifier name = shared).eraseDups⟩

/-- Names by identifier, each identifier where its first name came. -/
def groups (names : List String) : List Collision :=
  (names.map identifier).eraseDups.map (groupOf names)

variable {names : List String} {name shared : String}

theorem groupOf_append_of_ne (hother : identifier name ≠ shared) :
    groupOf (names ++ [name]) shared = groupOf names shared := by
  rw [groupOf, List.filter_append]
  simp [groupOf, hother]

theorem groupOf_append_self (names : List String) (name : String) :
    groupOf (names ++ [name]) (identifier name) =
      if (groupOf names (identifier name)).names.contains name then
        groupOf names (identifier name)
      else ⟨identifier name, (groupOf names (identifier name)).names ++ [name]⟩ := by
  have hlast : [name].filter (fun other ↦ identifier other = identifier name) = [name] := by simp
  rw [groupOf, List.filter_append, hlast, eraseDups_append_singleton]
  simp only [groupOf, List.contains_eq_mem, List.mem_eraseDups, decide_eq_true_eq]
  split <;> rfl

/-- A declared name joins the group of its identifier. -/
theorem addDeclared_of_mem {identifiers : List String} (hnodup : identifiers.Nodup)
    (hmember : identifier name ∈ identifiers) :
    addDeclared (identifier name) name (identifiers.map (groupOf names)) =
      identifiers.map (groupOf (names ++ [name])) := by
  induction identifiers with
  | nil => cases hmember
  | cons first rest ih =>
    obtain ⟨hfresh, hnodup⟩ := List.nodup_cons.mp hnodup
    rw [List.map_cons, List.map_cons, addDeclared]
    by_cases hhere : first = identifier name
    · subst hhere
      have hrest : rest.map (groupOf names) = rest.map (groupOf (names ++ [name])) :=
        List.map_congr_left fun other hother ↦
          (groupOf_append_of_ne fun hsame ↦ hfresh (hsame ▸ hother)).symm
      have hsame : (groupOf names (identifier name)).identifier = identifier name := rfl
      rw [if_pos hsame, groupOf_append_self, hrest]
      rfl
    · have hlater := (List.mem_cons.mp hmember).resolve_left (Ne.symm hhere)
      have hother : (groupOf names first).identifier ≠ identifier name := hhere
      rw [if_neg hother, ih hnodup hlater, groupOf_append_of_ne (Ne.symm hhere)]

/-- A declared name with a new identifier makes a group of its own, behind the others. -/
theorem addDeclared_of_not_mem {identifiers : List String}
    (hnew : identifier name ∉ identifiers) :
    addDeclared (identifier name) name (identifiers.map (groupOf names)) =
      identifiers.map (groupOf (names ++ [name])) ++ [⟨identifier name, [name]⟩] := by
  induction identifiers with
  | nil => rfl
  | cons first rest ih =>
    obtain ⟨hfirst, hrest⟩ := not_or.mp (mt List.mem_cons.mpr hnew)
    have hother : (groupOf names first).identifier ≠ identifier name := Ne.symm hfirst
    rw [List.map_cons, List.map_cons, addDeclared, if_neg hother, ih hrest,
      groupOf_append_of_ne hfirst]
    rfl

theorem addDeclared_groups (names : List String) (name : String) :
    addDeclared (identifier name) name (groups names) = groups (names ++ [name]) := by
  rw [groups, groups, List.map_append, List.map_singleton, eraseDups_append_singleton]
  split
  · rename_i hmember
    exact addDeclared_of_mem (nodup_eraseDups _) (List.mem_eraseDups.mpr hmember)
  · rename_i hnew
    -- The group is new, so no earlier name has the identifier.
    have hnone : names.filter (fun other ↦ identifier other = identifier name) = [] := by
      refine List.filter_eq_nil_iff.mpr fun other hother hsame ↦ hnew ?_
      rw [← of_decide_eq_true hsame]
      exact List.mem_map_of_mem hother
    have hgroup : groupOf (names ++ [name]) (identifier name) = ⟨identifier name, [name]⟩ := by
      rw [groupOf, List.filter_append, hnone]
      simp [List.eraseDups_cons]
    rw [addDeclared_of_not_mem (mt List.mem_eraseDups.mp hnew), List.map_append,
      List.map_singleton, hgroup]

/-- The declared names after a run are those with an identifier, by identifier. -/
theorem declared_ofRun (steps : List Registration) :
    (ofRun steps).declared = groups (identified (declaredNames steps)) := by
  induction steps using List.reverseRecOn with
  | nil => rfl
  | append_singleton steps step ih =>
    have hkept (name : String) :
        ((ofRun steps).addEntry name).declared = (ofRun steps).declared := by
      rw [addEntry]
      split <;> rfl
    rw [ofRun_append_singleton]
    cases step with
    | declared name =>
      have hnames : declaredNames (steps ++ [.declared name]) = declaredNames steps ++ [name] :=
        List.filterMap_append
      show ((ofRun steps).declare name).declared = _
      rw [hnames, identified_append_singleton, declare]
      split
      · show addDeclared _ _ ((ofRun steps).addEntry name).declared = _
        rw [hkept, ih, addDeclared_groups]
      · exact ih
    | discovered name =>
      have hnames : declaredNames (steps ++ [.discovered name]) = declaredNames steps := by
        rw [declaredNames, List.filterMap_append]
        exact List.append_nil _
      show ((ofRun steps).discover name).declared = _
      rw [hnames, discover]
      split
      · rw [hkept, ih]
      · exact ih

/-! ### The registry after a run -/

theorem mem_of_mem_names {steps : List Registration} {collision : Collision}
    (hcollision : collision ∈ groups (identified (declaredNames steps)))
    (hname : name ∈ collision.names) : .declared name ∈ steps := by
  obtain ⟨shared, _, rfl⟩ := List.mem_map.mp hcollision
  have hdeclared := List.mem_of_mem_filter (List.mem_eraseDups.mp hname)
  obtain ⟨step, hstep, hsome⟩ := List.mem_filterMap.mp (List.mem_of_mem_filter hdeclared)
  cases step with
  | declared other =>
    obtain rfl : other = name := Option.some.inj hsome
    exact hstep
  | discovered other => cases hsome

/-- After any registrations a registry maps the names that have an identifier to it, each once and
in the order in which they came first, and it answers for a name just where it lists it. Its
collisions are the identifiers of at least two declared names, in the order in which they were
first declared, each with its declared names in that order; names found in formulas do not count,
whenever they came. -/
theorem holds_first_registrations (steps : List Registration) :
    ((ofRun steps).entries.map Prod.fst).Nodup ∧
    (ofRun steps).entries =
      (identified (steps.map Registration.name)).eraseDups.map
        (fun name ↦ (name, identifier name)) ∧
    (∀ key value, (ofRun steps).get? key = some value ↔ (key, value) ∈ (ofRun steps).entries) ∧
    (ofRun steps).collisions =
      (groups (identified (declaredNames steps))).filter (fun group ↦ 1 < group.names.length) ∧
    (∀ collision ∈ (ofRun steps).collisions, ∀ name ∈ collision.names,
      .declared name ∈ steps) ∧
    ∀ others, declaredNames others = declaredNames steps →
      (ofRun others).collisions = (ofRun steps).collisions := by
  have hcollisions (run : List Registration) : (ofRun run).collisions =
      (groups (identified (declaredNames run))).filter fun group ↦ 1 < group.names.length := by
    rw [collisions, declared_ofRun]
  refine ⟨?_, entries_ofRun steps, get?_ofRun_eq_some_iff steps, hcollisions steps, ?_, ?_⟩
  · rw [entries_ofRun, List.map_map]
    have hnames : Prod.fst ∘ entryOf = id := rfl
    rw [hnames, List.map_id]
    exact nodup_eraseDups _
  · intro collision hcollision name hname
    rw [hcollisions] at hcollision
    exact mem_of_mem_names (List.mem_of_mem_filter hcollision) hname
  · intro others hothers
    rw [hcollisions, hcollisions, hothers]

end Registry

end Formulary.Name
