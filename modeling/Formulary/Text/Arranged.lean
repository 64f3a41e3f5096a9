/-!
# Arranging a list

`arranged precedes items` sorts a list by insertion. The main statements say that it rearranges,
`arranged_perm`, and that of any two neighbours the first one precedes, `arranged_pairwise`.
-/

set_option autoImplicit false
set_option relaxedAutoImplicit false

namespace Formulary.Text

variable {Item : Type}

/-- Puts an item before the first one that it precedes. -/
def insertArranged (precedes : Item → Item → Bool) (item : Item) : List Item → List Item
  | [] => [item]
  | first :: rest =>
    if precedes item first then item :: first :: rest
    else first :: insertArranged precedes item rest

/-- A list sorted by a relation. -/
def arranged (precedes : Item → Item → Bool) : List Item → List Item
  | [] => []
  | item :: rest => insertArranged precedes item (arranged precedes rest)

theorem insertArranged_perm (precedes : Item → Item → Bool) (item : Item) (items : List Item) :
    (insertArranged precedes item items).Perm (item :: items) := by
  induction items with
  | nil => exact List.Perm.refl _
  | cons first rest ih =>
    rw [insertArranged]
    split
    · exact List.Perm.refl _
    · exact (List.Perm.cons first ih).trans (List.Perm.swap item first rest)

/-- Sorting rearranges. -/
theorem arranged_perm (precedes : Item → Item → Bool) (items : List Item) :
    (arranged precedes items).Perm items := by
  induction items with
  | nil => exact List.Perm.refl _
  | cons item rest ih =>
    exact (insertArranged_perm precedes item _).trans (List.Perm.cons item ih)

theorem insertArranged_pairwise {precedes : Item → Item → Bool}
    (htotal : ∀ first second, precedes first second = true ∨ precedes second first = true)
    (htrans : ∀ first second third, precedes first second = true →
      precedes second third = true → precedes first third = true)
    (item : Item) {items : List Item}
    (hitems : items.Pairwise (precedes · · = true)) :
    (insertArranged precedes item items).Pairwise (precedes · · = true) := by
  induction items with
  | nil => simp [insertArranged]
  | cons first rest ih =>
    rw [List.pairwise_cons] at hitems
    rw [insertArranged]
    split
    · rename_i hbefore
      refine List.pairwise_cons.mpr ⟨fun other hother ↦ ?_, List.pairwise_cons.mpr hitems⟩
      rcases List.mem_cons.mp hother with rfl | hlater
      · exact hbefore
      · exact htrans _ _ _ hbefore (hitems.1 other hlater)
    · rename_i hbehind
      refine List.pairwise_cons.mpr ⟨fun other hother ↦ ?_, ih hitems.2⟩
      rcases List.mem_cons.mp ((insertArranged_perm precedes item rest).mem_iff.mp hother) with
        rfl | hlater
      · exact (htotal first other).resolve_right hbehind
      · exact hitems.1 other hlater

/-- In a sorted list, what stands before precedes. -/
theorem arranged_pairwise {precedes : Item → Item → Bool}
    (htotal : ∀ first second, precedes first second = true ∨ precedes second first = true)
    (htrans : ∀ first second third, precedes first second = true →
      precedes second third = true → precedes first third = true)
    (items : List Item) : (arranged precedes items).Pairwise (precedes · · = true) := by
  induction items with
  | nil => exact List.Pairwise.nil
  | cons item rest ih => exact insertArranged_pairwise htotal htrans item ih

end Formulary.Text
