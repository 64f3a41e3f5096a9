import Mathlib.Data.List.Pairwise
import Mathlib.Order.Nat

/-!
# Passages of a text

A passage is a piece of a text together with the position where it stands. `outside` picks the
passages that lie inside none of some others. Passages are `InOrder` if they stand in a text one
behind the other; then no position belongs to two of them, `InOrder.existsUnique_covers`.
-/

set_option autoImplicit false
set_option relaxedAutoImplicit false

namespace Formulary.Text

/-! ### Passages and what they take up -/

/-- Characters and the position in a text where they stand. -/
structure Passage where
  position : Nat
  characters : List Char
  deriving Repr, DecidableEq

/-- The text of a passage. -/
def Passage.text (passage : Passage) : String :=
  String.ofList passage.characters

/-- The position behind a passage. -/
def Passage.finish (passage : Passage) : Nat :=
  passage.position + passage.characters.length

/-- A passage takes up a position. -/
def Passage.Covers (passage : Passage) (index : Nat) : Prop :=
  passage.position ≤ index ∧ index < passage.finish

/-! ### Passages inside others -/

/-- Whether a passage lies inside another one. -/
def Passage.isWithin (inner outer : Passage) : Bool :=
  outer.position ≤ inner.position && inner.finish ≤ outer.finish

/-- The passages that lie inside none of some others. -/
def outside (others passages : List Passage) : List Passage :=
  passages.filter fun passage ↦ !others.any passage.isWithin

/-- A passage has a character, and it stands between two positions. -/
structure Passage.Between (start finish : Nat) (passage : Passage) : Prop where
  start_le : start ≤ passage.position
  nonempty : passage.position < passage.finish
  finish_le : passage.finish ≤ finish

variable {start finish : Nat} {here later passages : List Passage}

theorem Passage.isWithin_iff {inner outer : Passage} : inner.isWithin outer = true ↔
    outer.position ≤ inner.position ∧ inner.finish ≤ outer.finish := by
  rw [isWithin, Bool.and_eq_true, decide_eq_true_eq, decide_eq_true_eq]

theorem outside_append (others front back : List Passage) :
    outside others (front ++ back) = outside others front ++ outside others back :=
  List.filter_append ..

/-- A passage does not lie inside one that starts behind it. -/
theorem outside_append_of_before (hpassages : ∀ passage ∈ passages, passage.Between start finish)
    (hlater : ∀ other ∈ later, finish ≤ other.position) :
    outside (here ++ later) passages = outside here passages := by
  refine List.filter_congr fun passage hpassage ↦ ?_
  have hnone : later.any passage.isWithin = false := by
    refine List.any_eq_false.mpr fun other hother hwithin ↦ ?_
    have hbetween := hpassages passage hpassage
    have hafter := (hbetween.nonempty.trans_le hbetween.finish_le).trans_le (hlater other hother)
    exact absurd (Passage.isWithin_iff.mp hwithin).1 (Nat.not_le.mpr hafter)
  rw [List.any_append, hnone, Bool.or_false]

/-- A passage does not lie inside one that ends in front of it. -/
theorem outside_append_of_behind (hpassages : ∀ passage ∈ passages, passage.Between start finish)
    (hhere : ∀ other ∈ here, other.finish ≤ start) :
    outside (here ++ later) passages = outside later passages := by
  refine List.filter_congr fun passage hpassage ↦ ?_
  have hnone : here.any passage.isWithin = false := by
    refine List.any_eq_false.mpr fun other hother hwithin ↦ ?_
    have hbetween := hpassages passage hpassage
    have hfinish := (Passage.isWithin_iff.mp hwithin).2.trans (hhere other hother)
    exact absurd (hfinish.trans hbetween.start_le) (Nat.not_le.mpr hbetween.nonempty)
  rw [List.any_append, hnone, Bool.false_or]

/-! ### Passages in order -/

/-- Passages of a text from left to right: each stands where its position says, has a character, and
ends before the next one starts. -/
structure InOrder (text : List Char) (passages : List Passage) : Prop where
  stands : ∀ passage ∈ passages, passage.characters <+: text.drop passage.position
  nonempty : ∀ passage ∈ passages, passage.characters ≠ []
  apart : passages.Pairwise fun earlier later ↦ earlier.finish ≤ later.position

variable {text : List Char} {passage : Passage}

theorem inOrder_nil (text : List Char) : InOrder text [] :=
  ⟨by simp, by simp, .nil⟩

theorem InOrder.cons (hpassages : InOrder text passages)
    (hstands : passage.characters <+: text.drop passage.position)
    (hsome : passage.characters ≠ [])
    (hlater : ∀ later ∈ passages, passage.finish ≤ later.position) :
    InOrder text (passage :: passages) :=
  ⟨List.forall_mem_cons.mpr ⟨hstands, hpassages.stands⟩,
    List.forall_mem_cons.mpr ⟨hsome, hpassages.nonempty⟩,
    List.pairwise_cons.mpr ⟨hlater, hpassages.apart⟩⟩

theorem InOrder.position_lt_finish (hpassages : InOrder text passages)
    (hpassage : passage ∈ passages) : passage.position < passage.finish :=
  Nat.lt_add_of_pos_right (List.length_pos_iff.mpr (hpassages.nonempty passage hpassage))

/-- The positions of passages in order are strictly increasing. -/
theorem InOrder.pairwise_position (hpassages : InOrder text passages) :
    (passages.map Passage.position).Pairwise (· < ·) := by
  refine List.pairwise_map.mpr (hpassages.apart.imp_of_mem fun hearlier _ hapart ↦ ?_)
  exact (hpassages.position_lt_finish hearlier).trans_le hapart

/-- No two passages in order take up the same position. -/
theorem InOrder.existsUnique_covers {index : Nat} (hpassages : InOrder text passages)
    (hpassage : passage ∈ passages) (hcovers : passage.Covers index) :
    ∃! passage, passage ∈ passages ∧ passage.Covers index := by
  have hapart {first second : Passage} (hends : first.finish ≤ second.position)
      (hfirst : first.Covers index) (hsecond : second.Covers index) : False :=
    Nat.lt_irrefl index (hfirst.2.trans_le (hends.trans hsecond.1))
  refine ⟨passage, ⟨hpassage, hcovers⟩, fun other ⟨hother, hothers⟩ ↦ ?_⟩
  exact List.Pairwise.forall_of_forall_of_flip
    (R := fun first second ↦ first.Covers index → second.Covers index → first = second)
    (fun _ _ _ _ ↦ rfl)
    (hpassages.apart.imp fun hends hfirst hsecond ↦ (hapart hends hfirst hsecond).elim)
    (hpassages.apart.imp fun hends hsecond hfirst ↦ (hapart hends hfirst hsecond).elim)
    hother hpassage hothers hcovers

end Formulary.Text
