import Formulary.Proofs.References.Condensation
import Formulary.References.Order

/-!
# The order of calculations and their references

`Refers` is the relation between the positions of calculations that the evaluation order is about:
the formula at one position refers to the name at the other. The order and the cycles are its
condensation, `EvaluationOrder.Condenses`: the cycles are the classes of positions that refer to
each other, directly or not, and the other positions come after all that they refer to.

The main statement is `evaluationOrder_condenses_references`. It adds what this means for
`calculationOrder`: there is an order exactly when no calculation refers back to itself.
-/

set_option autoImplicit false
set_option relaxedAutoImplicit false

namespace Formulary

open Relation

/-! ### References between positions -/

/-- The calculation at one position refers to the one at another. -/
def Refers (parameters : List Parameter) (calculations : List Calculation)
    (source target : Nat) : Prop :=
  ∃ consumer dependency, calculations[source]? = some consumer ∧
    calculations[target]? = some dependency ∧
    refersTo (parameterWords parameters) consumer.formula dependency.name = true

@[simp] theorem size_referenceGraph (parameters : List Parameter)
    (calculations : List Calculation) :
    (referenceGraph parameters calculations).size = calculations.length := by
  simp [referenceGraph, Graph.size]

/-- The arrows of the reference graph are the references. -/
theorem points_referenceGraph (parameters : List Parameter) (calculations : List Calculation) :
    (referenceGraph parameters calculations).Points = Refers parameters calculations := by
  ext source target
  cases hsource : calculations[source]? with
  | none =>
    simp [Graph.Points, Graph.successors, referenceGraph, Refers, List.getD, hsource]
  | some consumer =>
    have hsuccessors : (referenceGraph parameters calculations).successors source =
        (List.range calculations.length).filter fun target ↦
          calculations[target]?.any fun calculation ↦
            refersTo (parameterWords parameters) consumer.formula calculation.name := by
      simp [Graph.successors, referenceGraph, List.getD, hsource]
    rw [Graph.Points, hsuccessors, List.mem_filter, List.mem_range, Option.any_eq_true_iff_get]
    constructor
    · rintro ⟨_, hsome, hrefers⟩
      exact ⟨consumer, _, hsource, (Option.some_get hsome).symm, hrefers⟩
    · rintro ⟨other, dependency, hother, htarget, hrefers⟩
      obtain rfl : consumer = other := Option.some.inj (hsource.symm.trans hother)
      obtain ⟨hlt, _⟩ := List.getElem?_eq_some_iff.mp htarget
      exact ⟨hlt, by simp [htarget], by simpa [htarget] using hrefers⟩

theorem isClosed_referenceGraph (parameters : List Parameter) (calculations : List Calculation) :
    (referenceGraph parameters calculations).IsClosed := by
  intro source target hpoints
  rw [points_referenceGraph] at hpoints
  obtain ⟨_, dependency, _, htarget, _⟩ := hpoints
  rw [size_referenceGraph]
  exact (List.getElem?_eq_some_iff.mp htarget).1

/-! ### Condensation -/

/-- An evaluation order is the condensation of a relation on so many positions: together its parts
hold every position once, its cycles are the classes of positions that lead to each other, in
lexicographic order, and the rest is ordered along the relation. -/
structure EvaluationOrder.Condenses (evaluation : EvaluationOrder) (size : Nat)
    (refers : Nat → Nat → Prop) : Prop where
  complete : (evaluation.order ++ evaluation.cycles.flatten).Perm (List.range size)
  mem_cyclic : ∀ position, position ∈ evaluation.cyclic ↔ TransGen refers position position
  mem_group : ∀ first second, first ≠ second →
    ((∃ group ∈ evaluation.cycles, first ∈ group ∧ second ∈ group) ↔
      TransGen refers first second ∧ TransGen refers second first)
  nonempty : ∀ group ∈ evaluation.cycles, group ≠ []
  ascending : ∀ group ∈ evaluation.cycles, group.Pairwise (· < ·)
  lexicographic : evaluation.cycles.Pairwise (List.Lex (· < ·))
  before : ∀ source ∈ evaluation.order, ∀ target ∈ evaluation.order, refers source target →
    evaluation.order.idxOf target < evaluation.order.idxOf source

/-- Positions, each after those that it refers to. -/
def IsEvaluationSequence (positions : List Nat) (size : Nat) (refers : Nat → Nat → Prop) : Prop :=
  positions.Perm (List.range size) ∧
    ∀ source target, refers source target → positions.idxOf target < positions.idxOf source

/-- Where one item stands before another in a list without repetitions, so does its position. -/
theorem idxOf_lt_idxOf_of_sublist {first second : Nat} {items : List Nat} (hnodup : items.Nodup)
    (hpair : [first, second].Sublist items) : items.idxOf first < items.idxOf second := by
  induction items with
  | nil => simp at hpair
  | cons item items ih =>
    obtain ⟨hnew, hnodup⟩ := List.nodup_cons.mp hnodup
    rcases List.sublist_cons_iff.mp hpair with hlater | ⟨rest, hsplit, hrest⟩
    · have hfirst : item ≠ first := fun h ↦ hnew (h ▸ hlater.subset List.mem_cons_self)
      have hsecond : item ≠ second := fun h ↦ hnew (h ▸ hlater.subset (by simp))
      rw [List.idxOf_cons_ne _ hfirst, List.idxOf_cons_ne _ hsecond]
      exact Nat.succ_lt_succ (ih hnodup hlater)
    · obtain ⟨rfl, rfl⟩ := List.cons.inj hsplit
      have hsecond : first ≠ second := fun h ↦ hnew (h ▸ List.singleton_sublist.mp hrest)
      rw [List.idxOf_cons_self, List.idxOf_cons_ne _ hsecond]
      exact Nat.succ_pos _

/-- The positions on cycles are those in the groups. -/
theorem EvaluationOrder.mem_cyclic_iff (evaluation : EvaluationOrder) (position : Nat) :
    position ∈ evaluation.cyclic ↔ position ∈ evaluation.cycles.flatten := by
  rw [EvaluationOrder.cyclic, (Text.arranged_perm _ _).mem_iff]

/-- The order and the cycles of a graph are the condensation of its arrows. -/
theorem condenses_of_isClosed {graph : Graph} (hclosed : graph.IsClosed) :
    EvaluationOrder.Condenses ⟨graph.order, graph.cycles⟩ graph.size graph.Points where
  complete := Graph.order_append_cycles_perm hclosed
  mem_cyclic position := by
    rw [EvaluationOrder.mem_cyclic_iff]
    exact Graph.mem_flatten_cycles_iff hclosed position
  mem_group first second _ := Graph.mem_group_iff hclosed first second
  nonempty group hgroup := Graph.ne_nil_of_mem_cycles hclosed hgroup
  ascending group hgroup := Graph.ascending_of_mem_cycles hclosed hgroup
  lexicographic := Graph.cycles_lex hclosed
  before source hsource target htarget hpoints :=
    idxOf_lt_idxOf_of_sublist (Graph.order_nodup hclosed)
      (Graph.order_before hclosed hsource htarget hpoints)

/-- The evaluation order is the condensation of the references. -/
theorem condenses_evaluationOrder (parameters : List Parameter)
    (calculations : List Calculation) :
    (evaluationOrder parameters calculations).Condenses calculations.length
      (Refers parameters calculations) := by
  rw [← size_referenceGraph parameters calculations, ← points_referenceGraph]
  exact condenses_of_isClosed (isClosed_referenceGraph parameters calculations)

theorem EvaluationOrder.Condenses.nodup {evaluation : EvaluationOrder} {size : Nat}
    {refers : Nat → Nat → Prop} (hcondenses : evaluation.Condenses size refers) :
    (evaluation.order ++ evaluation.cycles.flatten).Nodup :=
  hcondenses.complete.nodup_iff.mpr List.nodup_range

/-- The order holds the positions that nothing leads back to. -/
theorem EvaluationOrder.Condenses.mem_order_iff {evaluation : EvaluationOrder} {size : Nat}
    {refers : Nat → Nat → Prop} (hcondenses : evaluation.Condenses size refers) (position : Nat) :
    position ∈ evaluation.order ↔ position < size ∧ ¬ TransGen refers position position := by
  rw [← hcondenses.mem_cyclic, evaluation.mem_cyclic_iff, ← List.mem_range,
    ← hcondenses.complete.mem_iff, List.mem_append]
  constructor
  · intro horder
    refine ⟨Or.inl horder, fun hcycle ↦ ?_⟩
    exact (List.nodup_append.mp hcondenses.nodup).2.2 position horder position hcycle rfl
  · rintro ⟨hmember, hcycle⟩
    exact hmember.resolve_right hcycle

/-! ### Orders without cycles -/

/-- There are no cycles when nothing leads back to itself. -/
theorem EvaluationOrder.Condenses.cycles_eq_nil_iff {evaluation : EvaluationOrder} {size : Nat}
    {refers : Nat → Nat → Prop} (hcondenses : evaluation.Condenses size refers) :
    evaluation.cycles = [] ↔ ∀ position, ¬ TransGen refers position position := by
  constructor
  · intro hnone position hcyclic
    have hmember := (hcondenses.mem_cyclic position).mpr hcyclic
    simp [EvaluationOrder.cyclic, hnone, Text.arranged] at hmember
  · intro hacyclic
    refine List.eq_nil_iff_forall_not_mem.mpr fun group hgroup ↦ ?_
    obtain ⟨position, hposition⟩ := List.exists_mem_of_ne_nil _ (hcondenses.nonempty group hgroup)
    refine hacyclic position ((hcondenses.mem_cyclic position).mp ?_)
    rw [EvaluationOrder.mem_cyclic_iff]
    exact List.mem_flatten.mpr ⟨group, hgroup, hposition⟩

/-- Without cycles, the order is a sequence of all positions in which each comes after those that it
refers to. -/
theorem EvaluationOrder.Condenses.isEvaluationSequence {evaluation : EvaluationOrder} {size : Nat}
    {refers : Nat → Nat → Prop} (hcondenses : evaluation.Condenses size refers)
    (hinside : ∀ source target, refers source target → source < size ∧ target < size)
    (hnone : evaluation.cycles = []) : IsEvaluationSequence evaluation.order size refers := by
  have hcomplete : evaluation.order.Perm (List.range size) := by
    simpa [hnone] using hcondenses.complete
  refine ⟨hcomplete, fun source target hrefers ↦ ?_⟩
  obtain ⟨hsource, htarget⟩ := hinside source target hrefers
  exact hcondenses.before source (hcomplete.mem_iff.mpr (List.mem_range.mpr hsource)) target
    (hcomplete.mem_iff.mpr (List.mem_range.mpr htarget)) hrefers

/-- References lead from positions of calculations to positions of calculations. -/
theorem Refers.lt_length {parameters : List Parameter} {calculations : List Calculation}
    {source target : Nat} (hrefers : Refers parameters calculations source target) :
    source < calculations.length ∧ target < calculations.length := by
  obtain ⟨_, _, hsource, htarget, _⟩ := hrefers
  exact ⟨(List.getElem?_eq_some_iff.mp hsource).1, (List.getElem?_eq_some_iff.mp htarget).1⟩

/-- What `calculationOrder` gives: the evaluation order, when there are no cycles. -/
theorem calculationOrder_eq_ok_iff (parameters : List Parameter) (calculations : List Calculation)
    (positions : List Nat) :
    calculationOrder parameters calculations = .ok positions ↔
      (evaluationOrder parameters calculations).cycles = [] ∧
        positions = (evaluationOrder parameters calculations).order := by
  rw [calculationOrder]
  split
  · rename_i hnone
    simp [hnone, eq_comm]
  · rename_i hcycle
    simp [hcycle]

/-- The evaluation order is the condensation of the references between calculations. Hence there is
an order of all calculations exactly when none refers back to itself, directly or not, and in it
each comes after those that it refers to. -/
theorem evaluationOrder_condenses_references (parameters : List Parameter)
    (calculations : List Calculation) :
    (evaluationOrder parameters calculations).Condenses calculations.length
        (Refers parameters calculations) ∧
      ((∃ positions, calculationOrder parameters calculations = .ok positions) ↔
        ∀ position, ¬ TransGen (Refers parameters calculations) position position) ∧
      ∀ positions, calculationOrder parameters calculations = .ok positions →
        IsEvaluationSequence positions calculations.length (Refers parameters calculations) := by
  have hcondenses := condenses_evaluationOrder parameters calculations
  refine ⟨hcondenses, ?_, fun positions horder ↦ ?_⟩
  · rw [← hcondenses.cycles_eq_nil_iff]
    simp [calculationOrder_eq_ok_iff]
  · obtain ⟨hnone, rfl⟩ := (calculationOrder_eq_ok_iff parameters calculations positions).mp horder
    exact hcondenses.isEvaluationSequence (fun _ _ ↦ Refers.lt_length) hnone

end Formulary
