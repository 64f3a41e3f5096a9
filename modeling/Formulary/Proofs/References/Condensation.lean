import Formulary.Proofs.References.DepthFirst

/-!
# The cycles of a graph, and the order of the rest

Two vertices are `Joined` when each leads to the other. The groups that `cycles` lists are the
classes of this relation: `mem_cycles_iff` says which groups there are, `cycles_lex` that they come
in lexicographic order and `order_append_cycles_perm` that together with the order of the other
vertices they hold every vertex once. `order_before` says that this order respects the arrows.
-/

set_option autoImplicit false
set_option relaxedAutoImplicit false

namespace Formulary.Graph

open Relation

/-- Each of two vertices leads to the other one. -/
def Joined (graph : Graph) (first second : Nat) : Prop :=
  graph.Leads first second ∧ graph.Leads second first

theorem Joined.symm {graph : Graph} {first second : Nat} (hjoined : graph.Joined first second) :
    graph.Joined second first :=
  ⟨hjoined.2, hjoined.1⟩

theorem Joined.trans {graph : Graph} {first second third : Nat}
    (hfirst : graph.Joined first second) (hsecond : graph.Joined second third) :
    graph.Joined first third :=
  ⟨hfirst.1.trans hsecond.1, hsecond.2.trans hfirst.2⟩

theorem Joined.left {graph : Graph} {first second : Nat} (hjoined : graph.Joined first second) :
    graph.Joined first first :=
  hjoined.trans hjoined.symm

/-! ### Groups -/

/-- The vertices on cycles are those that lead back to themselves. -/
theorem mem_cyclic_iff {graph : Graph} (hclosed : graph.IsClosed) (vertex : Nat) :
    vertex ∈ graph.cyclic ↔ graph.Leads vertex vertex := by
  rw [cyclic, List.mem_filter, mem_vertices, isCyclic, List.contains_iff_mem,
    mem_reach_iff hclosed]
  exact and_iff_right_of_imp Leads.source_lt_size

theorem cyclic_ascending (graph : Graph) : graph.cyclic.Pairwise (· < ·) :=
  List.pairwise_lt_range.filter _

/-- The arrows of the closure are the paths of the graph. -/
theorem mem_successors_closure {graph : Graph} (hclosed : graph.IsClosed) (source target : Nat) :
    target ∈ graph.closure.successors source ↔ graph.Leads source target := by
  by_cases hsource : source < graph.size
  · have hreach : graph.closure.successors source = graph.reach source := by
      simp [successors, closure, vertices, List.getD, hsource]
    rw [hreach, mem_reach_iff hclosed]
  · have hnone : graph.closure.successors source = [] := by
      simp [successors, closure, vertices, List.getD, hsource]
    rw [hnone]
    constructor
    · simp
    · intro hleads
      exact absurd hleads.source_lt_size hsource

/-- The group of a vertex holds the vertices that it is joined to. -/
theorem mem_mutuals_iff {graph : Graph} (hclosed : graph.IsClosed) (vertex other : Nat) :
    other ∈ graph.closure.mutuals vertex ↔ graph.Joined vertex other := by
  have hsize : graph.closure.size = graph.size := by simp [closure, size, vertices]
  rw [mutuals, List.mem_filter, mem_vertices, hsize, Bool.and_eq_true, List.contains_iff_mem,
    List.contains_iff_mem, mem_successors_closure hclosed, mem_successors_closure hclosed]
  exact and_iff_right_of_imp fun hjoined ↦ hjoined.1.target_lt_size hclosed

theorem mutuals_ascending (graph : Graph) (vertex : Nat) :
    (graph.mutuals vertex).Pairwise (· < ·) :=
  List.pairwise_lt_range.filter _

/-- Vertices that are joined have one group. -/
theorem mutuals_eq_of_joined {graph : Graph} (hclosed : graph.IsClosed) {first second : Nat}
    (hjoined : graph.Joined first second) :
    graph.closure.mutuals first = graph.closure.mutuals second := by
  refine List.filter_congr fun other _ ↦ ?_
  rw [Bool.eq_iff_iff]
  simp only [Bool.and_eq_true, List.contains_iff_mem, mem_successors_closure hclosed]
  exact ⟨fun h : graph.Joined first other ↦ hjoined.symm.trans h,
    fun h : graph.Joined second other ↦ hjoined.trans h⟩

/-- A vertex that leads back to itself shares its group with the vertices that it is joined to. -/
theorem mutuals_eq_iff {graph : Graph} (hclosed : graph.IsClosed) {first second : Nat}
    (hcyclic : graph.Leads second second) :
    graph.closure.mutuals first = graph.closure.mutuals second ↔ graph.Joined second first := by
  constructor
  · intro hequal
    have hmember : second ∈ graph.closure.mutuals first := by
      rw [hequal]
      exact (mem_mutuals_iff hclosed second second).mpr ⟨hcyclic, hcyclic⟩
    exact ((mem_mutuals_iff hclosed first second).mp hmember).symm
  · intro hjoined
    exact mutuals_eq_of_joined hclosed hjoined.symm

/-- The groups are those of the vertices that lead back to themselves. -/
theorem mem_cycles_iff {graph : Graph} (hclosed : graph.IsClosed) (group : List Nat) :
    group ∈ graph.cycles ↔
      ∃ vertex, graph.Leads vertex vertex ∧ group = graph.closure.mutuals vertex := by
  simp only [cycles, List.mem_eraseDups, List.mem_map, mem_cyclic_iff hclosed, eq_comm]

/-- The members of the groups are the vertices that lead back to themselves. -/
theorem mem_flatten_cycles_iff {graph : Graph} (hclosed : graph.IsClosed) (vertex : Nat) :
    vertex ∈ graph.cycles.flatten ↔ graph.Leads vertex vertex := by
  rw [List.mem_flatten]
  constructor
  · rintro ⟨group, hgroup, hmember⟩
    obtain ⟨other, _, rfl⟩ := (mem_cycles_iff hclosed group).mp hgroup
    exact ((mem_mutuals_iff hclosed other vertex).mp hmember).symm.left.1
  · intro hleads
    exact ⟨graph.closure.mutuals vertex, (mem_cycles_iff hclosed _).mpr ⟨vertex, hleads, rfl⟩,
      (mem_mutuals_iff hclosed vertex vertex).mpr ⟨hleads, hleads⟩⟩

/-- Two vertices lie in one group when they are joined. -/
theorem mem_group_iff {graph : Graph} (hclosed : graph.IsClosed) (first second : Nat) :
    (∃ group ∈ graph.cycles, first ∈ group ∧ second ∈ group) ↔ graph.Joined first second := by
  constructor
  · rintro ⟨group, hgroup, hfirst, hsecond⟩
    obtain ⟨vertex, _, rfl⟩ := (mem_cycles_iff hclosed group).mp hgroup
    exact ((mem_mutuals_iff hclosed vertex first).mp hfirst).symm.trans
      ((mem_mutuals_iff hclosed vertex second).mp hsecond)
  · intro hjoined
    have hcyclic := hjoined.left
    exact ⟨graph.closure.mutuals first, (mem_cycles_iff hclosed _).mpr ⟨first, hcyclic.1, rfl⟩,
      (mem_mutuals_iff hclosed first first).mpr hcyclic,
      (mem_mutuals_iff hclosed first second).mpr hjoined⟩

/-- Each group is in ascending order. -/
theorem ascending_of_mem_cycles {graph : Graph} (hclosed : graph.IsClosed) {group : List Nat}
    (hgroup : group ∈ graph.cycles) : group.Pairwise (· < ·) := by
  obtain ⟨vertex, _, rfl⟩ := (mem_cycles_iff hclosed group).mp hgroup
  exact mutuals_ascending graph.closure vertex

/-- Each group has a member. -/
theorem ne_nil_of_mem_cycles {graph : Graph} (hclosed : graph.IsClosed) {group : List Nat}
    (hgroup : group ∈ graph.cycles) : group ≠ [] := by
  obtain ⟨vertex, hleads, rfl⟩ := (mem_cycles_iff hclosed group).mp hgroup
  exact List.ne_nil_of_mem ((mem_mutuals_iff hclosed vertex vertex).mpr ⟨hleads, hleads⟩)

/-! ### The order of the groups -/

/-- The groups of ascending vertices, repetitions left out: each has a member below all those of the
later groups. The vertices are to hold whole groups, so that the first one of a group is its
least. -/
theorem groups_pairwise {graph : Graph} (hclosed : graph.IsClosed) :
    ∀ vertices : List Nat, vertices.Pairwise (· < ·) →
      (∀ vertex ∈ vertices, graph.Leads vertex vertex) →
      (∀ vertex ∈ vertices, ∀ other, graph.Joined vertex other → other ∈ vertices) →
      (vertices.map graph.closure.mutuals).eraseDups.Pairwise fun first second ↦
        ∃ least ∈ first, ∀ other ∈ second, least < other
  | [], _, _, _ => by simp
  | vertex :: rest, hascending, hcyclic, hwhole => by
    rw [List.pairwise_cons] at hascending
    have hvertex : graph.Leads vertex vertex := hcyclic vertex List.mem_cons_self
    have hfilter : ((rest.map graph.closure.mutuals).filter fun group ↦
        !group == graph.closure.mutuals vertex) =
        (rest.filter fun other ↦ !graph.closure.mutuals other ==
          graph.closure.mutuals vertex).map graph.closure.mutuals := by
      rw [List.filter_map]
      rfl
    have hremains : ∀ other, other ∈ rest.filter (fun other ↦
        !graph.closure.mutuals other == graph.closure.mutuals vertex) ↔
        other ∈ rest ∧ ¬ graph.Joined vertex other := by
      intro other
      rw [List.mem_filter, ← mutuals_eq_iff hclosed hvertex]
      simp
    -- What remains holds whole groups: `vertex` is the only member that could be missing.
    have hstays : ∀ other ∈ rest, ¬ graph.Joined vertex other →
        ∀ third, graph.Joined other third → third ∈ rest ∧ ¬ graph.Joined vertex third := by
      intro other hother hapart third hjoined
      rcases List.mem_cons.mp (hwhole other (List.mem_cons_of_mem _ hother) third hjoined) with
        rfl | hthird
      · exact absurd hjoined.symm hapart
      · exact ⟨hthird, fun hagain ↦ hapart (hagain.trans hjoined.symm)⟩
    rw [List.map_cons, List.eraseDups_cons, hfilter, List.pairwise_cons]
    constructor
    · intro group hgroup
      obtain ⟨other, hother, rfl⟩ := List.mem_map.mp (List.mem_eraseDups.mp hgroup)
      obtain ⟨hlisted, hapart⟩ := (hremains other).mp hother
      refine ⟨vertex, (mem_mutuals_iff hclosed vertex vertex).mpr ⟨hvertex, hvertex⟩,
        fun third hthird ↦ ?_⟩
      exact hascending.1 third
        (hstays other hlisted hapart third ((mem_mutuals_iff hclosed other third).mp hthird)).1
    · refine groups_pairwise hclosed _ (hascending.2.filter _) ?_ ?_
      · intro other hother
        exact hcyclic other (List.mem_cons_of_mem _ ((hremains other).mp hother).1)
      · intro other hother third hjoined
        obtain ⟨hlisted, hapart⟩ := (hremains other).mp hother
        exact (hremains third).mpr (hstays other hlisted hapart third hjoined)
  termination_by vertices => vertices.length
  decreasing_by exact Nat.lt_succ_of_le (List.length_filter_le _ _)

/-- Each group has a member below all those of the later groups. -/
theorem cycles_pairwise {graph : Graph} (hclosed : graph.IsClosed) :
    graph.cycles.Pairwise fun first second ↦ ∃ least ∈ first, ∀ other ∈ second, least < other := by
  refine groups_pairwise hclosed graph.cyclic (cyclic_ascending graph) ?_ ?_
  · intro vertex hvertex
    exact (mem_cyclic_iff hclosed vertex).mp hvertex
  · intro vertex _ other hjoined
    exact (mem_cyclic_iff hclosed other).mpr hjoined.symm.left.1

/-- The first of two ascending lists comes first in lexicographic order if it has a member below all
those of the second one. -/
theorem lex_of_least {first second : List Nat} (hascending : first.Pairwise (· < ·))
    (hsecond : second ≠ []) (hleast : ∃ least ∈ first, ∀ other ∈ second, least < other) :
    List.Lex (· < ·) first second := by
  obtain ⟨least, hmember, hbelow⟩ := hleast
  obtain ⟨head, tail, rfl⟩ := List.exists_cons_of_ne_nil hsecond
  have hlt : least < head := hbelow head List.mem_cons_self
  cases first with
  | nil => simp at hmember
  | cons start others =>
    refine List.Lex.rel ?_
    rcases List.mem_cons.mp hmember with rfl | hlater
    · exact hlt
    · exact Nat.lt_trans ((List.pairwise_cons.mp hascending).1 least hlater) hlt

/-- The groups come in lexicographic order. -/
theorem cycles_lex {graph : Graph} (hclosed : graph.IsClosed) :
    graph.cycles.Pairwise (List.Lex (· < ·)) := by
  refine (cycles_pairwise hclosed).imp_of_mem fun {first second} hfirst hsecond hleast ↦ ?_
  exact lex_of_least (ascending_of_mem_cycles hclosed hfirst)
    (ne_nil_of_mem_cycles hclosed hsecond) hleast

/-- No vertex lies in two groups, or twice in one. -/
theorem nodup_flatten_cycles {graph : Graph} (hclosed : graph.IsClosed) :
    graph.cycles.flatten.Nodup := by
  refine List.nodup_flatten.mpr ⟨fun group hgroup ↦ ?_, ?_⟩
  · exact (ascending_of_mem_cycles hclosed hgroup).imp Nat.ne_of_lt
  · refine (cycles_pairwise hclosed).imp_of_mem fun {first second} hfirst hsecond hleast ↦ ?_
    obtain ⟨one, _, rfl⟩ := (mem_cycles_iff hclosed first).mp hfirst
    obtain ⟨two, _, rfl⟩ := (mem_cycles_iff hclosed second).mp hsecond
    intro vertex hone htwo
    have hjoined : graph.Joined one two :=
      ((mem_mutuals_iff hclosed one vertex).mp hone).trans
        ((mem_mutuals_iff hclosed two vertex).mp htwo).symm
    obtain ⟨least, hmember, hbelow⟩ := hleast
    rw [mutuals_eq_of_joined hclosed hjoined] at hmember
    exact lt_irrefl least (hbelow least hmember)

/-! ### The order of the rest -/

/-- The order lists the vertices that do not lead back to themselves. -/
theorem mem_order_iff {graph : Graph} (hclosed : graph.IsClosed) (vertex : Nat) :
    vertex ∈ graph.order ↔ vertex < graph.size ∧ ¬ graph.Leads vertex vertex := by
  rw [order, List.mem_filter, (finishOrder_perm hclosed).mem_iff, mem_vertices, ←
    mem_cyclic_iff hclosed]
  simp

theorem order_nodup {graph : Graph} (hclosed : graph.IsClosed) : graph.order.Nodup :=
  ((finishOrder_perm hclosed).nodup_iff.mpr List.nodup_range).filter _

/-- The order and the groups together hold every vertex once. -/
theorem order_append_cycles_perm {graph : Graph} (hclosed : graph.IsClosed) :
    (graph.order ++ graph.cycles.flatten).Perm graph.vertices := by
  refine (List.perm_ext_iff_of_nodup ?_ List.nodup_range).mpr fun vertex ↦ ?_
  · refine (order_nodup hclosed).append (nodup_flatten_cycles hclosed) ?_
    intro vertex hordered hcyclic
    exact ((mem_order_iff hclosed vertex).mp hordered).2
      ((mem_flatten_cycles_iff hclosed vertex).mp hcyclic)
  · change vertex ∈ graph.order ++ graph.cycles.flatten ↔ vertex ∈ graph.vertices
    rw [List.mem_append, mem_order_iff hclosed, mem_flatten_cycles_iff hclosed, mem_vertices]
    constructor
    · rintro (hordered | hcyclic)
      · exact hordered.1
      · exact hcyclic.source_lt_size
    · intro hvertex
      by_cases hcyclic : graph.Leads vertex vertex
      · exact Or.inr hcyclic
      · exact Or.inl ⟨hvertex, hcyclic⟩

/-- In the order, each vertex comes behind those that it points to. -/
theorem order_before {graph : Graph} (hclosed : graph.IsClosed) {source target : Nat}
    (hsource : source ∈ graph.order) (htarget : target ∈ graph.order)
    (hpoints : graph.Points source target) : [target, source].Sublist graph.order := by
  have hback : ¬ ReflTransGen graph.Points target source := fun hpath ↦
    ((mem_order_iff hclosed source).mp hsource).2 (TransGen.head' hpoints hpath)
  have hkept : [target, source].filter (fun vertex ↦ !graph.cyclic.contains vertex) =
      [target, source] := by
    refine List.filter_eq_self.mpr fun vertex hvertex ↦ ?_
    rcases List.mem_pair.mp hvertex with rfl | rfl
    · exact (List.mem_filter.mp htarget).2
    · exact (List.mem_filter.mp hsource).2
  rw [order, ← hkept]
  exact (before_of_points hclosed hpoints hback).filter _

end Formulary.Graph
