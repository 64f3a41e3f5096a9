import Formulary.References.Graph
import Mathlib.Data.List.Nodup
import Mathlib.Data.List.Perm.Subperm
import Mathlib.Data.Nat.Basic
import Mathlib.Logic.Relation

/-!
# What a depth-first walk finds

Paths of a graph are the transitive closure of its arrows. A walk keeps an invariant, `Walk.Sound`:
whatever it has left points only to what it has entered, and an arrow out of a vertex that it has
left ends either in a vertex left before or in one that leads back. `Walk.Explores` says what
setting out from some sources adds to a walk. `explores_visit` proves it for one vertex, by
induction on the depth, and `explores_foldl` for several.

The main statements are `mem_reach_iff`, that the search finds what paths lead to, and
`finishOrder_perm` and `before_of_points`, that the finish order lists every vertex once, behind all
that it points to and that does not lead back.
-/

set_option autoImplicit false
set_option relaxedAutoImplicit false

namespace Formulary.Graph

open Relation

/-! ### Arrows and paths -/

/-- An arrow from one vertex to another. -/
def Points (graph : Graph) (source target : Nat) : Prop :=
  target ∈ graph.successors source

/-- A path of at least one arrow. -/
abbrev Leads (graph : Graph) : Nat → Nat → Prop :=
  TransGen graph.Points

/-- Every arrow ends in a vertex. -/
def IsClosed (graph : Graph) : Prop :=
  ∀ source target, graph.Points source target → target < graph.size

@[simp] theorem mem_vertices (graph : Graph) (vertex : Nat) :
    vertex ∈ graph.vertices ↔ vertex < graph.size := by
  simp [vertices]

theorem lt_size_of_mem_vertices (graph : Graph) :
    ∀ vertex ∈ graph.vertices, vertex < graph.size := by
  simp

/-- Every arrow sets out from a vertex. -/
theorem Points.lt_size {graph : Graph} {source target : Nat}
    (hpoints : graph.Points source target) : source < graph.size := by
  by_contra hlate
  have hnone : graph.arrows[source]? = none := List.getElem?_eq_none (not_lt.mp hlate)
  simp [Points, successors, List.getD, hnone] at hpoints

/-- Every path sets out from a vertex. -/
theorem Leads.source_lt_size {graph : Graph} {source target : Nat}
    (hleads : graph.Leads source target) : source < graph.size := by
  obtain ⟨next, hpoints, _⟩ := TransGen.head'_iff.mp hleads
  exact hpoints.lt_size

/-- Every path ends in a vertex. -/
theorem Leads.target_lt_size {graph : Graph} (hclosed : graph.IsClosed) {source target : Nat}
    (hleads : graph.Leads source target) : target < graph.size := by
  obtain ⟨last, _, hpoints⟩ := TransGen.tail'_iff.mp hleads
  exact hclosed last target hpoints

/-! ### The invariant of a walk -/

/-- What holds of a walk at any time. Of the vertices that a walk has left, the later ones stand
first. -/
structure Walk.Sound (graph : Graph) (walk : Walk) : Prop where
  entered_nodup : walk.entered.Nodup
  entered_lt : ∀ vertex ∈ walk.entered, vertex < graph.size
  left_nodup : walk.left.Nodup
  left_entered : ∀ vertex ∈ walk.left, vertex ∈ walk.entered
  closed : ∀ vertex ∈ walk.left, ∀ target, graph.Points vertex target → target ∈ walk.entered
  settled : ∀ later vertex earlier, walk.left = later ++ vertex :: earlier →
    ∀ target, graph.Points vertex target →
      target ∈ earlier ∨ ReflTransGen graph.Points target vertex

/-- How a walk goes on when it sets out from some sources: it enters them and leaves all that it
enters, which paths from the sources lead to, and it leaves nothing else. -/
structure Walk.Explores (graph : Graph) (sources : List Nat) (first next : Walk) : Prop where
  sound : next.Sound graph
  sources_entered : ∀ source ∈ sources, source ∈ next.entered
  entered_mono : ∀ vertex ∈ first.entered, vertex ∈ next.entered
  left_mono : ∀ vertex ∈ first.left, vertex ∈ next.left
  length_le : first.entered.length ≤ next.entered.length
  fresh : ∀ vertex ∈ next.entered, vertex ∈ first.entered ∨
    vertex ∈ next.left ∧ ∃ source ∈ sources, ReflTransGen graph.Points source vertex
  still_open : ∀ vertex ∈ first.entered, vertex ∈ next.left → vertex ∈ first.left

/-- When a walk may set out from some sources: it has depth enough to enter all that is missing, and
each vertex that it is still in leads to each source. -/
structure Walk.Ready (graph : Graph) (depth : Nat) (sources : List Nat) (walk : Walk) : Prop where
  sound : walk.Sound graph
  enough : graph.size ≤ walk.entered.length + depth
  sources_lt : ∀ source ∈ sources, source < graph.size
  open_leads : ∀ vertex ∈ walk.entered, vertex ∉ walk.left →
    ∀ source ∈ sources, ReflTransGen graph.Points vertex source

theorem Walk.Sound.start (graph : Graph) : Walk.start.Sound graph where
  entered_nodup := List.nodup_nil
  entered_lt := by simp [Walk.start]
  left_nodup := List.nodup_nil
  left_entered := by simp [Walk.start]
  closed := by simp [Walk.start]
  settled := by simp [Walk.start]

/-- A walk that has not set out may set out from any vertices. -/
theorem Walk.Ready.start {graph : Graph} {sources : List Nat}
    (hsources : ∀ source ∈ sources, source < graph.size) :
    Walk.start.Ready graph graph.size sources where
  sound := .start graph
  enough := Nat.le_add_left _ _
  sources_lt := hsources
  open_leads := by simp [Walk.start]

/-- Setting out from nowhere changes nothing. -/
theorem Walk.Explores.refl {graph : Graph} {walk : Walk} (hsound : walk.Sound graph)
    {sources : List Nat} (hentered : ∀ source ∈ sources, source ∈ walk.entered) :
    Walk.Explores graph sources walk walk where
  sound := hsound
  sources_entered := hentered
  entered_mono _ hvertex := hvertex
  left_mono _ hvertex := hvertex
  length_le := le_rfl
  fresh _ hvertex := Or.inl hvertex
  still_open _ _ hleft := hleft

/-- Setting out from one source and then from others. -/
theorem Walk.Explores.trans {graph : Graph} {source : Nat} {sources : List Nat}
    {first middle last : Walk} (hfirst : Walk.Explores graph [source] first middle)
    (hlast : Walk.Explores graph sources middle last) :
    Walk.Explores graph (source :: sources) first last where
  sound := hlast.sound
  sources_entered := by
    intro vertex hvertex
    rcases List.mem_cons.mp hvertex with rfl | hvertex
    · exact hlast.entered_mono _ (hfirst.sources_entered _ (List.mem_singleton_self _))
    · exact hlast.sources_entered _ hvertex
  entered_mono _ hvertex := hlast.entered_mono _ (hfirst.entered_mono _ hvertex)
  left_mono _ hvertex := hlast.left_mono _ (hfirst.left_mono _ hvertex)
  length_le := Nat.le_trans hfirst.length_le hlast.length_le
  fresh := by
    intro vertex hvertex
    rcases hlast.fresh _ hvertex with hmiddle | ⟨hleft, other, hother, hpath⟩
    · rcases hfirst.fresh _ hmiddle with hold | ⟨hleft, other, hother, hpath⟩
      · exact Or.inl hold
      · rw [List.mem_singleton.mp hother] at hpath
        exact Or.inr ⟨hlast.left_mono _ hleft, source, List.mem_cons_self, hpath⟩
    · exact Or.inr ⟨hleft, other, List.mem_cons_of_mem _ hother, hpath⟩
  still_open _ hvertex hleft :=
    hfirst.still_open _ hvertex (hlast.still_open _ (hfirst.entered_mono _ hvertex) hleft)

/-- After the first of several sources, a walk may set out from the others. -/
theorem Walk.Ready.next {graph : Graph} {depth source : Nat} {sources : List Nat}
    {first next : Walk} (hready : first.Ready graph depth (source :: sources))
    (hexplores : Walk.Explores graph [source] first next) : next.Ready graph depth sources where
  sound := hexplores.sound
  enough := by
    have henough := hready.enough
    have hlonger := hexplores.length_le
    omega
  sources_lt _ hother := hready.sources_lt _ (List.mem_cons_of_mem _ hother)
  open_leads := by
    intro vertex hentered hopen other hother
    rcases hexplores.fresh _ hentered with hold | ⟨hleft, _⟩
    · exact hready.open_leads _ hold (fun hleft ↦ hopen (hexplores.left_mono _ hleft)) _
        (List.mem_cons_of_mem _ hother)
    · exact absurd hleft hopen

/-- If a walk explores every single source that it is ready for, it explores several in turn. -/
theorem explores_foldl {graph : Graph} {depth : Nat}
    (hvisit : ∀ walk vertex, Walk.Ready graph depth [vertex] walk →
      Walk.Explores graph [vertex] walk (graph.visit depth walk vertex)) :
    ∀ (sources : List Nat) (walk : Walk), walk.Ready graph depth sources →
      Walk.Explores graph sources walk (sources.foldl (graph.visit depth) walk) := by
  intro sources
  induction sources with
  | nil =>
    intro walk hready
    exact .refl hready.sound (by simp)
  | cons source sources ih =>
    intro walk hready
    have hfirst : [source] ⊆ source :: sources := List.cons_subset_cons source (List.nil_subset sources)
    have hone : walk.Ready graph depth [source] :=
      { hready with
        sources_lt := fun other hother ↦ hready.sources_lt other (hfirst hother)
        open_leads := fun vertex hentered hopen other hother ↦
          hready.open_leads vertex hentered hopen other (hfirst hother) }
    have hvisited := hvisit walk source hone
    exact hvisited.trans (ih _ (hready.next hvisited))

/-! ### One vertex -/

/-- A vertex that a walk has just entered. -/
theorem Walk.Ready.enter {graph : Graph} (hclosed : graph.IsClosed) {depth vertex : Nat}
    {walk : Walk} (hready : walk.Ready graph (depth + 1) [vertex])
    (hnew : vertex ∉ walk.entered) :
    Walk.Ready graph depth (graph.successors vertex).reverse
      { walk with entered := vertex :: walk.entered } where
  sound :=
    { entered_nodup := List.nodup_cons.mpr ⟨hnew, hready.sound.entered_nodup⟩
      entered_lt := by
        intro other hother
        rcases List.mem_cons.mp hother with rfl | hother
        · exact hready.sources_lt _ (List.mem_singleton_self _)
        · exact hready.sound.entered_lt _ hother
      left_nodup := hready.sound.left_nodup
      left_entered := fun other hother ↦
        List.mem_cons_of_mem _ (hready.sound.left_entered _ hother)
      closed := fun other hother target hpoints ↦
        List.mem_cons_of_mem _ (hready.sound.closed _ hother _ hpoints)
      settled := hready.sound.settled }
  enough := by
    have henough := hready.enough
    simp only [List.length_cons]
    omega
  sources_lt target htarget := hclosed vertex target (List.mem_reverse.mp htarget)
  open_leads := by
    intro other hother hopen target htarget
    have hpoints : graph.Points vertex target := List.mem_reverse.mp htarget
    rcases List.mem_cons.mp hother with rfl | hother
    · exact ReflTransGen.single hpoints
    · exact (hready.open_leads _ hother hopen _ (List.mem_singleton_self _)).tail hpoints

/-- Leaving a vertex when all that it points to has been entered. The vertices still open lead to
it, so what it points to has either been left or leads back to it. -/
theorem Walk.Sound.leave {graph : Graph} {vertex : Nat} {walk : Walk} (hsound : walk.Sound graph)
    (hentered : vertex ∈ walk.entered) (hopen : vertex ∉ walk.left)
    (htargets : ∀ target, graph.Points vertex target → target ∈ walk.entered)
    (hleads : ∀ other ∈ walk.entered, other ∉ walk.left →
      ReflTransGen graph.Points other vertex) :
    Walk.Sound graph { walk with left := vertex :: walk.left } where
  entered_nodup := hsound.entered_nodup
  entered_lt := hsound.entered_lt
  left_nodup := List.nodup_cons.mpr ⟨hopen, hsound.left_nodup⟩
  left_entered := by
    intro other hother
    rcases List.mem_cons.mp hother with rfl | hother
    · exact hentered
    · exact hsound.left_entered _ hother
  closed := by
    intro other hother target hpoints
    rcases List.mem_cons.mp hother with rfl | hother
    · exact htargets _ hpoints
    · exact hsound.closed _ hother _ hpoints
  settled := by
    intro later other earlier hsplit target hpoints
    cases later with
    | nil =>
      obtain ⟨rfl, rfl⟩ := List.cons.inj hsplit
      by_cases hleft : target ∈ walk.left
      · exact Or.inl hleft
      · exact Or.inr (hleads _ (htargets _ hpoints) hleft)
    | cons _ later =>
      exact hsound.settled later other earlier (List.cons.inj hsplit).2 target hpoints

/-- Visiting a vertex that the walk has not entered, if the walk explores what it points to. -/
theorem Walk.Explores.leave {graph : Graph} {vertex : Nat} {walk inner : Walk}
    (hsound : walk.Sound graph) (hnew : vertex ∉ walk.entered)
    (hleads : ∀ other ∈ walk.entered, other ∉ walk.left →
      ReflTransGen graph.Points other vertex)
    (hexplores : Walk.Explores graph (graph.successors vertex).reverse
      { walk with entered := vertex :: walk.entered } inner) :
    Walk.Explores graph [vertex] walk { inner with left := vertex :: inner.left } := by
  have hentered : vertex ∈ inner.entered := hexplores.entered_mono _ List.mem_cons_self
  have hopen : vertex ∉ inner.left := fun hleft ↦
    hnew (hsound.left_entered _ (hexplores.still_open _ List.mem_cons_self hleft))
  refine
    { sound := hexplores.sound.leave hentered hopen ?_ ?_
      sources_entered := by simpa using hentered
      entered_mono := fun other hother ↦
        hexplores.entered_mono _ (List.mem_cons_of_mem _ hother)
      left_mono := fun other hother ↦ List.mem_cons_of_mem _ (hexplores.left_mono _ hother)
      length_le := Nat.le_trans (Nat.le_succ _) hexplores.length_le
      fresh := ?_
      still_open := ?_ }
  · intro target hpoints
    exact hexplores.sources_entered _ (List.mem_reverse.mpr hpoints)
  · intro other hother hstill
    rcases hexplores.fresh _ hother with hold | ⟨hleft, _⟩
    · rcases List.mem_cons.mp hold with rfl | hold
      · exact ReflTransGen.refl
      · exact hleads _ hold fun hleft ↦ hstill (hexplores.left_mono _ hleft)
    · exact absurd hleft hstill
  · intro other hother
    rcases hexplores.fresh _ hother with hold | ⟨hleft, source, hsource, hpath⟩
    · rcases List.mem_cons.mp hold with rfl | hold
      · exact Or.inr ⟨List.mem_cons_self, other, List.mem_singleton_self _, ReflTransGen.refl⟩
      · exact Or.inl hold
    · have hpoints : graph.Points vertex source := List.mem_reverse.mp hsource
      exact Or.inr ⟨List.mem_cons_of_mem _ hleft, vertex, List.mem_singleton_self _,
        ReflTransGen.head hpoints hpath⟩
  · intro other hother hleft
    rcases List.mem_cons.mp hleft with rfl | hleft
    · exact absurd hother hnew
    · exact hexplores.still_open _ (List.mem_cons_of_mem _ hother) hleft

/-- Visiting one vertex. A walk without depth left has entered every vertex already. -/
theorem explores_visit {graph : Graph} (hclosed : graph.IsClosed) :
    ∀ (depth : Nat) (walk : Walk) (vertex : Nat), walk.Ready graph depth [vertex] →
      Walk.Explores graph [vertex] walk (graph.visit depth walk vertex) := by
  intro depth
  induction depth with
  | zero =>
    intro walk vertex hready
    refine .refl hready.sound fun source hsource ↦ ?_
    have hrange : ∀ other ∈ walk.entered, other ∈ List.range graph.size := fun other hother ↦
      List.mem_range.mpr (hready.sound.entered_lt _ hother)
    have hall : walk.entered.Perm (List.range graph.size) :=
      (hready.sound.entered_nodup.subperm hrange).perm_of_length_le (by
        have henough := hready.enough
        simpa using henough)
    exact hall.mem_iff.mpr (List.mem_range.mpr (hready.sources_lt _ hsource))
  | succ depth ih =>
    intro walk vertex hready
    rw [visit]
    split
    · rename_i hentered
      exact .refl hready.sound (by simpa using hentered)
    · rename_i hnew
      have hnew : vertex ∉ walk.entered := by simpa using hnew
      refine .leave hready.sound hnew (fun other hother hopen ↦ ?_) ?_
      · exact hready.open_leads _ hother hopen _ (List.mem_singleton_self _)
      · exact explores_foldl (ih ·  ·) _ _ (hready.enter hclosed hnew)

/-! ### Searching from a vertex, and all vertices -/

/-- A walk over some vertices from the start leaves all that it enters. -/
theorem explores_start {graph : Graph} (hclosed : graph.IsClosed) {sources : List Nat}
    (hsources : ∀ source ∈ sources, source < graph.size) :
    Walk.Explores graph sources Walk.start
      (sources.foldl (graph.visit graph.size) Walk.start) :=
  explores_foldl (explores_visit hclosed graph.size) sources Walk.start (.start hsources)

/-- The search finds what paths of at least one arrow lead to, and nothing else. -/
theorem mem_reach_iff {graph : Graph} (hclosed : graph.IsClosed) (source target : Nat) :
    target ∈ graph.reach source ↔ graph.Leads source target := by
  have hexplores := explores_start hclosed (hclosed source)
  constructor
  · intro hreached
    rcases hexplores.fresh _ hreached with hnone | ⟨_, next, hpoints, hpath⟩
    · simp [Walk.start] at hnone
    · exact TransGen.head' hpoints hpath
  · intro hleads
    obtain ⟨next, hpoints, hpath⟩ := TransGen.head'_iff.mp hleads
    have hnext := hexplores.sources_entered next hpoints
    induction hpath with
    | refl => exact hnext
    | tail hpath hlast ih =>
      have hmiddle := ih (TransGen.head' hpoints hpath)
      rcases hexplores.fresh _ hmiddle with hnone | ⟨hleft, _⟩
      · simp [Walk.start] at hnone
      · exact hexplores.sound.closed _ hleft _ hlast

/-- The finish order lists every vertex once. -/
theorem finishOrder_perm {graph : Graph} (hclosed : graph.IsClosed) :
    graph.finishOrder.Perm graph.vertices := by
  have hexplores := explores_start hclosed (lt_size_of_mem_vertices graph)
  have hnodup : graph.finishOrder.Nodup := List.nodup_reverse.mpr hexplores.sound.left_nodup
  refine (List.perm_ext_iff_of_nodup hnodup List.nodup_range).mpr fun vertex ↦ ?_
  rw [finishOrder, List.mem_reverse]
  constructor
  · intro hleft
    exact (mem_vertices graph vertex).mpr
      (hexplores.sound.entered_lt _ (hexplores.sound.left_entered _ hleft))
  · intro hvertex
    rcases hexplores.fresh _ (hexplores.sources_entered _ hvertex) with hnone | ⟨hleft, _⟩
    · simp [Walk.start] at hnone
    · exact hleft

/-- In the finish order, a vertex comes behind all that it points to and that does not lead back. -/
theorem before_of_points {graph : Graph} (hclosed : graph.IsClosed) {source target : Nat}
    (hpoints : graph.Points source target) (hback : ¬ ReflTransGen graph.Points target source) :
    [target, source].Sublist graph.finishOrder := by
  have hexplores := explores_start hclosed (lt_size_of_mem_vertices graph)
  have hlisted : source ∈ graph.finishOrder :=
    (finishOrder_perm hclosed).mem_iff.mpr ((mem_vertices _ _).mpr hpoints.lt_size)
  obtain ⟨later, earlier, hsplit⟩ := List.append_of_mem (List.mem_reverse.mp hlisted)
  have hbefore : target ∈ earlier :=
    (hexplores.sound.settled later source earlier hsplit target hpoints).resolve_right hback
  have hpair : [source, target].Sublist (later ++ source :: earlier) :=
    (List.Sublist.cons_cons source (List.singleton_sublist.mpr hbefore)).trans
      (List.sublist_append_right later _)
  rw [finishOrder, hsplit]
  simpa using hpair.reverse

end Formulary.Graph
