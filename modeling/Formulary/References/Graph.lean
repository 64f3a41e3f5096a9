/-!
# Directed graphs on the first natural numbers

A `Graph` gives each of its vertices, which are numbered from zero, a list of successors. A `Walk`
goes through a graph depth first; `Graph.reach` is what a path of at least one step leads to,
`Graph.finishOrder` the order in which a walk over all vertices leaves them, and `Graph.cycles` the
groups of vertices that reach each other.
-/

set_option autoImplicit false
set_option relaxedAutoImplicit false

namespace Formulary

/-- A graph: the successors of each vertex. -/
structure Graph where
  arrows : List (List Nat)
  deriving Repr

namespace Graph

/-- The number of vertices. -/
def size (graph : Graph) : Nat :=
  graph.arrows.length

/-- The successors of a vertex. -/
def successors (graph : Graph) (vertex : Nat) : List Nat :=
  graph.arrows.getD vertex []

/-- The vertices in ascending order. -/
def vertices (graph : Graph) : List Nat :=
  List.range graph.size

/-- The graph on so many vertices that a relation gives. -/
def ofRelation (size : Nat) (related : Nat → Nat → Bool) : Graph where
  arrows := (List.range size).map fun source ↦ (List.range size).filter (related source)

/-! ### Walks -/

/-- How far a walk has come: the vertices that it has entered, and those that it has left again,
latest first. -/
structure Walk where
  entered : List Nat
  left : List Nat
  deriving Repr

/-- The walk that has not set out. -/
def Walk.start : Walk := ⟨[], []⟩

/-- Enters a vertex, unless the walk was there before, then its successors, the last one first, and
leaves it; no path is longer than the depth given. -/
def visit (graph : Graph) : Nat → Walk → Nat → Walk
  | 0, walk, _ => walk
  | depth + 1, walk, vertex =>
    if walk.entered.contains vertex then walk
    else
      let inner := (graph.successors vertex).reverse.foldl (graph.visit depth)
        { walk with entered := vertex :: walk.entered }
      { inner with left := vertex :: inner.left }

/-- The vertices in the order in which a walk that sets out from each of them in turn leaves them:
apart from cycles, a vertex comes after all that it leads to. -/
def finishOrder (graph : Graph) : List Nat :=
  (graph.vertices.foldl (graph.visit graph.size) Walk.start).left.reverse

/-- The vertices to which a path of at least one step leads. -/
def reach (graph : Graph) (vertex : Nat) : List Nat :=
  ((graph.successors vertex).foldl (graph.visit graph.size) Walk.start).entered

/-! ### Cycles -/

/-- Whether a path leads from a vertex back to it. -/
def isCyclic (graph : Graph) (vertex : Nat) : Bool :=
  (graph.reach vertex).contains vertex

/-- The vertices on cycles, in ascending order. -/
def cyclic (graph : Graph) : List Nat :=
  graph.vertices.filter graph.isCyclic

/-- What each vertex reaches, as a graph: its arrows are the paths of the first one. -/
def closure (graph : Graph) : Graph where
  arrows := graph.vertices.map graph.reach

/-- The vertices that a vertex points to and that point to it, in ascending order. -/
def mutuals (graph : Graph) (vertex : Nat) : List Nat :=
  graph.vertices.filter fun other ↦
    (graph.successors vertex).contains other && (graph.successors other).contains vertex

/-- The groups of vertices that reach each other, each in ascending order, in the order of their
first members. -/
def cycles (graph : Graph) : List (List Nat) :=
  let closure := graph.closure
  (graph.cyclic.map closure.mutuals).eraseDups

/-- The vertices on no cycle, each after all that it leads to. -/
def order (graph : Graph) : List Nat :=
  let cyclic := graph.cyclic
  graph.finishOrder.filter fun vertex ↦ !cyclic.contains vertex

end Graph

end Formulary
