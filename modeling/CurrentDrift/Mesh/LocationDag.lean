import CurrentDrift.Mesh.Error

/-!
# Location graphs

Questions that lead from a root to the triangle of a point. A node asks on which side of one side
of a triangle the point lies and names the node to go on with for either answer; `-1` ends the
search. Several nodes may share a successor, and a damaged table may even lead in circles.
-/

namespace CurrentDrift

/-- A question about the directed side number `segment`, that is, `3 * triangle + side`. -/
structure LocationNode where
  segment : Nat
  left : Int
  right : Int
  deriving DecidableEq, Repr

namespace LocationNode

def triangle (n : LocationNode) : Nat := n.segment / 3

def side (n : LocationNode) : Fin 3 := ⟨n.segment % 3, Nat.mod_lt _ (by decide)⟩

/-- The node to go on with if the point is, or is not, on the left. -/
def child (n : LocationNode) (onLeft : Bool) : Int := if onLeft then n.left else n.right

/-- The first number in node number `i` that is out of range. -/
def fault? (n : LocationNode) (i nodes segments : Nat) : Option Corruption :=
  if segments ≤ n.segment then some (.segmentIndex i n.segment segments)
  else if n.left < -1 ∨ (nodes : Int) ≤ n.left then some (.childIndex i n.left)
  else if n.right < -1 ∨ (nodes : Int) ≤ n.right then some (.childIndex i n.right)
  else none

theorem child_of_fault?_eq_none {n : LocationNode} {i nodes segments : Nat}
    (h : n.fault? i nodes segments = none) (onLeft : Bool) :
    -1 ≤ n.child onLeft ∧ n.child onLeft < nodes := by
  unfold fault? at h
  split at h <;> try contradiction
  split at h <;> try contradiction
  split at h <;> try contradiction
  unfold child
  split <;> omega

end LocationNode

/-- A table of nodes whose successors are all in the table. The search begins at node 0. -/
structure LocationDag where
  nodes : Array LocationNode
  nodes_pos : 0 < nodes.size
  child_range : ∀ n ∈ nodes, ∀ onLeft, -1 ≤ n.child onLeft ∧ n.child onLeft < nodes.size

namespace LocationDag

/-- The first number out of range in a table of nodes about so many segments, node by node. -/
def firstFault? (nodes : Array LocationNode) (segments : Nat) : Option Corruption :=
  nodes.toList.zipIdx.findSome? fun (n, i) => n.fault? i nodes.size segments

theorem child_of_firstFault?_eq_none {nodes : Array LocationNode} {segments : Nat}
    (h : firstFault? nodes segments = none) :
    ∀ n ∈ nodes, ∀ onLeft, -1 ≤ n.child onLeft ∧ n.child onLeft < nodes.size := by
  intro n hn
  obtain ⟨i, hi, rfl⟩ := List.getElem_of_mem (Array.mem_toList_iff.2 hn)
  rw [firstFault?, List.findSome?_eq_none_iff] at h
  exact LocationNode.child_of_fault?_eq_none
    (h (nodes.toList[i], i) (List.mk_mem_zipIdx_iff_getElem?.2 (by simp)))

/-- Checks a table of nodes that may ask about so many sides. -/
def ofSegments (nodes : Array LocationNode) (segments : Nat) : Except MeshError LocationDag :=
  if hn : nodes.size = 0 then .error (.corrupt .noNodes)
  else
    match hf : firstFault? nodes segments with
    | some fault => .error (.corrupt fault)
    | none => .ok
      { nodes
        nodes_pos := Nat.pos_of_ne_zero hn
        child_range := child_of_firstFault?_eq_none hf }

/-- Checks a table of nodes for a mesh of that many triangles. There are three sides to each, which
is a word of 64 bits for every mesh that fits into a memory. -/
def ofNodes (nodes : Array LocationNode) (triangles : Nat) : Except MeshError LocationDag :=
  ofSegments nodes (3 * triangles)

/-- The number of a node of the table. -/
abbrev Index (d : LocationDag) : Type := Fin d.nodes.size

def root (d : LocationDag) : d.Index := ⟨0, d.nodes_pos⟩

def node (d : LocationDag) (i : d.Index) : LocationNode := d.nodes[i]

theorem node_mem (d : LocationDag) (i : d.Index) : d.node i ∈ d.nodes := Array.getElem_mem i.isLt

/-- The node to go on with, unless the search ends. -/
def next? (d : LocationDag) (i : d.Index) (onLeft : Bool) : Option d.Index :=
  let child := (d.node i).child onLeft
  if h : 0 ≤ child then
    some ⟨child.toNat, by
      have := (d.child_range (d.node i) (d.node_mem i) onLeft).2
      omega⟩
  else none

/-- The nodes that follow a node at a depth, the one on the right first. -/
def successors (d : LocationDag) (i : d.Index) (depth : Nat) : List (d.Index × Nat) :=
  ((d.next? i false).toList ++ (d.next? i true).toList).map fun j => (j, depth + 1)

theorem count_false_set_lt {n : Nat} (visited : Vector Bool n) (i : Fin n)
    (h : ¬ visited[i] = true) : (visited.set i true).count false < visited.count false := by
  have hi : visited[i.val] = false := by simpa using h
  have hpos : 0 < visited.count false := Vector.count_pos_iff.2 (hi ▸ Vector.getElem_mem i.isLt)
  simpa [Vector.count_set, hi] using Nat.sub_lt hpos Nat.one_pos

/-- What the search for the depth goes by, and what it has done so far. -/
structure Worklist (d : LocationDag) where
  visited : Vector Bool d.nodes.size
  /-- The greatest depth at which a node was first seen. -/
  found : Nat
  /-- Nodes to look at with their depths. -/
  stack : List (d.Index × Nat)
  /-- The nodes that were marked, the last one first. -/
  marks : List d.Index
  /-- The number of entries that were put on the stack. -/
  pushes : Nat

namespace Worklist

variable {d : LocationDag}

/-- The marks with one more. -/
def mark {n : Nat} (visited : Vector Bool n) (i : Fin n) : Vector Bool n :=
  visited.set i true i.isLt

/-- Nothing is marked, and the root is stacked up. -/
def start (d : LocationDag) : Worklist d where
  visited := Vector.replicate d.nodes.size false
  found := 0
  stack := [(d.root, 1)]
  marks := []
  pushes := 1

/-- The entry of a node that has been marked is dropped. -/
def skip (w : Worklist d) (stack : List (d.Index × Nat)) : Worklist d :=
  { w with stack }

/-- A new node is marked, and its successors are put on the stack. -/
def visit (w : Worklist d) (i : d.Index) (depth : Nat) (stack : List (d.Index × Nat)) :
    Worklist d where
  visited := mark w.visited i
  found := max w.found depth
  stack := d.successors i depth ++ stack
  marks := i :: w.marks
  pushes := w.pushes + (d.successors i depth).length

/-- One round, unless the stack is empty. -/
def step? (w : Worklist d) : Option (Worklist d) :=
  match w.stack with
  | [] => none
  | (i, depth) :: stack =>
    if w.visited.get i = true then some (w.skip stack) else some (w.visit i depth stack)

/-- A round marks a node or leaves the stack shorter. -/
theorem lt_of_step? {w w' : Worklist d} (h : w.step? = some w') :
    Prod.Lex (· < ·) (· < ·) (w'.visited.count false, w'.stack.length)
      (w.visited.count false, w.stack.length) := by
  unfold step? at h
  split at h
  · contradiction
  · next i depth stack hstack =>
    split at h
    · obtain rfl := Option.some.inj h
      rw [hstack]
      exact Prod.Lex.right _ (Nat.lt_succ_self _)
    · next hnew =>
      obtain rfl := Option.some.inj h
      exact Prod.Lex.left _ _ (count_false_set_lt w.visited i hnew)

/-- One round after the other, until the stack is empty. -/
def run (w : Worklist d) : Worklist d :=
  match _h : w.step? with
  | some w' => w'.run
  | none => w
termination_by (w.visited.count false, w.stack.length)
decreasing_by exact lt_of_step? _h

end Worklist

/-- The depth of the graph, the root being at depth one. A node that several paths lead to counts
where the search from right to left meets it first. -/
def depth (d : LocationDag) : Nat := (Worklist.start d).run.found

end LocationDag

end CurrentDrift
