/-!
# Depth-first traversal

The order in which a depth-first traversal finishes its nodes: a node is finished when everything
that can be reached from it, and was not yet found, is finished. On a graph without loops the
reverse of this order is a topological order; on the reversed graph it lists the loops one after the
other.

The traversal keeps an explicit stack. A node is looked at twice: at first its neighbours go on the
stack above it, and when it comes to the top again it is finished.

* `Traversal.drain`: empties the stack.
* `Traversal.finished`: the nodes in the reverse order of finishing, from given roots in turn.
-/

namespace Playthrough

/-- A traversal under way. -/
structure Traversal (α : Type) where
  /-- The nodes not found yet. -/
  unseen : List α
  /-- The finished nodes, the last one first. -/
  done : List α

namespace Traversal

variable {α : Type} [DecidableEq α]

/-- The neighbours of a node that go on the stack: those not found yet, the last one on top. -/
def above (neighbours : α → List α) (unseen : List α) (node : α) : List α :=
  ((neighbours node).filter (· ∈ unseen)).reverse

/-- Marks a node as finished, once. -/
def finish (node : α) (done : List α) : List α := if node ∈ done then done else node :: done

/-- Works until the stack is empty. -/
def drain (neighbours : α → List α) (unseen done stack : List α) : Traversal α :=
  match stack with
  | [] => { unseen, done }
  | node :: rest =>
    if _unseen : node ∈ unseen then
      let others := unseen.erase node
      drain neighbours others done (above neighbours others node ++ node :: rest)
    else drain neighbours unseen (finish node done) rest
termination_by (unseen.length, stack.length)
decreasing_by
  · refine Prod.Lex.left _ _ ?_
    show (unseen.erase node).length < unseen.length
    rw [List.length_erase_of_mem _unseen]
    have := List.length_pos_of_mem _unseen
    omega
  · exact Prod.Lex.right _ (Nat.lt_succ_self _)

/-- Starts from a root, unless it has been found already. -/
def visit (neighbours : α → List α) (state : Traversal α) (root : α) : Traversal α :=
  if root ∈ state.unseen then drain neighbours state.unseen state.done [root] else state

/-- The nodes of a graph in the reverse order in which they are finished, starting from each node in
    turn. -/
def finished (neighbours : α → List α) (nodes : List α) : List α :=
  (nodes.foldl (visit neighbours) { unseen := nodes, done := [] }).done

end Traversal

end Playthrough
