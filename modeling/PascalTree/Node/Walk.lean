import PascalTree.Node.Basic

/-!
# Walk — pre-order traversal driven by a stack

* `Walk.next?`: one step, which takes the first pending node and puts its children before the
  others;
* `Node.preorder`: all nodes of a tree in the order of the walk;
* `Node.nodeAt?`: the node with a given number in that order;
* `Node.tryVisit`: an action on each node in turn, up to the first error.
-/

namespace PascalTree

/-- A traversal under way: the nodes whose subtrees are still to come, the next one first. -/
structure Walk where
  pending : List Node

namespace Walk

/-- The next node and the walk after it. -/
def next? (w : Walk) : Option (Node × Walk) :=
  match w.pending with
  | [] => none
  | n :: rest => some (n, ⟨n.children ++ rest⟩)

/-- The number of nodes still to come. -/
def remaining (w : Walk) : Nat := Numeric.total (w.pending.map Node.size)

theorem remaining_next {w w' : Walk} {n : Node} (h : w.next? = some (n, w')) :
    w.remaining = 1 + w'.remaining := by
  obtain ⟨pending⟩ := w
  cases pending with
  | nil => simp [next?] at h
  | cons m rest =>
    simp only [next?, Option.some.injEq, Prod.mk.injEq] at h
    obtain ⟨rfl, rfl⟩ := h
    simp [remaining, Node.size_eq m, Nat.add_assoc]

/-- The nodes still to come, in order. -/
def toList (w : Walk) : List Node :=
  match _h : w.next? with
  | none => []
  | some (n, w') => n :: w'.toList
termination_by w.remaining
decreasing_by
  have := remaining_next _h
  omega

/-- Runs a stateful action on the nodes still to come, up to the first error. Besides the outcome
it gives the state that the last action left. -/
def tryEach {σ ε : Type} (action : Node → σ → Except ε Unit × σ) (w : Walk) (state : σ) :
    Except ε Unit × σ :=
  match _h : w.next? with
  | none => (.ok (), state)
  | some (n, w') =>
    match action n state with
    | (.ok (), state') => w'.tryEach action state'
    | (.error e, state') => (.error e, state')
termination_by w.remaining
decreasing_by
  have := remaining_next _h
  omega

end Walk

namespace Node

/-- The walk over the tree below a node, starting with the node itself. -/
def walk (n : Node) : Walk := ⟨[n]⟩

/-- All nodes of a tree in pre-order. -/
def preorder (n : Node) : List Node := n.walk.toList

/-- The number of nodes met by the walk. -/
def count (n : Node) : Nat := n.preorder.length

/-- All nodes with their numbers in pre-order; the root has number zero. -/
def numbered (n : Node) : List (Nat × Node) := n.preorder.zipIdx.map Prod.swap

/-- The node with a given number in pre-order. -/
def nodeAt? (n : Node) (id : Nat) : Option Node := n.preorder[id]?

/-- Runs an action on every node in pre-order, up to the first error. Nodes behind the failing one
are not visited. -/
def tryVisit {σ ε : Type} (action : Node → σ → Except ε Unit × σ) (n : Node) (state : σ) :
    Except ε Unit × σ :=
  n.walk.tryEach action state

/-- Runs an action that cannot fail on every node in pre-order. -/
def visit {σ : Type} (action : Node → σ → σ) (n : Node) (state : σ) : σ :=
  (tryVisit (fun m state => ((.ok () : Except Empty Unit), action m state)) n state).2

end Node

end PascalTree
