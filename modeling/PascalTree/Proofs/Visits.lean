import PascalTree.Proofs.Preorder

/-!
# Visits — actions that may fail, run on all nodes of a tree

`Node.tryVisit` keeps the nodes it still owes on a stack and leaves the loop at the first error.
The recursion that it stands for runs the action on a node and then visits the trees of the
children; there an error ends the visit of the tree it is met in, and with it the visits of all
trees around. Whether an action fails may depend on everything that was visited before.

* `Visit.inTurn`: steps one after the other, up to the first error;
* `Node.visitTree`: the visit of a tree by recursion;
* `Walk.tryEach_eq`: what a walk under way still does, read off its pending nodes;
* `Visit.Passes`, `Visit.FailsFirstAt`: the two ways in which an action can go over some nodes;
* `Visit.recorded`: an action that also keeps a record of its calls;
* `Node.tryVisit_is_recursive_visit`: the loop is the recursion, call by call.
-/

namespace PascalTree

variable {σ ε : Type}

namespace Visit

/-! ## Steps up to the first error -/

/-- Steps one after the other, each from the state that the last one left. The first error ends the
run. -/
def inTurn : List (σ → Except ε Unit × σ) → σ → Except ε Unit × σ
  | [], state => (.ok (), state)
  | step :: steps, state =>
    match step state with
    | (.ok (), state') => inTurn steps state'
    | (.error e, state') => (.error e, state')

/-- Steps that consist of steps themselves run as if all of them stood in one row: an error inside
leaves both runs at once. -/
theorem inTurn_cons_inTurn (steps rest : List (σ → Except ε Unit × σ)) :
    inTurn (inTurn steps :: rest) = inTurn (steps ++ rest) := by
  funext state
  induction steps generalizing state with
  | nil => rfl
  | cons step steps ih =>
    simp only [List.cons_append, inTurn] at ih ⊢
    rcases step state with ⟨_ | _, state'⟩
    -- An error is handed out of the inner run, and the outer run hands it on.
    · rfl
    · exact ih state'

theorem inTurn_map_inTurn {α : Type} (row : α → List (σ → Except ε Unit × σ)) (xs : List α) :
    inTurn (xs.map fun x => inTurn (row x)) = inTurn (xs.flatMap row) := by
  induction xs with
  | nil => rfl
  | cons x xs ih =>
    funext state
    rw [List.map_cons, List.flatMap_cons, ← inTurn_cons_inTurn]
    simp only [inTurn, ih]

end Visit

namespace Node

open Visit (inTurn)

/-! ## The recursive visit -/

/-- The action on a node, and then the visits of the trees of its children from left to right; the
first error ends all of it. -/
def visitTree (action : Node → σ → Except ε Unit × σ) (n : Node) : σ → Except ε Unit × σ :=
  inTurn (action n :: n.children.attach.map fun ⟨c, _⟩ => c.visitTree action)
termination_by n.size
decreasing_by
  exact size_lt_of_mem_children (by assumption)

theorem visitTree_eq (action : Node → σ → Except ε Unit × σ) (n : Node) :
    n.visitTree action = inTurn (action n :: n.children.map (visitTree action)) := by
  rw [visitTree]
  simp

/-- The recursion calls the action on the nodes of the tree in their recursive order. -/
theorem visitTree_eq_inTurn_nodes (action : Node → σ → Except ε Unit × σ) (n : Node) :
    n.visitTree action = inTurn (n.nodes.map action) := by
  induction n using children_induction with
  | step n ih =>
    -- Each child is a row of calls by itself; together they make one row behind the call on `n`.
    have hbelow : inTurn (n.children.map (visitTree action)) =
        inTurn ((n.children.flatMap nodes).map action) := by
      rw [List.map_congr_left ih, Visit.inTurn_map_inTurn, List.map_flatMap]
    funext state
    rw [visitTree_eq, nodes_eq, List.map_cons]
    simp only [inTurn, hbelow]

end Node

namespace Walk

open Visit (inTurn)

/-! ## The loop over the pending nodes -/

theorem tryEach_nil (action : Node → σ → Except ε Unit × σ) (state : σ) :
    tryEach action ⟨[]⟩ state = (.ok (), state) := by
  rw [tryEach]
  rfl

/-- One step of the loop is the action on the next node; the loop goes on with what is pending
after it. -/
theorem tryEach_cons {action : Node → σ → Except ε Unit × σ} {n : Node} {rest : List Node}
    {steps : List (σ → Except ε Unit × σ)}
    (h : tryEach action ⟨n.children ++ rest⟩ = inTurn steps) :
    tryEach action ⟨n :: rest⟩ = inTurn (action n :: steps) := by
  funext state
  rw [tryEach]
  cases hn : action n state with
  | mk outcome state' =>
    cases outcome with
    | ok _ => simp [next?, inTurn, hn, h]
    | error e => simp [next?, inTurn, hn]

/-- A walk under way still visits the trees of its pending nodes, one after the other. -/
theorem tryEach_eq (action : Node → σ → Except ε Unit × σ) (w : Walk) :
    w.tryEach action = inTurn (w.pending.map (Node.visitTree action)) := by
  obtain ⟨pending⟩ := w
  cases pending with
  | nil => exact funext (tryEach_nil action)
  | cons n rest =>
    -- One step of the loop takes the tree of `n` apart: its root and the trees of its children.
    have hrest : tryEach action ⟨n.children ++ rest⟩ =
        inTurn ((n.children ++ rest).map (Node.visitTree action)) :=
      tryEach_eq action ⟨n.children ++ rest⟩
    calc
      tryEach action ⟨n :: rest⟩
          = inTurn (action n :: (n.children ++ rest).map (Node.visitTree action)) :=
            tryEach_cons hrest
      _ = inTurn ((action n :: n.children.map (Node.visitTree action)) ++
            rest.map (Node.visitTree action)) := by
            rw [List.map_append, List.cons_append]
      _ = inTurn (n.visitTree action :: rest.map (Node.visitTree action)) := by
            rw [Node.visitTree_eq, Visit.inTurn_cons_inTurn]
termination_by w.remaining
decreasing_by
  have h : next? ⟨n :: rest⟩ = some (n, ⟨n.children ++ rest⟩) := rfl
  rw [remaining_next h]
  exact Nat.lt_add_of_pos_left Nat.one_pos

end Walk

namespace Visit

/-! ## Which nodes are reached -/

/-- The action succeeds on each of the nodes in turn, and leads from one state to another. -/
inductive Passes (action : Node → σ → Except ε Unit × σ) : List Node → σ → σ → Prop where
  | nil (state : σ) : Passes action [] state state
  | cons {m : Node} {ms : List Node} {state middle final : σ}
      (head : action m state = (.ok (), middle)) (tail : Passes action ms middle final) :
      Passes action (m :: ms) state final

/-- The action succeeds on the first `k` nodes in turn and then fails on the node behind them. -/
def FailsFirstAt (action : Node → σ → Except ε Unit × σ) (ns : List Node) (state : σ) (k : Nat)
    (e : ε) (final : σ) : Prop :=
  ∃ m middle, ns[k]? = some m ∧ Passes action (ns.take k) state middle ∧
    action m middle = (.error e, final)

/-- The action, with a record of the nodes on which it was called. -/
def recorded (action : Node → σ → Except ε Unit × σ) (m : Node) :
    σ × List Node → Except ε Unit × (σ × List Node)
  | (state, calls) => ((action m state).1, (action m state).2, calls ++ [m])

section Nodes

variable {action : Node → σ → Except ε Unit × σ} {ns : List Node} {state final : σ}

theorem FailsFirstAt.head {m : Node} {ms : List Node} {e : ε}
    (h : action m state = (.error e, final)) : FailsFirstAt action (m :: ms) state 0 e final :=
  ⟨m, state, rfl, .nil state, h⟩

theorem FailsFirstAt.tail {m : Node} {ms : List Node} {middle : σ} {k : Nat} {e : ε}
    (hm : action m state = (.ok (), middle)) (h : FailsFirstAt action ms middle k e final) :
    FailsFirstAt action (m :: ms) state (k + 1) e final := by
  obtain ⟨m', middle', hget, hpasses, hfails⟩ := h
  exact ⟨m', middle', hget, .cons hm hpasses, hfails⟩

/-- There is no third way to go over some nodes. -/
theorem passes_or_fails (action : Node → σ → Except ε Unit × σ) (ns : List Node) (state : σ) :
    (∃ final, Passes action ns state final) ∨
      ∃ k e final, FailsFirstAt action ns state k e final := by
  induction ns generalizing state with
  | nil => exact Or.inl ⟨state, .nil state⟩
  | cons m ms ih =>
    rcases hm : action m state with ⟨e | _, middle⟩
    · exact Or.inr ⟨0, e, middle, .head hm⟩
    -- What the action does on the others depends on the state that it left on `m`.
    · rcases ih middle with ⟨final, hpasses⟩ | ⟨k, e, final, hfails⟩
      · exact Or.inl ⟨final, .cons hm hpasses⟩
      · exact Or.inr ⟨k + 1, e, final, .tail hm hfails⟩

theorem Passes.inTurn_append {ms : List Node} (h : Passes action ms state final)
    (rest : List (σ → Except ε Unit × σ)) :
    inTurn (ms.map action ++ rest) state = inTurn rest final := by
  induction h with
  | nil => rfl
  | cons head _ ih => simp only [List.map_cons, List.cons_append, inTurn, head, ih]

theorem Passes.inTurn_eq (h : Passes action ns state final) :
    inTurn (ns.map action) state = (.ok (), final) := by
  simpa [inTurn] using h.inTurn_append []

/-- What stands behind the failing node is not reached. -/
theorem FailsFirstAt.inTurn_eq {k : Nat} {e : ε} (h : FailsFirstAt action ns state k e final) :
    inTurn (ns.map action) state = (.error e, final) := by
  obtain ⟨m, middle, hget, hpasses, hfails⟩ := h
  have hsplit : ns = ns.take k ++ m :: ns.drop (k + 1) := by
    obtain ⟨hk, rfl⟩ := List.getElem?_eq_some_iff.1 hget
    rw [← List.drop_eq_getElem_cons hk, List.take_append_drop]
  rw [hsplit, List.map_append, hpasses.inTurn_append]
  simp only [List.map_cons, inTurn, hfails]

/-! ## The record of the calls -/

theorem recorded_eq {m : Node} {outcome : Except ε Unit} (h : action m state = (outcome, final))
    (calls : List Node) :
    recorded action m (state, calls) = (outcome, final, calls ++ [m]) := by
  simp only [recorded, h]

theorem Passes.recorded (h : Passes action ns state final) (calls : List Node) :
    Passes (recorded action) ns (state, calls) (final, calls ++ ns) := by
  induction h generalizing calls with
  | nil state => simpa using Passes.nil (state, calls)
  | @cons m ms state middle final head tail ih =>
    have htail := ih (calls ++ [m])
    rw [List.append_assoc, List.singleton_append] at htail
    exact .cons (recorded_eq head calls) htail

theorem FailsFirstAt.recorded {k : Nat} {e : ε} (h : FailsFirstAt action ns state k e final)
    (calls : List Node) :
    FailsFirstAt (recorded action) ns (state, calls) k e (final, calls ++ ns.take (k + 1)) := by
  obtain ⟨m, middle, hget, hpasses, hfails⟩ := h
  -- The failing call is recorded too.
  have hcalls : calls ++ ns.take (k + 1) = calls ++ ns.take k ++ [m] := by
    rw [List.take_add_one, hget, List.append_assoc]
    rfl
  rw [hcalls]
  exact ⟨m, (middle, calls ++ ns.take k), hget, hpasses.recorded calls, recorded_eq hfails _⟩

end Nodes

/-- An action that cannot fail changes the state once for each node. -/
theorem inTurn_map_ok (change : Node → σ → σ) (ns : List Node) (state : σ) :
    inTurn (ns.map fun m s => ((.ok () : Except ε Unit), change m s)) state =
      (.ok (), ns.foldl (fun s m => change m s) state) := by
  induction ns generalizing state with
  | nil => rfl
  | cons m ms ih => simp only [List.map_cons, inTurn, ih, List.foldl_cons]

end Visit

namespace Node

/-! ## Visits of a tree -/

theorem tryVisit_eq_visitTree (action : Node → σ → Except ε Unit × σ) (n : Node) :
    n.tryVisit action = n.visitTree action := by
  funext state
  rw [tryVisit, Walk.tryEach_eq, walk, List.map_singleton, visitTree_eq, Visit.inTurn_cons_inTurn,
    List.append_nil]

theorem tryVisit_eq_inTurn (action : Node → σ → Except ε Unit × σ) (n : Node) :
    n.tryVisit action = Visit.inTurn (n.nodes.map action) := by
  rw [tryVisit_eq_visitTree, visitTree_eq_inTurn_nodes]

theorem visit_eq_foldl (change : Node → σ → σ) (n : Node) (state : σ) :
    n.visit change state = n.nodes.foldl (fun s m => change m s) state := by
  rw [visit, tryVisit_eq_inTurn, Visit.inTurn_map_ok]

theorem length_nodes (n : Node) : n.nodes.length = n.count := by
  rw [← preorder_eq_nodes, count]

/-- The loop over a tree gives the state and the outcome of the recursive visit. It calls the
action either on all nodes, if it passes them, or on the nodes up to the first on which it fails,
and then the error is the one met there. An action that cannot fail is called on all nodes. -/
theorem tryVisit_is_recursive_visit (action : Node → σ → Except ε Unit × σ) (n : Node)
    (state : σ) :
    n.tryVisit action state = n.visitTree action state ∧
      ((∃ final, Visit.Passes action n.nodes state final ∧
          n.tryVisit action state = (.ok (), final) ∧
          n.tryVisit (Visit.recorded action) (state, []) = (.ok (), final, n.nodes)) ∨
        ∃ k e final, Visit.FailsFirstAt action n.nodes state k e final ∧
          n.tryVisit action state = (.error e, final) ∧
          n.tryVisit (Visit.recorded action) (state, []) =
            (.error e, final, n.nodes.take (k + 1))) ∧
      n.nodes.length = n.count ∧
      ∀ change : Node → σ → σ,
        n.visit change state = n.nodes.foldl (fun s m => change m s) state := by
  refine ⟨congrFun (tryVisit_eq_visitTree action n) state, ?_, length_nodes n,
    fun change => visit_eq_foldl change n state⟩
  simp only [tryVisit_eq_inTurn]
  rcases Visit.passes_or_fails action n.nodes state with
    ⟨final, hpasses⟩ | ⟨k, e, final, hfails⟩
  · exact Or.inl ⟨final, hpasses, hpasses.inTurn_eq, (hpasses.recorded []).inTurn_eq⟩
  · exact Or.inr ⟨k, e, final, hfails, hfails.inTurn_eq, (hfails.recorded []).inTurn_eq⟩

end Node

end PascalTree
