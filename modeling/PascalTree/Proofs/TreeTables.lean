import PascalTree.Proofs.TableRuns

/-!
# TreeTables — the table of a tree annotates the right nodes

The table of a tree is filled while its nodes are numbered, and later it is asked about numbers.
Both count the nodes along the walk over the tree, so what is found under a number was said about
the node with that number.

* `SideTable.askAbout`: one insertion, of what is said about a node, under its number;
* `SideTable.ofTreeM_eq_insertions`: the table of a tree is made of such insertions, node by node;
* `SideTable.onKinds`: what is said about the nodes of some kinds only;
* `SideTable.ofTree_annotates`: look-ups, entries and size of the table of a tree, and its division
  by expression-like and statement-like nodes.
-/

namespace PascalTree

theorem Node.map_snd_numbered (n : Node) : n.numbered.map Prod.snd = n.preorder := by
  rw [Node.numbered, List.map_map]
  exact List.zipIdx_map_fst 0 n.preorder

namespace SideTable

variable {α σ : Type}

/-! ## Insertions in the order of numbers -/

/-- The table with an annotation under a number, if there is one to enter. -/
def note (t : SideTable α) (id : Nat) : Option α → SideTable α
  | some value => (t.exchange id value).2
  | none => t

/-- Asks about a node and enters the answer under the number of the node. -/
def askAbout (annotate : Node → StateM σ (Option α)) (t : SideTable α) (e : Nat × Node) :
    StateM σ (SideTable α) :=
  return t.note e.1 (← annotate e.2)

theorem cut_of_forall_lt {id : Nat} {es : List (Nat × α)} (h : ∀ e ∈ es, e.1 < id) :
    cut id es = { below := es, found := none, above := [] } := by
  induction es with
  | nil => rfl
  | cons e es ih =>
    have he := h e List.mem_cons_self
    have hes := ih fun d hd => h d (List.mem_cons_of_mem e hd)
    rw [cut, if_neg (Nat.not_lt_of_lt he), if_neg he.ne', hes]

/-- A number above all others gets its annotation behind theirs. -/
theorem entries_note {t : SideTable α} {id : Nat} (h : ∀ e ∈ t.entries, e.1 < id)
    (answer : Option α) :
    (t.note id answer).entries = t.entries ++ answer.toList.map (id, ·) := by
  cases answer with
  | none => simp [note]
  | some value => simp [note, exchange, assign, cut_of_forall_lt h, Cut.fill]

/-- What a table says about numbers below `k` stays below the next number when `k` is entered. -/
theorem lt_of_mem_entries_note {t : SideTable α} {k : Nat} (h : ∀ e ∈ t.entries, e.1 < k)
    (answer : Option α) : ∀ e ∈ (t.note k answer).entries, e.1 < k + 1 := by
  intro e he
  rw [entries_note h] at he
  rcases List.mem_append.1 he with he | he
  · exact Nat.lt_succ_of_lt (h e he)
  · obtain ⟨_, _, rfl⟩ := List.mem_map.1 he
    exact Nat.lt_succ_self k

/-- The entries that answers about the numbers from `k` on make. -/
def answered (k : Nat) (answers : List (Option α)) : List (Nat × α) :=
  (answers.zipIdx k).filterMap fun p => p.1.map (p.2, ·)

theorem answered_cons (k : Nat) (answer : Option α) (answers : List (Option α)) :
    answered k (answer :: answers) = answer.toList.map (k, ·) ++ answered (k + 1) answers := by
  cases answer <;> simp [answered]

/-- Insertions from the number `k` on put the answers behind what is said about smaller numbers,
and ask the same questions in the same states as if nothing were entered in between. -/
theorem run_foldlM_askAbout (annotate : Node → StateM σ (Option α)) (ns : List Node) (k : Nat)
    (t : SideTable α) (state : σ) (h : ∀ e ∈ t.entries, e.1 < k) :
    ((((ns.zipIdx k).map Prod.swap).foldlM (askAbout annotate) t).run state).1.entries =
        t.entries ++ answered k ((ns.mapM annotate).run state).1 ∧
      ((((ns.zipIdx k).map Prod.swap).foldlM (askAbout annotate) t).run state).2 =
        ((ns.mapM annotate).run state).2 := by
  induction ns generalizing k t state with
  | nil => exact ⟨(List.append_nil _).symm, rfl⟩
  | cons n ns ih =>
    -- The invariant goes on with `k + 1`: what was just entered stands under `k`.
    obtain ⟨hentries, hstate⟩ := ih (k + 1) (t.note k ((annotate n).run state).1)
      ((annotate n).run state).2 (lt_of_mem_entries_note h _)
    rw [entries_note h, List.append_assoc, ← answered_cons] at hentries
    rw [List.mapM_cons]
    exact ⟨hentries, hstate⟩

theorem eq_of_entries_eq {s t : SideTable α} (h : s.entries = t.entries) : s = t := by
  obtain ⟨es, _⟩ := s
  obtain ⟨ds, _⟩ := t
  cases h
  rfl

/-- The table of a tree comes about by insertions into an empty table, one for each node in the
order of the walk, under the number of the node. -/
theorem ofTreeM_eq_insertions (root : Node) (annotate : Node → StateM σ (Option α)) :
    ofTreeM root annotate = root.numbered.foldlM (askAbout annotate) empty := by
  funext state
  obtain ⟨hentries, hstate⟩ :=
    run_foldlM_askAbout annotate root.preorder 0 empty state (by simp [empty])
  exact Prod.ext (eq_of_entries_eq hentries.symm) hstate.symm

/-! ## Annotations that depend on the node alone -/

theorem run_mapM_stateless (f : Node → Option α) (ns : List Node) :
    ((ns.mapM fun n (asked : Unit) => (f n, asked) : StateM Unit _).run ()).1 = ns.map f := by
  induction ns with
  | nil => rfl
  | cons n ns ih =>
    rw [List.mapM_cons]
    exact congrArg (f n :: ·) ih

theorem get?_ofTree (root : Node) (f : Node → Option α) (id : Nat) :
    (ofTree root f).get? id = (root.nodeAt? id).bind f :=
  get?_ofTreeM root (fun n (asked : Unit) => (f n, asked)) () id

theorem toList_ofTree (root : Node) (f : Node → Option α) :
    (ofTree root f).toList = root.numbered.filterMap fun e => (f e.2).map (e.1, ·) := by
  have hanswers : (ofTree root f).toList = answered 0 (root.preorder.map f) :=
    congrArg (answered 0) (run_mapM_stateless f root.preorder)
  rw [hanswers, answered, List.zipIdx_map, List.filterMap_map, Node.numbered, List.filterMap_map]
  rfl

theorem size_ofTree (root : Node) (f : Node → Option α) :
    (ofTree root f).size = root.preorder.countP fun n => (f n).isSome := by
  have hsize : (ofTree root f).size = (ofTree root f).toList.length := rfl
  rw [hsize, toList_ofTree, List.length_filterMap_eq_countP, ← Node.map_snd_numbered,
    List.countP_map]
  simp [Function.comp_def]

/-! ## Division by kinds -/

/-- What is said about a node, but only if its kind is one of those meant. -/
def onKinds (meant : Kind → Bool) (f : Node → Option α) (n : Node) : Option α :=
  if meant n.kind then f n else none

/-- The annotated numbers. -/
def ids (t : SideTable α) : Set Nat := {id | t.contains id = true}

section Division

variable {root : Node} {f : Node → Option α} {meant : Kind → Bool} {id : Nat}

theorem mem_ids_ofTree :
    id ∈ (ofTree root f).ids ↔ ∃ n, root.nodeAt? id = some n ∧ (f n).isSome = true := by
  have hcontains : (ofTree root f).contains id = ((root.nodeAt? id).bind f).isSome :=
    congrArg Option.isSome (get?_ofTree root f id)
  rw [ids, Set.mem_ofPred_eq, hcontains]
  cases root.nodeAt? id <;> simp

theorem mem_ids_onKinds :
    id ∈ (ofTree root (onKinds meant f)).ids ↔
      ∃ n, root.nodeAt? id = some n ∧ meant n.kind = true ∧ (f n).isSome = true := by
  have hsome : ∀ n, (onKinds meant f n).isSome = (meant n.kind && (f n).isSome) := by
    intro n
    rw [onKinds]
    cases meant n.kind <;> rfl
  simp only [mem_ids_ofTree, hsome, Bool.and_eq_true]

/-- A number belongs to one node, and its kind is meant or not. -/
theorem inter_ids_onKinds (root : Node) (f : Node → Option α) (meant : Kind → Bool) :
    (ofTree root (onKinds meant f)).ids ∩ (ofTree root (onKinds (fun k => !meant k) f)).ids =
      ∅ := by
  refine Set.eq_empty_iff_forall_notMem.2 fun id hid => ?_
  obtain ⟨hmeant, hothers⟩ := hid
  obtain ⟨n, hn, hkind, _⟩ := mem_ids_onKinds.1 hmeant
  obtain ⟨n', hn', hkind', _⟩ := mem_ids_onKinds.1 hothers
  obtain rfl : n = n' := Option.some.inj (hn.symm.trans hn')
  simp [hkind] at hkind'

theorem union_ids_onKinds (root : Node) (f : Node → Option α) (meant : Kind → Bool) :
    (ofTree root (onKinds meant f)).ids ∪ (ofTree root (onKinds (fun k => !meant k) f)).ids =
      (ofTree root f).ids := by
  ext id
  rw [Set.mem_union, mem_ids_onKinds, mem_ids_onKinds, mem_ids_ofTree]
  constructor
  · rintro (⟨n, hn, _, hsome⟩ | ⟨n, hn, _, hsome⟩)
    · exact ⟨n, hn, hsome⟩
    · exact ⟨n, hn, hsome⟩
  · rintro ⟨n, hn, hsome⟩
    cases hkind : meant n.kind with
    | true => exact Or.inl ⟨n, hn, hkind, hsome⟩
    | false => exact Or.inr ⟨n, hn, by simp [hkind], hsome⟩

end Division

/-- The table of a tree comes about by one insertion for each node of the walk. Under each number
it has what is said about the node with that number; its entries are those of the nodes about which
something is said, in pre-order, and no others. If only expression-like nodes are asked about, and
then only the others, then the two tables share the numbers of the whole table between them. -/
theorem ofTree_annotates (root : Node) (f : Node → Option α) :
    (∀ (σ : Type) (annotate : Node → StateM σ (Option α)),
        ofTreeM root annotate = root.numbered.foldlM (askAbout annotate) empty) ∧
      (∀ id, (ofTree root f).get? id = (root.nodeAt? id).bind f) ∧
      (ofTree root f).toList = root.numbered.filterMap (fun e => (f e.2).map (e.1, ·)) ∧
      (ofTree root f).size = root.preorder.countP (fun n => (f n).isSome) ∧
      (ofTree root (onKinds Kind.isExpression f)).ids ∩
          (ofTree root (onKinds Kind.isStatement f)).ids =
        ∅ ∧
      (ofTree root (onKinds Kind.isExpression f)).ids ∪
          (ofTree root (onKinds Kind.isStatement f)).ids =
        (ofTree root f).ids :=
  ⟨fun _ annotate => ofTreeM_eq_insertions root annotate, get?_ofTree root f,
    toList_ofTree root f, size_ofTree root f, inter_ids_onKinds root f Kind.isExpression,
    union_ids_onKinds root f Kind.isExpression⟩

end SideTable

end PascalTree
