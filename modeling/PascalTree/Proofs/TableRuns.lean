import Mathlib.Data.Set.Card
import Mathlib.Logic.Function.Basic
import PascalTree.SideTable

/-!
# TableRuns — a side table is a finite map, over whole runs of operations

A table keeps its entries in strictly ascending order, so an entry is found under its number and
nowhere else, and two tables with the same look-ups have the same entries, whatever happened to
them before.

* `SideTable.get?_eq_some`: a look-up finds exactly the entries of the table;
* `SideTable.get?_ofTreeM`: what a table made for a tree says about its nodes;
* `SideTable.get?_assign`: what a change under one number does to all look-ups;
* `TableOperation.Right`: the answers of a partial function from numbers to annotations;
* `TableOperation.Agree`: runs whose answers are all right;
* `SideTable.runs_as_partial_function`: every run from an empty table or from the table of a tree.
-/

namespace PascalTree

namespace SideTable

variable {α : Type}

/-! ## Look-ups among ascending entries -/

section Entries

variable {es : List (Nat × α)}

theorem lookup_cons (e : Nat × α) (es : List (Nat × α)) (id : Nat) :
    (e :: es).lookup id = if id = e.1 then some e.2 else es.lookup id := by
  obtain ⟨key, value⟩ := e
  by_cases hid : id = key
  · simp [hid]
  · have hne : (id == key) = false := beq_eq_false_iff_ne.2 hid
    simp [List.lookup_cons, hid, hne]

theorem lookup_eq_none_of_ne {id : Nat} (h : ∀ e ∈ es, e.1 ≠ id) : es.lookup id = none := by
  rw [List.lookup_eq_none_iff]
  intro e he
  exact bne_iff_ne.2 (h e he).symm

/-- An entry is found under its number, because that number does not occur before it. -/
theorem lookup_eq_some (h : es.Pairwise fun a b => a.1 < b.1) {id : Nat} {value : α} :
    es.lookup id = some value ↔ (id, value) ∈ es := by
  induction es with
  | nil => simp
  | cons e es ih =>
    obtain ⟨he, hes⟩ := List.pairwise_cons.1 h
    obtain ⟨key, v⟩ := e
    rw [lookup_cons, List.mem_cons, ← ih hes]
    by_cases hid : id = key
    · subst hid
      have hnone : es.lookup id = none := lookup_eq_none_of_ne fun d hd => (he d hd).ne'
      simp [hnone, eq_comm]
    · simp [hid]

/-- After a cut, the place at the number decides what is found under it and nothing else. -/
theorem lookup_fill (h : es.Pairwise fun a b => a.1 < b.1) (id : Nat) (value? : Option α)
    (id' : Nat) :
    ((cut id es).fill id value?).lookup id' =
      if id' = id then value?
      else ((cut id es).below.lookup id').or ((cut id es).above.lookup id') := by
  simp only [Cut.fill, List.lookup_append]
  by_cases hid : id' = id
  · subst hid
    have hbelow : (cut id' es).below.lookup id' = none :=
      lookup_eq_none_of_ne fun e he => (lt_of_mem_below he).ne
    have habove : (cut id' es).above.lookup id' = none :=
      lookup_eq_none_of_ne fun e he => (lt_of_mem_above h he).ne'
    cases value? <;> simp [hbelow, habove]
  · cases value? <;> simp [hid, lookup_cons]

end Entries

/-! ## What operations do to look-ups -/

theorem get?_eq_some {t : SideTable α} {id : Nat} {value : α} :
    t.get? id = some value ↔ (id, value) ∈ t.entries :=
  lookup_eq_some t.ascending

theorem get?_empty : (empty : SideTable α).get? = fun _ => none := rfl

theorem get?_ofAnswers (answers : List (Option α)) (id : Nat) :
    (ofAnswers answers).get? id = answers[id]?.join := by
  refine Option.ext fun value => ?_
  simp only [get?_eq_some, ofAnswers, List.mem_filterMap, List.mem_zipIdx_iff_getElem?,
    Option.map_eq_some_iff, Option.join_eq_some_iff, Prod.mk.injEq, Prod.exists]
  constructor
  · rintro ⟨answer, id', hanswer, value', rfl, rfl, rfl⟩
    exact hanswer
  · intro hanswer
    exact ⟨some value, id, hanswer, value, rfl, rfl, rfl⟩

/-- The state in which the question about a number is asked: the questions about the nodes before
it are asked first, each in the state that the last one leaves. -/
def stateBefore {σ β : Type} (ask : Node → StateM σ β) (ns : List Node) (state : σ) (id : Nat) :
    σ :=
  (ns.take id).foldl (fun s n => ((ask n).run s).2) state

theorem getElem?_mapM {σ β : Type} (ask : Node → StateM σ β) (ns : List Node) (state : σ)
    (id : Nat) :
    ((ns.mapM ask).run state).1[id]? =
      ns[id]?.map fun n => ((ask n).run (stateBefore ask ns state id)).1 := by
  induction ns generalizing state id with
  | nil => rfl
  | cons n ns ih =>
    -- The first question changes the state for all that come behind it.
    rw [List.mapM_cons]
    cases id with
    | zero => rfl
    | succ id => exact ih ((ask n).run state).2 id

/-- The table of a tree has under each number the answer about the node with that number. -/
theorem get?_ofTreeM {σ : Type} (root : Node) (annotate : Node → StateM σ (Option α)) (state : σ)
    (id : Nat) :
    ((ofTreeM root annotate).run state).1.get? id =
      (root.nodeAt? id).bind fun n =>
        ((annotate n).run (stateBefore annotate root.preorder state id)).1 := by
  have htable : ((ofTreeM root annotate).run state).1 =
      ofAnswers ((root.preorder.mapM annotate).run state).1 := rfl
  rw [htable, get?_ofAnswers, getElem?_mapM, Node.nodeAt?]
  cases root.preorder[id]? <;> rfl

/-- A change under one number leaves all other look-ups as they are. -/
theorem get?_assign (t : SideTable α) (id : Nat) (value? : Option α) :
    (t.assign id value?).get? = Function.update t.get? id value? := by
  funext id'
  -- The old entries are filled with what was found, so both tables are fills of one cut.
  have hnew := lookup_fill t.ascending id value? id'
  have hold := lookup_fill t.ascending id (cut id t.entries).found id'
  rw [fill_cut] at hold
  by_cases hid : id' = id
  · subst hid
    simpa [get?, assign] using hnew
  · rw [if_neg hid] at hnew hold
    simp only [get?, assign, Function.update_of_ne hid, hnew, hold]

theorem found_cut (t : SideTable α) (id : Nat) : (cut id t.entries).found = t.get? id := by
  have hfound := lookup_fill t.ascending id (cut id t.entries).found id
  rw [fill_cut, if_pos rfl] at hfound
  exact hfound.symm

/-- The number of entries is the number of annotated numbers. -/
theorem encard_annotated (t : SideTable α) : {id | t.get? id ≠ none}.encard = t.size := by
  have hnodup : (t.entries.map Prod.fst).Nodup :=
    List.pairwise_map.2 (t.ascending.imp fun h => h.ne)
  have hset : {id | t.get? id ≠ none} = ((t.entries.map Prod.fst).toFinset : Set Nat) := by
    ext id
    simp [Option.ne_none_iff_exists', get?_eq_some]
  rw [hset, Set.encard_coe_eq_coe_finsetCard, List.toFinset_card_of_nodup hnodup, List.length_map,
    size]

theorem isEmpty_iff {t : SideTable α} : t.isEmpty = true ↔ ∀ id, t.get? id = none := by
  rw [isEmpty, List.isEmpty_iff]
  constructor
  · intro h id
    simp [get?, h]
  · intro h
    refine List.eq_nil_iff_forall_not_mem.2 fun e he => ?_
    have hget := get?_eq_some.2 he
    rw [h] at hget
    cases hget

/-! ## Equality -/

theorem lookup_eq_none_of_lt {e : Nat × α} {es : List (Nat × α)}
    (h : (e :: es).Pairwise fun a b => a.1 < b.1) {id : Nat} (hid : id < e.1) :
    (e :: es).lookup id = none := by
  refine lookup_eq_none_of_ne fun d hd => ?_
  rcases List.mem_cons.1 hd with rfl | hd
  · exact hid.ne'
  · exact (hid.trans ((List.pairwise_cons.1 h).1 d hd)).ne'

/-- Entries in ascending order are compared by all look-ups at once. -/
theorem entries_beq_iff [BEq α] {es ds : List (Nat × α)} (hes : es.Pairwise fun a b => a.1 < b.1)
    (hds : ds.Pairwise fun a b => a.1 < b.1) :
    (es == ds) = true ↔ ∀ id, (es.lookup id == ds.lookup id) = true := by
  induction es generalizing ds with
  | nil =>
    cases ds with
    | nil => simp
    | cons d ds =>
      refine iff_of_false (by simp) fun h => ?_
      simpa [lookup_cons] using h d.1
  | cons e es ih =>
    cases ds with
    | nil =>
      refine iff_of_false (by simp) fun h => ?_
      simpa [lookup_cons] using h e.1
    | cons d ds =>
      have htail := ih (List.pairwise_cons.1 hes).2 (List.pairwise_cons.1 hds).2
      have hfirst : (e == d) = (e.1 == d.1 && e.2 == d.2) := rfl
      rw [List.cons_beq_cons, Bool.and_eq_true, htail, hfirst, Bool.and_eq_true, beq_iff_eq]
      constructor
      · rintro ⟨⟨hkey, hvalue⟩, hrest⟩ id
        rw [lookup_cons, lookup_cons, hkey]
        split
        · exact hvalue
        · exact hrest id
      · intro h
        -- The smaller one of two different first numbers is found on one side only.
        have hkey : e.1 = d.1 := by
          rcases lt_trichotomy e.1 d.1 with hlt | heq | hlt
          · have hnone := lookup_eq_none_of_lt hds hlt
            simpa [lookup_cons e, hnone] using h e.1
          · exact heq
          · have hnone := lookup_eq_none_of_lt hes hlt
            simpa [lookup_cons d, hnone] using h d.1
        refine ⟨⟨hkey, ?_⟩, fun id => ?_⟩
        · simpa [lookup_cons, hkey] using h e.1
        · by_cases hid : id = e.1
          · -- Behind the first entries their number does not occur again.
            have hes : es.lookup id = none :=
              lookup_eq_none_of_ne fun b hb => hid ▸ ((List.pairwise_cons.1 hes).1 b hb).ne'
            have hds : ds.lookup id = none :=
              lookup_eq_none_of_ne fun b hb => hid ▸ hkey ▸ ((List.pairwise_cons.1 hds).1 b hb).ne'
            simp [hes, hds]
          · simpa [lookup_cons, hid, hkey ▸ hid] using h id

theorem beq_iff [BEq α] {s t : SideTable α} :
    (s == t) = true ↔ ∀ id, (s.get? id == t.get? id) = true :=
  entries_beq_iff s.ascending t.ascending

end SideTable

/-! ## Runs of operations -/

/-- What can be done with a table. -/
inductive TableOperation (α : Type) where
  | insert (id : Nat) (value : α)
  | remove (id : Nat)
  /-- A change of the annotation in its place. -/
  | change (id : Nat) (f : α → α)
  | get (id : Nat)
  | contains (id : Nat)
  | size
  | isEmpty
  | entries

/-- What an operation answers. -/
inductive TableAnswer (α : Type) where
  | value (value? : Option α)
  | flag (b : Bool)
  | number (n : Nat)
  | entries (es : List (Nat × α))

namespace TableOperation

variable {α : Type}

/-- One operation on a table: its answer and the table after it. A change answers with the
annotation that it leaves. -/
def perform : TableOperation α → SideTable α → TableAnswer α × SideTable α
  | insert id value, t => (.value (t.exchange id value).1, (t.exchange id value).2)
  | remove id, t => (.value (t.take id).1, (t.take id).2)
  | change id f, t => (.value ((t.modify id f).get? id), t.modify id f)
  | get id, t => (.value (t.get? id), t)
  | contains id, t => (.flag (t.contains id), t)
  | size, t => (.number t.size, t)
  | isEmpty, t => (.flag t.isEmpty, t)
  | entries, t => (.entries t.toList, t)

/-- The answers to several operations in turn, and the table after them. -/
def run : List (TableOperation α) → SideTable α → List (TableAnswer α) × SideTable α
  | [], t => ([], t)
  | op :: ops, t =>
    let (answer, t) := op.perform t
    let (answers, t) := run ops t
    (answer :: answers, t)

/-- What an operation does to a partial function from numbers to annotations. -/
def effect : TableOperation α → (Nat → Option α) → Nat → Option α
  | insert id value, m => Function.update m id (some value)
  | remove id, m => Function.update m id none
  | change id f, m => Function.update m id ((m id).map f)
  | get _, m | contains _, m | size, m | isEmpty, m | entries, m => m

/-- The right answer to an operation, as a partial function gives it. -/
def Right : TableOperation α → (Nat → Option α) → TableAnswer α → Prop
  | insert id _, m, .value previous => previous = m id
  | remove id, m, .value previous => previous = m id
  | change id f, m, .value changed => changed = (m id).map f
  | get id, m, .value value? => value? = m id
  | contains id, m, .flag b => b = (m id).isSome
  | size, m, .number n => {id | m id ≠ none}.encard = n
  | isEmpty, m, .flag b => b = true ↔ ∀ id, m id = none
  | entries, m, .entries es =>
    (es.Pairwise fun a b => a.1 < b.1) ∧ ∀ id value, (id, value) ∈ es ↔ m id = some value
  | _, _, _ => False

/-- A run from one partial function to another, all of whose answers are right. -/
inductive Agree : (Nat → Option α) → List (TableOperation α) → List (TableAnswer α) →
    (Nat → Option α) → Prop where
  | nil (m : Nat → Option α) : Agree m [] [] m
  | cons {m m' : Nat → Option α} {op : TableOperation α} {ops : List (TableOperation α)}
      {answer : TableAnswer α} {answers : List (TableAnswer α)} (right : op.Right m answer)
      (rest : Agree (op.effect m) ops answers m') : Agree m (op :: ops) (answer :: answers) m'

theorem get?_perform (op : TableOperation α) (t : SideTable α) :
    (op.perform t).2.get? = op.effect t.get? := by
  cases op with
  | insert id value => exact t.get?_assign id (some value)
  | remove id => exact t.get?_assign id none
  | change id f =>
    rw [effect, ← t.found_cut]
    exact t.get?_assign id _
  | _ => rfl

theorem right_perform (op : TableOperation α) (t : SideTable α) :
    op.Right t.get? (op.perform t).1 := by
  cases op with
  | insert id value => exact t.found_cut id
  | remove id => exact t.found_cut id
  | change id f =>
    -- The answer is looked up after the change.
    have hget := congrFun (get?_perform (.change id f) t) id
    rwa [effect, Function.update_self] at hget
  | get id => rfl
  | contains id => rfl
  | size => exact t.encard_annotated
  | isEmpty => exact SideTable.isEmpty_iff
  | entries => exact ⟨t.ascending, fun id value => SideTable.get?_eq_some.symm⟩

/-- One right answer after the other makes a run whose answers are all right. -/
theorem agree_run (ops : List (TableOperation α)) (t : SideTable α) :
    Agree t.get? ops (run ops t).1 (run ops t).2.get? := by
  induction ops generalizing t with
  | nil => exact .nil _
  | cons op ops ih =>
    refine .cons (op.right_perform t) ?_
    rw [← op.get?_perform t]
    exact ih (op.perform t).2

end TableOperation

namespace SideTable

/-- How a table comes into being. -/
inductive Origin (σ α : Type) where
  | empty
  | ofTree (root : Node) (annotate : Node → StateM σ (Option α)) (state : σ)

namespace Origin

variable {σ α : Type}

def table : Origin σ α → SideTable α
  | empty => .empty
  | ofTree root annotate state => ((ofTreeM root annotate).run state).1

/-- What a new table says about a number: that of a tree says what was answered about the node with
that number. -/
def initial : Origin σ α → Nat → Option α
  | empty, _ => none
  | ofTree root annotate state, id =>
    (root.nodeAt? id).bind fun n =>
      ((annotate n).run (stateBefore annotate root.preorder state id)).1

theorem get?_table (o : Origin σ α) : o.table.get? = o.initial := by
  cases o with
  | empty => exact get?_empty
  | ofTree root annotate state => exact funext (get?_ofTreeM root annotate state)

end Origin

/-- A table answers every run of operations as the partial function does to which the same
operations are applied, and two tables are equal, whatever runs they come from, exactly if they
answer every look-up alike. -/
theorem runs_as_partial_function (σ σ' α : Type) [BEq α] :
    (∀ (o : Origin σ α) (ops : List (TableOperation α)),
      TableOperation.Agree o.initial ops (TableOperation.run ops o.table).1
        (TableOperation.run ops o.table).2.get?) ∧
      ∀ (o : Origin σ α) (o' : Origin σ' α) (ops ops' : List (TableOperation α)),
        ((TableOperation.run ops o.table).2 == (TableOperation.run ops' o'.table).2) = true ↔
          ∀ id, ((TableOperation.run ops o.table).2.get? id ==
            (TableOperation.run ops' o'.table).2.get? id) = true := by
  refine ⟨fun o ops => ?_, fun o o' ops ops' => beq_iff⟩
  rw [← o.get?_table]
  exact TableOperation.agree_run ops o.table

end SideTable

end PascalTree
