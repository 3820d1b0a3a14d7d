import PascalTree.Node.Walk

/-!
# SideTable — annotations kept outside the tree

What a later pass finds out about a node is kept in a table under the node's number in pre-order.
A table is the list of its entries in strictly ascending order of their numbers, so that two
tables are equal as soon as they answer every look-up alike.
-/

namespace PascalTree

/-- A finite map from node numbers to annotations. -/
structure SideTable (α : Type) where
  entries : List (Nat × α)
  ascending : entries.Pairwise fun a b => a.1 < b.1 := by simp

namespace SideTable

variable {α : Type}

/-! ## Sorted lists of entries -/

/-- Entries in ascending order, cut at a number: those below it, what stands under it, and those
above it. -/
structure Cut (α : Type) where
  below : List (Nat × α)
  found : Option α
  above : List (Nat × α)

/-- Cuts entries at a number, looking from the first entry up to the first that is not below it. -/
def cut (id : Nat) : List (Nat × α) → Cut α
  | [] => { below := [], found := none, above := [] }
  | e :: es =>
    if id < e.1 then { below := [], found := none, above := e :: es }
    else if id = e.1 then { below := [], found := some e.2, above := es }
    else { cut id es with below := e :: (cut id es).below }

/-- Entries that were cut at a number, with another annotation under it, or none. -/
def Cut.fill (c : Cut α) (id : Nat) (value? : Option α) : List (Nat × α) :=
  c.below ++ value?.toList.map (id, ·) ++ c.above

/-- What was found makes the entries whole again. -/
theorem fill_cut (id : Nat) (es : List (Nat × α)) :
    (cut id es).fill id (cut id es).found = es := by
  induction es with
  | nil => rfl
  | cons e es ih =>
    rw [cut]
    split
    · rfl
    · split
      · rename_i heq
        simp [Cut.fill, heq]
      · exact congrArg (e :: ·) ih

theorem lt_of_mem_below {id : Nat} {es : List (Nat × α)} {e : Nat × α}
    (h : e ∈ (cut id es).below) : e.1 < id := by
  induction es with
  | nil => cases h
  | cons d es ih =>
    rw [cut] at h
    split at h
    · cases h
    · split at h
      · cases h
      · rcases List.mem_cons.1 h with rfl | h
        · omega
        · exact ih h

theorem lt_of_mem_above {id : Nat} {es : List (Nat × α)} (hes : es.Pairwise fun a b => a.1 < b.1)
    {e : Nat × α} (h : e ∈ (cut id es).above) : id < e.1 := by
  induction es with
  | nil => cases h
  | cons d es ih =>
    obtain ⟨hd, hes⟩ := List.pairwise_cons.1 hes
    rw [cut] at h
    split at h
    · rename_i hlt
      rcases List.mem_cons.1 h with rfl | h
      · exact hlt
      · exact Nat.lt_trans hlt (hd e h)
    · split at h
      · rename_i heq
        exact heq ▸ hd e h
      · exact ih hes h

/-- Whatever is put under the number, the entries stay in order. -/
theorem fill_ascending (id : Nat) (value? : Option α) {es : List (Nat × α)}
    (h : es.Pairwise fun a b => a.1 < b.1) :
    ((cut id es).fill id value?).Pairwise fun a b => a.1 < b.1 := by
  -- The entries below and above are in order because they were so in the whole list.
  have hwhole : ((cut id es).fill id (cut id es).found).Pairwise fun a b => a.1 < b.1 := by
    rwa [fill_cut]
  simp only [Cut.fill, List.pairwise_append] at hwhole ⊢
  have hmiddle : ∀ b ∈ value?.toList.map (id, ·), b.1 = id := by
    intro b hb
    obtain ⟨_, _, rfl⟩ := List.mem_map.1 hb
    rfl
  refine ⟨⟨hwhole.1.1, ?_, ?_⟩, hwhole.2.1, ?_⟩
  · cases value? <;> simp
  · intro a ha b hb
    exact hmiddle b hb ▸ lt_of_mem_below ha
  · intro a ha b hb
    have hb := lt_of_mem_above h hb
    rcases List.mem_append.1 ha with ha | ha
    · exact Nat.lt_trans (lt_of_mem_below ha) hb
    · exact (hmiddle a ha).symm ▸ hb

/-! ## Operations -/

def empty : SideTable α := { entries := [] }

/-- The annotation under a number. -/
def get? (t : SideTable α) (id : Nat) : Option α := t.entries.lookup id

def contains (t : SideTable α) (id : Nat) : Bool := (t.get? id).isSome

def size (t : SideTable α) : Nat := t.entries.length

def isEmpty (t : SideTable α) : Bool := t.entries.isEmpty

/-- The table with another annotation under a number, or none. -/
def assign (t : SideTable α) (id : Nat) (value? : Option α) : SideTable α where
  entries := (cut id t.entries).fill id value?
  ascending := fill_ascending id value? t.ascending

/-- Annotates a number, and gives the annotation it had. -/
def exchange (t : SideTable α) (id : Nat) (value : α) : Option α × SideTable α :=
  ((cut id t.entries).found, t.assign id (some value))

/-- Removes the annotation under a number, and gives it. -/
def take (t : SideTable α) (id : Nat) : Option α × SideTable α :=
  ((cut id t.entries).found, t.assign id none)

/-- Changes the annotation under a number, if it has one. -/
def modify (t : SideTable α) (id : Nat) (change : α → α) : SideTable α :=
  t.assign id ((cut id t.entries).found.map change)

/-- The entries in ascending order of their numbers. -/
def toList (t : SideTable α) : List (Nat × α) := t.entries

instance [BEq α] : BEq (SideTable α) := ⟨fun s t => s.entries == t.entries⟩

/-! ## Tables of a tree -/

theorem ascending_zipIdx (answers : List (Option α)) (k : Nat) :
    ((answers.zipIdx k).filterMap fun p => p.1.map (p.2, ·)).Pairwise fun a b => a.1 < b.1 := by
  induction answers generalizing k with
  | nil => simp
  | cons answer answers ih =>
    simp only [List.zipIdx_cons, List.filterMap_cons]
    cases answer with
    | none => exact ih (k + 1)
    | some value =>
      refine List.pairwise_cons.2 ⟨?_, ih (k + 1)⟩
      intro b hb
      obtain ⟨p, hp, hb⟩ := List.mem_filterMap.1 hb
      obtain ⟨_, _, rfl⟩ := Option.map_eq_some_iff.1 hb
      have hk : k + 1 ≤ p.2 := (List.mem_zipIdx (x := p.1) (i := p.2) hp).1
      exact hk

/-- The table with the answers about the numbers from zero on, where there is one. -/
def ofAnswers (answers : List (Option α)) : SideTable α where
  entries := answers.zipIdx.filterMap fun p => p.1.map (p.2, ·)
  ascending := ascending_zipIdx answers 0

/-- Asks about every node of a tree in pre-order and annotates those for which there is an answer.
What was asked before may change what is answered. -/
def ofTreeM {σ : Type} (root : Node) (annotate : Node → StateM σ (Option α)) :
    StateM σ (SideTable α) := do
  let answers ← root.preorder.mapM annotate
  return ofAnswers answers

/-- Annotates every node of a tree for which `annotate` gives a value. -/
def ofTree (root : Node) (annotate : Node → Option α) : SideTable α :=
  ((ofTreeM root fun n (asked : Unit) => (annotate n, asked)).run ()).1

end SideTable

end PascalTree
