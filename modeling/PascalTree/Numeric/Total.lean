/-!
# Total — sums of natural numbers
-/

namespace PascalTree
namespace Numeric

/-- The sum of some numbers. -/
def total (ns : List Nat) : Nat := ns.foldr (· + ·) 0

@[simp]
theorem total_nil : total [] = 0 := rfl

@[simp]
theorem total_cons (n : Nat) (ns : List Nat) : total (n :: ns) = n + total ns := rfl

@[simp]
theorem total_append (ms ns : List Nat) : total (ms ++ ns) = total ms + total ns := by
  induction ms with
  | nil => simp
  | cons m ms ih => simp [ih, Nat.add_assoc]

theorem total_flatMap {α : Type} (f : α → List Nat) (xs : List α) :
    total (xs.flatMap f) = total (xs.map fun x => total (f x)) := by
  induction xs with
  | nil => rfl
  | cons x xs ih => simp [ih]

/-- Counting is adding up ones. -/
theorem total_map_eq_count {α : Type} [DecidableEq α] (a : α) (xs : List α) :
    total (xs.map fun x => if x = a then 1 else 0) = xs.count a := by
  induction xs with
  | nil => rfl
  | cons x xs ih => simp [ih, List.count_cons, Nat.add_comm]

theorem total_map_zero {α : Type} (xs : List α) : total (xs.map fun _ => 0) = 0 := by
  induction xs with
  | nil => rfl
  | cons x xs ih => simp only [List.map_cons, total_cons, ih]

theorem total_map_one {α : Type} (xs : List α) : total (xs.map fun _ => 1) = xs.length := by
  induction xs with
  | nil => rfl
  | cons x xs ih => simp only [List.map_cons, total_cons, ih, List.length_cons, Nat.add_comm]

theorem total_map_filter_pos {α : Type} (f : α → Nat) (xs : List α) :
    total ((xs.filter fun x => 0 < f x).map f) = total (xs.map f) := by
  induction xs with
  | nil => rfl
  | cons x xs ih =>
    by_cases hx : 0 < f x
    · simp [hx, ih]
    · simp [ih, Nat.eq_zero_of_not_pos hx]

theorem total_map_add {α : Type} (f g : α → Nat) (xs : List α) :
    total (xs.map fun x => f x + g x) = total (xs.map f) + total (xs.map g) := by
  induction xs with
  | nil => rfl
  | cons x xs ih =>
    simp only [List.map_cons, total_cons, ih]
    omega

theorem total_map_le {α : Type} {f g : α → Nat} {xs : List α} (h : ∀ x ∈ xs, f x ≤ g x) :
    total (xs.map f) ≤ total (xs.map g) := by
  induction xs with
  | nil => exact Nat.le_refl 0
  | cons x xs ih =>
    have hx := h x List.mem_cons_self
    have hxs := ih fun y hy => h y (List.mem_cons_of_mem x hy)
    simp only [List.map_cons, total_cons]
    omega

end Numeric
end PascalTree
