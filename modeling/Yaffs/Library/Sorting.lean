import Mathlib.Data.List.Perm.Lattice
import Mathlib.Logic.Equiv.Basic
import Mathlib.Tactic.Common

/-!
# Sorting in place

An array is a function from positions to items.  A program that only exchanges items within a range
of positions rearranges that range.  A comparison function that is consistent on the items of a
range orders them, and the range is sorted when no item compares above a later one.
-/

namespace Sorting

variable {α : Type*}

/-- Exchange two items. -/
def swap (mem : Nat → α) (i j : Nat) : Nat → α := fun k =>
  if k = i then mem j else if k = j then mem i else mem k

/-- The array after the work holds the items of a range in some order, and the rest as before. -/
def Rearranges (low high : Nat) (before after : Nat → α) : Prop :=
  ∃ move : Equiv.Perm Nat,
    (∀ i, move i ≠ i → low ≤ i ∧ i < high) ∧ ∀ i, after i = before (move i)

/-- The signs of a comparison belong to a linear order on some items. -/
structure Consistent (cmp : α → α → Int) (items : α → Prop) : Prop where
  antisymm : ∀ x y, items x → items y → (0 < cmp x y ↔ cmp y x < 0)
  trans : ∀ x y z, items x → items y → items z → cmp x y ≤ 0 → cmp y z ≤ 0 → cmp x z ≤ 0

/-- No item of a range compares above a later one. -/
def Sorted (cmp : α → α → Int) (low high : Nat) (mem : Nat → α) : Prop :=
  ∀ i j, low ≤ i → i < j → j < high → cmp (mem i) (mem j) ≤ 0

/-! ## Exchanges -/

variable {mem before middle after : Nat → α} {low high i j : Nat}

@[simp]
theorem swap_left (mem : Nat → α) (i j : Nat) : swap mem i j i = mem j := if_pos rfl

@[simp]
theorem swap_right (mem : Nat → α) (i j : Nat) : swap mem i j j = mem i := by
  by_cases same : j = i
  · rw [swap, if_pos same, same]
  · rw [swap, if_neg same, if_pos rfl]

theorem swap_apart {k : Nat} (apart_left : k ≠ i) (apart_right : k ≠ j) :
    swap mem i j k = mem k := by
  rw [swap, if_neg apart_left, if_neg apart_right]

/-! ## Rearrangements -/

theorem Rearranges.refl (low high : Nat) (mem : Nat → α) : Rearranges low high mem mem :=
  ⟨Equiv.refl Nat, fun _ moved => absurd rfl moved, fun _ => rfl⟩

theorem Rearranges.trans (first : Rearranges low high before middle)
    (second : Rearranges low high middle after) : Rearranges low high before after := by
  obtain ⟨first, first_within, first_eq⟩ := first
  obtain ⟨second, second_within, second_eq⟩ := second
  refine ⟨second.trans first, ?_, ?_⟩
  · intro i moved
    by_cases still : second i = i
    · apply first_within
      rwa [Equiv.trans_apply, still] at moved
    · exact second_within i still
  · intro i
    rw [second_eq, first_eq, Equiv.trans_apply]

theorem Rearranges.mono {lower higher : Nat} (rearranged : Rearranges low high before after)
    (lower_le : lower ≤ low) (le_higher : high ≤ higher) :
    Rearranges lower higher before after := by
  obtain ⟨move, within, eq⟩ := rearranged
  refine ⟨move, ?_, eq⟩
  intro i moved
  have range := within i moved
  omega

theorem rearranges_swap (mem : Nat → α) (low_i : low ≤ i) (i_high : i < high) (low_j : low ≤ j)
    (j_high : j < high) : Rearranges low high mem (swap mem i j) := by
  refine ⟨Equiv.swap i j, ?_, ?_⟩
  · intro k moved
    by_cases at_i : k = i
    · exact at_i ▸ ⟨low_i, i_high⟩
    · by_cases at_j : k = j
      · exact at_j ▸ ⟨low_j, j_high⟩
      · exact absurd (Equiv.swap_apply_of_ne_of_ne at_i at_j) moved
  · intro k
    by_cases at_i : k = i
    · rw [at_i, swap_left, Equiv.swap_apply_left]
    · by_cases at_j : k = j
      · rw [at_j, swap_right, Equiv.swap_apply_right]
      · rw [swap_apart at_i at_j, Equiv.swap_apply_of_ne_of_ne at_i at_j]

/-- Nothing changes outside the range. -/
theorem Rearranges.outside (rearranged : Rearranges low high before after)
    (outside : i < low ∨ high ≤ i) : after i = before i := by
  obtain ⟨move, within, eq⟩ := rearranged
  have still : move i = i := by
    by_contra moved
    have range := within i moved
    omega
  rw [eq, still]

/-- Every item of the range was in the range before. -/
theorem Rearranges.exists_eq (rearranged : Rearranges low high before after) (low_le : low ≤ i)
    (lt_high : i < high) : ∃ j, low ≤ j ∧ j < high ∧ after i = before j := by
  obtain ⟨move, within, eq⟩ := rearranged
  by_cases still : move i = i
  · exact ⟨i, low_le, lt_high, by rw [eq, still]⟩
  · have range := within (move i) fun same => still (move.injective same)
    exact ⟨move i, range.1, range.2, eq i⟩

/-- What holds of all items of a range still does. -/
theorem Rearranges.forall (rearranged : Rearranges low high before after) (holds : α → Prop)
    (all : ∀ i, low ≤ i → i < high → holds (before i)) :
    ∀ i, low ≤ i → i < high → holds (after i) := by
  intro i low_le lt_high
  obtain ⟨j, low_j, j_lt, eq⟩ := rearranged.exists_eq low_le lt_high
  rw [eq]
  exact all j low_j j_lt

/-- As lists, the range before and after hold the same items. -/
theorem Rearranges.perm {count : Nat} (rearranged : Rearranges low (low + count) before after) :
    ((List.range' low count).map after).Perm ((List.range' low count).map before) := by
  obtain ⟨move, within, eq⟩ := rearranged
  have moved_range : ((List.range' low count).map move).Perm (List.range' low count) := by
    refine (List.perm_ext_iff_of_nodup (List.Nodup.map move.injective List.nodup_range')
      List.nodup_range').mpr ?_
    intro k
    rw [List.mem_map]
    constructor
    · rintro ⟨i, i_mem, rfl⟩
      by_cases still : move i = i
      · rwa [still]
      · have range := within (move i) fun same => still (move.injective same)
        exact List.mem_range'_1.mpr range
    · intro k_mem
      refine ⟨move.symm k, ?_, move.apply_symm_apply k⟩
      by_cases still : move.symm k = k
      · rwa [still]
      · have range := within (move.symm k) fun same => still (by
          rw [move.apply_symm_apply] at same
          exact same.symm)
        exact List.mem_range'_1.mpr range
  have after_eq : (List.range' low count).map after =
      ((List.range' low count).map move).map before := by
    rw [List.map_map]
    exact List.map_congr_left fun i _ => eq i
  rw [after_eq]
  exact moved_range.map before

/-! ## Consistent comparisons -/

namespace Consistent

variable {cmp : α → α → Int} {items : α → Prop} (order : Consistent cmp items) {x y z : α}
include order

theorem le_of_gt (x_item : items x) (y_item : items y) (above : 0 < cmp x y) : cmp y x ≤ 0 := by
  have below := (order.antisymm x y x_item y_item).mp above
  omega

theorem lt_iff (x_item : items x) (y_item : items y) : cmp x y < 0 ↔ 0 < cmp y x :=
  (order.antisymm y x y_item x_item).symm

theorem eq_zero (x_item : items x) (y_item : items y) (same : cmp x y = 0) : cmp y x = 0 := by
  have forth := order.antisymm x y x_item y_item
  have back := order.antisymm y x y_item x_item
  omega

theorem self (x_item : items x) : cmp x x = 0 := by
  have both := order.antisymm x x x_item x_item
  omega

end Consistent

/-! ## Sorted ranges -/

section Sorted

variable {cmp : α → α → Int}

theorem sorted_of_le (short : high ≤ low + 1) : Sorted cmp low high mem := by
  intro i j low_le i_lt j_lt
  omega

/-- A part below, equal to and above an item, the outer ones sorted, make a sorted range. -/
theorem sorted_parts {items : α → Prop} (order : Consistent cmp items) {pivot : α}
    {left right : Nat} (pivot_item : items pivot)
    (all : ∀ i, low ≤ i → i < high → items (mem i))
    (below : ∀ i, low ≤ i → i < left → cmp (mem i) pivot < 0)
    (level : ∀ i, left ≤ i → i < right → cmp (mem i) pivot = 0)
    (above : ∀ i, right ≤ i → i < high → 0 < cmp (mem i) pivot)
    (left_sorted : Sorted cmp low left mem) (right_sorted : Sorted cmp right high mem) :
    Sorted cmp low high mem := by
  intro i j low_le i_lt j_lt
  have i_item := all i low_le (by omega)
  have j_item := all j (by omega) j_lt
  by_cases j_left : j < left
  · exact left_sorted i j low_le i_lt j_left
  by_cases i_right : right ≤ i
  · exact right_sorted i j i_right i_lt j_lt
  -- the pivot stands between the two
  have i_le : cmp (mem i) pivot ≤ 0 := by
    by_cases i_left : i < left
    · exact Int.le_of_lt (below i low_le i_left)
    · exact Int.le_of_eq (level i (by omega) (by omega))
  have le_j : cmp pivot (mem j) ≤ 0 := by
    by_cases j_right : j < right
    · exact Int.le_of_eq (order.eq_zero j_item pivot_item (level j (by omega) j_right))
    · exact order.le_of_gt j_item pivot_item (above j (by omega) j_lt)
  exact order.trans _ _ _ i_item pivot_item j_item i_le le_j

/-- As a list, a sorted range is ordered. -/
theorem Sorted.pairwise {count : Nat} (sorted : Sorted cmp low (low + count) mem) :
    ((List.range' low count).map mem).Pairwise fun x y => cmp x y ≤ 0 := by
  rw [List.pairwise_map]
  have increasing : (List.range' low count).Pairwise (· < ·) := List.pairwise_lt_range'
  refine increasing.imp_of_mem ?_
  intro i j i_mem j_mem i_lt
  rw [List.mem_range'_1] at i_mem j_mem
  exact sorted i j i_mem.1 i_lt j_mem.2

end Sorted

end Sorting
