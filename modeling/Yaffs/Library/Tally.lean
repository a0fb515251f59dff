import Mathlib.Algebra.BigOperators.Group.Finset.Basic
import Mathlib.Algebra.BigOperators.Group.Finset.Piecewise
import Mathlib.Algebra.BigOperators.Ring.Finset
import Mathlib.Algebra.Order.BigOperators.Group.Finset
import Mathlib.Tactic.Ring
import Mathlib.Tactic.Linarith

/-!
# Tallies over a table

A table is a function on a finite index set.  Changing one entry moves a sum over the table by the
difference of the two entries, and a count of the entries that satisfy a predicate is such a sum.
-/

namespace Tally

open Finset

variable {ι : Type*} {rows : Finset ι}

/-- Two tables that agree outside one row have sums that differ by that row. -/
theorem sum_of_agree [DecidableEq ι] (before : ι → ℤ) {after : ι → ℤ} {row : ι}
    (row_mem : row ∈ rows) (agree : ∀ other ∈ rows, other ≠ row → after other = before other) :
    ∑ i ∈ rows, after i = ∑ i ∈ rows, before i + (after row - before row) := by
  rw [← Finset.add_sum_erase rows after row_mem, ← Finset.add_sum_erase rows before row_mem]
  have rest : ∑ i ∈ rows.erase row, after i = ∑ i ∈ rows.erase row, before i :=
    Finset.sum_congr rfl fun other other_mem =>
      agree other (Finset.mem_of_mem_erase other_mem) (Finset.ne_of_mem_erase other_mem)
  rw [rest]
  ring

/-- Number of rows whose entry satisfies a decidable predicate, as an integer. -/
def count (rows : Finset ι) (p : ι → Prop) [DecidablePred p] : ℤ :=
  ∑ i ∈ rows, if p i then 1 else 0

theorem count_eq_card (p : ι → Prop) [DecidablePred p] :
    count rows p = ((rows.filter p).card : ℤ) := by
  rw [count, Finset.sum_boole]

theorem count_congr {p q : ι → Prop} [DecidablePred p] [DecidablePred q]
    (agree : ∀ i ∈ rows, (p i ↔ q i)) : count rows p = count rows q := by
  refine Finset.sum_congr rfl fun i i_mem => ?_
  simp only [agree i i_mem]

theorem count_nonneg (p : ι → Prop) [DecidablePred p] : 0 ≤ count rows p := by
  rw [count_eq_card]
  exact Int.natCast_nonneg _

theorem count_le_card (rows : Finset ι) (p : ι → Prop) [DecidablePred p] :
    count rows p ≤ (rows.card : ℤ) := by
  rw [count_eq_card]
  exact_mod_cast Finset.card_filter_le rows p

/-- A count changes by at most the row whose membership changed. -/
theorem count_of_agree [DecidableEq ι] {p q : ι → Prop} [DecidablePred p] [DecidablePred q] {row : ι}
    (row_mem : row ∈ rows) (agree : ∀ other ∈ rows, other ≠ row → (q other ↔ p other)) :
    count rows q = count rows p + ((if q row then 1 else 0) - (if p row then 1 else 0)) := by
  refine sum_of_agree _ row_mem fun other other_mem other_ne => ?_
  simp only [agree other other_mem other_ne]

theorem count_eq_zero_iff (p : ι → Prop) [DecidablePred p] :
    count rows p = 0 ↔ ∀ i ∈ rows, ¬p i := by
  rw [count_eq_card]
  simp [Finset.filter_eq_empty_iff]

theorem count_pos_iff (p : ι → Prop) [DecidablePred p] :
    0 < count rows p ↔ ∃ i ∈ rows, p i := by
  rw [count_eq_card]
  simp [Finset.card_pos, Finset.filter_nonempty_iff]

end Tally
