import Mathlib.Order.Basic
import Mathlib.Tactic.Common

/-!
# Append-only logs

A log is a list that grows at its front.  `Grows p before after` says that `after` is `before` with
entries added, all of which satisfy `p`.  `Preceded p q added` says that among the added entries
every one that satisfies `p` comes with or after one that satisfies `q`.  `Ascends key low high before
after` says that the added entries that have a key come in the order of their keys, which lie between
two bounds.
-/

namespace Growth

variable {α : Type*} {p q : α → Prop}

/-- The log has grown by entries that satisfy `p`. -/
def Grows (p : α → Prop) (before after : List α) : Prop :=
  ∃ added, after = added ++ before ∧ ∀ entry ∈ added, p entry

theorem Grows.refl (log : List α) : Grows p log log := ⟨[], rfl, by simp⟩

theorem Grows.of_eq {before after : List α} (eq : after = before) : Grows p before after := by
  rw [eq]
  exact Grows.refl before

theorem Grows.cons {entry : α} (log : List α) (holds : p entry) : Grows p log (entry :: log) :=
  ⟨[entry], rfl, by simpa using holds⟩

theorem Grows.trans {first second third : List α} (left : Grows p first second)
    (right : Grows p second third) : Grows p first third := by
  obtain ⟨early, rfl, early_holds⟩ := left
  obtain ⟨late, rfl, late_holds⟩ := right
  refine ⟨late ++ early, by rw [List.append_assoc], ?_⟩
  intro entry entry_mem
  rcases List.mem_append.mp entry_mem with in_late | in_early
  · exact late_holds entry in_late
  · exact early_holds entry in_early

theorem Grows.mono {before after : List α} (grows : Grows p before after)
    (weaker : ∀ entry, p entry → q entry) : Grows q before after := by
  obtain ⟨added, eq, holds⟩ := grows
  exact ⟨added, eq, fun entry entry_mem => weaker entry (holds entry entry_mem)⟩

/-- All entries of a log that has grown satisfy `p` if the entries before did. -/
theorem Grows.forall_mem {before after : List α} (grows : Grows p before after)
    (holds : ∀ entry ∈ before, p entry) : ∀ entry ∈ after, p entry := by
  obtain ⟨added, rfl, added_holds⟩ := grows
  intro entry entry_mem
  rcases List.mem_append.mp entry_mem with in_added | in_before
  · exact added_holds entry in_added
  · exact holds entry in_before

/-- The last entry of a log that has become longer is one that was added. -/
theorem Grows.head {entry : α} {before rest : List α} (grows : Grows p before (entry :: rest))
    (longer : before.length ≤ rest.length) : p entry := by
  obtain ⟨added, eq, holds⟩ := grows
  cases added with
  | nil =>
    have same : rest.length + 1 = before.length := congrArg List.length eq
    omega
  | cons first added =>
    obtain ⟨rfl, _⟩ := List.cons.inj eq
    exact holds entry List.mem_cons_self

/-! ## Order of entries -/

/-- Every entry that satisfies `p` satisfies `q` itself or has an earlier entry that does. -/
def Preceded (p q : α → Prop) (added : List α) : Prop :=
  ∀ later entry earlier, added = later ++ entry :: earlier → p entry →
    ∃ cause ∈ entry :: earlier, q cause

theorem Preceded.nil : Preceded p q [] := by
  intro later entry earlier split
  simp at split

theorem Preceded.cons {first : α} {added : List α}
    (head : p first → ∃ cause ∈ first :: added, q cause) (tail : Preceded p q added) :
    Preceded p q (first :: added) := by
  intro later entry earlier split holds
  cases later with
  | nil =>
    obtain ⟨rfl, rfl⟩ := List.cons.inj split
    exact head holds
  | cons second later =>
    obtain ⟨_, rest⟩ := List.cons.inj split
    exact tail later entry earlier rest holds

/-- Entries that do not satisfy `p` need no cause. -/
theorem Preceded.append_of_not {late early : List α} (none : ∀ entry ∈ late, ¬p entry)
    (preceded : Preceded p q early) : Preceded p q (late ++ early) := by
  induction late with
  | nil => exact preceded
  | cons first late ih =>
    refine Preceded.cons (fun holds => absurd holds (none first List.mem_cons_self)) ?_
    exact ih fun entry entry_mem => none entry (List.mem_cons_of_mem _ entry_mem)

/-! ## Keys in order -/

variable {κ : Type*} [Preorder κ] {key : α → Option κ} {low middle high : κ}

/-- The log has grown, and the keys of the added entries that have one go up from `low` on and stay
below `high`. -/
def Ascends (key : α → Option κ) (low high : κ) (before after : List α) : Prop :=
  low ≤ high ∧ ∃ added, after = added ++ before ∧ (added.filterMap key).Pairwise (· > ·) ∧
    ∀ k ∈ added.filterMap key, low ≤ k ∧ k < high

/-- Entries without a key ascend between any two bounds. -/
theorem Grows.ascends {before after : List α} (grows : Grows (fun entry => key entry = none) before after)
    (le : low ≤ high) : Ascends key low high before after := by
  obtain ⟨added, eq, keyless⟩ := grows
  have none : added.filterMap key = [] := List.filterMap_eq_nil_iff.mpr keyless
  exact ⟨le, added, eq, by simp [none], by simp [none]⟩

theorem Ascends.cons {entry : α} {k : κ} (log : List α) (key_eq : key entry = some k)
    (low_le : low ≤ k) (lt_high : k < high) : Ascends key low high log (entry :: log) := by
  refine ⟨low_le.trans lt_high.le, [entry], rfl, by simp [key_eq], ?_⟩
  intro other other_mem
  have eq : other = k := by simpa [key_eq] using other_mem
  exact eq ▸ ⟨low_le, lt_high⟩

theorem Ascends.of_le {before after : List α} (ascends : Ascends key middle high before after)
    (le : low ≤ middle) : Ascends key low high before after := by
  obtain ⟨le_high, added, eq, sorted, bounds⟩ := ascends
  exact ⟨le.trans le_high, added, eq, sorted, fun k k_mem =>
    ⟨le.trans (bounds k k_mem).1, (bounds k k_mem).2⟩⟩

theorem Ascends.trans {first second third : List α} (left : Ascends key low middle first second)
    (right : Ascends key middle high second third) : Ascends key low high first third := by
  obtain ⟨low_le, early, rfl, early_sorted, early_bounds⟩ := left
  obtain ⟨le_high, late, rfl, late_sorted, late_bounds⟩ := right
  refine ⟨low_le.trans le_high, late ++ early, by rw [List.append_assoc], ?_, ?_⟩
  · rw [List.filterMap_append, List.pairwise_append]
    refine ⟨late_sorted, early_sorted, fun later later_mem earlier earlier_mem => ?_⟩
    exact (early_bounds earlier earlier_mem).2.trans_le (late_bounds later later_mem).1
  · intro k k_mem
    rw [List.filterMap_append, List.mem_append] at k_mem
    rcases k_mem with in_late | in_early
    · exact ⟨low_le.trans (late_bounds k in_late).1, (late_bounds k in_late).2⟩
    · exact ⟨(early_bounds k in_early).1, (early_bounds k in_early).2.trans_le le_high⟩

end Growth
