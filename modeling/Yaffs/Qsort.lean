import Yaffs.Library.Sorting

/-!
# The sorting routine

The scan sorts its block index with a quicksort of its own, with insertion sort for short ranges and
for ranges that are in order already.  Positions count items, not bytes.
-/

namespace Yaffs.Qsort

open Sorting

variable {α : Type*} (cmp : α → α → Int)

/-! ## The routine -/

/-- The inner loop of insertion sort: an item moves down from `distance` above the start. -/
def insertDown (a : Nat) : Nat → (Nat → α) → Nat → α
  | 0, mem => mem
  | distance + 1, mem =>
    if 0 < cmp (mem (a + distance)) (mem (a + distance + 1)) then
      insertDown a distance (swap mem (a + distance + 1) (a + distance))
    else mem

/-- The outer loop of insertion sort, from the item that is `distance` above the start. -/
def insertAll (a : Nat) : Nat → Nat → (Nat → α) → Nat → α
  | 0, _, mem => mem
  | count + 1, distance, mem => insertAll a count (distance + 1) (insertDown cmp a distance mem)

/-- Insertion sort of `n` items. -/
def insertionSort (a n : Nat) (mem : Nat → α) : Nat → α := insertAll cmp a (n - 1) 1 mem

/-- The position of the middle one of three items. -/
def med3 (mem : Nat → α) (a b c : Nat) : Nat :=
  if cmp (mem a) (mem b) < 0 then
    if cmp (mem b) (mem c) < 0 then b else if cmp (mem a) (mem c) < 0 then c else a
  else
    if 0 < cmp (mem b) (mem c) then b else if cmp (mem a) (mem c) < 0 then a else c

/-- The position of the item that splits a range. -/
def choosePivot (a n : Nat) (mem : Nat → α) : Nat :=
  let pm := a + n / 2
  if 7 < n then
    let pl := a
    let pn := a + (n - 1)
    if 40 < n then
      let d := n / 8
      let pl := med3 cmp mem pl (pl + d) (pl + 2 * d)
      let pm := med3 cmp mem (pm - d) pm (pm + d)
      let pn := med3 cmp mem (pn - 2 * d) (pn - d) pn
      med3 cmp mem pl pm pn
    else med3 cmp mem pl pm pn
  else pm

/-- Where the splitting of a range stands.  Items equal to the pivot gather at both ends. -/
structure Cut (α : Type*) where
  mem : Nat → α
  pa : Nat
  pb : Nat
  pc : Nat
  pd : Nat
  swapCnt : Nat

/-- The first inner loop: pass the items that are not above the pivot. -/
def sweepUp (a : Nat) : Nat → Cut α → Cut α
  | 0, cut => cut
  | count + 1, cut =>
    let r := cmp (cut.mem cut.pb) (cut.mem a)
    if r ≤ 0 then
      if r = 0 then
        sweepUp a count
          { cut with
            swapCnt := 1
            mem := swap cut.mem cut.pa cut.pb
            pa := cut.pa + 1
            pb := cut.pb + 1 }
      else sweepUp a count { cut with pb := cut.pb + 1 }
    else cut

/-- The second inner loop: pass the items that are not below the pivot. -/
def sweepDown (a : Nat) : Nat → Cut α → Cut α
  | 0, cut => cut
  | count + 1, cut =>
    let r := cmp (cut.mem cut.pc) (cut.mem a)
    if 0 ≤ r then
      if r = 0 then
        sweepDown a count
          { cut with
            swapCnt := 1
            mem := swap cut.mem cut.pc cut.pd
            pd := cut.pd - 1
            pc := cut.pc - 1 }
      else sweepDown a count { cut with pc := cut.pc - 1 }
    else cut

/-- How many items neither inner loop has passed. -/
def Cut.rest (cut : Cut α) : Nat := cut.pc + 1 - cut.pb

/-- The outer loop: the two inner loops, then an exchange of the items they stopped at. -/
def split (a : Nat) : Nat → Cut α → Cut α
  | 0, cut => cut
  | fuel + 1, cut =>
    let cut := sweepUp cmp a cut.rest cut
    let cut := sweepDown cmp a cut.rest cut
    if cut.pc < cut.pb then cut
    else
      split a fuel
        { cut with
          mem := swap cut.mem cut.pb cut.pc
          swapCnt := 1
          pb := cut.pb + 1
          pc := cut.pc - 1 }

/-- Exchange two ranges item by item. -/
def vecswap : Nat → Nat → Nat → (Nat → α) → Nat → α
  | _, _, 0, mem => mem
  | i, j, n + 1, mem => vecswap (i + 1) (j + 1) n (swap mem i j)

/-- Move the items equal to the pivot from both ends into the middle. -/
def gather (a n : Nat) (cut : Cut α) : Nat → α :=
  let pn := a + n
  let r := min (cut.pa - a) (cut.pb - cut.pa)
  let mem := vecswap a (cut.pb - r) r cut.mem
  let r := min (cut.pd - cut.pc) (pn - cut.pd - 1)
  vecswap cut.pb (pn - r) r mem

/-- The splitting of a range around the item chosen. -/
def partition (a n : Nat) (mem : Nat → α) : Cut α :=
  split cmp a n
    { mem := swap mem a (choosePivot cmp a n mem)
      pa := a + 1
      pb := a + 1
      pc := a + (n - 1)
      pd := a + (n - 1)
      swapCnt := 0 }

/-- The routine on `n` items, calling itself at most `fuel` deep. -/
def sortFrom : Nat → Nat → Nat → (Nat → α) → Nat → α
  | 0, _, _, mem => mem
  | fuel + 1, a, n, mem =>
    if n < 7 then insertionSort cmp a n mem
    else
      let cut := partition cmp a n mem
      if cut.swapCnt = 0 then insertionSort cmp a n cut.mem
      else
        let pn := a + n
        let mem := gather a n cut
        let r := cut.pb - cut.pa
        let mem := if 1 < r then sortFrom fuel a r mem else mem
        let r := cut.pd - cut.pc
        if 1 < r then sortFrom fuel (pn - r) r mem else mem

/-- The routine.  Each call of itself has fewer items. -/
def qsort (a n : Nat) (mem : Nat → α) : Nat → α := sortFrom cmp (n + 1) a n mem

/-! ## Insertion sort -/

theorem insertDown_rearranges (a distance : Nat) (mem : Nat → α) :
    Rearranges a (a + distance + 1) mem (insertDown cmp a distance mem) := by
  induction distance generalizing mem with
  | zero => exact Rearranges.refl _ _ _
  | succ distance ih =>
    simp only [insertDown]
    split
    case isTrue _ =>
      have swapped : Rearranges a (a + (distance + 1) + 1) mem
          (swap mem (a + distance + 1) (a + distance)) := by
        apply rearranges_swap <;> omega
      exact swapped.trans ((ih _).mono (Nat.le_refl a) (by omega))
    case isFalse _ => exact Rearranges.refl _ _ _

theorem insertAll_rearranges (a count distance : Nat) (mem : Nat → α) :
    Rearranges a (a + distance + count) mem (insertAll cmp a count distance mem) := by
  induction count generalizing distance mem with
  | zero => exact Rearranges.refl _ _ _
  | succ count ih =>
    have first := insertDown_rearranges cmp a distance mem
    have others := ih (distance + 1) (insertDown cmp a distance mem)
    exact (first.mono (Nat.le_refl a) (by omega)).trans (others.mono (Nat.le_refl a) (by omega))

theorem insertionSort_rearranges (a n : Nat) (mem : Nat → α) :
    Rearranges a (a + n) mem (insertionSort cmp a n mem) := by
  cases n with
  | zero => exact Rearranges.refl _ _ _
  | succ n => exact (insertAll_rearranges cmp a n 1 mem).mono (Nat.le_refl a) (by omega)

section Sorts

variable {cmp} {items : α → Prop} (order : Consistent cmp items)
include order

/-- An item above a sorted range moves to its place.  While it moves, only the pairs that end at it
can be out of order. -/
theorem insertDown_sorted {a distance top : Nat} {mem : Nat → α} (distance_le : distance ≤ top)
    (all : ∀ i, a ≤ i → i < a + top + 1 → items (mem i))
    (others : ∀ i j, a ≤ i → i < j → j < a + top + 1 → j ≠ a + distance →
      cmp (mem i) (mem j) ≤ 0) :
    Sorted cmp a (a + top + 1) (insertDown cmp a distance mem) := by
  induction distance generalizing mem with
  | zero =>
    intro i j low_le i_lt j_lt
    exact others i j low_le i_lt j_lt (by omega)
  | succ distance ih =>
    have item := all (a + distance + 1) (by omega) (by omega)
    have lower_item := all (a + distance) (by omega) (by omega)
    simp only [insertDown]
    split
    case isTrue is_above =>
      have swapped : Rearranges a (a + top + 1) mem
          (swap mem (a + distance + 1) (a + distance)) := by
        apply rearranges_swap <;> omega
      apply ih (by omega) (swapped.forall items all)
      intro i j low_le i_lt j_lt j_ne
      by_cases j_top : j = a + distance + 1
      · rw [j_top, swap_left]
        by_cases i_next : i = a + distance
        · rw [i_next, swap_right]
          exact order.le_of_gt lower_item item is_above
        · rw [swap_apart (by omega) i_next]
          exact others i (a + distance) low_le (by omega) (by omega) (by omega)
      · rw [swap_apart j_top j_ne]
        by_cases i_top : i = a + distance + 1
        · rw [i_top, swap_left]
          exact others (a + distance) j (by omega) (by omega) j_lt (by omega)
        · by_cases i_next : i = a + distance
          · rw [i_next, swap_right]
            exact others (a + distance + 1) j (by omega) (by omega) j_lt (by omega)
          · rw [swap_apart i_top i_next]
            exact others i j low_le i_lt j_lt (by omega)
    case isFalse not_above =>
      intro i j low_le i_lt j_lt
      by_cases j_top : j = a + distance + 1
      · rw [j_top]
        by_cases i_next : i = a + distance
        · rw [i_next]
          omega
        · have i_item := all i low_le (by omega)
          have i_le := others i (a + distance) low_le (by omega) (by omega) (by omega)
          exact order.trans _ _ _ i_item lower_item item i_le (by omega)
      · exact others i j low_le i_lt j_lt (by omega)

theorem insertAll_sorted {a count distance : Nat} {mem : Nat → α}
    (all : ∀ i, a ≤ i → i < a + distance + count → items (mem i))
    (sorted : Sorted cmp a (a + distance) mem) :
    Sorted cmp a (a + distance + count) (insertAll cmp a count distance mem) := by
  induction count generalizing distance mem with
  | zero => exact sorted
  | succ count ih =>
    have inserted : Sorted cmp a (a + (distance + 1)) (insertDown cmp a distance mem) := by
      apply insertDown_sorted order (Nat.le_refl distance)
      · intro i low_le i_lt
        exact all i low_le (by omega)
      · intro i j low_le i_lt j_lt j_ne
        exact sorted i j low_le i_lt (by omega)
    have kept : ∀ i, a ≤ i → i < a + (distance + 1) + count →
        items (insertDown cmp a distance mem i) := by
      have moved : Rearranges a (a + (distance + 1) + count) mem
          (insertDown cmp a distance mem) :=
        (insertDown_rearranges cmp a distance mem).mono (Nat.le_refl a) (by omega)
      exact moved.forall items fun i low_le i_lt => all i low_le (by omega)
    have done := ih kept inserted
    rwa [Nat.add_assoc a, Nat.add_right_comm distance, Nat.add_assoc distance,
      ← Nat.add_assoc a] at done

theorem insertionSort_sorted {a n : Nat} {mem : Nat → α}
    (all : ∀ i, a ≤ i → i < a + n → items (mem i)) :
    Sorted cmp a (a + n) (insertionSort cmp a n mem) := by
  cases n with
  | zero => exact sorted_of_le (by omega)
  | succ n =>
    have done : Sorted cmp a (a + 1 + n) (insertAll cmp a n 1 mem) := by
      apply insertAll_sorted order
      · intro i low_le i_lt
        exact all i low_le (by omega)
      · exact sorted_of_le (Nat.le_refl _)
    rwa [Nat.add_assoc, Nat.add_comm 1] at done

end Sorts

/-! ## Splitting -/

theorem med3_cases (mem : Nat → α) (a b c : Nat) :
    med3 cmp mem a b c = a ∨ med3 cmp mem a b c = b ∨ med3 cmp mem a b c = c := by
  simp only [med3]
  split_ifs <;> simp

theorem choosePivot_within (a : Nat) {n : Nat} (long : 7 ≤ n) (mem : Nat → α) :
    a ≤ choosePivot cmp a n mem ∧ choosePivot cmp a n mem < a + n := by
  simp only [choosePivot]
  split_ifs with more many
  · have low := med3_cases cmp mem a (a + n / 8) (a + 2 * (n / 8))
    have middle := med3_cases cmp mem (a + n / 2 - n / 8) (a + n / 2) (a + n / 2 + n / 8)
    have high := med3_cases cmp mem (a + (n - 1) - 2 * (n / 8)) (a + (n - 1) - n / 8) (a + (n - 1))
    have all := med3_cases cmp mem (med3 cmp mem a (a + n / 8) (a + 2 * (n / 8)))
      (med3 cmp mem (a + n / 2 - n / 8) (a + n / 2) (a + n / 2 + n / 8))
      (med3 cmp mem (a + (n - 1) - 2 * (n / 8)) (a + (n - 1) - n / 8) (a + (n - 1)))
    omega
  · have all := med3_cases cmp mem a (a + n / 2) (a + (n - 1))
    omega
  · omega

/-- The items passed so far.  Those equal to the pivot are at both ends, then come those below and
those above it. -/
structure Cut.Splits (a n : Nat) (start : Nat → α) (pivot : α) (cut : Cut α) : Prop where
  rearranged : Rearranges a (a + n) start cut.mem
  pivot_eq : cut.mem a = pivot
  a_lt : a < cut.pa
  pa_le : cut.pa ≤ cut.pb
  pb_le : cut.pb ≤ cut.pc + 1
  pc_le : cut.pc ≤ cut.pd
  pd_lt : cut.pd < a + n
  first : ∀ i, a < i → i < cut.pa → cmp (cut.mem i) pivot = 0
  below : ∀ i, cut.pa ≤ i → i < cut.pb → cmp (cut.mem i) pivot < 0
  above : ∀ i, cut.pc < i → i ≤ cut.pd → 0 < cmp (cut.mem i) pivot
  last : ∀ i, cut.pd < i → i < a + n → cmp (cut.mem i) pivot = 0

section Splits

variable {cmp} {a n : Nat} {start : Nat → α} {pivot : α} {cut : Cut α}

/-- Pass an item from below that is equal to the pivot. -/
theorem Cut.Splits.passFirst (splits : cut.Splits cmp a n start pivot) (more : cut.pb ≤ cut.pc)
    (same : cmp (cut.mem cut.pb) pivot = 0) (swapCnt : Nat) :
    Cut.Splits cmp a n start pivot
      { cut with
        swapCnt := swapCnt
        mem := swap cut.mem cut.pa cut.pb
        pa := cut.pa + 1
        pb := cut.pb + 1 } := by
  obtain ⟨rearranged, pivot_eq, a_lt, pa_le, pb_le, pc_le, pd_lt, first, below, above, last⟩ :=
    splits
  constructor <;> dsimp only
  case rearranged =>
    exact rearranged.trans (rearranges_swap _ (by omega) (by omega) (by omega) (by omega))
  case pivot_eq => rw [swap_apart (by omega) (by omega), pivot_eq]
  case first =>
    intro i a_lt_i i_lt
    by_cases i_pa : i = cut.pa
    · rw [i_pa, swap_left, same]
    · rw [swap_apart i_pa (by omega)]
      exact first i a_lt_i (by omega)
  case below =>
    intro i pa_lt i_lt
    by_cases i_pb : i = cut.pb
    · rw [i_pb, swap_right]
      exact below cut.pa (Nat.le_refl _) (by omega)
    · rw [swap_apart (by omega) i_pb]
      exact below i (by omega) (by omega)
  case above =>
    intro i pc_lt i_le
    rw [swap_apart (by omega) (by omega)]
    exact above i pc_lt i_le
  case last =>
    intro i pd_lt_i i_lt
    rw [swap_apart (by omega) (by omega)]
    exact last i pd_lt_i i_lt
  all_goals omega

/-- Pass an item from below that is below the pivot. -/
theorem Cut.Splits.passBelow (splits : cut.Splits cmp a n start pivot) (more : cut.pb ≤ cut.pc)
    (lower : cmp (cut.mem cut.pb) pivot < 0) :
    Cut.Splits cmp a n start pivot { cut with pb := cut.pb + 1 } := by
  have pa_le := splits.pa_le
  refine { splits with pa_le := ?_, pb_le := ?_, below := ?_ } <;> dsimp only
  · omega
  · omega
  · intro i pa_le_i i_lt
    by_cases i_pb : i = cut.pb
    · rwa [i_pb]
    · exact splits.below i pa_le_i (by omega)

/-- Pass an item from above that is equal to the pivot. -/
theorem Cut.Splits.passLast (splits : cut.Splits cmp a n start pivot) (more : cut.pb ≤ cut.pc)
    (same : cmp (cut.mem cut.pc) pivot = 0) (swapCnt : Nat) :
    Cut.Splits cmp a n start pivot
      { cut with
        swapCnt := swapCnt
        mem := swap cut.mem cut.pc cut.pd
        pd := cut.pd - 1
        pc := cut.pc - 1 } := by
  obtain ⟨rearranged, pivot_eq, a_lt, pa_le, pb_le, pc_le, pd_lt, first, below, above, last⟩ :=
    splits
  constructor <;> dsimp only
  case rearranged =>
    exact rearranged.trans (rearranges_swap _ (by omega) (by omega) (by omega) (by omega))
  case pivot_eq => rw [swap_apart (by omega) (by omega), pivot_eq]
  case first =>
    intro i a_lt_i i_lt
    rw [swap_apart (by omega) (by omega)]
    exact first i a_lt_i i_lt
  case below =>
    intro i pa_le_i i_lt
    rw [swap_apart (by omega) (by omega)]
    exact below i pa_le_i i_lt
  case above =>
    intro i pc_lt i_le
    by_cases i_pc : i = cut.pc
    · rw [i_pc, swap_left]
      exact above cut.pd (by omega) (Nat.le_refl _)
    · rw [swap_apart i_pc (by omega)]
      exact above i (by omega) (by omega)
  case last =>
    intro i pd_lt_i i_lt
    by_cases i_pd : i = cut.pd
    · rw [i_pd, swap_right, same]
    · rw [swap_apart (by omega) i_pd]
      exact last i (by omega) i_lt
  all_goals omega

/-- Pass an item from above that is above the pivot. -/
theorem Cut.Splits.passAbove (splits : cut.Splits cmp a n start pivot) (more : cut.pb ≤ cut.pc)
    (higher : 0 < cmp (cut.mem cut.pc) pivot) :
    Cut.Splits cmp a n start pivot { cut with pc := cut.pc - 1 } := by
  have a_lt := splits.a_lt
  have pa_le := splits.pa_le
  have pc_le := splits.pc_le
  refine { splits with pb_le := ?_, pc_le := ?_, above := ?_ } <;> dsimp only
  · omega
  · omega
  · intro i pc_lt i_le
    by_cases i_pc : i = cut.pc
    · rwa [i_pc]
    · exact splits.above i (by omega) i_le

/-- Exchange an item above the pivot with a later one below it. -/
theorem Cut.Splits.exchange (splits : cut.Splits cmp a n start pivot) (more : cut.pb ≤ cut.pc)
    (higher : 0 < cmp (cut.mem cut.pb) pivot) (lower : cmp (cut.mem cut.pc) pivot < 0)
    (swapCnt : Nat) :
    Cut.Splits cmp a n start pivot
      { cut with
        mem := swap cut.mem cut.pb cut.pc
        swapCnt := swapCnt
        pb := cut.pb + 1
        pc := cut.pc - 1 } := by
  have apart : cut.pb ≠ cut.pc := by
    intro same
    rw [same] at higher
    omega
  obtain ⟨rearranged, pivot_eq, a_lt, pa_le, pb_le, pc_le, pd_lt, first, below, above, last⟩ :=
    splits
  constructor <;> dsimp only
  case rearranged =>
    exact rearranged.trans (rearranges_swap _ (by omega) (by omega) (by omega) (by omega))
  case pivot_eq => rw [swap_apart (by omega) (by omega), pivot_eq]
  case first =>
    intro i a_lt_i i_lt
    rw [swap_apart (by omega) (by omega)]
    exact first i a_lt_i i_lt
  case below =>
    intro i pa_le_i i_lt
    by_cases i_pb : i = cut.pb
    · rwa [i_pb, swap_left]
    · rw [swap_apart i_pb (by omega)]
      exact below i pa_le_i (by omega)
  case above =>
    intro i pc_lt i_le
    by_cases i_pc : i = cut.pc
    · rwa [i_pc, swap_right]
    · rw [swap_apart (by omega) i_pc]
      exact above i (by omega) i_le
  case last =>
    intro i pd_lt_i i_lt
    rw [swap_apart (by omega) (by omega)]
    exact last i pd_lt_i i_lt
  all_goals omega

/-- The first inner loop stops above the pivot, or has passed everything. -/
theorem sweepUp_splits {count : Nat} (splits : cut.Splits cmp a n start pivot)
    (count_eq : count = cut.rest) :
    (sweepUp cmp a count cut).Splits cmp a n start pivot ∧
      ((sweepUp cmp a count cut).pb ≤ (sweepUp cmp a count cut).pc →
        0 < cmp ((sweepUp cmp a count cut).mem (sweepUp cmp a count cut).pb) pivot) ∧
      (sweepUp cmp a count cut).rest ≤ cut.rest := by
  induction count generalizing cut with
  | zero =>
    rw [Cut.rest] at count_eq
    refine ⟨splits, ?_, Nat.le_refl _⟩
    intro more
    simp only [sweepUp] at more
    omega
  | succ count ih =>
    rw [Cut.rest] at count_eq
    have more : cut.pb ≤ cut.pc := by omega
    simp only [sweepUp]
    rw [splits.pivot_eq]
    split_ifs with not_above same
    · obtain ⟨kept, stopped, rest_le⟩ :=
        ih (splits.passFirst more same 1) (by simp only [Cut.rest]; omega)
      refine ⟨kept, stopped, Nat.le_trans rest_le ?_⟩
      simp only [Cut.rest]
      omega
    · obtain ⟨kept, stopped, rest_le⟩ :=
        ih (splits.passBelow more (by omega)) (by simp only [Cut.rest]; omega)
      refine ⟨kept, stopped, Nat.le_trans rest_le ?_⟩
      simp only [Cut.rest]
      omega
    · exact ⟨splits, fun _ => by omega, Nat.le_refl _⟩

/-- The second inner loop stops below the pivot, or has passed everything.  It leaves the item where
the first one stopped. -/
theorem sweepDown_splits {count : Nat} (splits : cut.Splits cmp a n start pivot)
    (count_eq : count = cut.rest)
    (stopped : cut.pb ≤ cut.pc → 0 < cmp (cut.mem cut.pb) pivot) :
    (sweepDown cmp a count cut).Splits cmp a n start pivot ∧
      ((sweepDown cmp a count cut).pb ≤ (sweepDown cmp a count cut).pc →
        0 < cmp ((sweepDown cmp a count cut).mem (sweepDown cmp a count cut).pb) pivot ∧
          cmp ((sweepDown cmp a count cut).mem (sweepDown cmp a count cut).pc) pivot < 0) ∧
      (sweepDown cmp a count cut).rest ≤ cut.rest := by
  induction count generalizing cut with
  | zero =>
    rw [Cut.rest] at count_eq
    refine ⟨splits, ?_, Nat.le_refl _⟩
    intro more
    simp only [sweepDown] at more
    omega
  | succ count ih =>
    have a_lt := splits.a_lt
    have pa_le := splits.pa_le
    have pc_le := splits.pc_le
    rw [Cut.rest] at count_eq
    have more : cut.pb ≤ cut.pc := by omega
    simp only [sweepDown]
    rw [splits.pivot_eq]
    split_ifs with not_below same
    · have apart : cut.pb ≠ cut.pc := by
        intro eq
        have higher := stopped more
        rw [eq] at higher
        omega
      obtain ⟨kept, at_end, rest_le⟩ :=
        ih (splits.passLast more same 1) (by simp only [Cut.rest]; omega) (by
          intro _
          dsimp only
          rw [swap_apart apart (by omega)]
          exact stopped more)
      refine ⟨kept, at_end, Nat.le_trans rest_le ?_⟩
      simp only [Cut.rest]
      omega
    · obtain ⟨kept, at_end, rest_le⟩ :=
        ih (splits.passAbove more (by omega)) (by simp only [Cut.rest]; omega)
          (fun _ => stopped more)
      refine ⟨kept, at_end, Nat.le_trans rest_le ?_⟩
      simp only [Cut.rest]
      omega
    · exact ⟨splits, fun _ => ⟨stopped more, by omega⟩, Nat.le_refl _⟩

/-- The outer loop passes everything. -/
theorem split_splits {fuel : Nat} (splits : cut.Splits cmp a n start pivot)
    (enough : cut.rest < fuel) :
    (split cmp a fuel cut).Splits cmp a n start pivot ∧
      (split cmp a fuel cut).pc < (split cmp a fuel cut).pb := by
  induction fuel generalizing cut with
  | zero => omega
  | succ fuel ih =>
    simp only [split]
    obtain ⟨up, up_stopped, up_rest⟩ := sweepUp_splits splits rfl
    generalize sweepUp cmp a cut.rest cut = upper at up up_stopped up_rest
    obtain ⟨down, at_end, down_rest⟩ := sweepDown_splits up rfl up_stopped
    generalize sweepDown cmp a upper.rest upper = lower at down at_end down_rest
    split_ifs with passed
    · exact ⟨down, passed⟩
    · obtain ⟨higher, below⟩ := at_end (by omega)
      apply ih (down.exchange (by omega) higher below 1)
      simp only [Cut.rest] at *
      omega

theorem partition_splits (cmp : α → α → Int) (long : 7 ≤ n) (a : Nat) (mem : Nat → α) :
    (partition cmp a n mem).Splits cmp a n mem (mem (choosePivot cmp a n mem)) ∧
      (partition cmp a n mem).pc < (partition cmp a n mem).pb := by
  obtain ⟨low, high⟩ := choosePivot_within cmp a long mem
  apply split_splits
  · constructor <;> dsimp only
    case rearranged => exact rearranges_swap _ (Nat.le_refl a) (by omega) low high
    case pivot_eq => exact swap_left _ _ _
    case first =>
      intro i a_lt i_lt
      omega
    case below =>
      intro i a_le i_lt
      omega
    case above =>
      intro i lt_i i_le
      omega
    case last =>
      intro i lt_i i_lt
      omega
    all_goals omega
  · simp only [Cut.rest]
    omega

end Splits

/-! ## Gathering the middle -/

theorem vecswap_rearranges {low high i j count : Nat} (mem : Nat → α) (low_i : low ≤ i)
    (i_high : i + count ≤ high) (low_j : low ≤ j) (j_high : j + count ≤ high) :
    Rearranges low high mem (vecswap i j count mem) := by
  induction count generalizing i j mem with
  | zero => exact Rearranges.refl _ _ _
  | succ count ih =>
    have first : Rearranges low high mem (swap mem i j) :=
      rearranges_swap _ low_i (by omega) low_j (by omega)
    exact first.trans (ih _ (by omega) (by omega) (by omega) (by omega))

/-- Two ranges apart from each other change places. -/
theorem vecswap_apply {i j count : Nat} (apart : i + count ≤ j) (mem : Nat → α) (k : Nat) :
    vecswap i j count mem k =
      if i ≤ k ∧ k < i + count then mem (k + (j - i))
      else if j ≤ k ∧ k < j + count then mem (k - (j - i)) else mem k := by
  induction count generalizing i j mem with
  | zero =>
    rw [if_neg (by omega), if_neg (by omega)]
    rfl
  | succ count ih =>
    simp only [vecswap]
    rw [ih (by omega)]
    by_cases at_i : k = i
    · rw [if_neg (by omega), if_neg (by omega), if_pos (by omega), at_i, swap_left,
        Nat.add_sub_cancel' (by omega)]
    by_cases at_j : k = j
    · rw [if_neg (by omega), if_neg (by omega), if_neg (by omega), if_pos (by omega), at_j,
        swap_right, Nat.sub_sub_self (by omega)]
    rw [Nat.add_sub_add_right]
    split_ifs <;> first | omega | exact swap_apart (by omega) (by omega)

/-- Two neighbouring parts of a range change places, when the shorter one's size is exchanged. -/
theorem vecswap_parts (first second : α → Prop) {low mid high : Nat} {mem : Nat → α}
    (low_le : low ≤ mid) (mid_le : mid ≤ high)
    (firsts : ∀ i, low ≤ i → i < mid → first (mem i))
    (seconds : ∀ i, mid ≤ i → i < high → second (mem i)) {r : Nat}
    (r_eq : r = min (mid - low) (high - mid)) :
    (∀ i, low ≤ i → i < low + (high - mid) → second (vecswap low (high - r) r mem i)) ∧
      ∀ i, low + (high - mid) ≤ i → i < high → first (vecswap low (high - r) r mem i) := by
  constructor
  · intro i low_i i_lt
    rw [vecswap_apply (by omega)]
    split_ifs
    · exact seconds _ (by omega) (by omega)
    · omega
    · exact seconds _ (by omega) (by omega)
  · intro i le_i i_lt
    rw [vecswap_apply (by omega)]
    split_ifs
    · omega
    · exact firsts _ (by omega) (by omega)
    · exact firsts _ (by omega) (by omega)

section Gathers

variable {cmp} {a n : Nat} {start : Nat → α} {pivot : α} {cut : Cut α}

theorem gather_rearranges (splits : cut.Splits cmp a n start pivot) (passed : cut.pc < cut.pb) :
    Rearranges a (a + n) start (gather a n cut) := by
  obtain ⟨rearranged, pivot_eq, a_lt, pa_le, pb_le, pc_le, pd_lt, _, _, _, _⟩ := splits
  simp only [gather]
  apply rearranged.trans
  have left : Rearranges a (a + n) cut.mem (vecswap a
      (cut.pb - min (cut.pa - a) (cut.pb - cut.pa)) (min (cut.pa - a) (cut.pb - cut.pa))
      cut.mem) := by
    apply vecswap_rearranges <;> omega
  apply left.trans
  apply vecswap_rearranges <;> omega

/-- After the gathering the items below the pivot come first, those above it last. -/
structure Gathered (cmp : α → α → Int) (low left right high : Nat) (pivot : α) (mem : Nat → α) :
    Prop where
  below : ∀ i, low ≤ i → i < left → cmp (mem i) pivot < 0
  level : ∀ i, left ≤ i → i < right → cmp (mem i) pivot = 0
  above : ∀ i, right ≤ i → i < high → 0 < cmp (mem i) pivot

theorem gather_gathered (splits : cut.Splits cmp a n start pivot) (passed : cut.pc < cut.pb)
    (self : cmp pivot pivot = 0) :
    Gathered cmp a (a + (cut.pb - cut.pa)) (a + n - (cut.pd - cut.pc)) (a + n) pivot
      (gather a n cut) := by
  obtain ⟨_, pivot_eq, a_lt, pa_le, pb_le, pc_le, pd_lt, first, below, above, last⟩ := splits
  have firsts : ∀ i, a ≤ i → i < cut.pa → cmp (cut.mem i) pivot = 0 := by
    intro i a_le i_lt
    by_cases at_a : i = a
    · rw [at_a, pivot_eq, self]
    · exact first i (by omega) i_lt
  obtain ⟨left_below, left_level⟩ := vecswap_parts (cmp · pivot = 0) (cmp · pivot < 0)
    (Nat.le_of_lt a_lt) pa_le firsts below rfl
  generalize moved_eq : vecswap a (cut.pb - min (cut.pa - a) (cut.pb - cut.pa))
    (min (cut.pa - a) (cut.pb - cut.pa)) cut.mem = moved at left_below left_level
  have kept : ∀ i, cut.pb ≤ i → moved i = cut.mem i := by
    intro i pb_le_i
    rw [← moved_eq, vecswap_apply (by omega), if_neg (by omega), if_neg (by omega)]
  have aboves : ∀ i, cut.pb ≤ i → i < cut.pd + 1 → 0 < cmp (moved i) pivot := by
    intro i pb_le_i i_lt
    rw [kept i pb_le_i]
    exact above i (by omega) (by omega)
  have lasts : ∀ i, cut.pd + 1 ≤ i → i < a + n → cmp (moved i) pivot = 0 := by
    intro i lt_i i_lt
    rw [kept i (by omega)]
    exact last i (by omega) i_lt
  have r_eq : min (cut.pd - cut.pc) (a + n - cut.pd - 1) =
      min (cut.pd + 1 - cut.pb) (a + n - (cut.pd + 1)) := by omega
  obtain ⟨right_level, right_above⟩ := vecswap_parts (0 < cmp · pivot) (cmp · pivot = 0)
    (by omega) (by omega) aboves lasts r_eq
  have left_kept : ∀ i, i < cut.pb → gather a n cut i = moved i := by
    intro i i_lt
    simp only [gather]
    rw [moved_eq, vecswap_apply (by omega), if_neg (by omega), if_neg (by omega)]
  have right_eq : gather a n cut = vecswap cut.pb
      (a + n - min (cut.pd - cut.pc) (a + n - cut.pd - 1))
      (min (cut.pd - cut.pc) (a + n - cut.pd - 1)) moved := by
    simp only [gather]
    rw [moved_eq]
  constructor
  · intro i a_le i_lt
    rw [left_kept i (by omega)]
    exact left_below i a_le i_lt
  · intro i le_i i_lt
    by_cases i_left : i < cut.pb
    · rw [left_kept i i_left]
      exact left_level i le_i i_left
    · rw [right_eq]
      exact right_level i (by omega) (by omega)
  · intro i le_i i_lt
    rw [right_eq]
    exact right_above i (by omega) i_lt

end Gathers

/-! ## The whole routine -/

theorem sortFrom_rearranges (fuel a n : Nat) (mem : Nat → α) :
    Rearranges a (a + n) mem (sortFrom cmp fuel a n mem) := by
  induction fuel generalizing a n mem with
  | zero => exact Rearranges.refl _ _ _
  | succ fuel ih =>
    simp only [sortFrom]
    split
    case isTrue _ => exact insertionSort_rearranges cmp a n mem
    case isFalse long =>
      obtain ⟨splits, passed⟩ := partition_splits cmp (Nat.le_of_not_lt long) a mem
      generalize partition cmp a n mem = cut at splits passed
      split
      case isTrue _ => exact splits.rearranged.trans (insertionSort_rearranges cmp a n cut.mem)
      case isFalse _ =>
        have gathered := gather_rearranges splits passed
        obtain ⟨_, _, a_lt, pa_le, _, pc_le, pd_lt, _, _, _, _⟩ := splits
        have left_part : Rearranges a (a + n) mem (if 1 < cut.pb - cut.pa then
            sortFrom cmp fuel a (cut.pb - cut.pa) (gather a n cut) else gather a n cut) := by
          split
          · exact gathered.trans ((ih _ _ _).mono (Nat.le_refl a) (by omega))
          · exact gathered
        split
        · exact left_part.trans ((ih _ _ _).mono (by omega) (by omega))
        · exact left_part

/-- One half after its turn: short halves are left alone. -/
theorem half_sorted {cmp} {fuel a r : Nat} {mem : Nat → α}
    (sorts : Sorted cmp a (a + r) (sortFrom cmp fuel a r mem)) :
    Rearranges a (a + r) mem (if 1 < r then sortFrom cmp fuel a r mem else mem) ∧
      Sorted cmp a (a + r) (if 1 < r then sortFrom cmp fuel a r mem else mem) := by
  split
  case isTrue _ => exact ⟨sortFrom_rearranges cmp fuel a r mem, sorts⟩
  case isFalse short => exact ⟨Rearranges.refl _ _ _, sorted_of_le (by omega)⟩

section Sorts

variable {cmp} {items : α → Prop} (order : Consistent cmp items)
include order

/-- The halves of a gathered range, each sorted on its own, make a sorted range. -/
theorem Gathered.sorted {low left right high : Nat} {pivot : α} {middle first after : Nat → α}
    (gathered : Gathered cmp low left right high pivot middle) (pivot_item : items pivot)
    (all : ∀ i, low ≤ i → i < high → items (middle i)) (left_le : left ≤ right)
    (low_le : low ≤ left) (right_le : right ≤ high)
    (first_moved : Rearranges low left middle first) (first_sorted : Sorted cmp low left first)
    (after_moved : Rearranges right high first after)
    (after_sorted : Sorted cmp right high after) : Sorted cmp low high after := by
  have first_kept : ∀ i, i < right → after i = first i := fun i i_lt =>
    after_moved.outside (.inl i_lt)
  have both : Rearranges low high middle after :=
    (first_moved.mono (Nat.le_refl low) (Nat.le_trans left_le right_le)).trans
      (after_moved.mono (Nat.le_trans low_le left_le) (Nat.le_refl high))
  have below : ∀ i, low ≤ i → i < left → cmp (after i) pivot < 0 := by
    intro i low_i i_lt
    rw [first_kept i (by omega)]
    exact first_moved.forall (cmp · pivot < 0) gathered.below i low_i i_lt
  have level : ∀ i, left ≤ i → i < right → cmp (after i) pivot = 0 := by
    intro i le_i i_lt
    rw [first_kept i i_lt, first_moved.outside (.inr le_i)]
    exact gathered.level i le_i i_lt
  have above : ∀ i, right ≤ i → i < high → 0 < cmp (after i) pivot := by
    refine after_moved.forall (0 < cmp · pivot) ?_
    intro i le_i i_lt
    rw [first_moved.outside (.inr (by omega))]
    exact gathered.above i le_i i_lt
  have left_sorted : Sorted cmp low left after := by
    intro i j low_i i_lt j_lt
    rw [first_kept i (by omega), first_kept j (by omega)]
    exact first_sorted i j low_i i_lt j_lt
  exact sorted_parts order pivot_item (both.forall items all) below level above left_sorted
    after_sorted

theorem sortFrom_sorted {fuel a n : Nat} {mem : Nat → α} (enough : n < fuel)
    (all : ∀ i, a ≤ i → i < a + n → items (mem i)) :
    Sorted cmp a (a + n) (sortFrom cmp fuel a n mem) := by
  induction fuel generalizing a n mem with
  | zero => omega
  | succ fuel ih =>
    simp only [sortFrom]
    split
    case isTrue _ => exact insertionSort_sorted order all
    case isFalse long =>
      have low_high := choosePivot_within cmp a (Nat.le_of_not_lt long) mem
      have pivot_item := all _ low_high.1 low_high.2
      obtain ⟨splits, passed⟩ := partition_splits cmp (Nat.le_of_not_lt long) a mem
      generalize mem (choosePivot cmp a n mem) = pivot at pivot_item splits
      generalize partition cmp a n mem = cut at splits passed
      split
      case isTrue _ => exact insertionSort_sorted order (splits.rearranged.forall items all)
      case isFalse _ =>
        have gathered := gather_gathered splits passed (order.self pivot_item)
        have middle_items := (gather_rearranges splits passed).forall items all
        obtain ⟨_, _, a_lt, pa_le, _, pc_le, pd_lt, _, _, _, _⟩ := splits
        have left_lt : cut.pb - cut.pa < fuel := by omega
        have right_lt : cut.pd - cut.pc < fuel := by omega
        have parts_le : cut.pb - cut.pa + (cut.pd - cut.pc) ≤ n := by omega
        generalize gather a n cut = middle at gathered middle_items
        generalize cut.pb - cut.pa = l at gathered left_lt parts_le
        generalize cut.pd - cut.pc = r at gathered right_lt parts_le
        have end_eq : a + n = a + n - r + r := by omega
        obtain ⟨left_moved, left_sorted⟩ := half_sorted
          (ih left_lt fun i a_le i_lt => middle_items i a_le (by omega))
        have left_items := (left_moved.mono (Nat.le_refl a) (by omega)).forall items middle_items
        obtain ⟨right_moved, right_sorted⟩ := half_sorted (a := a + n - r)
          (ih right_lt fun i le_i i_lt => left_items i (by omega) (by omega))
        rw [← end_eq] at right_moved right_sorted
        exact gathered.sorted order pivot_item middle_items (by omega) (by omega) (by omega)
          left_moved left_sorted right_moved right_sorted

theorem qsort_sorted {a n : Nat} {mem : Nat → α}
    (all : ∀ i, a ≤ i → i < a + n → items (mem i)) :
    Sorted cmp a (a + n) (qsort cmp a n mem) := sortFrom_sorted order (Nat.lt_succ_self n) all

end Sorts

theorem qsort_rearranges (a n : Nat) (mem : Nat → α) :
    Rearranges a (a + n) mem (qsort cmp a n mem) := sortFrom_rearranges cmp (n + 1) a n mem

end Yaffs.Qsort
