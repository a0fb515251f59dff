import Yaffs.CheckpointStream
import Yaffs.Qsort
import Yaffs.Scan

/-!
# The order of a scan

The blocks to be scanned are sorted by their sequence numbers, and the scan goes from the last one
back to the first.  The numbers are unsigned, but the comparison keeps them in signed integers and
looks at the sign of their difference.  The order is the order of age as long as any two numbers are
less than half of the range of 32 bits apart.
-/

namespace Yaffs

open Dev (intOfU32 u32OfInt)

/-- A block to be scanned, as the sorting sees it. -/
structure BlockIndex where
  seq : Int
  block : Int
deriving DecidableEq, Inhabited

/-- The difference of two signed integers of 32 bits, which wraps. -/
def intSub (a b : Int) : Int := intOfU32 (u32OfInt (a - b))

/-- Comparison of two blocks to be scanned. -/
def ybicmp (a b : BlockIndex) : Int :=
  if a.seq = b.seq then intSub a.block b.block else intSub a.seq b.seq

/-- The entry for a block found with its sequence number. -/
def toBlockIndex (found : Nat × Nat) : BlockIndex :=
  { seq := intOfU32 found.1
    block := found.2 }

/-- The blocks to be scanned, sorted. -/
def sortBlocks (index : List BlockIndex) : List BlockIndex :=
  (List.range index.length).map
    (Qsort.qsort ybicmp 0 index.length fun i => index.getD i default)

/-- The blocks in the order in which the scan looks at them. -/
def backwards (found : List (Nat × Nat)) : List BlockIndex :=
  (sortBlocks (found.map toBlockIndex)).reverse

/-! ## The order of age -/

/-- The comparison is a total order on the blocks found, it sorts them by their unsigned sequence
numbers, and a scan that found them starts with the newest one, whose number the device goes on
with. -/
structure AgeOrder (found : List (Nat × Nat)) : Prop where
  total : ∀ x ∈ found.map toBlockIndex, ∀ y ∈ found.map toBlockIndex,
    ybicmp x y ≤ 0 ∨ ybicmp y x ≤ 0
  antisymm : ∀ x ∈ found.map toBlockIndex, ∀ y ∈ found.map toBlockIndex,
    ybicmp x y ≤ 0 → ybicmp y x ≤ 0 → x = y
  trans : ∀ x ∈ found.map toBlockIndex, ∀ y ∈ found.map toBlockIndex,
    ∀ z ∈ found.map toBlockIndex, ybicmp x y ≤ 0 → ybicmp y z ≤ 0 → ybicmp x z ≤ 0
  perm : (sortBlocks (found.map toBlockIndex)).Perm (found.map toBlockIndex)
  increasing : (sortBlocks (found.map toBlockIndex)).Pairwise fun x y =>
    u32OfInt x.seq < u32OfInt y.seq
  newest : ∀ {Flash : Type} (T : Tagger Flash) (dev : Dev Flash),
    (dev.scanBlockStates T).1 = found →
      (backwards found).head?.map (u32OfInt ∘ BlockIndex.seq) =
        some (dev.scanBlockStates T).2.seqNumber

/-- Any two sequence numbers are less than half of the range apart. -/
def WithinHalf (found : List (Nat × Nat)) : Prop :=
  ∀ x ∈ found, ∀ y ∈ found, y.1 < x.1 + 2 ^ 31

/-- Blocks that a scan can find: their numbers differ and lie in the range of valid ones. -/
structure Scannable (found : List (Nat × Nat)) : Prop where
  nonempty : found ≠ []
  valid : ∀ x ∈ found, lowestSequenceNumber ≤ x.1 ∧ x.1 < highestSequenceNumber
  distinct : (found.map Prod.fst).Nodup

namespace Dev

variable {Flash : Type} (T : Tagger Flash)

theorem noteScanned_seqNumber (dev : Dev Flash) (block : Nat) (state : BlockState) (seq : Nat) :
    (dev.noteScanned block state seq).seqNumber =
      if isToScan state seq then max dev.seqNumber seq else dev.seqNumber := by
  simp only [noteScanned, isToScan, decide_eq_true_eq]
  cases state
  case needsScan =>
    simp only [true_and]
    split <;> rfl
  all_goals rfl

/-- The sequence number that the scan of the blocks leaves is the largest one found. -/
theorem scanBlockStatesLoop_seqNumber (blocks : List Nat) (dev : Dev Flash) :
    (scanBlockStatesLoop T blocks dev).2.seqNumber =
      ((scanBlockStatesLoop T blocks dev).1.map Prod.fst).foldl max dev.seqNumber := by
  induction blocks generalizing dev with
  | nil => rfl
  | cons block rest ih =>
    simp only [scanBlockStatesLoop]
    rw [ih, noteScanned_seqNumber]
    split <;> rfl

theorem scanBlockStates_seqNumber (dev : Dev Flash) :
    (dev.scanBlockStates T).2.seqNumber =
      ((dev.scanBlockStates T).1.map Prod.fst).foldl max lowestSequenceNumber :=
  scanBlockStatesLoop_seqNumber T dev.blockList _

end Dev

/-! ## What the comparison says -/

theorem u32OfInt_intOfU32 {n : Nat} (n_lt : n < 2 ^ 32) : u32OfInt (intOfU32 n) = n := by
  simp only [intOfU32, u32OfInt]
  split <;> omega

/-- The wrapped difference of two stored numbers that are close to each other. -/
theorem intSub_near {m n : Nat} (m_lt : m < 2 ^ 32) (n_lt : n < 2 ^ 32) (below : n < m + 2 ^ 31)
    (above : m < n + 2 ^ 31) : intSub (intOfU32 m) (intOfU32 n) = m - n := by
  simp only [intSub, intOfU32, u32OfInt]
  split_ifs <;> omega

/-- The wrapped difference of two stored numbers that are far from each other: the smaller one
compares above, or each below the other. -/
theorem intSub_far {m n : Nat} (n_lt : n < 2 ^ 32) (far : m + 2 ^ 31 ≤ n) :
    0 < intSub (intOfU32 m) (intOfU32 n) ∨
      intSub (intOfU32 m) (intOfU32 n) < 0 ∧ intSub (intOfU32 n) (intOfU32 m) < 0 := by
  simp only [intSub, intOfU32, u32OfInt]
  split_ifs <;> omega

theorem ybicmp_self (x : BlockIndex) : ybicmp x x = 0 := by
  simp [ybicmp, intSub, u32OfInt, intOfU32]

section Comparison

variable {found : List (Nat × Nat)}

theorem Scannable.lt {x : Nat × Nat} (scannable : Scannable found) (x_mem : x ∈ found) :
    x.1 < 2 ^ 32 := by
  have valid := (scannable.valid x x_mem).2
  rw [highestSequenceNumber] at valid
  omega

theorem Scannable.eq_of_fst {x y : Nat × Nat} (scannable : Scannable found) (x_mem : x ∈ found)
    (y_mem : y ∈ found) (same : x.1 = y.1) : x = y :=
  List.inj_on_of_nodup_map scannable.distinct x_mem y_mem same

theorem intOfU32_inj {m n : Nat} (m_lt : m < 2 ^ 32) (n_lt : n < 2 ^ 32)
    (same : intOfU32 m = intOfU32 n) : m = n := by
  rw [← u32OfInt_intOfU32 m_lt, same, u32OfInt_intOfU32 n_lt]

/-- Within half of the range the comparison is the difference of the unsigned numbers. -/
theorem ybicmp_near {x y : Nat × Nat} (scannable : Scannable found) (within : WithinHalf found)
    (x_mem : x ∈ found) (y_mem : y ∈ found) :
    ybicmp (toBlockIndex x) (toBlockIndex y) = x.1 - y.1 := by
  have x_lt := scannable.lt x_mem
  have y_lt := scannable.lt y_mem
  by_cases same : (toBlockIndex x).seq = (toBlockIndex y).seq
  · have eq : x = y := scannable.eq_of_fst x_mem y_mem (intOfU32_inj x_lt y_lt same)
    rw [eq, ybicmp_self, sub_self]
  · rw [ybicmp, if_neg same]
    exact intSub_near x_lt y_lt (within x x_mem y y_mem) (within y y_mem x x_mem)

/-- Beyond half of the range it is not. -/
theorem ybicmp_far {x y : Nat × Nat} (y_lt : y.1 < 2 ^ 32) (far : x.1 + 2 ^ 31 ≤ y.1) :
    0 < ybicmp (toBlockIndex x) (toBlockIndex y) ∨
      ybicmp (toBlockIndex x) (toBlockIndex y) < 0 ∧
        ybicmp (toBlockIndex y) (toBlockIndex x) < 0 := by
  have apart : (toBlockIndex x).seq ≠ (toBlockIndex y).seq := by
    intro same
    have eq := intOfU32_inj (by omega) y_lt same
    omega
  rw [ybicmp, ybicmp, if_neg apart, if_neg apart.symm]
  exact intSub_far y_lt far

end Comparison

/-! ## What the sorting makes -/

section Sorting

open Sorting

theorem map_getD_range (index : List BlockIndex) :
    (List.range' 0 index.length).map (fun i => index.getD i default) = index := by
  rw [← List.range_eq_range']
  apply List.ext_getElem
  · simp
  · intro i _ i_lt
    simp [i_lt]

theorem sortBlocks_perm (index : List BlockIndex) : (sortBlocks index).Perm index := by
  have moved := (Qsort.qsort_rearranges ybicmp 0 index.length fun i => index.getD i default).perm
  rwa [map_getD_range, ← List.range_eq_range'] at moved

theorem sortBlocks_pairwise {index : List BlockIndex} (order : Consistent ybicmp (· ∈ index)) :
    (sortBlocks index).Pairwise fun x y => ybicmp x y ≤ 0 := by
  have all : ∀ i, 0 ≤ i → i < 0 + index.length → index.getD i default ∈ index := by
    intro i _ i_lt
    have i_lt : i < index.length := by omega
    rw [List.getD_eq_getElem _ _ i_lt]
    exact List.getElem_mem i_lt
  have sorted := (Qsort.qsort_sorted order all).pairwise
  rwa [← List.range_eq_range'] at sorted

end Sorting

/-! ## When the order is the order of age -/

section AgeOrder

open Sorting

variable {found : List (Nat × Nat)} (scannable : Scannable found)
include scannable

/-- Only an entry itself compares equal to it. -/
theorem ybicmp_eq_zero {x y : BlockIndex} (x_mem : x ∈ found.map toBlockIndex)
    (y_mem : y ∈ found.map toBlockIndex) (zero : ybicmp x y = 0) : x = y := by
  obtain ⟨f, f_mem, rfl⟩ := List.mem_map.mp x_mem
  obtain ⟨g, g_mem, rfl⟩ := List.mem_map.mp y_mem
  have f_lt := scannable.lt f_mem
  have g_lt := scannable.lt g_mem
  have same : (toBlockIndex f).seq = (toBlockIndex g).seq := by
    by_contra apart
    rw [ybicmp, if_neg apart] at zero
    simp only [toBlockIndex, intSub, intOfU32, u32OfInt] at zero apart
    split_ifs at zero apart <;> omega
  rw [scannable.eq_of_fst f_mem g_mem (intOfU32_inj f_lt g_lt same)]

/-- A total order by the comparison has consistent signs. -/
theorem AgeOrder.consistent (order : AgeOrder found) :
    Consistent ybicmp (· ∈ found.map toBlockIndex) := by
  constructor
  · intro x y x_mem y_mem
    have total := order.total x x_mem y y_mem
    constructor
    · intro above
      rcases Int.lt_or_eq_of_le (show ybicmp y x ≤ 0 by omega) with below | zero
      · exact below
      · have same := ybicmp_eq_zero scannable y_mem x_mem zero
        rw [same] at above zero
        omega
    · intro below
      by_contra not_above
      have same := order.antisymm x x_mem y y_mem (by omega) (by omega)
      rw [same, ybicmp_self] at below
      omega
  · exact fun x y z x_mem y_mem z_mem => order.trans x x_mem y y_mem z z_mem

theorem sortBlocks_fst_nodup :
    ((sortBlocks (found.map toBlockIndex)).map (u32OfInt ∘ BlockIndex.seq)).Nodup := by
  have permuted := (sortBlocks_perm (found.map toBlockIndex)).map (u32OfInt ∘ BlockIndex.seq)
  rw [permuted.nodup_iff, List.map_map]
  have stored : found.map ((u32OfInt ∘ BlockIndex.seq) ∘ toBlockIndex) = found.map Prod.fst :=
    List.map_congr_left fun x x_mem => u32OfInt_intOfU32 (scannable.lt x_mem)
  rw [stored]
  exact scannable.distinct

theorem consistent_of_within (within : WithinHalf found) :
    Consistent ybicmp (· ∈ found.map toBlockIndex) := by
  constructor
  · intro x y x_mem y_mem
    obtain ⟨f, f_mem, rfl⟩ := List.mem_map.mp x_mem
    obtain ⟨g, g_mem, rfl⟩ := List.mem_map.mp y_mem
    rw [ybicmp_near scannable within f_mem g_mem, ybicmp_near scannable within g_mem f_mem]
    omega
  · intro x y z x_mem y_mem z_mem
    obtain ⟨f, f_mem, rfl⟩ := List.mem_map.mp x_mem
    obtain ⟨g, g_mem, rfl⟩ := List.mem_map.mp y_mem
    obtain ⟨h, h_mem, rfl⟩ := List.mem_map.mp z_mem
    rw [ybicmp_near scannable within f_mem g_mem, ybicmp_near scannable within g_mem h_mem,
      ybicmp_near scannable within f_mem h_mem]
    omega

theorem sortBlocks_increasing (within : WithinHalf found) :
    (sortBlocks (found.map toBlockIndex)).Pairwise fun x y => u32OfInt x.seq < u32OfInt y.seq := by
  have sorted := sortBlocks_pairwise (consistent_of_within scannable within)
  have apart := List.pairwise_map.mp (sortBlocks_fst_nodup scannable)
  refine (sorted.and apart).imp_of_mem ?_
  intro x y x_mem y_mem both
  have permuted := sortBlocks_perm (found.map toBlockIndex)
  obtain ⟨f, f_mem, rfl⟩ := List.mem_map.mp (permuted.mem_iff.mp x_mem)
  obtain ⟨g, g_mem, rfl⟩ := List.mem_map.mp (permuted.mem_iff.mp y_mem)
  obtain ⟨le, ne⟩ := both
  rw [ybicmp_near scannable within f_mem g_mem] at le
  have f_stored : u32OfInt (toBlockIndex f).seq = f.1 := u32OfInt_intOfU32 (scannable.lt f_mem)
  have g_stored : u32OfInt (toBlockIndex g).seq = g.1 := u32OfInt_intOfU32 (scannable.lt g_mem)
  simp only [Function.comp_apply, ne_eq] at ne
  omega

/-- The last block of the sorting has the number that the device goes on with. -/
theorem backwards_newest (within : WithinHalf found) {Flash : Type} (T : Tagger Flash)
    (dev : Dev Flash) (scanned : (dev.scanBlockStates T).1 = found) :
    (backwards found).head?.map (u32OfInt ∘ BlockIndex.seq) =
      some (dev.scanBlockStates T).2.seqNumber := by
  have permuted := sortBlocks_perm (found.map toBlockIndex)
  have increasing := sortBlocks_increasing scannable within
  rw [dev.scanBlockStates_seqNumber T, scanned, backwards, List.head?_reverse]
  have sorted_ne : sortBlocks (found.map toBlockIndex) ≠ [] := by
    intro empty
    rw [empty, List.nil_perm, List.map_eq_nil_iff] at permuted
    exact scannable.nonempty permuted
  obtain ⟨first, last, sorted_eq⟩ := List.eq_nil_or_concat' _ |>.resolve_left sorted_ne
  have last_mem : last ∈ found.map toBlockIndex := by
    rw [← permuted.mem_iff, sorted_eq]
    exact List.mem_append_right first (List.mem_singleton_self _)
  obtain ⟨newest, newest_mem, rfl⟩ := List.mem_map.mp last_mem
  have stored : u32OfInt (toBlockIndex newest).seq = newest.1 :=
    u32OfInt_intOfU32 (scannable.lt newest_mem)
  rw [sorted_eq] at increasing permuted
  have largest : ∀ x ∈ found, x.1 ≤ newest.1 := by
    intro x x_mem
    have x_sorted : toBlockIndex x ∈ first ++ [toBlockIndex newest] :=
      permuted.mem_iff.mpr (List.mem_map_of_mem x_mem)
    have x_stored : u32OfInt (toBlockIndex x).seq = x.1 := u32OfInt_intOfU32 (scannable.lt x_mem)
    rcases List.mem_append.mp x_sorted with in_first | at_end
    · have lt := (List.pairwise_append.mp increasing).2.2 _ in_first _ (List.mem_singleton_self _)
      omega
    · rw [List.mem_singleton] at at_end
      rw [← x_stored, at_end, stored]
  have number_eq : some ((found.map Prod.fst).foldl max lowestSequenceNumber) = some newest.1 := by
    rw [← List.max?_cons', List.max?_eq_some_iff]
    refine ⟨List.mem_cons_of_mem _ (List.mem_map_of_mem newest_mem), ?_⟩
    intro number number_mem
    rcases List.mem_cons.mp number_mem with rfl | number_found
    · exact (scannable.valid newest newest_mem).1
    · obtain ⟨x, x_mem, rfl⟩ := List.mem_map.mp number_found
      exact largest x x_mem
  rw [number_eq, sorted_eq, List.getLast?_concat, Option.map_some, Function.comp_apply, stored]

end AgeOrder

/-- The comparison and the unsigned numbers put two entries into the same order. -/
def Agree (x y : BlockIndex) : Prop :=
  (ybicmp x y ≤ 0 ∧ u32OfInt x.seq < u32OfInt y.seq) ∨
    (ybicmp y x ≤ 0 ∧ u32OfInt y.seq < u32OfInt x.seq)

instance : Std.Symm Agree := ⟨fun _ _ => Or.symm⟩

/-- The scan goes by age exactly when any two sequence numbers are less than half of the range of
32 bits apart. -/
theorem ageOrder_iff {found : List (Nat × Nat)} (scannable : Scannable found) :
    AgeOrder found ↔ WithinHalf found := by
  constructor
  · intro order x x_mem y y_mem
    by_contra far
    have x_lt := scannable.lt x_mem
    have y_lt := scannable.lt y_mem
    have x_entry : toBlockIndex x ∈ found.map toBlockIndex := List.mem_map_of_mem x_mem
    have y_entry : toBlockIndex y ∈ found.map toBlockIndex := List.mem_map_of_mem y_mem
    have apart : toBlockIndex x ≠ toBlockIndex y := by
      intro same
      have eq := intOfU32_inj x_lt y_lt (congrArg BlockIndex.seq same)
      omega
    rcases ybicmp_far (x := x) y_lt (by omega) with above | ⟨below, below'⟩
    · -- the older block is sorted behind the newer one, against the unsigned numbers
      have sorted := (sortBlocks_pairwise (order.consistent scannable)).and order.increasing
      have agree : (sortBlocks (found.map toBlockIndex)).Pairwise Agree := sorted.imp .inl
      have pair : Agree (toBlockIndex x) (toBlockIndex y) :=
        agree.forall (order.perm.mem_iff.mpr x_entry) (order.perm.mem_iff.mpr y_entry) apart
      rw [Agree] at pair
      have x_stored : u32OfInt (toBlockIndex x).seq = x.1 := u32OfInt_intOfU32 x_lt
      have y_stored : u32OfInt (toBlockIndex y).seq = y.1 := u32OfInt_intOfU32 y_lt
      omega
    · exact apart (order.antisymm _ x_entry _ y_entry (by omega) (by omega))
  · intro within
    have consistent := consistent_of_within scannable within
    constructor
    case total =>
      intro x x_mem y y_mem
      have signs := consistent.antisymm x y x_mem y_mem
      omega
    case antisymm =>
      intro x x_mem y y_mem x_le y_le
      have signs := consistent.antisymm y x y_mem x_mem
      exact ybicmp_eq_zero scannable x_mem y_mem (by omega)
    case trans =>
      exact fun x x_mem y y_mem z z_mem => consistent.trans x y z x_mem y_mem z_mem
    case perm => exact sortBlocks_perm _
    case increasing => exact sortBlocks_increasing scannable within
    case newest => exact fun T dev => backwards_newest scannable within T dev

/-- Three blocks of a flash that was used for a while. -/
theorem ageOrder_young : AgeOrder [(0x1007, 3), (0x1000, 4), (0x1003, 5)] :=
  (ageOrder_iff
    { nonempty := by decide
      valid := by decide
      distinct := by decide }).mpr (by unfold WithinHalf; decide)

/-- With numbers half of the range apart the newer block is taken for the older one. -/
theorem not_ageOrder_far :
    Scannable [(0x1000, 1), (0x80001001, 2)] ∧ ¬AgeOrder [(0x1000, 1), (0x80001001, 2)] := by
  refine ⟨⟨by decide, by decide, by decide⟩, ?_⟩
  intro order
  have increasing := order.increasing
  revert increasing
  decide

end Yaffs
