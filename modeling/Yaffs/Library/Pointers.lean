import Yaffs.Library.Memory
import Yaffs.Library.Words
import Mathlib.Tactic.Ring

/-!
# Linked lists in memory

A pointer is stored as the bytes of a word.  A chain follows pointers until the null pointer, a ring
follows them in both directions and comes back to where it starts.
-/

namespace Memory

variable {size : Nat} {mem other : Nat → UInt8} {pos : Nat}

/-! ## Pointers -/

/-- The pointer at an address. -/
def loadPtr (size : Nat) (mem : Nat → UInt8) (pos : Nat) : Nat :=
  Words.value false (load mem pos size)

/-- Store a pointer at an address. -/
def storePtr (size : Nat) (mem : Nat → UInt8) (pos ptr : Nat) : Nat → UInt8 :=
  put mem pos (Words.bytes false size ptr)

theorem load_congr {count : Nat} (agree : ∀ i, pos ≤ i → i < pos + count → other i = mem i) :
    load other pos count = load mem pos count := by
  induction count generalizing pos with
  | zero => rfl
  | succ count induction =>
    rw [load, load, agree pos le_rfl (by omega),
      induction fun i lower upper => agree i (by omega) (by omega)]

theorem loadPtr_congr (agree : ∀ i, pos ≤ i → i < pos + size → other i = mem i) :
    loadPtr size other pos = loadPtr size mem pos := by
  rw [loadPtr, loadPtr, load_congr agree]

theorem storePtr_of_outside {at' ptr i : Nat} (outside : i < at' ∨ at' + size ≤ i) :
    storePtr size mem at' ptr i = mem i := by
  obtain below | above := outside
  · exact put_of_lt below
  · exact put_of_ge (by rw [Words.length_bytes]; exact above)

@[simp]
theorem loadPtr_storePtr {ptr : Nat} (fits : ptr < 256 ^ size) :
    loadPtr size (storePtr size mem pos ptr) pos = ptr := by
  have stored := (holds_put mem pos (Words.bytes false size ptr)).load
  rw [Words.length_bytes] at stored
  rw [loadPtr, storePtr, stored, Words.value_bytes, Nat.mod_eq_of_lt fits]

theorem loadPtr_storePtr_of_apart {at' ptr : Nat} (apart : pos + size ≤ at' ∨ at' + size ≤ pos) :
    loadPtr size (storePtr size mem at' ptr) pos = loadPtr size mem pos := by
  apply loadPtr_congr
  intro i lower upper
  exact storePtr_of_outside (by omega)

/-! ## Chains -/

/-- The nodes are chained through their first words, and the last one has the null pointer. -/
def Chain (size : Nat) (mem : Nat → UInt8) : Nat → List Nat → Prop
  | head, [] => head = 0
  | head, node :: nodes => head = node ∧ node ≠ 0 ∧ Chain size mem (loadPtr size mem node) nodes

@[simp]
theorem chain_nil {head : Nat} : Chain size mem head [] ↔ head = 0 := Iff.rfl

@[simp]
theorem chain_cons {head node : Nat} {nodes : List Nat} :
    Chain size mem head (node :: nodes) ↔
      head = node ∧ node ≠ 0 ∧ Chain size mem (loadPtr size mem node) nodes := Iff.rfl

theorem Chain.congr {head : Nat} {nodes : List Nat} (chain : Chain size mem head nodes)
    (same : ∀ node ∈ nodes, loadPtr size other node = loadPtr size mem node) :
    Chain size other head nodes := by
  induction nodes generalizing head with
  | nil => exact chain
  | cons node nodes induction =>
    obtain ⟨first, some_node, rest⟩ := chain
    refine ⟨first, some_node, ?_⟩
    rw [same node List.mem_cons_self]
    exact induction rest fun later member => same later (List.mem_cons_of_mem _ member)

/-- A chain that starts with the null pointer has no nodes. -/
theorem Chain.eq_nil {nodes : List Nat} (chain : Chain size mem 0 nodes) : nodes = [] := by
  cases nodes with
  | nil => rfl
  | cons node nodes => exact absurd chain.1.symm chain.2.1

theorem Chain.eq_cons {head : Nat} {nodes : List Nat} (chain : Chain size mem head nodes)
    (some_node : head ≠ 0) :
    ∃ rest, nodes = head :: rest ∧ Chain size mem (loadPtr size mem head) rest := by
  cases nodes with
  | nil => exact absurd chain some_node
  | cons node nodes =>
    obtain ⟨rfl, -, rest⟩ := chain
    exact ⟨nodes, rfl, rest⟩

/-! ## Rings -/

/-- The nodes follow each other from a first one to a last one.  Each points to the next one with
its first word, and the next one points back with its second word. -/
def Linked (size : Nat) (mem : Nat → UInt8) (last : Nat) : Nat → List Nat → Prop
  | node, [] => loadPtr size mem node = last ∧ loadPtr size mem (last + size) = node
  | node, next :: nodes =>
    loadPtr size mem node = next ∧ loadPtr size mem (next + size) = node ∧ Linked size mem
      last next nodes

/-- The nodes form a ring with a head. -/
def Ring (size : Nat) (mem : Nat → UInt8) (head : Nat) (nodes : List Nat) : Prop :=
  Linked size mem head head nodes

theorem Linked.congr {last node : Nat} {nodes : List Nat} (linked : Linked size mem last node nodes)
    (next : ∀ x ∈ node :: nodes, loadPtr size other x = loadPtr size mem x)
    (prev : ∀ x ∈ nodes ++ [last], loadPtr size other (x + size) = loadPtr size mem (x + size)) :
    Linked size other last node nodes := by
  induction nodes generalizing node with
  | nil =>
    refine ⟨?_, ?_⟩
    · rw [next node List.mem_cons_self]
      exact linked.1
    · rw [prev last (by simp)]
      exact linked.2
  | cons first nodes induction =>
    obtain ⟨forward, back, rest⟩ := linked
    refine ⟨?_, ?_, ?_⟩
    · rw [next node List.mem_cons_self]
      exact forward
    · rw [prev first (by simp)]
      exact back
    · exact induction rest (fun x member => next x (List.mem_cons_of_mem _ member))
        fun x member => prev x (List.mem_cons_of_mem _ member)

theorem Ring.congr {head : Nat} {nodes : List Nat} (ring : Ring size mem head nodes)
    (same : ∀ x ∈ head :: nodes, ∀ i, x ≤ i → i < x + 2 * size → other i = mem i) :
    Ring size other head nodes := by
  apply Linked.congr ring
  · intro x member
    apply loadPtr_congr
    intro i lower upper
    exact same x member i lower (by omega)
  · intro x member
    have in_ring : x ∈ head :: nodes := by
      obtain later | last := List.mem_append.mp member
      · exact List.mem_cons_of_mem _ later
      · exact List.mem_cons.mpr (.inl (List.mem_singleton.mp last))
    apply loadPtr_congr
    intro i lower upper
    exact same x in_ring i (by omega) (by omega)

/-- Where a ring goes first. -/
theorem Ring.first {head : Nat} {nodes : List Nat} (ring : Ring size mem head nodes) :
    loadPtr size mem head = nodes.headD head := by
  cases nodes with
  | nil => exact ring.1
  | cons node nodes => exact ring.1

/-! ## Pieces -/

/-- Two pieces of a size do not overlap. -/
def Apart (size a b : Nat) : Prop := a + size ≤ b ∨ b + size ≤ a

theorem Apart.symm {a b : Nat} (apart : Apart size a b) : Apart size b a := Or.symm apart

/-- Consecutive pieces of a size. -/
def pieces (size : Nat) : Nat → Nat → List Nat
  | _, 0 => []
  | base, count + 1 => base :: pieces size (base + size) count

@[simp]
theorem length_pieces (size base count : Nat) : (pieces size base count).length = count := by
  induction count generalizing base with
  | zero => rfl
  | succ count induction => rw [pieces, List.length_cons, induction]

theorem pieces_succ (size base count : Nat) :
    pieces size base (count + 1) = pieces size base count ++ [base + count * size] := by
  induction count generalizing base with
  | zero => simp [pieces]
  | succ count induction =>
    rw [pieces, induction, pieces, List.cons_append]
    congr 3
    ring

theorem mem_pieces {base count piece : Nat} (member : piece ∈ pieces size base count) :
    base ≤ piece ∧ piece + size ≤ base + count * size := by
  induction count generalizing base with
  | zero => exact absurd member List.not_mem_nil
  | succ count induction =>
    obtain rfl | later := List.mem_cons.mp member
    · rw [Nat.succ_mul]
      omega
    · have inside := induction later
      rw [Nat.succ_mul]
      omega

theorem pieces_apart (size base count : Nat) : (pieces size base count).Pairwise (Apart size) := by
  induction count generalizing base with
  | zero => exact .nil
  | succ count induction =>
    refine List.pairwise_cons.mpr ⟨fun piece later => ?_, induction _⟩
    exact .inl (mem_pieces later).1

/-- The pieces of blocks that do not overlap do not overlap either. -/
theorem flatMap_pieces_apart {count : Nat} {blocks : List Nat}
    (apart : blocks.Pairwise (Apart (count * size))) :
    (blocks.flatMap fun base => pieces size base count).Pairwise (Apart size) := by
  refine List.pairwise_flatMap.mpr ⟨fun base _ => pieces_apart size base count, ?_⟩
  apply apart.imp
  intro a b disjoint x x_member y y_member
  have x_inside := mem_pieces x_member
  have y_inside := mem_pieces y_member
  rw [Apart] at disjoint ⊢
  omega

/-- Storing a pointer to the next piece in each piece. -/
theorem links_spec {width base count : Nat} (room : size ≤ width) {offset : Nat → Nat}
    (offset_eq : ∀ i ≤ count, offset i = i * width) (fits : base + count * width < 256 ^ size) :
    let linked := (List.range count).foldl
      (fun mem i => storePtr size mem (base + offset i) (base + offset (i + 1))) mem
    (∀ i < count, loadPtr size linked (base + i * width) = base + (i + 1) * width) ∧
      ∀ i, i < base ∨ base + count * width ≤ i → linked i = mem i := by
  induction count with
  | zero => exact ⟨nofun, fun i _ => rfl⟩
  | succ count induction =>
    rw [Nat.succ_mul] at fits
    obtain ⟨next, outside⟩ := induction (fun i le => offset_eq i (by omega)) (by omega)
    simp only [List.range_succ, List.foldl_append, List.foldl_cons, List.foldl_nil]
    generalize (List.range count).foldl _ mem = linked at next outside ⊢
    rw [offset_eq count (by omega), offset_eq (count + 1) le_rfl, Nat.succ_mul]
    refine ⟨?_, ?_⟩
    · intro i i_lt
      obtain before | last := Nat.lt_succ_iff_lt_or_eq.mp i_lt
      · have earlier : (i + 1) * width ≤ count * width := Nat.mul_le_mul_right _ before
        rw [Nat.succ_mul] at earlier
        rw [loadPtr_storePtr_of_apart (by omega), next i before]
      · rw [last, loadPtr_storePtr (by omega), Nat.succ_mul]
    · intro i i_outside
      rw [storePtr_of_outside (by omega), outside i (by omega)]

/-- Pieces that each point to the next one are a chain. -/
theorem chain_pieces {tail : Nat} {nodes : List Nat} (chain : Chain size mem tail nodes)
    {width base count : Nat} (some_base : base ≠ 0)
    (next : ∀ i < count, loadPtr size mem (base + i * width) = base + (i + 1) * width)
    (last : loadPtr size mem (base + count * width) = tail) :
    Chain size mem base (pieces width base (count + 1) ++ nodes) := by
  induction count generalizing base with
  | zero =>
    rw [Nat.zero_mul, Nat.add_zero] at last
    rw [pieces, pieces, List.singleton_append]
    exact ⟨rfl, some_base, last.symm ▸ chain⟩
  | succ count induction =>
    have first := next 0 (Nat.succ_pos _)
    rw [Nat.zero_mul, Nat.add_zero, Nat.zero_add, Nat.one_mul] at first
    refine ⟨rfl, some_base, ?_⟩
    rw [first]
    apply induction (by omega)
    · intro i i_lt
      have later := next (i + 1) (by omega)
      rw [Nat.succ_mul, Nat.succ_mul (i + 1)] at later
      rw [Nat.succ_mul, show base + width + i * width = base + (i * width + width) by omega, later]
      rw [Nat.succ_mul]
      omega
    · rw [Nat.succ_mul] at last
      rw [← last]
      congr 1
      omega

end Memory
