import Yaffs.Library.Execution
import Yaffs.Library.Pointers
import Yaffs.TnodeWidths

/-!
# The slab allocator

Tnodes and objects come from slabs of a hundred.  Free tnodes are chained through their first words,
and free objects are in a ring through their list nodes, so the lists of free memory lie in the free
memory itself.
-/

namespace Yaffs

open Memory

/-! ## Lists of the kernel -/

section Lists

variable (size : Nat) (mem : Nat → UInt8)

/-- Add a new entry behind the head of a list. -/
def listAdd (newEntry list : Nat) : Nat → UInt8 :=
  let listNext := loadPtr size mem list
  let mem := storePtr size mem list newEntry
  let mem := storePtr size mem (newEntry + size) list
  let mem := storePtr size mem newEntry listNext
  storePtr size mem (listNext + size) newEntry

/-- Take an entry out of its list. -/
def listDel (entry : Nat) : Nat → UInt8 :=
  let listNext := loadPtr size mem entry
  let listPrev := loadPtr size mem (entry + size)
  let mem := storePtr size mem (listNext + size) listPrev
  storePtr size mem listPrev listNext

/-- Make an entry a list of its own. -/
def initListHead (entry : Nat) : Nat → UInt8 :=
  let mem := storePtr size mem entry entry
  storePtr size mem (entry + size) entry

def listDelInit (entry : Nat) : Nat → UInt8 :=
  let mem := listDel size mem entry
  let mem := storePtr size mem (entry + size) entry
  storePtr size mem entry entry

def listEmpty (entry : Nat) : Bool := decide (loadPtr size mem entry = entry)

variable {size mem} {head entry : Nat} {nodes : List Nat}

/-- The nodes of a ring and its head do not overlap, and pointers can point to them. -/
structure Places (size head : Nat) (nodes : List Nat) : Prop where
  apart : (head :: nodes).Pairwise (Apart (2 * size))
  fits : ∀ x ∈ head :: nodes, x < 256 ^ size

theorem Places.sublist {some_nodes : List Nat} (places : Places size head nodes)
    (sublist : some_nodes.Sublist nodes) : Places size head some_nodes := by
  have longer := List.Sublist.cons_cons head sublist
  exact ⟨places.apart.sublist longer, fun x member => places.fits x (longer.subset member)⟩

theorem ring_initListHead (fits : head < 256 ^ size) : Ring size
    (initListHead size mem head) head [] := by
  refine ⟨?_, ?_⟩
  · rw [initListHead, loadPtr_storePtr_of_apart (.inl le_rfl), loadPtr_storePtr fits]
  · rw [initListHead, loadPtr_storePtr fits]

/-- The rest of a ring does not depend on an entry outside of it, on where the head points to and on
where the first node points back to. -/
theorem linked_of_touched {other : Nat → UInt8} {first : Nat} {rest : List Nat}
    (linked : Linked size mem head first rest)
    (apart : (head :: first :: rest).Pairwise (Apart (2 * size)))
    (entry_apart : ∀ x ∈ head :: first :: rest, Apart (2 * size) entry x)
    (same : ∀ i, (i < entry ∨ entry + 2 * size ≤ i) → (i < head ∨ head + size ≤ i) →
      (i < first + size ∨ first + size + size ≤ i) → other i = mem i) :
    Linked size other head first rest := by
  obtain ⟨head_apart, first_apart⟩ := List.pairwise_cons.mp apart
  have first_apart := (List.pairwise_cons.mp first_apart).1
  apply linked.congr
  · intro x member
    have entry_x := entry_apart x (List.mem_cons_of_mem _ member)
    have head_x := head_apart x member
    have first_x : x = first ∨ Apart (2 * size) first x := by
      obtain rfl | later := List.mem_cons.mp member
      · exact .inl rfl
      · exact .inr (first_apart x later)
    rw [Apart] at entry_x head_x first_x
    apply loadPtr_congr
    intro i lower upper
    exact same i (by omega) (by omega) (by omega)
  · intro x member
    have places : Apart (2 * size) entry x ∧ (x = head ∨ Apart (2 * size) head x) ∧
        Apart (2 * size) first x := by
      obtain later | last := List.mem_append.mp member
      · exact ⟨entry_apart x (by simp [later]), .inr (head_apart x (by simp [later])),
          first_apart x later⟩
      · obtain rfl := List.mem_singleton.mp last
        exact ⟨entry_apart x List.mem_cons_self, .inl rfl, .symm (head_apart first (by simp))⟩
    simp only [Apart] at places
    apply loadPtr_congr
    intro i lower upper
    exact same i (by omega) (by omega) (by omega)

theorem ring_listAdd (ring : Ring size mem head nodes)
    (places : Places size head (entry :: nodes)) :
    Ring size (listAdd size mem entry head) head (entry :: nodes) := by
  obtain ⟨apart, fits⟩ := places
  obtain ⟨head_apart, apart⟩ := List.pairwise_cons.mp apart
  obtain ⟨entry_apart, nodes_apart⟩ := List.pairwise_cons.mp apart
  have head_entry := head_apart entry List.mem_cons_self
  have head_fits := fits head List.mem_cons_self
  have entry_fits := fits entry (List.mem_cons_of_mem _ List.mem_cons_self)
  rw [listAdd, ring.first]
  rw [Apart] at head_entry
  cases nodes with
  | nil =>
    dsimp only [List.headD_nil]
    refine ⟨?_, ?_, ?_, ?_⟩
    · simp (disch := omega) only [loadPtr_storePtr_of_apart, loadPtr_storePtr entry_fits]
    · simp (disch := omega) only [loadPtr_storePtr_of_apart, loadPtr_storePtr head_fits]
    · simp (disch := omega) only [loadPtr_storePtr_of_apart, loadPtr_storePtr head_fits]
    · simp only [loadPtr_storePtr entry_fits]
  | cons first rest =>
    have head_first := head_apart first (by simp)
    have entry_first := entry_apart first List.mem_cons_self
    have first_fits := fits first (by simp)
    rw [Apart] at head_first entry_first
    dsimp only [List.headD_cons]
    refine ⟨?_, ?_, ?_, ?_, ?_⟩
    · simp (disch := omega) only [loadPtr_storePtr_of_apart, loadPtr_storePtr entry_fits]
    · simp (disch := omega) only [loadPtr_storePtr_of_apart, loadPtr_storePtr head_fits]
    · simp (disch := omega) only [loadPtr_storePtr_of_apart, loadPtr_storePtr first_fits]
    · simp only [loadPtr_storePtr entry_fits]
    · apply linked_of_touched ring.2.2
      · exact List.pairwise_cons.mpr ⟨fun x member => head_apart x (List.mem_cons_of_mem _ member),
          nodes_apart⟩
      · intro x member
        obtain rfl | later := List.mem_cons.mp member
        · exact .symm head_entry
        · exact entry_apart x later
      · intro i outside before back
        simp (disch := omega) only [storePtr_of_outside]

theorem ring_listDelInit (ring : Ring size mem head (entry :: nodes))
    (places : Places size head (entry :: nodes)) :
    Ring size (listDelInit size mem entry) head nodes := by
  obtain ⟨apart, fits⟩ := places
  obtain ⟨head_apart, apart⟩ := List.pairwise_cons.mp apart
  obtain ⟨entry_apart, nodes_apart⟩ := List.pairwise_cons.mp apart
  have head_entry := head_apart entry List.mem_cons_self
  have head_fits := fits head List.mem_cons_self
  obtain ⟨-, back, rest⟩ := ring
  rw [Apart] at head_entry
  rw [listDelInit, listDel, back]
  cases nodes with
  | nil =>
    rw [rest.1]
    refine ⟨?_, ?_⟩
    · simp (disch := omega) only [loadPtr_storePtr_of_apart, loadPtr_storePtr head_fits]
    · simp (disch := omega) only [loadPtr_storePtr_of_apart, loadPtr_storePtr head_fits]
  | cons first later =>
    obtain ⟨forward, -, rest⟩ := rest
    have head_first := head_apart first (by simp)
    have entry_first := entry_apart first List.mem_cons_self
    have first_fits := fits first (by simp)
    rw [Apart] at head_first entry_first
    rw [forward]
    refine ⟨?_, ?_, ?_⟩
    · simp (disch := omega) only [loadPtr_storePtr_of_apart, loadPtr_storePtr first_fits]
    · simp (disch := omega) only [loadPtr_storePtr_of_apart, loadPtr_storePtr head_fits]
    · apply linked_of_touched rest
      · exact List.pairwise_cons.mpr ⟨fun x member => head_apart x (List.mem_cons_of_mem _ member),
          nodes_apart⟩
      · intro x member
        obtain rfl | after := List.mem_cons.mp member
        · exact .symm head_entry
        · exact entry_apart x after
      · intro i outside before back
        simp (disch := omega) only [storePtr_of_outside]

/-- Adding an entry changes only list nodes. -/
theorem listAdd_outside (ring : Ring size mem head nodes) {i : Nat}
    (outside : ∀ x ∈ entry :: head :: nodes, i < x ∨ x + 2 * size ≤ i) :
    listAdd size mem entry head i = mem i := by
  have at_entry := outside entry List.mem_cons_self
  have at_head := outside head (by simp)
  have at_first : i < nodes.headD head ∨ nodes.headD head + 2 * size ≤ i := by
    cases nodes with
    | nil => exact at_head
    | cons first rest => exact outside first (by simp)
  rw [listAdd, ring.first]
  simp (disch := omega) only [storePtr_of_outside]

/-- Taking the first entry out changes only list nodes. -/
theorem listDelInit_outside (ring : Ring size mem head (entry :: nodes)) {i : Nat}
    (outside : ∀ x ∈ entry :: head :: nodes, i < x ∨ x + 2 * size ≤ i) :
    listDelInit size mem entry i = mem i := by
  have at_entry := outside entry List.mem_cons_self
  have at_head := outside head (by simp)
  obtain ⟨-, back, rest⟩ := ring
  have next : loadPtr size mem entry = nodes.headD head := by
    cases nodes with
    | nil => exact rest.1
    | cons first later => exact rest.1
  have at_first : i < nodes.headD head ∨ nodes.headD head + 2 * size ≤ i := by
    cases nodes with
    | nil => exact at_head
    | cons first rest => exact outside first (by simp)
  rw [listDelInit, listDel, back, next]
  simp (disch := omega) only [storePtr_of_outside]

end Lists

/-! ## The allocator -/

/-- Sizes that the allocator works with: of pointers, of tnodes (chosen at run time), of objects,
and where the list node of an object lies in it. -/
structure SlabSizes where
  pointer : Nat
  tnode : Nat
  obj : Nat
  siblings : Nat
  pointer_eq : pointer = 4 ∨ pointer = 8
  siblings_inside : siblings + 2 * pointer ≤ obj
  objs_fit : 100 * obj < 256 ^ pointer

/-- The record of the allocator, with the memory that it works in. -/
structure Allocator where
  mem : Nat → UInt8
  nTnodesCreated : Int
  freeTnodes : Nat
  nFreeTnodes : Int
  allocTnodeList : List Nat
  nObjCreated : Int
  /-- Address of the head of the list of free objects. -/
  freeObjs : Nat
  nFreeObjects : Int
  allocatedObjList : List Nat

namespace Allocator

def nTnodesAllocation : Nat := 100

def nObjectsAllocation : Nat := 100

variable (sizes : SlabSizes)

/-- `yaffs_init_raw_tnodes_and_objs`, with what the new memory holds in `n_obj_created`. -/
def initRawTnodesAndObjs (mem : Nat → UInt8) (freeObjs : Nat) (nObjCreated : Int) : Allocator where
  mem := initListHead sizes.pointer mem freeObjs
  nTnodesCreated := 0
  freeTnodes := 0
  nFreeTnodes := 0
  allocTnodeList := []
  nObjCreated := nObjCreated
  freeObjs := freeObjs
  nFreeObjects := 0
  allocatedObjList := []

/-- Distance of a tnode from the start of its slab, computed in 32 bits. -/
def tnodeOffset (i : Nat) : Nat := i * sizes.tnode % 2 ^ 32

/-- Make a slab of tnodes.  `newTnodes` and `tnl` are what `kmalloc` gives.  Without a list element
for the slab the call fails, but its tnodes have been chained already. -/
def createTnodes (nTnodes : Nat) (newTnodes : Option Nat) (tnl : Bool) (allocator : Allocator) :
    Bool × Allocator :=
  if nTnodes < 1 then (true, allocator)
  else
    match newTnodes with
    | none => (false, allocator)
    | some newTnodes =>
      let mem := (List.range (nTnodes - 1)).foldl (fun mem i =>
        storePtr sizes.pointer mem (newTnodes + tnodeOffset sizes i)
          (newTnodes + tnodeOffset sizes (i + 1))) allocator.mem
      let allocator :=
        { allocator with
          mem := storePtr sizes.pointer mem (newTnodes + tnodeOffset sizes (nTnodes - 1))
            allocator.freeTnodes
          freeTnodes := newTnodes
          nFreeTnodes := allocator.nFreeTnodes + nTnodes
          nTnodesCreated := allocator.nTnodesCreated + nTnodes }
      if tnl then
        (true, { allocator with allocTnodeList := newTnodes :: allocator.allocTnodeList })
      else (false, allocator)

/-- Hand out a tnode, or the null pointer. -/
def allocRawTnode (newTnodes : Option Nat) (tnl : Bool) (allocator : Allocator) : Nat × Allocator :=
  let allocator :=
    if allocator.freeTnodes = 0 then
      (createTnodes sizes nTnodesAllocation newTnodes tnl allocator).2
    else allocator
  if allocator.freeTnodes ≠ 0 then
    (allocator.freeTnodes,
      { allocator with
        freeTnodes := loadPtr sizes.pointer allocator.mem allocator.freeTnodes
        nFreeTnodes := allocator.nFreeTnodes - 1 })
  else (0, allocator)

/-- Put a tnode back on the free list. -/
def freeRawTnode (tn : Nat) (allocator : Allocator) : Allocator :=
  if tn ≠ 0 then
    { allocator with
      mem := storePtr sizes.pointer allocator.mem tn allocator.freeTnodes
      freeTnodes := tn
      nFreeTnodes := allocator.nFreeTnodes + 1 }
  else allocator

/-- Make a slab of objects.  Without a list element for it, the slab is given back. -/
def createFreeObjs (nObj : Nat) (newObjs : Option Nat) (list : Bool) (allocator : Allocator) :
    Bool × Allocator :=
  if nObj < 1 then (true, allocator)
  else
    match newObjs, list with
    | some newObjs, true =>
      let mem := (List.range nObj).foldl (fun mem i =>
        listAdd sizes.pointer mem (newObjs + i * sizes.obj + sizes.siblings) allocator.freeObjs)
        allocator.mem
      (true,
        { allocator with
          mem := mem
          nFreeObjects := allocator.nFreeObjects + nObj
          nObjCreated := allocator.nObjCreated + nObj
          allocatedObjList := newObjs :: allocator.allocatedObjList })
    | _, _ => (false, allocator)

/-- Hand out an object, or the null pointer. -/
def allocRawObj (newObjs : Option Nat) (list : Bool) (allocator : Allocator) : Nat × Allocator :=
  let allocator :=
    if listEmpty sizes.pointer allocator.mem allocator.freeObjs then
      (createFreeObjs sizes nObjectsAllocation newObjs list allocator).2
    else allocator
  if ¬listEmpty sizes.pointer allocator.mem allocator.freeObjs then
    let lh := loadPtr sizes.pointer allocator.mem allocator.freeObjs
    (lh - sizes.siblings,
      { allocator with
        mem := listDelInit sizes.pointer allocator.mem lh
        nFreeObjects := allocator.nFreeObjects - 1 })
  else (0, allocator)

/-- Link an object into the free list. -/
def freeRawObj (obj : Nat) (allocator : Allocator) : Allocator :=
  { allocator with
    mem := listAdd sizes.pointer allocator.mem (obj + sizes.siblings) allocator.freeObjs
    nFreeObjects := allocator.nFreeObjects + 1 }

end Allocator

/-! ## Calls -/

/-- An allocator, every slab of tnodes it got, and the tnodes and objects that are in use. -/
structure Slabs where
  allocator : Allocator
  tnodeSlabs : List Nat
  tnodes : List Nat
  objs : List Nat

/-- Calls with what `kmalloc` gives in them, and what the users do with their memory. -/
inductive SlabCall
  | allocTnode (newTnodes : Option Nat) (tnl : Bool)
  | freeTnode (tn : Nat)
  | allocObj (newObjs : Option Nat) (list : Bool)
  | freeObj (obj : Nat)
  | write (mem : Nat → UInt8)

namespace Slabs

open Allocator

variable (sizes : SlabSizes)

def exec : SlabCall → Slabs → Slabs
  | .allocTnode newTnodes tnl, slabs =>
    let answer := slabs.allocator.allocRawTnode sizes newTnodes tnl
    { slabs with
      allocator := answer.2
      tnodeSlabs :=
        if slabs.allocator.freeTnodes = 0 then newTnodes.toList ++ slabs.tnodeSlabs
        else slabs.tnodeSlabs
      tnodes := if answer.1 = 0 then slabs.tnodes else answer.1 :: slabs.tnodes }
  | .freeTnode tn, slabs =>
    { slabs with
      allocator := slabs.allocator.freeRawTnode sizes tn
      tnodes := slabs.tnodes.erase tn }
  | .allocObj newObjs list, slabs =>
    let answer := slabs.allocator.allocRawObj sizes newObjs list
    { slabs with
      allocator := answer.2
      objs := if answer.1 = 0 then slabs.objs else answer.1 :: slabs.objs }
  | .freeObj obj, slabs =>
    { slabs with
      allocator := slabs.allocator.freeRawObj sizes obj
      objs := slabs.objs.erase obj }
  | .write mem, slabs => { slabs with allocator := { slabs.allocator with mem } }

/-- Bytes that `kmalloc` is asked for. -/
def tnodeSlabBytes : Nat := nTnodesAllocation * sizes.tnode % 2 ^ 32

def objSlabBytes : Nat := nObjectsAllocation * sizes.obj

/-- Memory that belongs to the allocator: the head of the free list, and the slabs. -/
def blocks (slabs : Slabs) : List (Nat × Nat) :=
  (slabs.allocator.freeObjs, 2 * sizes.pointer) ::
    (slabs.tnodeSlabs.map fun slab => (slab, tnodeSlabBytes sizes)) ++
    slabs.allocator.allocatedObjList.map fun slab => (slab, objSlabBytes sizes)

/-- `kmalloc` gives memory that can be pointed to and that nobody has. -/
structure Fresh (slabs : Slabs) (address bytes : Nat) : Prop where
  some_address : address ≠ 0
  fits : address + bytes ≤ 256 ^ sizes.pointer
  apart : ∀ block ∈ slabs.blocks sizes,
    address + bytes ≤ block.1 ∨ block.1 + block.2 ≤ address

/-- Only what is in use is freed, and users write only to what they have. -/
def Fits : SlabCall → Slabs → Prop
  | .allocTnode newTnodes _, slabs =>
    slabs.allocator.freeTnodes = 0 → ∀ slab ∈ newTnodes, slabs.Fresh sizes slab
      (tnodeSlabBytes sizes)
  | .freeTnode tn, slabs => tn = 0 ∨ tn ∈ slabs.tnodes
  | .allocObj newObjs _, slabs =>
    listEmpty sizes.pointer slabs.allocator.mem slabs.allocator.freeObjs →
      ∀ slab ∈ newObjs, slabs.Fresh sizes slab (objSlabBytes sizes)
  | .freeObj obj, slabs => obj ∈ slabs.objs
  | .write mem, slabs => ∀ block ∈ slabs.blocks sizes, ∀ i, block.1 ≤ i → i < block.1 + block.2 →
    (∀ tn ∈ slabs.tnodes, i < tn ∨ tn + sizes.tnode ≤ i) →
    (∀ obj ∈ slabs.objs, i < obj ∨ obj + sizes.obj ≤ i) → mem i = slabs.allocator.mem i

/-- Nothing is handed out twice, everything lies in a slab, and the counts are right. -/
structure Sound (slabs : Slabs) : Prop where
  tnodes_apart : slabs.tnodes.Pairwise (Apart sizes.tnode)
  objs_apart : slabs.objs.Pairwise (Apart sizes.obj)
  kinds_apart : ∀ tn ∈ slabs.tnodes, ∀ obj ∈ slabs.objs, tn + sizes.tnode ≤ obj ∨ obj
    + sizes.obj ≤ tn
  tnodes_inside : ∀ tn ∈ slabs.tnodes, ∃ slab ∈ slabs.tnodeSlabs,
    slab ≤ tn ∧ tn + sizes.tnode ≤ slab + tnodeSlabBytes sizes
  objs_inside : ∀ obj ∈ slabs.objs, ∃ slab ∈ slabs.allocator.allocatedObjList,
    slab ≤ obj ∧ obj + sizes.obj ≤ slab + objSlabBytes sizes
  free_tnodes : ∃ nodes, Chain sizes.pointer slabs.allocator.mem slabs.allocator.freeTnodes nodes ∧
    slabs.allocator.nFreeTnodes = nodes.length
  free_objs : ∃ nodes, Ring sizes.pointer slabs.allocator.mem slabs.allocator.freeObjs nodes ∧
    slabs.allocator.nFreeObjects = nodes.length
  tnodes_counted : slabs.allocator.nTnodesCreated - slabs.allocator.nFreeTnodes =
    slabs.tnodes.length
  objs_counted : slabs.allocator.nObjCreated - slabs.allocator.nFreeObjects = slabs.objs.length

/-! ## Books -/

/-- A tnode has room for the pointer of the chain, and a slab of them has a size of 32 bits. -/
structure TnodesFit : Prop where
  room : sizes.pointer ≤ sizes.tnode
  slab : nTnodesAllocation * sizes.tnode < 2 ^ 32

/-- The tnodes of a device that has been set up fit. -/
theorem tnodesFit_of_initialise {geo : Geometry} {shiftsOut : Bool} {fmt : TnodeFormat}
    (set : geo.initialise shiftsOut (8 * sizes.pointer) = some fmt)
    (size_eq : sizes.tnode = fmt.size) :
    TnodesFit sizes := by
  have width := geo.tnodeWidth_facts
  have pointer := sizes.pointer_eq
  rw [Geometry.initialise_size set] at size_eq
  refine ⟨by omega, ?_⟩
  rw [nTnodesAllocation]
  omega

/-- The free tnodes are chained, and together with those in use they are the pieces of the slabs. -/
structure TnodeBooks (slabs : Slabs) (free : List Nat) : Prop where
  chain : Chain sizes.pointer slabs.allocator.mem slabs.allocator.freeTnodes free
  all : (free ++ slabs.tnodes).Perm
    (slabs.tnodeSlabs.flatMap fun base => pieces sizes.tnode base nTnodesAllocation)
  counted : slabs.allocator.nFreeTnodes = free.length
  created : slabs.allocator.nTnodesCreated = (free ++ slabs.tnodes).length

/-- The free objects are in the ring, and together with those in use they are the pieces of the
slabs. The count of created objects starts with what the memory held. -/
structure ObjBooks (start : Int) (slabs : Slabs) (free : List Nat) : Prop where
  ring : Ring sizes.pointer slabs.allocator.mem slabs.allocator.freeObjs
    (free.map fun obj => obj + sizes.siblings)
  all : (free ++ slabs.objs).Perm
    (slabs.allocator.allocatedObjList.flatMap fun base => pieces sizes.obj base nObjectsAllocation)
  counted : slabs.allocator.nFreeObjects = free.length
  created : slabs.allocator.nObjCreated = start + (free ++ slabs.objs).length

/-- The head of the free list and the slabs do not overlap, and pointers can point to them. -/
structure Separate (slabs : Slabs) : Prop where
  head_tnodes : ∀ slab ∈ slabs.tnodeSlabs, slabs.allocator.freeObjs + 2 * sizes.pointer ≤ slab ∨
    slab + tnodeSlabBytes sizes ≤ slabs.allocator.freeObjs
  head_objs : ∀ slab ∈ slabs.allocator.allocatedObjList,
    slabs.allocator.freeObjs + 2 * sizes.pointer ≤ slab ∨
      slab + objSlabBytes sizes ≤ slabs.allocator.freeObjs
  kinds : ∀ slab ∈ slabs.tnodeSlabs, ∀ other ∈ slabs.allocator.allocatedObjList,
    slab + tnodeSlabBytes sizes ≤ other ∨ other + objSlabBytes sizes ≤ slab
  tnodes : slabs.tnodeSlabs.Pairwise (Apart (tnodeSlabBytes sizes))
  objs : slabs.allocator.allocatedObjList.Pairwise (Apart (objSlabBytes sizes))
  head_fits : slabs.allocator.freeObjs + 2 * sizes.pointer ≤ 256 ^ sizes.pointer
  tnodes_fit : ∀ slab ∈ slabs.tnodeSlabs, slab ≠ 0 ∧ slab + tnodeSlabBytes sizes ≤ 256
    ^ sizes.pointer
  objs_fit : ∀ slab ∈ slabs.allocator.allocatedObjList,
    slab ≠ 0 ∧ slab + objSlabBytes sizes ≤ 256 ^ sizes.pointer

variable {sizes} {slabs : Slabs} {free : List Nat} {start : Int}

theorem tnodeSlabBytes_eq (fits : TnodesFit sizes) :
    tnodeSlabBytes sizes = nTnodesAllocation * sizes.tnode :=
  Nat.mod_eq_of_lt fits.slab

theorem TnodeBooks.inside (fits : TnodesFit sizes) (books : slabs.TnodeBooks sizes free) {tn : Nat}
    (member : tn ∈ free ++ slabs.tnodes) : ∃ slab ∈ slabs.tnodeSlabs,
      slab ≤ tn ∧ tn + sizes.tnode ≤ slab + tnodeSlabBytes sizes := by
  obtain ⟨slab, slab_member, piece⟩ := List.mem_flatMap.mp (books.all.mem_iff.mp member)
  refine ⟨slab, slab_member, ?_⟩
  rw [tnodeSlabBytes_eq fits]
  exact mem_pieces piece

theorem ObjBooks.inside (books : slabs.ObjBooks sizes start free) {obj : Nat}
    (member : obj ∈ free ++ slabs.objs) : ∃ slab ∈ slabs.allocator.allocatedObjList,
      slab ≤ obj ∧ obj + sizes.obj ≤ slab + objSlabBytes sizes := by
  obtain ⟨slab, slab_member, piece⟩ := List.mem_flatMap.mp (books.all.mem_iff.mp member)
  exact ⟨slab, slab_member, mem_pieces piece⟩

theorem TnodeBooks.apart (fits : TnodesFit sizes) (books : slabs.TnodeBooks sizes free)
    (separate : slabs.Separate sizes) : (free ++ slabs.tnodes).Pairwise (Apart sizes.tnode) := by
  apply (books.all.pairwise_iff fun apart => Apart.symm apart).mpr
  apply flatMap_pieces_apart
  have slabs_apart := separate.tnodes
  rw [tnodeSlabBytes_eq fits] at slabs_apart
  exact slabs_apart

theorem ObjBooks.apart (books : slabs.ObjBooks sizes start free) (separate : slabs.Separate sizes) :
    (free ++ slabs.objs).Pairwise (Apart sizes.obj) := by
  apply (books.all.pairwise_iff fun apart => Apart.symm apart).mpr
  exact flatMap_pieces_apart separate.objs

/-- A tnode and an object do not overlap. -/
theorem kinds_apart (fits : TnodesFit sizes) {freeObjs : List Nat}
    (tnodeBooks : slabs.TnodeBooks sizes free) (objBooks : slabs.ObjBooks sizes start freeObjs)
    (separate : slabs.Separate sizes) {tn obj : Nat} (tn_member : tn ∈ free ++ slabs.tnodes)
    (obj_member : obj ∈ freeObjs ++ slabs.objs) :
    tn + sizes.tnode ≤ obj ∨ obj + sizes.obj ≤ tn := by
  obtain ⟨slab, slab_member, lower, upper⟩ := tnodeBooks.inside fits tn_member
  obtain ⟨other, other_member, other_lower, other_upper⟩ := objBooks.inside obj_member
  have kinds := separate.kinds slab slab_member other other_member
  omega

/-- Books that are right make the allocator sound, apart from what the count started with. -/
theorem sound_iff_of_books (fits : TnodesFit sizes) {freeObjs : List Nat}
    (tnodeBooks : slabs.TnodeBooks sizes free) (objBooks : slabs.ObjBooks sizes start freeObjs)
    (separate : slabs.Separate sizes) : slabs.Sound sizes ↔ start = 0 := by
  have in_use {tn : Nat} (member : tn ∈ slabs.tnodes) : tn ∈ free ++ slabs.tnodes :=
    List.mem_append_right _ member
  have obj_in_use {obj : Nat} (member : obj ∈ slabs.objs) : obj ∈ freeObjs ++ slabs.objs :=
    List.mem_append_right _ member
  have created := objBooks.created
  have counted := objBooks.counted
  rw [List.length_append] at created
  constructor
  · intro sound
    have objs_counted := sound.objs_counted
    omega
  · intro zero
    refine ⟨?_, ?_, ?_, ?_, ?_, ?_, ?_, ?_, ?_⟩
    · exact (List.pairwise_append.mp (tnodeBooks.apart fits separate)).2.1
    · exact (List.pairwise_append.mp (objBooks.apart separate)).2.1
    · intro tn tn_member obj obj_member
      exact kinds_apart fits tnodeBooks objBooks separate (in_use tn_member) (obj_in_use obj_member)
    · intro tn member
      exact tnodeBooks.inside fits (in_use member)
    · intro obj member
      exact objBooks.inside (obj_in_use member)
    · exact ⟨free, tnodeBooks.chain, tnodeBooks.counted⟩
    · exact ⟨_, objBooks.ring, by rw [List.length_map]; exact counted⟩
    · have tnodes_created := tnodeBooks.created
      have tnodes_counted := tnodeBooks.counted
      rw [List.length_append] at tnodes_created
      omega
    · omega

/-- What other calls leave alone. -/
theorem TnodeBooks.keep {after : Slabs} (fits : TnodesFit sizes)
    (books : slabs.TnodeBooks sizes free)
    (same_free : after.allocator.freeTnodes = slabs.allocator.freeTnodes)
    (same_count : after.allocator.nFreeTnodes = slabs.allocator.nFreeTnodes)
    (same_created : after.allocator.nTnodesCreated = slabs.allocator.nTnodesCreated)
    (same_slabs : after.tnodeSlabs = slabs.tnodeSlabs) (same_tnodes : after.tnodes = slabs.tnodes)
    (same : ∀ tn ∈ free, ∀ i, tn ≤ i → i < tn + sizes.tnode →
      after.allocator.mem i = slabs.allocator.mem i) :
    after.TnodeBooks sizes free := by
  refine ⟨?_, ?_, same_count.trans books.counted, ?_⟩
  · rw [same_free]
    apply books.chain.congr
    intro tn member
    apply loadPtr_congr
    intro i lower upper
    have room := fits.room
    exact same tn member i lower (by omega)
  · rw [same_slabs, same_tnodes]
    exact books.all
  · rw [same_created, same_tnodes]
    exact books.created

theorem ObjBooks.keep {after : Slabs} (books : slabs.ObjBooks sizes start free)
    (same_head : after.allocator.freeObjs = slabs.allocator.freeObjs)
    (same_count : after.allocator.nFreeObjects = slabs.allocator.nFreeObjects)
    (same_created : after.allocator.nObjCreated = slabs.allocator.nObjCreated)
    (same_slabs : after.allocator.allocatedObjList = slabs.allocator.allocatedObjList)
    (same_objs : after.objs = slabs.objs)
    (at_head : ∀ i, slabs.allocator.freeObjs ≤ i → i < slabs.allocator.freeObjs + 2 *
      sizes.pointer →
      after.allocator.mem i = slabs.allocator.mem i)
    (same : ∀ obj ∈ free, ∀ i, obj ≤ i → i < obj + sizes.obj →
      after.allocator.mem i = slabs.allocator.mem i) :
    after.ObjBooks sizes start free := by
  refine ⟨?_, ?_, same_count.trans books.counted, ?_⟩
  · rw [same_head]
    apply books.ring.congr
    intro x member i lower upper
    obtain rfl | later := List.mem_cons.mp member
    · exact at_head i lower upper
    · obtain ⟨obj, obj_member, rfl⟩ := List.mem_map.mp later
      have inside := sizes.siblings_inside
      exact same obj obj_member i (by omega) (by omega)
  · rw [same_slabs, same_objs]
    exact books.all
  · rw [same_created, same_objs]
    exact books.created

theorem Separate.keep {after : Slabs} (separate : slabs.Separate sizes)
    (same_head : after.allocator.freeObjs = slabs.allocator.freeObjs)
    (same_objs : after.allocator.allocatedObjList = slabs.allocator.allocatedObjList)
    (same_slabs : after.tnodeSlabs = slabs.tnodeSlabs) : after.Separate sizes := by
  obtain ⟨head_tnodes, head_objs, kinds, tnodes, objs, head_fits, tnodes_fit, objs_fit⟩ := separate
  rw [← same_slabs] at head_tnodes kinds tnodes tnodes_fit
  rw [← same_objs] at head_objs kinds objs objs_fit
  rw [← same_head] at head_tnodes head_objs head_fits
  exact ⟨head_tnodes, head_objs, kinds, tnodes, objs, head_fits, tnodes_fit, objs_fit⟩

end Slabs

namespace Allocator

open Slabs

variable {sizes : SlabSizes} {allocator : Allocator}

/-- A new slab of tnodes is one chain. -/
theorem createTnodes_chain (fits : TnodesFit sizes)
    (none_free : allocator.freeTnodes = 0) {slab : Nat}
    (some_slab : slab ≠ 0) (slab_fits : slab + tnodeSlabBytes sizes ≤ 256 ^ sizes.pointer)
    (tnl : Bool) : ∃ mem list,
      (createTnodes sizes nTnodesAllocation (some slab) tnl allocator).2 =
        { allocator with
          mem := mem
          nTnodesCreated := allocator.nTnodesCreated + nTnodesAllocation
          freeTnodes := slab
          nFreeTnodes := allocator.nFreeTnodes + nTnodesAllocation
          allocTnodeList := list } ∧
      Chain sizes.pointer mem slab (pieces sizes.tnode slab nTnodesAllocation) ∧
      ∀ i, i < slab ∨ slab + tnodeSlabBytes sizes ≤ i → mem i = allocator.mem i := by
  have room := fits.room
  have small := fits.slab
  rw [tnodeSlabBytes_eq fits, nTnodesAllocation] at slab_fits
  rw [nTnodesAllocation] at small
  have some_bytes : 0 < sizes.pointer := by
    have pointer := sizes.pointer_eq
    omega
  have offset_eq (i : Nat) (le : i ≤ 99) : tnodeOffset sizes i = i * sizes.tnode := by
    have product : i * sizes.tnode ≤ 99 * sizes.tnode := Nat.mul_le_mul_right _ le
    exact Nat.mod_eq_of_lt (by omega)
  obtain ⟨next, outside⟩ := @links_spec _ allocator.mem _ slab 99 room _ offset_eq (by omega)
  have some_tnodes : ¬nTnodesAllocation < 1 := by decide
  have last_index : nTnodesAllocation - 1 = 99 := rfl
  simp only [createTnodes, if_neg some_tnodes, last_index, none_free, offset_eq 99 le_rfl]
  generalize (List.range 99).foldl _ allocator.mem = linked at next outside ⊢
  refine ⟨storePtr sizes.pointer linked (slab + 99 * sizes.tnode) 0,
    if tnl then slab :: allocator.allocTnodeList else allocator.allocTnodeList, ?_, ?_, ?_⟩
  · cases tnl <;> rfl
  · have ended :
        Chain sizes.pointer (storePtr sizes.pointer linked (slab + 99 * sizes.tnode) 0) 0 [] := rfl
    rw [← List.append_nil (pieces sizes.tnode slab nTnodesAllocation)]
    apply chain_pieces ended some_slab
    · intro i i_lt
      have earlier : (i + 1) * sizes.tnode ≤ 99 * sizes.tnode := Nat.mul_le_mul_right _ i_lt
      rw [Nat.succ_mul] at earlier
      rw [loadPtr_storePtr_of_apart (by omega), next i i_lt]
    · exact loadPtr_storePtr (by omega)
  · intro i i_outside
    rw [tnodeSlabBytes_eq fits, nTnodesAllocation] at i_outside
    rw [storePtr_of_outside (by omega), outside i (by omega)]

end Allocator

namespace Slabs

open Allocator

variable {sizes : SlabSizes} {slabs : Slabs} {free freeObjs : List Nat} {start : Int}

/-- The books of an allocator, for some lists of free tnodes and objects. -/
def Kept (sizes : SlabSizes) (start : Int) (slabs : Slabs) : Prop :=
  ∃ free freeObjs, slabs.TnodeBooks sizes free ∧ slabs.ObjBooks sizes start freeObjs ∧
    slabs.Separate sizes

theorem pointer_pos (sizes : SlabSizes) : 0 < sizes.pointer := by
  have pointer := sizes.pointer_eq
  omega

/-- What new memory is apart from. -/
theorem Fresh.places {address bytes : Nat} (fresh : slabs.Fresh sizes address bytes) :
    (address + bytes ≤ slabs.allocator.freeObjs ∨
      slabs.allocator.freeObjs + 2 * sizes.pointer ≤ address) ∧
    (∀ slab ∈ slabs.tnodeSlabs,
      address + bytes ≤ slab ∨ slab + tnodeSlabBytes sizes ≤ address) ∧
    ∀ slab ∈ slabs.allocator.allocatedObjList,
      address + bytes ≤ slab ∨ slab + objSlabBytes sizes ≤ address := by
  have apart := fresh.apart
  refine ⟨?_, ?_, ?_⟩
  · exact apart (slabs.allocator.freeObjs, 2 * sizes.pointer) (by simp [blocks])
  · intro slab member
    exact apart (slab, tnodeSlabBytes sizes) (by simp [blocks, member])
  · intro slab member
    exact apart (slab, objSlabBytes sizes) (by simp [blocks, member])

/-! ## Tnodes -/

/-- Make more tnodes if there are none left. -/
def refillTnodes (sizes : SlabSizes) (newTnodes : Option Nat) (tnl : Bool)
    (slabs : Slabs) : Slabs :=
  if slabs.allocator.freeTnodes = 0 then
    { slabs with
      allocator := (createTnodes sizes nTnodesAllocation newTnodes tnl slabs.allocator).2
      tnodeSlabs := newTnodes.toList ++ slabs.tnodeSlabs }
  else slabs

/-- Hand out the first free tnode. -/
def takeTnode (sizes : SlabSizes) (slabs : Slabs) : Slabs :=
  if slabs.allocator.freeTnodes ≠ 0 then
    { slabs with
      allocator :=
        { slabs.allocator with
          freeTnodes := loadPtr sizes.pointer slabs.allocator.mem slabs.allocator.freeTnodes
          nFreeTnodes := slabs.allocator.nFreeTnodes - 1 }
      tnodes := slabs.allocator.freeTnodes :: slabs.tnodes }
  else slabs

theorem exec_allocTnode (newTnodes : Option Nat) (tnl : Bool) (slabs : Slabs) :
    exec sizes (.allocTnode newTnodes tnl) slabs =
      (slabs.refillTnodes sizes newTnodes tnl).takeTnode sizes := by
  simp only [exec, allocRawTnode, refillTnodes, takeTnode]
  by_cases empty : slabs.allocator.freeTnodes = 0
  · simp only [if_pos empty]
    split <;> simp
  · simp [empty]

theorem refillTnodes_kept (fits : TnodesFit sizes) (kept : slabs.Kept sizes start)
    {newTnodes : Option Nat} (tnl : Bool)
    (fresh : slabs.allocator.freeTnodes = 0 →
      ∀ slab ∈ newTnodes, slabs.Fresh sizes slab (tnodeSlabBytes sizes)) :
    (slabs.refillTnodes sizes newTnodes tnl).Kept sizes start := by
  rw [refillTnodes]
  split
  case isFalse => exact kept
  case isTrue empty =>
    cases newTnodes with
    | none => exact kept
    | some slab =>
      obtain ⟨free, freeObjs, tnodeBooks, objBooks, separate⟩ := kept
      have slab_fresh := fresh empty slab rfl
      obtain ⟨at_head, at_tnodes, at_objs⟩ := slab_fresh.places
      obtain ⟨mem, list, created, chain, outside⟩ := createTnodes_chain fits empty
        slab_fresh.some_address slab_fresh.fits tnl
      have none_free : free = [] := by
        have chained := tnodeBooks.chain
        rw [empty] at chained
        exact chained.eq_nil
      have tnodes_all := tnodeBooks.all
      have tnodes_counted := tnodeBooks.counted
      have tnodes_created := tnodeBooks.created
      rw [none_free] at tnodes_all tnodes_counted tnodes_created
      rw [created]
      refine ⟨pieces sizes.tnode slab nTnodesAllocation, freeObjs, ?_, ?_, ?_⟩
      · refine ⟨chain, ?_, ?_, ?_⟩
        · exact tnodes_all.append_left _
        · simp [tnodes_counted]
        · simp only [List.nil_append, List.length_append, length_pieces] at tnodes_created ⊢
          push_cast
          omega
      · refine objBooks.keep rfl rfl rfl rfl rfl ?_ ?_
        · intro i lower upper
          exact outside i (by omega)
        · intro obj member i lower upper
          obtain ⟨other, other_member, other_lower, other_upper⟩ :=
            objBooks.inside (List.mem_append_left _ member)
          have apart := at_objs other other_member
          exact outside i (by omega)
      · obtain ⟨head_tnodes, head_objs, kinds, tnodes, objs, head_fits, tnodes_fit, objs_fit⟩ :=
          separate
        refine ⟨?_, head_objs, ?_, ?_, objs, head_fits, ?_, objs_fit⟩
        · intro other member
          obtain rfl | old := List.mem_cons.mp member
          · exact at_head.symm
          · exact head_tnodes other old
        · intro other member
          obtain rfl | old := List.mem_cons.mp member
          · exact at_objs
          · exact kinds other old
        · exact List.pairwise_cons.mpr ⟨at_tnodes, tnodes⟩
        · intro other member
          obtain rfl | old := List.mem_cons.mp member
          · exact ⟨slab_fresh.some_address, slab_fresh.fits⟩
          · exact tnodes_fit other old

theorem takeTnode_kept (kept : slabs.Kept sizes start) :
    (slabs.takeTnode sizes).Kept sizes start := by
  rw [takeTnode]
  split
  case isFalse => exact kept
  case isTrue some_free =>
    obtain ⟨free, freeObjs, tnodeBooks, objBooks, separate⟩ := kept
    obtain ⟨rest, rfl, chain⟩ := tnodeBooks.chain.eq_cons some_free
    refine ⟨rest, freeObjs, ?_, ?_, ?_⟩
    · have counted := tnodeBooks.counted
      have created := tnodeBooks.created
      refine ⟨chain, List.perm_middle.trans tnodeBooks.all, ?_, ?_⟩
      · rw [List.length_cons] at counted
        dsimp only
        omega
      · simp only [List.length_append, List.length_cons] at created ⊢
        omega
    · exact objBooks.keep rfl rfl rfl rfl rfl (fun _ _ _ => rfl) fun _ _ _ _ _ => rfl
    · exact separate.keep rfl rfl rfl

theorem freeTnode_kept (fits : TnodesFit sizes) (kept : slabs.Kept sizes start) {tn : Nat}
    (lent : tn = 0 ∨ tn ∈ slabs.tnodes) : (exec sizes (.freeTnode tn) slabs).Kept sizes start := by
  obtain ⟨free, freeObjs, tnodeBooks, objBooks, separate⟩ := kept
  have some_tnode {other : Nat} (member : other ∈ free ++ slabs.tnodes) :
      other ≠ 0 ∧ other + sizes.tnode ≤ 256 ^ sizes.pointer := by
    obtain ⟨slab, slab_member, lower, upper⟩ := tnodeBooks.inside fits member
    have slab_fits := separate.tnodes_fit slab slab_member
    omega
  rw [exec, freeRawTnode]
  obtain rfl | member := lent
  · have not_lent : 0 ∉ slabs.tnodes := fun lent =>
    (some_tnode (List.mem_append_right _ lent)).1 rfl
    rw [List.erase_of_not_mem not_lent]
    exact ⟨free, freeObjs, tnodeBooks, objBooks, separate⟩
  · have in_use : tn ∈ free ++ slabs.tnodes := List.mem_append_right _ member
    obtain ⟨some_tn, tn_fits⟩ := some_tnode in_use
    have room := fits.room
    have bytes := pointer_pos sizes
    have apart := List.pairwise_append.mp (tnodeBooks.apart fits separate)
    obtain ⟨slab, slab_member, lower, upper⟩ := tnodeBooks.inside fits in_use
    have outside {i : Nat} (i_outside : i < slab ∨ slab + tnodeSlabBytes sizes ≤ i) :
        storePtr sizes.pointer slabs.allocator.mem tn slabs.allocator.freeTnodes i =
          slabs.allocator.mem i := storePtr_of_outside (by omega)
    have first_fits : slabs.allocator.freeTnodes < 256 ^ sizes.pointer := by
      by_cases none_free : slabs.allocator.freeTnodes = 0
      · omega
      · obtain ⟨rest, rfl, -⟩ := tnodeBooks.chain.eq_cons none_free
        have first := some_tnode (List.mem_append_left _ List.mem_cons_self)
        omega
    rw [if_pos some_tn]
    refine ⟨tn :: free, freeObjs, ?_, ?_, separate.keep rfl rfl rfl⟩
    · refine ⟨⟨rfl, some_tn, ?_⟩, ?_, ?_, ?_⟩
      · rw [loadPtr_storePtr first_fits]
        apply tnodeBooks.chain.congr
        intro other other_member
        have other_apart := apart.2.2 other other_member tn member
        rw [Apart] at other_apart
        exact loadPtr_storePtr_of_apart (by omega)
      · have moved : (tn :: free ++ slabs.tnodes.erase tn).Perm (free ++ slabs.tnodes) :=
          List.perm_middle.symm.trans ((List.perm_cons_erase member).symm.append_left _)
        exact moved.trans tnodeBooks.all
      · have counted := tnodeBooks.counted
        simp only [List.length_cons]
        omega
      · have created := tnodeBooks.created
        have erased := List.length_erase_of_mem member
        have some_lent := List.length_pos_of_mem member
        simp only [List.length_append, List.length_cons] at created ⊢
        omega
    · refine objBooks.keep rfl rfl rfl rfl rfl ?_ ?_
      · intro i i_lower i_upper
        have at_head := separate.head_tnodes slab slab_member
        exact outside (by omega)
      · intro obj obj_member i i_lower i_upper
        obtain ⟨other, other_member, other_lower, other_upper⟩ :=
          objBooks.inside (List.mem_append_left _ obj_member)
        have kinds := separate.kinds slab slab_member other other_member
        exact outside (by omega)

/-- What users write to their own memory. -/
theorem write_kept (fits : TnodesFit sizes) (kept : slabs.Kept sizes start) {mem : Nat → UInt8}
    (own : Fits sizes (.write mem) slabs) : (exec sizes (.write mem) slabs).Kept sizes start := by
  obtain ⟨free, freeObjs, tnodeBooks, objBooks, separate⟩ := kept
  have tnodes_apart := (List.pairwise_append.mp (tnodeBooks.apart fits separate)).2.2
  have objs_apart := (List.pairwise_append.mp (objBooks.apart separate)).2.2
  refine ⟨free, freeObjs, ?_, ?_, separate.keep rfl rfl rfl⟩
  · refine tnodeBooks.keep fits rfl rfl rfl rfl rfl ?_
    intro tn member i lower upper
    obtain ⟨slab, slab_member, slab_lower, slab_upper⟩ :=
      tnodeBooks.inside fits (List.mem_append_left _ member)
    apply own (slab, tnodeSlabBytes sizes) (by simp [blocks, slab_member]) i
    · exact slab_lower.trans lower
    · dsimp only
      omega
    · intro other other_member
      have apart := tnodes_apart tn member other other_member
      rw [Apart] at apart
      omega
    · intro obj obj_member
      have apart := kinds_apart fits tnodeBooks objBooks separate (List.mem_append_left _ member)
        (List.mem_append_right _ obj_member)
      omega
  · refine objBooks.keep rfl rfl rfl rfl rfl ?_ ?_
    · intro i lower upper
      apply own (slabs.allocator.freeObjs, 2 * sizes.pointer) (by simp [blocks]) i lower upper
      · intro tn member
        obtain ⟨slab, slab_member, slab_lower, slab_upper⟩ :=
          tnodeBooks.inside fits (List.mem_append_right _ member)
        have at_head := separate.head_tnodes slab slab_member
        omega
      · intro obj member
        obtain ⟨slab, slab_member, slab_lower, slab_upper⟩ :=
          objBooks.inside (List.mem_append_right _ member)
        have at_head := separate.head_objs slab slab_member
        omega
    · intro obj member i lower upper
      obtain ⟨slab, slab_member, slab_lower, slab_upper⟩ :=
        objBooks.inside (List.mem_append_left _ member)
      apply own (slab, objSlabBytes sizes) (by simp [blocks, slab_member]) i
      · exact slab_lower.trans lower
      · dsimp only
        omega
      · intro tn tn_member
        have apart := kinds_apart fits tnodeBooks objBooks separate
          (List.mem_append_right _ tn_member)
          (List.mem_append_left _ member)
        omega
      · intro other other_member
        have apart := objs_apart obj member other other_member
        rw [Apart] at apart
        omega

/-! ## Objects -/

/-- The list nodes of objects that do not overlap. -/
theorem places_of_objs {head : Nat} {objs : List Nat} (apart : objs.Pairwise (Apart sizes.obj))
    (head_apart : ∀ obj ∈ objs, head + 2 * sizes.pointer ≤ obj ∨ obj + sizes.obj ≤ head)
    (head_fits : head + 2 * sizes.pointer ≤ 256 ^ sizes.pointer)
    (objs_fit : ∀ obj ∈ objs, obj + sizes.obj ≤ 256 ^ sizes.pointer) :
    Places sizes.pointer head (objs.map fun obj => obj + sizes.siblings) := by
  have inside := sizes.siblings_inside
  have bytes := pointer_pos sizes
  refine ⟨List.pairwise_cons.mpr ⟨?_, ?_⟩, ?_⟩
  · intro node member
    obtain ⟨obj, obj_member, rfl⟩ := List.mem_map.mp member
    have at_head := head_apart obj obj_member
    rw [Apart]
    omega
  · apply List.pairwise_map.mpr
    apply apart.imp
    intro a b disjoint
    rw [Apart] at disjoint ⊢
    omega
  · intro node member
    obtain rfl | later := List.mem_cons.mp member
    · omega
    · obtain ⟨obj, obj_member, rfl⟩ := List.mem_map.mp later
      have fits := objs_fit obj obj_member
      omega

/-- The objects of a new slab are all in the ring. -/
theorem newObjs_ring {mem : Nat → UInt8} {head slab : Nat} (ring : Ring sizes.pointer mem head [])
    (head_apart : slab + objSlabBytes sizes ≤ head ∨ head + 2 * sizes.pointer ≤ slab)
    (head_fits : head + 2 * sizes.pointer ≤ 256 ^ sizes.pointer)
    (slab_fits : slab + objSlabBytes sizes ≤ 256 ^ sizes.pointer) {count : Nat}
    (count_le : count ≤ nObjectsAllocation) :
    let after := (List.range count).foldl (fun mem i =>
      listAdd sizes.pointer mem (slab + i * sizes.obj + sizes.siblings) head) mem
    Ring sizes.pointer after head
        ((pieces sizes.obj slab count).reverse.map fun obj => obj + sizes.siblings) ∧
      ∀ i, (i < slab ∨ slab + objSlabBytes sizes ≤ i) →
        (i < head ∨ head + 2 * sizes.pointer ≤ i) → after i = mem i := by
  induction count with
  | zero => exact ⟨ring, fun _ _ _ => rfl⟩
  | succ count induction =>
    obtain ⟨ring, outside⟩ := induction (by omega)
    have whole : count * sizes.obj + sizes.obj ≤ objSlabBytes sizes := by
      rw [← Nat.succ_mul, objSlabBytes]
      exact Nat.mul_le_mul_right _ count_le
    have inside := sizes.siblings_inside
    have piece_inside {obj : Nat} (member : obj ∈ pieces sizes.obj slab (count + 1)) :
        slab ≤ obj ∧ obj + sizes.obj ≤ slab + objSlabBytes sizes := by
      have bounds := mem_pieces member
      rw [Nat.succ_mul] at bounds
      omega
    have places : Places sizes.pointer head
        ((pieces sizes.obj slab (count + 1)).reverse.map fun obj => obj + sizes.siblings) := by
      apply places_of_objs _ _ head_fits
      · intro obj member
        have bounds := piece_inside (List.mem_reverse.mp member)
        omega
      · apply List.pairwise_reverse.mpr
        exact (pieces_apart sizes.obj slab (count + 1)).imp Apart.symm
      · intro obj member
        have bounds := piece_inside (List.mem_reverse.mp member)
        omega
    rw [pieces_succ, List.reverse_append, List.reverse_singleton, List.singleton_append,
      List.map_cons] at places ⊢
    simp only [List.range_succ, List.foldl_append, List.foldl_cons, List.foldl_nil]
    generalize (List.range count).foldl _ mem = linked at ring outside ⊢
    refine ⟨ring_listAdd ring places, ?_⟩
    intro i i_outside i_head
    rw [listAdd_outside ring, outside i i_outside i_head]
    intro x member
    obtain rfl | rest := List.mem_cons.mp member
    · omega
    obtain rfl | later := List.mem_cons.mp rest
    · exact i_head
    · obtain ⟨obj, obj_member, rfl⟩ := List.mem_map.mp later
      have bounds := mem_pieces (List.mem_reverse.mp obj_member)
      omega

/-- An empty list has no nodes. -/
theorem listEmpty_iff {size head : Nat} {mem : Nat → UInt8} {nodes : List Nat} (bytes : 0 < size)
    (ring : Ring size mem head nodes) (places : Places size head nodes) :
    listEmpty size mem head ↔ nodes = [] := by
  rw [listEmpty, decide_eq_true_eq, ring.first]
  cases nodes with
  | nil => simp
  | cons first rest =>
    have apart := (List.pairwise_cons.mp places.apart).1 first List.mem_cons_self
    rw [Apart] at apart
    simp only [List.headD_cons, reduceCtorEq, iff_false]
    omega

theorem ObjBooks.places (books : slabs.ObjBooks sizes start free)
    (separate : slabs.Separate sizes) :
    Places sizes.pointer slabs.allocator.freeObjs
      ((free ++ slabs.objs).map fun obj => obj + sizes.siblings) := by
  apply places_of_objs (books.apart separate) _ separate.head_fits
  · intro obj member
    obtain ⟨slab, slab_member, lower, upper⟩ := books.inside member
    have fits := separate.objs_fit slab slab_member
    omega
  · intro obj member
    obtain ⟨slab, slab_member, lower, upper⟩ := books.inside member
    have at_head := separate.head_objs slab slab_member
    omega

/-- A byte of a free tnode is no byte of an object or of the head of the list. -/
theorem outside_objs (fits : TnodesFit sizes) (tnodeBooks : slabs.TnodeBooks sizes free)
    (separate : slabs.Separate sizes) {tn i : Nat} (member : tn ∈ free) (lower : tn ≤ i)
    (upper : i < tn + sizes.tnode) :
    (i < slabs.allocator.freeObjs ∨ slabs.allocator.freeObjs + 2 * sizes.pointer ≤ i) ∧
      ∀ slab ∈ slabs.allocator.allocatedObjList, i < slab ∨ slab + objSlabBytes sizes ≤ i := by
  obtain ⟨slab, slab_member, slab_lower, slab_upper⟩ :=
    tnodeBooks.inside fits (List.mem_append_left _ member)
  refine ⟨?_, ?_⟩
  · have at_head := separate.head_tnodes slab slab_member
    omega
  · intro other other_member
    have kinds := separate.kinds slab slab_member other other_member
    omega

/-- Bytes outside the objects and the head are no bytes of list nodes. -/
theorem ObjBooks.outside_nodes (books : slabs.ObjBooks sizes start free) {i : Nat}
    (at_head : i < slabs.allocator.freeObjs ∨ slabs.allocator.freeObjs + 2 * sizes.pointer ≤ i)
    (at_objs : ∀ slab ∈ slabs.allocator.allocatedObjList, i < slab ∨ slab + objSlabBytes sizes ≤ i)
    {x : Nat} (member : x = slabs.allocator.freeObjs ∨
      ∃ obj ∈ free ++ slabs.objs, x = obj + sizes.siblings) :
    i < x ∨ x + 2 * sizes.pointer ≤ i := by
  obtain rfl | ⟨obj, obj_member, rfl⟩ := member
  · exact at_head
  · obtain ⟨slab, slab_member, lower, upper⟩ := books.inside obj_member
    have at_slab := at_objs slab slab_member
    have inside := sizes.siblings_inside
    omega

/-- Make more objects if there are none left. -/
def refillObjs (sizes : SlabSizes) (newObjs : Option Nat) (list : Bool) (slabs : Slabs) : Slabs :=
  if listEmpty sizes.pointer slabs.allocator.mem slabs.allocator.freeObjs then
    { slabs with
      allocator := (createFreeObjs sizes nObjectsAllocation newObjs list slabs.allocator).2 }
  else slabs

/-- Hand out the first free object. -/
def takeObj (sizes : SlabSizes) (slabs : Slabs) : Slabs :=
  if ¬listEmpty sizes.pointer slabs.allocator.mem slabs.allocator.freeObjs then
    let lh := loadPtr sizes.pointer slabs.allocator.mem slabs.allocator.freeObjs
    { slabs with
      allocator :=
        { slabs.allocator with
          mem := listDelInit sizes.pointer slabs.allocator.mem lh
          nFreeObjects := slabs.allocator.nFreeObjects - 1 }
      objs := if lh - sizes.siblings = 0 then slabs.objs else (lh - sizes.siblings) :: slabs.objs }
  else slabs

theorem exec_allocObj (newObjs : Option Nat) (list : Bool) (slabs : Slabs) :
    exec sizes (.allocObj newObjs list) slabs =
      (slabs.refillObjs sizes newObjs list).takeObj sizes := by
  simp only [exec, allocRawObj, refillObjs, takeObj]
  by_cases empty : listEmpty sizes.pointer slabs.allocator.mem slabs.allocator.freeObjs
  · simp only [if_pos empty]
    split <;> simp
  · simp [empty]

theorem refillObjs_kept (fits : TnodesFit sizes) (kept : slabs.Kept sizes start)
    {newObjs : Option Nat} (list : Bool)
    (fresh : listEmpty sizes.pointer slabs.allocator.mem slabs.allocator.freeObjs →
      ∀ slab ∈ newObjs, slabs.Fresh sizes slab (objSlabBytes sizes)) :
    (slabs.refillObjs sizes newObjs list).Kept sizes start := by
  rw [refillObjs]
  split
  case isFalse => exact kept
  case isTrue empty =>
    have some_objs : ¬nObjectsAllocation < 1 := by decide
    cases newObjs with
    | none => exact kept
    | some slab =>
      cases list with
      | false => exact kept
      | true =>
        obtain ⟨free, freeObjs, tnodeBooks, objBooks, separate⟩ := kept
        have slab_fresh := fresh empty slab rfl
        obtain ⟨at_head, at_tnodes, at_objs⟩ := slab_fresh.places
        have none_free : freeObjs = [] := by
          have none_nodes := (listEmpty_iff (pointer_pos sizes) objBooks.ring
            ((objBooks.places separate).sublist
              ((List.sublist_append_left ..).map _))).mp empty
          exact List.map_eq_nil_iff.mp none_nodes
        have objs_all := objBooks.all
        have objs_counted := objBooks.counted
        have objs_created := objBooks.created
        have objs_ring := objBooks.ring
        rw [none_free] at objs_all objs_counted objs_created objs_ring
        obtain ⟨ring, outside⟩ := newObjs_ring objs_ring at_head separate.head_fits
          slab_fresh.fits le_rfl
        simp only [createFreeObjs, if_neg some_objs]
        generalize (List.range nObjectsAllocation).foldl _ slabs.allocator.mem = mem
          at ring outside ⊢
        refine ⟨free, (pieces sizes.obj slab nObjectsAllocation).reverse, ?_, ?_, ?_⟩
        · refine tnodeBooks.keep fits rfl rfl rfl rfl rfl ?_
          intro tn member i lower upper
          have apart := outside_objs fits tnodeBooks separate member lower upper
          obtain ⟨other, other_member, other_lower, other_upper⟩ :=
            tnodeBooks.inside fits (List.mem_append_left _ member)
          have at_other := at_tnodes other other_member
          exact outside i (by omega) apart.1
        · refine ⟨ring, ?_, ?_, ?_⟩
          · have turned := List.reverse_perm (pieces sizes.obj slab nObjectsAllocation)
            exact (turned.append_right _).trans (objs_all.append_left _)
          · simp [objs_counted]
          · simp only [List.nil_append, List.length_append, List.length_reverse,
              length_pieces] at objs_created ⊢
            push_cast
            omega
        · obtain ⟨head_tnodes, head_objs, kinds, tnodes, objs, head_fits, tnodes_fit, objs_fit⟩ :=
            separate
          refine ⟨head_tnodes, ?_, ?_, tnodes, ?_, head_fits, tnodes_fit, ?_⟩
          · intro other member
            obtain rfl | old := List.mem_cons.mp member
            · exact at_head.symm
            · exact head_objs other old
          · intro tnodeSlab tnode_member other member
            obtain rfl | old := List.mem_cons.mp member
            · exact (at_tnodes tnodeSlab tnode_member).symm
            · exact kinds tnodeSlab tnode_member other old
          · exact List.pairwise_cons.mpr ⟨at_objs, objs⟩
          · intro other member
            obtain rfl | old := List.mem_cons.mp member
            · exact ⟨slab_fresh.some_address, slab_fresh.fits⟩
            · exact objs_fit other old

theorem takeObj_kept (fits : TnodesFit sizes) (kept : slabs.Kept sizes start) :
    (slabs.takeObj sizes).Kept sizes start := by
  rw [takeObj]
  split
  case isFalse => exact kept
  case isTrue some_free =>
    obtain ⟨free, freeObjs, tnodeBooks, objBooks, separate⟩ := kept
    have all_places := objBooks.places separate
    have places := all_places.sublist ((List.sublist_append_left freeObjs slabs.objs).map _)
    rw [listEmpty_iff (pointer_pos sizes) objBooks.ring places, List.map_eq_nil_iff] at some_free
    obtain ⟨obj, rest, rfl⟩ := List.exists_cons_of_ne_nil some_free
    have ring := objBooks.ring
    have first := ring.first
    rw [List.map_cons] at ring places first
    rw [List.headD_cons] at first
    obtain ⟨slab, slab_member, lower, upper⟩ :=
      objBooks.inside (List.mem_append_left _ (List.mem_cons_self (a := obj)))
    have slab_fits := separate.objs_fit slab slab_member
    have some_obj : obj ≠ 0 := by omega
    rw [first]
    dsimp only
    rw [Nat.add_sub_cancel, if_neg some_obj]
    refine ⟨free, rest, ?_, ?_, separate.keep rfl rfl rfl⟩
    · refine tnodeBooks.keep fits rfl rfl rfl rfl rfl ?_
      intro tn member i i_lower i_upper
      obtain ⟨at_head, at_objs⟩ := outside_objs fits tnodeBooks separate member i_lower i_upper
      apply listDelInit_outside ring
      intro x x_member
      apply objBooks.outside_nodes at_head at_objs
      obtain rfl | others := List.mem_cons.mp x_member
      · exact .inr ⟨obj, by simp, rfl⟩
      obtain rfl | later := List.mem_cons.mp others
      · exact .inl rfl
      · obtain ⟨other, other_member, rfl⟩ := List.mem_map.mp later
        exact .inr ⟨other, by simp [other_member], rfl⟩
    · have counted := objBooks.counted
      have created := objBooks.created
      refine ⟨ring_listDelInit ring places, List.perm_middle.trans objBooks.all, ?_, ?_⟩
      · rw [List.length_cons] at counted
        dsimp only
        omega
      · simp only [List.length_append, List.length_cons] at created ⊢
        omega

theorem freeObj_kept (fits : TnodesFit sizes) (kept : slabs.Kept sizes start) {obj : Nat}
    (member : obj ∈ slabs.objs) : (exec sizes (.freeObj obj) slabs).Kept sizes start := by
  obtain ⟨free, freeObjs, tnodeBooks, objBooks, separate⟩ := kept
  have moved : (obj :: freeObjs ++ slabs.objs.erase obj).Perm (freeObjs ++ slabs.objs) :=
    List.perm_middle.symm.trans ((List.perm_cons_erase member).symm.append_left _)
  have ring := objBooks.ring
  have places : Places sizes.pointer slabs.allocator.freeObjs
      ((obj :: freeObjs).map fun obj => obj + sizes.siblings) := by
    have in_front : (obj :: freeObjs).Sublist (obj :: freeObjs ++ slabs.objs.erase obj) :=
      List.sublist_append_left ..
    have all_apart := (moved.pairwise_iff fun apart => Apart.symm apart).mpr
      (objBooks.apart separate)
    have at_slab {other : Nat} (other_member : other ∈ obj :: freeObjs) :=
      objBooks.inside (moved.subset (in_front.subset other_member))
    apply places_of_objs (all_apart.sublist in_front) _ separate.head_fits
    · intro other other_member
      obtain ⟨slab, slab_member, lower, upper⟩ := at_slab other_member
      have slab_fits := separate.objs_fit slab slab_member
      omega
    · intro other other_member
      obtain ⟨slab, slab_member, lower, upper⟩ := at_slab other_member
      have at_head := separate.head_objs slab slab_member
      omega
  rw [List.map_cons] at places
  refine ⟨free, obj :: freeObjs, ?_, ?_, separate.keep rfl rfl rfl⟩
  · refine tnodeBooks.keep fits rfl rfl rfl rfl rfl ?_
    intro tn tn_member i i_lower i_upper
    obtain ⟨at_head, at_objs⟩ := outside_objs fits tnodeBooks separate tn_member i_lower i_upper
    apply listAdd_outside ring
    intro x x_member
    apply objBooks.outside_nodes at_head at_objs
    obtain rfl | others := List.mem_cons.mp x_member
    · exact .inr ⟨obj, by simp [member], rfl⟩
    obtain rfl | later := List.mem_cons.mp others
    · exact .inl rfl
    · obtain ⟨other, other_member, rfl⟩ := List.mem_map.mp later
      exact .inr ⟨other, by simp [other_member], rfl⟩
  · have counted := objBooks.counted
    have created := objBooks.created
    have same_length := moved.length_eq
    refine ⟨ring_listAdd ring places, moved.trans objBooks.all, ?_, ?_⟩
    · simp only [exec, freeRawObj, List.length_cons]
      omega
    · simp only [exec, freeRawObj]
      omega

/-! ## Runs -/

theorem exec_kept (fits : TnodesFit sizes) (call : SlabCall) (slabs : Slabs)
    (fit : Fits sizes call slabs) (kept : slabs.Kept sizes start) :
    (exec sizes call slabs).Kept sizes start := by
  cases call with
  | allocTnode newTnodes tnl =>
    rw [exec_allocTnode]
    exact takeTnode_kept (refillTnodes_kept fits kept tnl fit)
  | freeTnode tn => exact freeTnode_kept fits kept fit
  | allocObj newObjs list =>
    rw [exec_allocObj]
    exact takeObj_kept fits (refillObjs_kept fits kept list fit)
  | freeObj obj => exact freeObj_kept fits kept fit
  | write mem => exact write_kept fits kept fit

/-- An allocator that has just been set up, with what its memory held. -/
def fresh (sizes : SlabSizes) (mem : Nat → UInt8) (freeObjs : Nat) (nObjCreated : Int) : Slabs where
  allocator := initRawTnodesAndObjs sizes mem freeObjs nObjCreated
  tnodeSlabs := []
  tnodes := []
  objs := []

theorem fresh_kept (mem : Nat → UInt8) {freeObjs : Nat} (nObjCreated : Int)
    (head_fits : freeObjs + 2 * sizes.pointer ≤ 256 ^ sizes.pointer) :
    (fresh sizes mem freeObjs nObjCreated).Kept sizes nObjCreated := by
  have bytes := pointer_pos sizes
  refine ⟨[], [], ?_, ?_, ?_⟩
  · exact ⟨rfl, .refl _, rfl, rfl⟩
  · exact ⟨ring_initListHead (by omega), .refl _, rfl, by simp [fresh, initRawTnodesAndObjs]⟩
  · exact ⟨nofun, nofun, nofun, .nil, .nil, head_fits, nofun, nofun⟩

/-- After any calls the allocator is sound, if and only if the count of created objects started at
zero. -/
theorem sound_iff {mem : Nat → UInt8} {freeObjs : Nat} {nObjCreated : Int} {calls : List SlabCall}
    (fits : TnodesFit sizes) (head_fits : freeObjs + 2 * sizes.pointer ≤ 256 ^ sizes.pointer)
    (guarded : Execution.Guarded (exec sizes) (Fits sizes) calls
      (fresh sizes mem freeObjs nObjCreated)) :
    (Execution.run (exec sizes) calls (fresh sizes mem freeObjs nObjCreated)).Sound sizes ↔
      nObjCreated = 0 := by
  have step : ∀ call slabs, Fits sizes call slabs → slabs.Kept sizes nObjCreated →
      (exec sizes call slabs).Kept sizes nObjCreated := fun call slabs => exec_kept fits call slabs
  obtain ⟨free, freeObjs, tnodeBooks, objBooks, separate⟩ :=
    Execution.run_invariant step guarded (fresh_kept mem nObjCreated head_fits)
  exact sound_iff_of_books fits tnodeBooks objBooks separate

/-- Sizes on a machine with pointers of 32 bits. -/
def smallSizes : SlabSizes where
  pointer := 4
  tnode := 32
  obj := 124
  siblings := 36
  pointer_eq := .inl rfl
  siblings_inside := by decide
  objs_fit := by decide

theorem sound_firstTnode :
    (Execution.run (exec smallSizes) [.allocTnode (some 4096) true]
      (fresh smallSizes (fun _ => 0) 64 0)).Sound smallSizes := by
  have fits : TnodesFit smallSizes := ⟨by decide, by decide⟩
  have guarded : Execution.Guarded (exec smallSizes) (Fits smallSizes)
    [.allocTnode (some 4096) true]
      (fresh smallSizes (fun _ => 0) 64 0) := by
    refine ⟨?_, trivial⟩
    intro _ slab new
    obtain rfl := Option.some.inj new
    exact ⟨by decide, by decide, by decide⟩
  exact (sound_iff fits (by decide) guarded).mpr rfl

/-- The memory of the record is not cleared, and the count of created objects is not set. -/
theorem not_sound_firstTnode :
    ¬∀ (sizes : SlabSizes) (mem : Nat → UInt8) (freeObjs : Nat) (nObjCreated : Int)
      (calls : List SlabCall), TnodesFit sizes →
      freeObjs + 2 * sizes.pointer ≤ 256 ^ sizes.pointer →
      Execution.Guarded (exec sizes) (Fits sizes) calls (fresh sizes mem freeObjs nObjCreated) →
      (Execution.run (exec sizes) calls (fresh sizes mem freeObjs nObjCreated)).Sound sizes := by
  intro claim
  have guarded : Execution.Guarded (exec smallSizes) (Fits smallSizes)
    [.allocTnode (some 4096) true]
      (fresh smallSizes (fun _ => 0) 64 7) := by
    refine ⟨?_, trivial⟩
    intro _ slab new
    obtain rfl := Option.some.inj new
    exact ⟨by decide, by decide, by decide⟩
  have sound := claim smallSizes (fun _ => 0) 64 7 [.allocTnode (some 4096) true]
    ⟨by decide, by decide⟩ (by decide) guarded
  exact absurd sound.objs_counted (by decide)

end Slabs

end Yaffs
