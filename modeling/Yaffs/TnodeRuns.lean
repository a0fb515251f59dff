import Yaffs.TnodeMaps
import Yaffs.Objects
import Yaffs.RamFlash
import Yaffs.Library.Execution
import Mathlib.Data.Set.Card

/-!
# The tnode tree of a file over runs

Pages are entered in the tree of a file and taken out of it again, in any order, with other work in
between and whichever allocations of tnodes fail.  The tree stands for a finite map all the while: each
successful call changes the entry of its own chunk, and a call that fails changes none.
-/

namespace Yaffs

/-! ## The width of tnodes -/

/-- Halve a number until nothing but its highest bit is left, and count the other bits that are set and
the rounds.  A 32-bit number needs at most 31 rounds. -/
def calcShiftsLoop : Nat → Nat → Nat → Nat → Nat × Nat
  | 0, _, extraBits, shifts => (extraBits, shifts)
  | fuel + 1, x, extraBits, shifts =>
    if 1 < x then
      calcShiftsLoop fuel (x / 2) (if x % 2 = 1 then extraBits + 1 else extraBits) (shifts + 1)
    else (extraBits, shifts)

/-- Number of bits that a count of things needs. -/
def calcShiftsCeiling (x : Nat) : Nat :=
  let counted := calcShiftsLoop 32 x 0 0
  if counted.1 ≠ 0 then counted.2 + 1 else counted.2

theorem calcShiftsLoop_spec {fuel x : Nat} (extraBits shifts : Nat) (bound : x < 2 ^ fuel) :
    let counted := calcShiftsLoop fuel x extraBits shifts
    extraBits ≤ counted.1 ∧ shifts ≤ counted.2 ∧ counted.2 ≤ shifts + (fuel - 1) ∧
      (x ≤ 2 ^ (counted.2 - shifts) ∨
        extraBits < counted.1 ∧ x < 2 ^ (counted.2 - shifts + 1)) := by
  induction fuel generalizing x extraBits shifts with
  | zero =>
    have zero : x = 0 := by simpa using bound
    simp [calcShiftsLoop, zero]
  | succ fuel ih =>
    rw [calcShiftsLoop]
    split
    case isFalse small =>
      exact ⟨le_rfl, le_rfl, Nat.le_add_right .., .inl (by simpa using not_lt.mp small)⟩
    case isTrue large =>
      rw [pow_succ] at bound
      obtain ⟨more, longer, few, enough⟩ := ih (x := x / 2)
        (if x % 2 = 1 then extraBits + 1 else extraBits) (shifts + 1) (by omega)
      generalize calcShiftsLoop fuel (x / 2) (if x % 2 = 1 then extraBits + 1 else extraBits)
        (shifts + 1) = counted at more longer few enough ⊢
      have round : counted.2 - shifts = counted.2 - (shifts + 1) + 1 := by omega
      have positive : 0 < 2 ^ (counted.2 - (shifts + 1)) := Nat.two_pow_pos _
      rw [pow_succ] at enough
      simp only [round, pow_succ]
      have some_rounds : 0 < fuel := by
        refine Nat.pos_of_ne_zero fun none_left => ?_
        rw [none_left] at bound
        omega
      refine ⟨?_, by omega, by omega, ?_⟩
      · split at more <;> omega
      · split at more <;> split at enough <;> omega

theorem le_calcShiftsCeiling {x : Nat} (bound : x < 2 ^ 32) : x ≤ 2 ^ calcShiftsCeiling x := by
  obtain ⟨-, -, -, enough⟩ := calcShiftsLoop_spec 0 0 bound
  simp only [calcShiftsCeiling, Nat.sub_zero] at enough ⊢
  split
  case isTrue more =>
    refine enough.elim (fun low => low.trans ?_) fun high => high.2.le
    exact Nat.pow_le_pow_right (by omega) (by omega)
  case isFalse exact_power => exact enough.resolve_right fun high => by omega

theorem calcShiftsCeiling_le {x : Nat} (bound : x < 2 ^ 32) : calcShiftsCeiling x ≤ 32 := by
  obtain ⟨-, -, few, -⟩ := calcShiftsLoop_spec 0 0 bound
  simp only [calcShiftsCeiling] at few ⊢
  split <;> omega

namespace Dev

variable {Flash : Type} {dev after : Dev Flash}

/-- Set up the width of the tnodes of a device when it is initialised.  The memory of an internal tnode
has a size of its own.  The groups of pages that an entry stands for must not be larger than a block. -/
def setUpTnodes (dev : Dev Flash) (wideTnodesDisabled : Bool) (internalSize : Nat) :
    Option (Dev Flash) :=
  let bits := calcShiftsCeiling (dev.param.chunksPerBlock * (dev.internalEndBlock + 1) % 2 ^ 32)
  let bits := if wideTnodesDisabled ∨ bits % 2 = 0 then bits else bits + 1
  let tnodeWidth := if wideTnodesDisabled ∨ bits < 16 then 16 else bits
  let chunkGrpBits := if bits ≤ tnodeWidth then 0 else bits - tnodeWidth
  let tnodeSize := tnodeWidth * 16 / 8
  let tnodeSize := if tnodeSize < internalSize then internalSize else tnodeSize
  if dev.param.chunksPerBlock < 2 ^ chunkGrpBits then none
  else some { dev with tnodeWidth, chunkGrpBits, tnodeSize }

/-- The tnodes of a device have been set up for its pages. -/
structure TnodesSetUp (dev : Dev Flash) (width grpBits : Nat) : Prop extends
    TnodesFit dev width where
  width_eq : dev.tnodeWidth = width
  grpBits_eq : dev.chunkGrpBits = grpBits
  some_blocks : 0 < dev.internalStartBlock
  group : 2 ^ grpBits ≤ dev.param.chunksPerBlock
  reach : dev.param.chunksPerBlock * (dev.internalEndBlock + 1) ≤ 2 ^ (width + grpBits)
  small : dev.param.chunksPerBlock * (dev.internalEndBlock + 1) ≤ 2 ^ 32

theorem tnodesSetUp_of_setUp {wideTnodesDisabled : Bool} {internalSize : Nat}
    (some_blocks : 0 < dev.internalStartBlock)
    (small : dev.param.chunksPerBlock * (dev.internalEndBlock + 1) < 2 ^ 32)
    (set_up : dev.setUpTnodes wideTnodesDisabled internalSize = some after) :
    after.TnodesSetUp after.tnodeWidth after.chunkGrpBits := by
  have enough := le_calcShiftsCeiling small
  have few := calcShiftsCeiling_le small
  simp only [setUpTnodes, Nat.mod_eq_of_lt small] at set_up
  generalize calcShiftsCeiling (dev.param.chunksPerBlock * (dev.internalEndBlock + 1)) = bits
    at set_up enough few
  generalize even_eq : (if wideTnodesDisabled ∨ bits % 2 = 0 then bits else bits + 1) = even at set_up
  have longer : bits ≤ even ∧ even ≤ 32 ∧ (wideTnodesDisabled ∨ even % 2 = 0) := by
    split at even_eq
    case isTrue case_eq => exact ⟨even_eq.le, by omega, even_eq ▸ case_eq⟩
    case isFalse odd =>
      push Not at odd
      exact ⟨by omega, by omega, .inr (by omega)⟩
  generalize width_eq : (if wideTnodesDisabled ∨ even < 16 then 16 else even) = width at set_up
  have wide : 16 ≤ width ∧ width ≤ 32 ∧ width % 2 = 0 := by
    split at width_eq
    case isTrue => omega
    case isFalse narrow =>
      push Not at narrow
      have is_even := longer.2.2.resolve_left narrow.1
      omega
  generalize grpBits_eq : (if even ≤ width then 0 else even - width) = grpBits at set_up
  have covered : bits ≤ width + grpBits := by split at grpBits_eq <;> omega
  split at set_up
  case isTrue => cases set_up
  case isFalse group =>
    obtain rfl := Option.some.inj set_up
    refine
      { some_bits := by dsimp only; omega
        narrow := wide.2.1
        room := ?_
        width_eq := rfl
        grpBits_eq := rfl
        some_blocks
        group := not_lt.mp group
        reach := enough.trans (Nat.pow_le_pow_right (by omega) covered)
        small := small.le }
    dsimp only
    split <;> omega

end Dev

/-! ## Looking for the page of a chunk -/

/-- Do the tags belong to a chunk of an object? -/
def tagsMatch (tags : ExtTags) (objId chunkObj : Nat) : Bool :=
  decide (tags.chunkId = chunkObj ∧ tags.objId = objId) && !tags.isDeleted

namespace Dev

variable {Flash : Type} (T : Tagger Flash)

/-- Look for the page of a chunk in a group of pages.  The tags are only read if there is a choice. -/
def findChunkInGroup (objId inodeChunk : Nat) : Nat → Nat → Dev Flash → Option Nat × Dev Flash
  | 0, _, dev => (none, dev)
  | left + 1, chunk, dev =>
    if chunk = 0 then (none, dev)
    else if dev.checkChunkBit (chunk / dev.param.chunksPerBlock)
        (chunk % dev.param.chunksPerBlock) then
      if 2 ^ dev.chunkGrpBits = 1 then (some chunk, dev)
      else
        let read := dev.rdChunkTagsNand T chunk
        if tagsMatch read.1.2.2 objId inodeChunk then (some chunk, read.2)
        else findChunkInGroup objId inodeChunk left (chunk + 1) read.2
    else findChunkInGroup objId inodeChunk left (chunk + 1) dev

end Dev

namespace Fs

variable {Flash : Type} (T : Tagger Flash) (fs : Fs Flash)

/-- The page of a chunk of a file. -/
def findChunkInFile (number inodeChunk : Nat) : Option Nat × Fs Flash :=
  match fs.findByNumber number with
  | none => (none, fs)
  | some obj =>
    match obj.file.findTnode0 inodeChunk with
    | none => (none, fs)
    | some words =>
      let chunk := getGroupBase fs.dev.tnodeWidth fs.dev.chunkGrpBits words inodeChunk
      let found := fs.dev.findChunkInGroup T number inodeChunk (2 ^ fs.dev.chunkGrpBits) chunk
      (found.1, { fs with dev := found.2 })

/-- Take the page of a chunk out of the tree of a file. -/
def findDelFileChunk (number inodeChunk : Nat) : Option Nat × Fs Flash :=
  let width := fs.dev.tnodeWidth
  let grpBits := fs.dev.chunkGrpBits
  let found := fs.findChunkInFile T number inodeChunk
  let fs := found.2
  if found.1.isSome then
    (found.1, fs.modifyObj number fun obj =>
      { obj with file := obj.file.store width grpBits inodeChunk 0 })
  else (none, fs)

/-- One round of `yaffs_prune_chunks`, up to the deletion of the page that it returns. -/
def pruneChunk (number inodeChunk : Nat) : Option Nat × Fs Flash :=
  let found := fs.findDelFileChunk T number inodeChunk
  let fs := found.2
  match found.1 with
  | none => (none, fs)
  | some chunk =>
    if chunk < fs.dev.internalStartBlock * fs.dev.param.chunksPerBlock ∨
        (fs.dev.internalEndBlock + 1) * fs.dev.param.chunksPerBlock ≤ chunk then (none, fs)
    else
      (some chunk, fs.modifyObj number fun obj =>
        { obj with nDataChunks := obj.nDataChunks - 1 })

/-- Enter a page in the tree of a file during a scan.  If there is a page already, the tags of the two
tell which one to keep.  The other one is deleted afterwards. -/
def putScannedChunk (number inodeChunk nandChunk : Nat) (keepOld : Bool) :
    Bool × Fs Flash :=
  match fs.findByNumber number with
  | none => (false, fs)
  | some obj =>
    let found := fs.dev.addFindTnode0 obj.file inodeChunk none
    let file := found.2.1
    let fs := { fs with dev := found.2.2 }
    if ¬found.1 then (false, fs.modifyObj number fun obj => { obj with file })
    else
      let width := fs.dev.tnodeWidth
      let grpBits := fs.dev.chunkGrpBits
      let existing := file.entry width grpBits inodeChunk
      if existing ≠ 0 ∧ keepOld then (true, fs.modifyObj number fun obj => { obj with file })
      else
        (true, fs.modifyObj number fun obj =>
          { obj with
            file := file.store width grpBits inodeChunk nandChunk
            nDataChunks := if existing = 0 then obj.nDataChunks + 1 else obj.nDataChunks })

/-- Prune the tree of a file. -/
def pruneTree (number : Nat) : Fs Flash :=
  match fs.findByNumber number with
  | none => fs
  | some obj =>
    let pruned := Dev.pruneTree obj.file fs.dev
    ({ fs with dev := pruned.2 }).modifyObj number fun obj => { obj with file := pruned.1 }

variable {fs} {number : Nat} {obj : Obj}

theorem findByNumber_modifyObj (found : fs.findByNumber number = some obj) (change : Obj → Obj)
    (keeps : ∀ obj, (change obj).objId = obj.objId ∧ (change obj).deferedFree = obj.deferedFree) :
    (fs.modifyObj number change).findByNumber number = some (change obj) := by
  have same : (fun obj : Obj => decide (obj.objId = number)) ∘
      (fun obj => if obj.objId = number then change obj else obj) =
        fun obj => decide (obj.objId = number) := by
    funext obj
    dsimp only [Function.comp]
    split
    · rw [(keeps obj).1]
    · rfl
  simp only [findByNumber] at found
  split at found
  case h_2 => cases found
  case h_1 hit found_eq =>
    split at found
    case isTrue => cases found
    case isFalse kept =>
      obtain rfl := Option.some.inj found
      have is_number : hit.objId = number := by simpa using List.find?_some found_eq
      simp only [findByNumber, modifyObj, Function.update_self, List.find?_map, same, found_eq,
        Option.map_some, is_number, if_true, (keeps hit).2]
      exact if_neg kept

variable {width grpBits : Nat}

/-- What entering a page comes to.  Without memory for a tnode nothing is entered, a missing page only
makes room, and any other page is stored. -/
theorem putChunkInFile_cases (found : fs.findByNumber number = some obj)
    (is_file : obj.variantType = .file) (set_up : fs.dev.TnodesSetUp width grpBits)
    (sane : obj.file.Sane width) (inodeChunk nandChunk : Nat) :
    ∃ made, Dev.RoomMade width grpBits (requiredDepth inodeChunk) obj.file fs.dev made ∧
      Dev.TnodesOnly fs.dev made.2.2 ∧
      ((made.1 = false ∧ fs.putChunkInFile T number inodeChunk nandChunk =
          (false, ({ fs with dev := made.2.2 }).modifyObj number fun obj =>
            { obj with file := made.2.1 })) ∨
        (made.1 = true ∧ nandChunk = 0 ∧ fs.putChunkInFile T number inodeChunk nandChunk =
          (true, ({ fs with dev := made.2.2 }).modifyObj number fun obj =>
            { obj with file := made.2.1 })) ∨
        (made.1 = true ∧ nandChunk ≠ 0 ∧
          (∃ words, made.2.1.findTnode0 inodeChunk = some words) ∧
          fs.putChunkInFile T number inodeChunk nandChunk =
            (true, ({ fs with dev := made.2.2 }).modifyObj number fun obj =>
              { obj with
                file := made.2.1.store width grpBits inodeChunk nandChunk
                nDataChunks :=
                  if made.2.1.entry width grpBits inodeChunk = 0 then obj.nDataChunks + 1
                  else obj.nDataChunks }))) := by
  obtain ⟨made, there⟩ := Dev.addFindTnode0_made grpBits set_up.toTnodesFit sane inodeChunk
  have only := fs.dev.addFindTnode0_only obj.file inodeChunk none
  refine ⟨fs.dev.addFindTnode0 obj.file inodeChunk none, made, only, ?_⟩
  simp only [putChunkInFile, found, is_file, ne_eq, not_true, if_false]
  generalize fs.dev.addFindTnode0 obj.file inodeChunk none = added at made there only ⊢
  cases ok : added.1 with
  | false => exact .inl ⟨rfl, by simp⟩
  | true =>
    by_cases dummy : nandChunk = 0
    · exact .inr (.inl ⟨rfl, dummy, by simp [dummy]⟩)
    · obtain ⟨words, there⟩ := there ok
      have entry : added.2.1.entry width grpBits inodeChunk =
          getGroupBase width grpBits words inodeChunk := by rw [FileVar.entry, there]
      have in_tree : added.2.1.top.find added.2.1.topLevel inodeChunk = some words := by
        rw [FileVar.findTnode0] at there
        split at there
        · cases there
        · exact there
      have same_width : added.2.2.tnodeWidth = width ∧ added.2.2.chunkGrpBits = grpBits := by
        obtain ⟨_, _, _, after_eq⟩ := only
        rw [after_eq]
        exact ⟨set_up.width_eq, set_up.grpBits_eq⟩
      refine .inr (.inr ⟨rfl, dummy, ⟨words, there⟩, ?_⟩)
      simp only [dummy, if_false, in_tree, Option.getD_some, same_width, entry, not_true,
        FileVar.store]

end Fs

/-! ## Pages that are found -/

/-- Is the page one of the device? -/
def Dev.IsPage {Flash : Type} (dev : Dev Flash) (chunk : Nat) : Prop :=
  dev.internalStartBlock * dev.param.chunksPerBlock ≤ chunk ∧
    chunk < (dev.internalEndBlock + 1) * dev.param.chunksPerBlock

namespace Dev

variable {Flash : Type} (T : Tagger Flash) {width grpBits : Nat} {dev after : Dev Flash}

/-- The device has the pages and the tnodes that it had. -/
structure SameLayout (dev after : Dev Flash) : Prop where
  param : after.param = dev.param
  startBlock : after.internalStartBlock = dev.internalStartBlock
  endBlock : after.internalEndBlock = dev.internalEndBlock
  tnodeSize : after.tnodeSize = dev.tnodeSize
  tnodeWidth : after.tnodeWidth = dev.tnodeWidth
  chunkGrpBits : after.chunkGrpBits = dev.chunkGrpBits
  chunkBits : after.chunkBits = dev.chunkBits

theorem SameLayout.refl (dev : Dev Flash) : SameLayout dev dev := ⟨rfl, rfl, rfl, rfl, rfl, rfl, rfl⟩

theorem SameLayout.trans {last : Dev Flash} (first : SameLayout dev after)
    (second : SameLayout after last) : SameLayout dev last :=
  ⟨second.param.trans first.param, second.startBlock.trans first.startBlock,
    second.endBlock.trans first.endBlock, second.tnodeSize.trans first.tnodeSize,
    second.tnodeWidth.trans first.tnodeWidth, second.chunkGrpBits.trans first.chunkGrpBits,
    second.chunkBits.trans first.chunkBits⟩

theorem SameLayout.of_only (only : TnodesOnly dev after) : SameLayout dev after := by
  obtain ⟨_, _, _, rfl⟩ := only
  exact ⟨rfl, rfl, rfl, rfl, rfl, rfl, rfl⟩

theorem TnodesSetUp.of_layout (set_up : dev.TnodesSetUp width grpBits)
    (same : SameLayout dev after) : after.TnodesSetUp width grpBits where
  some_bits := set_up.some_bits
  narrow := set_up.narrow
  room := same.tnodeSize ▸ set_up.room
  width_eq := same.tnodeWidth.trans set_up.width_eq
  grpBits_eq := same.chunkGrpBits.trans set_up.grpBits_eq
  some_blocks := same.startBlock ▸ set_up.some_blocks
  group := same.param ▸ set_up.group
  reach := same.param ▸ same.endBlock ▸ set_up.reach
  small := same.param ▸ same.endBlock ▸ set_up.small

theorem SameLayout.isPage (same : SameLayout dev after) (chunk : Nat) :
    after.IsPage chunk ↔ dev.IsPage chunk := by
  rw [IsPage, IsPage, same.param, same.startBlock, same.endBlock]

theorem rdChunkTagsNand_layout (dev : Dev Flash) (chunk : Nat) :
    SameLayout dev (dev.rdChunkTagsNand T chunk).2 := by
  simp only [rdChunkTagsNand]
  split <;> exact ⟨rfl, rfl, rfl, rfl, rfl, rfl, rfl⟩

/-- A page that is found is in use, and only looked for in a group that is not empty. -/
theorem findChunkInGroup_spec (objId inodeChunk left chunk : Nat) {dev : Dev Flash}
    (inside : ∀ block page, dev.checkChunkBit block page → block ∈ dev.blocks)
    (some_pages : 0 < dev.param.chunksPerBlock) :
    SameLayout dev (findChunkInGroup T objId inodeChunk left chunk dev).2 ∧
      ∀ page, (findChunkInGroup T objId inodeChunk left chunk dev).1 = some page →
        chunk ≠ 0 ∧ dev.IsPage page := by
  induction left generalizing chunk dev with
  | zero => exact ⟨.refl dev, nofun⟩
  | succ left ih =>
    rw [findChunkInGroup]
    split
    case isTrue => exact ⟨.refl dev, nofun⟩
    case isFalse some_chunk =>
      split
      case isFalse =>
        obtain ⟨same, found⟩ := ih (chunk + 1) inside some_pages
        exact ⟨same, fun page eq => ⟨some_chunk, (found page eq).2⟩⟩
      case isTrue in_use =>
        have block := (dev.mem_blocks _).mp (inside _ _ in_use)
        have here : dev.IsPage chunk := by
          constructor
          · exact (Nat.le_div_iff_mul_le some_pages).mp block.1
          · exact (Nat.div_lt_iff_lt_mul some_pages).mp (Nat.lt_succ_of_le block.2)
        split
        · exact ⟨.refl dev, fun page eq => ⟨some_chunk, Option.some.inj eq ▸ here⟩⟩
        · have read := rdChunkTagsNand_layout T dev chunk
          dsimp only
          split
          · exact ⟨read, fun page eq => ⟨some_chunk, Option.some.inj eq ▸ here⟩⟩
          · have inside' : ∀ block page, (dev.rdChunkTagsNand T chunk).2.checkChunkBit block page →
                block ∈ (dev.rdChunkTagsNand T chunk).2.blocks := by
              intro block page set
              rw [checkChunkBit, read.chunkBits] at set
              have listed := inside block page set
              rwa [blocks, read.startBlock, read.endBlock]
            obtain ⟨same, found⟩ := ih (chunk + 1) inside' (read.param ▸ some_pages)
            exact ⟨read.trans same, fun page eq =>
              ⟨some_chunk, (read.isPage page).mp (found page eq).2⟩⟩

end Dev

/-- Looking for a page leaves all files alone, and a page is only found for an entry. -/
theorem Fs.findChunkInFile_spec {Flash : Type} (T : Tagger Flash) {fs : Fs Flash} {number : Nat}
    {obj : Obj} {width grpBits : Nat} (found : fs.findByNumber number = some obj)
    (set_up : fs.dev.TnodesSetUp width grpBits) (inodeChunk : Nat)
    (inside : ∀ block page, fs.dev.checkChunkBit block page → block ∈ fs.dev.blocks) :
    ∃ after, Dev.SameLayout fs.dev after ∧
      (fs.findChunkInFile T number inodeChunk).2 = { fs with dev := after } ∧
      ∀ page, (fs.findChunkInFile T number inodeChunk).1 = some page →
        (∃ words, obj.file.findTnode0 inodeChunk = some words) ∧
          obj.file.entry width grpBits inodeChunk ≠ 0 ∧ fs.dev.IsPage page := by
  have some_pages : 0 < fs.dev.param.chunksPerBlock := (Nat.two_pow_pos _).trans_le set_up.group
  simp only [findChunkInFile, found]
  cases there : obj.file.findTnode0 inodeChunk with
  | none => exact ⟨fs.dev, .refl _, rfl, nofun⟩
  | some words =>
    have entry : obj.file.entry width grpBits inodeChunk =
        getGroupBase fs.dev.tnodeWidth fs.dev.chunkGrpBits words inodeChunk := by
      rw [FileVar.entry, there, set_up.width_eq, set_up.grpBits_eq]
    obtain ⟨same, in_group⟩ := Dev.findChunkInGroup_spec T number inodeChunk
      (2 ^ fs.dev.chunkGrpBits)
      (getGroupBase fs.dev.tnodeWidth fs.dev.chunkGrpBits words inodeChunk) inside some_pages
    refine ⟨_, same, rfl, fun page eq => ⟨⟨words, rfl⟩, ?_, (in_group page eq).2⟩⟩
    rw [entry]
    exact (in_group page eq).1

/-- What deleting the entry of a chunk comes to.  Without a page nothing is changed. -/
theorem Fs.pruneChunk_cases {Flash : Type} (T : Tagger Flash) {fs : Fs Flash} {number : Nat}
    {obj : Obj} {width grpBits : Nat} (found : fs.findByNumber number = some obj)
    (set_up : fs.dev.TnodesSetUp width grpBits) (inodeChunk : Nat)
    (inside : ∀ block page, fs.dev.checkChunkBit block page → block ∈ fs.dev.blocks) :
    ∃ after, Dev.SameLayout fs.dev after ∧
      (fs.pruneChunk T number inodeChunk = (none, { fs with dev := after }) ∨
        ∃ page words, obj.file.findTnode0 inodeChunk = some words ∧
          obj.file.entry width grpBits inodeChunk ≠ 0 ∧
          fs.pruneChunk T number inodeChunk =
            (some page, (({ fs with dev := after }).modifyObj number fun obj =>
              { obj with file := obj.file.store width grpBits inodeChunk 0 }).modifyObj number
                fun obj => { obj with nDataChunks := obj.nDataChunks - 1 })) := by
  obtain ⟨after, same, looked, hit⟩ := findChunkInFile_spec T found set_up inodeChunk inside
  refine ⟨after, same, ?_⟩
  simp only [pruneChunk, findDelFileChunk, looked]
  cases page_eq : (fs.findChunkInFile T number inodeChunk).1 with
  | none => exact .inl rfl
  | some page =>
    obtain ⟨⟨words, there⟩, present, first, last⟩ := hit page page_eq
    have not_daft : ¬(page < after.internalStartBlock * after.param.chunksPerBlock ∨
        (after.internalEndBlock + 1) * after.param.chunksPerBlock ≤ page) := by
      rw [same.startBlock, same.endBlock, same.param]
      omega
    refine .inr ⟨page, words, there, present, ?_⟩
    rw [set_up.width_eq, set_up.grpBits_eq]
    exact if_neg not_daft

/-! ## Runs -/

/-- A file system with the finite map that the tree of one of its files stands for. -/
structure TreeState (Flash : Type) where
  fs : Fs Flash
  map : Nat → Nat := fun _ => 0

/-- What happens to the tree of a file. -/
inductive TreeTurn (Flash : Type)
  | put (inodeChunk nandChunk : Nat)
  | scan (inodeChunk nandChunk : Nat) (keepOld : Bool)
  | delete (inodeChunk : Nat)
  | prune
  /-- Anything that is done elsewhere. -/
  | other (after : Fs Flash)

namespace TreeState

variable {Flash : Type} (T : Tagger Flash) (number width grpBits : Nat)

/-- A turn.  The map is changed at the chunk of a call that succeeds and nowhere else. -/
def exec : TreeTurn Flash → TreeState Flash → TreeState Flash
  | .put inodeChunk nandChunk, state =>
    let done := state.fs.putChunkInFile T number inodeChunk nandChunk
    { fs := done.2
      map :=
        if done.1 ∧ nandChunk ≠ 0 then
          Function.update state.map inodeChunk (groupBase grpBits nandChunk)
        else state.map }
  | .scan inodeChunk nandChunk keepOld, state =>
    let done := state.fs.putScannedChunk number inodeChunk nandChunk keepOld
    { fs := done.2
      map :=
        if done.1 ∧ ¬(state.map inodeChunk ≠ 0 ∧ keepOld) then
          Function.update state.map inodeChunk (groupBase grpBits nandChunk)
        else state.map }
  | .delete inodeChunk, state =>
    let done := state.fs.pruneChunk T number inodeChunk
    { fs := done.2
      map := if done.1.isSome then Function.update state.map inodeChunk 0 else state.map }
  | .prune, state => { state with fs := state.fs.pruneTree number }
  | .other after, state => { state with fs := after }

/-- Pages that are entered are pages of the device, pages in use lie in its blocks, and what is done
elsewhere leaves the tree of the file and the width of tnodes alone. -/
def guard : TreeTurn Flash → TreeState Flash → Prop
  | .put _ nandChunk, state => nandChunk = 0 ∨ state.fs.dev.IsPage nandChunk
  | .scan _ nandChunk _, state => state.fs.dev.IsPage nandChunk
  | .delete _, state => ∀ block page, state.fs.dev.checkChunkBit block page →
    block ∈ state.fs.dev.blocks
  | .prune, _ => True
  | .other after, state =>
    after.dev.TnodesSetUp width grpBits ∧
      ∀ obj, state.fs.findByNumber number = some obj → ∃ obj', after.findByNumber number = some obj' ∧
        obj'.variantType = obj.variantType ∧ obj'.file = obj.file ∧
          obj'.nDataChunks = obj.nDataChunks

/-- The tree of a file stands for a map, and its entries are counted. -/
structure Mapped (width grpBits : Nat) (map : Nat → Nat) (obj : Obj) : Prop where
  is_file : obj.variantType = .file
  sane : obj.file.Sane width
  entry : ∀ chunkId, obj.file.entry width grpBits chunkId = map chunkId
  count : obj.nDataChunks = ({chunkId | map chunkId ≠ 0}.ncard : Int)

/-- So does that of the file in the file system. -/
structure Holds (state : TreeState Flash) : Prop where
  set_up : state.fs.dev.TnodesSetUp width grpBits
  file : ∃ obj, state.fs.findByNumber number = some obj ∧ Mapped width grpBits state.map obj

variable {T number width grpBits} {map : Nat → Nat} {obj : Obj}

/-- Chunk numbers beyond the highest one have no entries. -/
theorem Mapped.finite (mapped : Mapped width grpBits map obj) :
    {chunkId | map chunkId ≠ 0}.Finite := by
  refine (Set.finite_Iic maxChunkId).subset fun chunkId stored => ?_
  rw [Set.mem_ofPred_eq, ← mapped.entry, FileVar.entry_eq mapped.sane.low] at stored
  by_contra large
  exact stored (if_neg fun inside => large inside.1)

/-- Counting the entry that is stored. -/
theorem Mapped.count_update (mapped : Mapped width grpBits map obj) (chunkId : Nat) {value : Nat}
    (page : value ≠ 0) :
    (({other | Function.update map chunkId value other ≠ 0}.ncard : Nat) : Int) =
      if map chunkId = 0 then obj.nDataChunks + 1 else obj.nDataChunks := by
  have inserted : {other | Function.update map chunkId value other ≠ 0} =
      insert chunkId {other | map other ≠ 0} := by
    ext other
    by_cases eq : other = chunkId
    · simp [eq, page]
    · simp [eq]
  rw [inserted, mapped.count]
  split
  case isTrue absent =>
    have new : chunkId ∉ {other | map other ≠ 0} := fun stored => stored absent
    rw [Set.ncard_insert_of_notMem new mapped.finite]
    push_cast
    rfl
  case isFalse present => rw [Set.insert_eq_of_mem (by exact present)]

/-- Counting the entry that is taken out. -/
theorem Mapped.count_erase (mapped : Mapped width grpBits map obj) {chunkId : Nat}
    (present : map chunkId ≠ 0) :
    (({other | Function.update map chunkId 0 other ≠ 0}.ncard : Nat) : Int) =
      obj.nDataChunks - 1 := by
  have erased : {other | Function.update map chunkId 0 other ≠ 0} =
      {other | map other ≠ 0} \ {chunkId} := by
    ext other
    by_cases eq : other = chunkId
    · simp [eq]
    · simp [eq]
  have one_less := Set.ncard_sdiff_singleton_add_one (s := {other | map other ≠ 0}) present
    mapped.finite
  rw [erased, mapped.count]
  omega

/-- A page of the device is stored with its group, which is not that of no page. -/
theorem page_fits {dev : Dev Flash} (set_up : dev.TnodesSetUp width grpBits) {chunk : Nat}
    (page : dev.IsPage chunk) :
    chunk < 2 ^ (width + grpBits) ∧ chunk < 2 ^ 32 ∧ groupBase grpBits chunk ≠ 0 := by
  obtain ⟨first, last⟩ := page
  have reach := set_up.reach
  have small := set_up.small
  rw [mul_comm] at reach small
  refine ⟨by omega, by omega, ?_⟩
  have block : 1 * dev.param.chunksPerBlock ≤ chunk :=
    (Nat.mul_le_mul_right _ set_up.some_blocks).trans first
  have group : 2 ^ grpBits ≤ chunk := by
    rw [one_mul] at block
    exact set_up.group.trans block
  rw [groupBase, Nat.shiftLeft_eq, Nat.shiftRight_eq_div_pow]
  exact Nat.mul_ne_zero (Nat.div_pos group (Nat.two_pow_pos _)).ne' (Nat.two_pow_pos _).ne'

/-- The tree of the file has changed, and with it the map. -/
theorem Holds.of_modify {state : TreeState Flash} {after : Dev Flash} {map' : Nat → Nat}
    {change : Obj → Obj} (found : state.fs.findByNumber number = some obj)
    (set_up : after.TnodesSetUp width grpBits) (mapped : Mapped width grpBits map' (change obj))
    (keeps : ∀ obj, (change obj).objId = obj.objId ∧ (change obj).deferedFree = obj.deferedFree) :
    Holds number width grpBits
      { fs := ({ state.fs with dev := after }).modifyObj number change, map := map' } := by
  have found' : ({ state.fs with dev := after } : Fs Flash).findByNumber number = some obj := found
  exact ⟨set_up, change obj, Fs.findByNumber_modifyObj found' change keeps, mapped⟩

theorem Holds.put {state : TreeState Flash} (holds : Holds number width grpBits state)
    (inodeChunk : Nat) {nandChunk : Nat} (page : nandChunk = 0 ∨ state.fs.dev.IsPage nandChunk) :
    Holds number width grpBits (exec T number grpBits (.put inodeChunk nandChunk) state) := by
  obtain ⟨set_up, obj, found, mapped⟩ := holds
  obtain ⟨made, room, only, outcome⟩ :=
    Fs.putChunkInFile_cases T found mapped.is_file set_up mapped.sane inodeChunk nandChunk
  have set_up' := set_up.of_layout (.of_only only)
  have same (chunkId : Nat) := (room.same chunkId).trans (mapped.entry chunkId)
  obtain ⟨-, eq⟩ | ⟨-, dummy, eq⟩ | ⟨-, real, ⟨words, there⟩, eq⟩ := outcome
  · simp only [exec, eq, Bool.false_eq_true, false_and, if_false]
    exact Holds.of_modify found set_up' ⟨mapped.is_file, room.sane, same, mapped.count⟩
      fun _ => ⟨rfl, rfl⟩
  · subst dummy
    simp only [exec, eq, ne_eq, not_true, and_false, if_false]
    exact Holds.of_modify found set_up' ⟨mapped.is_file, room.sane, same, mapped.count⟩
      fun _ => ⟨rfl, rfl⟩
  · obtain ⟨fits, small, some_group⟩ := page_fits set_up (page.resolve_left real)
    simp only [exec, eq, real, ne_eq, not_false_eq_true, and_self, if_true]
    refine Holds.of_modify found set_up' ⟨mapped.is_file, ?_, fun chunkId => ?_, ?_⟩
      fun _ => ⟨rfl, rfl⟩
    · exact room.sane.store set_up.narrow inodeChunk nandChunk
    · rw [FileVar.entry_store room.sane set_up.some_bits set_up.narrow there fits small,
        Function.update_apply, same]
    · rw [mapped.count_update inodeChunk some_group, ← same]

theorem Holds.scan {state : TreeState Flash} (holds : Holds number width grpBits state)
    (inodeChunk : Nat) {nandChunk : Nat} (page : state.fs.dev.IsPage nandChunk) (keepOld : Bool) :
    Holds number width grpBits (exec T number grpBits (.scan inodeChunk nandChunk keepOld) state) := by
  obtain ⟨set_up, obj, found, mapped⟩ := holds
  obtain ⟨room, there⟩ := Dev.addFindTnode0_made grpBits set_up.toTnodesFit mapped.sane inodeChunk
  have only := state.fs.dev.addFindTnode0_only obj.file inodeChunk none
  have set_up' := set_up.of_layout (.of_only only)
  have same (chunkId : Nat) := (room.same chunkId).trans (mapped.entry chunkId)
  simp only [exec, Fs.putScannedChunk, found]
  generalize state.fs.dev.addFindTnode0 obj.file inodeChunk none = made at room there set_up' same ⊢
  cases ok : made.1 with
  | false =>
    simp only [Bool.false_eq_true, not_false_eq_true, if_true, false_and, if_false]
    exact Holds.of_modify found set_up' ⟨mapped.is_file, room.sane, same, mapped.count⟩
      fun _ => ⟨rfl, rfl⟩
  | true =>
    obtain ⟨words, there⟩ := there ok
    obtain ⟨fits, small, some_group⟩ := page_fits set_up page
    simp only [not_true, if_false, set_up'.width_eq, set_up'.grpBits_eq, same inodeChunk]
    by_cases kept : state.map inodeChunk ≠ 0 ∧ keepOld
    · simp only [if_pos kept, true_and]
      rw [if_neg (not_not.mpr kept)]
      exact Holds.of_modify found set_up' ⟨mapped.is_file, room.sane, same, mapped.count⟩
        fun _ => ⟨rfl, rfl⟩
    · simp only [if_neg kept, true_and]
      rw [if_pos kept]
      refine Holds.of_modify found set_up' ⟨mapped.is_file, ?_, fun chunkId => ?_, ?_⟩
        fun _ => ⟨rfl, rfl⟩
      · exact room.sane.store set_up.narrow inodeChunk nandChunk
      · rw [FileVar.entry_store room.sane set_up.some_bits set_up.narrow there fits small,
          Function.update_apply, same]
      · exact (mapped.count_update inodeChunk some_group).symm

theorem Holds.prune {state : TreeState Flash} (holds : Holds number width grpBits state) :
    Holds number width grpBits (exec T number grpBits .prune state) := by
  obtain ⟨set_up, obj, found, mapped⟩ := holds
  obtain ⟨sane, only, same⟩ := Dev.pruneTree_sane grpBits mapped.sane state.fs.dev
  simp only [exec, Fs.pruneTree, found]
  exact Holds.of_modify found (set_up.of_layout (.of_only only))
    ⟨mapped.is_file, sane, fun chunkId => (same chunkId).trans (mapped.entry chunkId), mapped.count⟩
    fun _ => ⟨rfl, rfl⟩

theorem Holds.delete {state : TreeState Flash} (holds : Holds number width grpBits state)
    (inodeChunk : Nat)
    (inside : ∀ block page, state.fs.dev.checkChunkBit block page → block ∈ state.fs.dev.blocks) :
    Holds number width grpBits (exec T number grpBits (.delete inodeChunk) state) := by
  obtain ⟨set_up, obj, found, mapped⟩ := holds
  obtain ⟨after, same, eq | ⟨page, words, there, present, eq⟩⟩ :=
    Fs.pruneChunk_cases T found set_up inodeChunk inside
  · simp only [exec, eq]
    exact ⟨set_up.of_layout same, obj, found, mapped⟩
  · have found' : ({ state.fs with dev := after } : Fs Flash).findByNumber number = some obj := found
    have cleared := Fs.findByNumber_modifyObj found' (fun obj =>
      { obj with file := obj.file.store width grpBits inodeChunk 0 }) fun _ => ⟨rfl, rfl⟩
    have counted := Fs.findByNumber_modifyObj cleared (fun obj =>
      { obj with nDataChunks := obj.nDataChunks - 1 }) fun _ => ⟨rfl, rfl⟩
    simp only [exec, eq, Option.isSome_some, if_true]
    refine ⟨set_up.of_layout same, _, counted, mapped.is_file, ?_, fun chunkId => ?_, ?_⟩
    · exact mapped.sane.store set_up.narrow inodeChunk 0
    · dsimp only
      rw [FileVar.entry_store mapped.sane set_up.some_bits set_up.narrow there (Nat.two_pow_pos _)
        (Nat.two_pow_pos 32), Function.update_apply, mapped.entry, groupBase, Nat.zero_shiftRight,
        Nat.zero_shiftLeft]
    · exact (mapped.count_erase (mapped.entry inodeChunk ▸ present)).symm

theorem Holds.exec {state : TreeState Flash} (holds : Holds number width grpBits state)
    (turn : TreeTurn Flash) (guarded : guard number width grpBits turn state) :
    Holds number width grpBits (exec T number grpBits turn state) := by
  cases turn with
  | put inodeChunk nandChunk => exact holds.put inodeChunk guarded
  | scan inodeChunk nandChunk keepOld => exact holds.scan inodeChunk guarded keepOld
  | delete inodeChunk => exact holds.delete inodeChunk guarded
  | prune => exact holds.prune
  | other after =>
    obtain ⟨-, obj, found, mapped⟩ := holds
    obtain ⟨set_up, kept⟩ := guarded
    obtain ⟨obj', found', type, file, count⟩ := kept obj found
    exact ⟨set_up, obj', found', type.trans mapped.is_file, file ▸ mapped.sane, file ▸ mapped.entry,
      count.trans mapped.count⟩

/-- Is a page entered for a chunk? -/
def Stores (chunkId : Nat) : TreeTurn Flash → Prop
  | .put inodeChunk nandChunk => inodeChunk = chunkId ∧ nandChunk ≠ 0
  | .scan inodeChunk _ _ => inodeChunk = chunkId
  | _ => False

/-- A chunk that nothing is stored for stays without an entry. -/
theorem map_exec_of_not_stores (T : Tagger Flash) (number grpBits : Nat)
    {state : TreeState Flash} {turn : TreeTurn Flash} {chunkId : Nat} (not_stored : ¬Stores chunkId turn) (absent : state.map chunkId = 0) :
    (TreeState.exec T number grpBits turn state).map chunkId = 0 := by
  cases turn with
  | put inodeChunk nandChunk =>
    simp only [TreeState.exec]
    split
    case isFalse => exact absent
    case isTrue stored =>
      have ne : chunkId ≠ inodeChunk := fun eq => not_stored ⟨eq.symm, stored.2⟩
      rw [Function.update_of_ne ne]
      exact absent
  | scan inodeChunk nandChunk keepOld =>
    simp only [TreeState.exec]
    split
    case isFalse => exact absent
    case isTrue =>
      have ne : chunkId ≠ inodeChunk := fun eq => not_stored eq.symm
      rw [Function.update_of_ne ne]
      exact absent
  | delete inodeChunk =>
    simp only [TreeState.exec]
    split
    · rw [Function.update_apply]
      split
      · rfl
      · exact absent
    · exact absent
  | prune => exact absent
  | other after => exact absent

theorem map_run_of_not_stores (T : Tagger Flash) (number grpBits : Nat)
    {state : TreeState Flash} {turns : List (TreeTurn Flash)} {chunkId : Nat}
    (not_stored : ∀ turn ∈ turns, ¬Stores chunkId turn)
    (absent : state.map chunkId = 0) :
    (Execution.run (TreeState.exec T number grpBits) turns state).map chunkId = 0 := by
  induction turns generalizing state with
  | nil => exact absent
  | cons turn turns ih =>
    have here := map_exec_of_not_stores T number grpBits (not_stored turn List.mem_cons_self) absent
    exact ih (fun turn listed => not_stored turn (List.mem_cons_of_mem _ listed)) here

/-- An entry of a file, zero if there is no such file. -/
def entryOf (number width grpBits : Nat) (fs : Fs Flash) (chunkId : Nat) : Nat :=
  match fs.findByNumber number with
  | none => 0
  | some obj => obj.file.entry width grpBits chunkId

theorem Holds.entryOf {state : TreeState Flash} (holds : Holds number width grpBits state)
    (chunkId : Nat) : entryOf number width grpBits state.fs chunkId = state.map chunkId := by
  obtain ⟨-, obj, found, mapped⟩ := holds
  rw [TreeState.entryOf, found]
  exact mapped.entry chunkId

/-- A page that is entered successfully has cost no failed allocation. -/
theorem Holds.allocated {state : TreeState Flash} (holds : Holds number width grpBits state)
    (inodeChunk nandChunk : Nat) (ok : (state.fs.putChunkInFile T number inodeChunk nandChunk).1) :
    Dev.AllAllocated state.fs.dev (state.fs.putChunkInFile T number inodeChunk nandChunk).2.dev := by
  obtain ⟨set_up, obj, found, mapped⟩ := holds
  obtain ⟨made, room, -, outcome⟩ :=
    Fs.putChunkInFile_cases T found mapped.is_file set_up mapped.sane inodeChunk nandChunk
  obtain ⟨-, eq⟩ | ⟨made_ok, -, eq⟩ | ⟨made_ok, -, -, eq⟩ := outcome
  · rw [eq] at ok
    cases ok
  · rw [eq]
    exact room.allocated made_ok
  · rw [eq]
    exact room.allocated made_ok

/-- Without an entry no page is found. -/
theorem Holds.absent {state : TreeState Flash} (holds : Holds number width grpBits state)
    {inodeChunk : Nat} (absent : state.map inodeChunk = 0) :
    (state.fs.findChunkInFile T number inodeChunk).1 = none := by
  obtain ⟨set_up, obj, found, mapped⟩ := holds
  simp only [Fs.findChunkInFile, found]
  cases there : obj.file.findTnode0 inodeChunk with
  | none => rfl
  | some words =>
    have entry := mapped.entry inodeChunk
    rw [absent, FileVar.entry, there, ← set_up.width_eq, ← set_up.grpBits_eq] at entry
    dsimp only at entry ⊢
    rw [entry]
    cases 2 ^ state.fs.dev.chunkGrpBits <;> rfl

/-- Taking out the page of a chunk clears the entry of this chunk if there is a page, and no other. -/
theorem Holds.findDelFileChunk {state : TreeState Flash} (holds : Holds number width grpBits state)
    (inodeChunk : Nat)
    (inside : ∀ block page, state.fs.dev.checkChunkBit block page → block ∈ state.fs.dev.blocks)
    (other : Nat) :
    TreeState.entryOf number width grpBits (state.fs.findDelFileChunk T number inodeChunk).2 other =
      if (state.fs.findDelFileChunk T number inodeChunk).1.isSome ∧ other = inodeChunk then 0
      else TreeState.entryOf number width grpBits state.fs other := by
  obtain ⟨set_up, obj, found, mapped⟩ := holds
  obtain ⟨after, same, looked, hit⟩ := Fs.findChunkInFile_spec T found set_up inodeChunk inside
  have found' : ({ state.fs with dev := after } : Fs Flash).findByNumber number = some obj := found
  simp only [Fs.findDelFileChunk, looked]
  cases page_eq : (state.fs.findChunkInFile T number inodeChunk).1 with
  | none =>
    simp only [Option.isSome_none, Bool.false_eq_true, if_false, false_and, TreeState.entryOf, found,
      found']
  | some page =>
    obtain ⟨⟨words, there⟩, -, -⟩ := hit page page_eq
    have cleared := Fs.findByNumber_modifyObj found' (fun obj =>
      { obj with
        file := obj.file.store state.fs.dev.tnodeWidth state.fs.dev.chunkGrpBits inodeChunk 0 })
      fun _ => ⟨rfl, rfl⟩
    simp only [Option.isSome_some, if_true, true_and, TreeState.entryOf, found, cleared]
    rw [set_up.width_eq, set_up.grpBits_eq, FileVar.entry_store mapped.sane set_up.some_bits
      set_up.narrow there (Nat.two_pow_pos _) (Nat.two_pow_pos 32), groupBase, Nat.zero_shiftRight,
      Nat.zero_shiftLeft]

/-- A file that has just been made has no entries. -/
theorem holds_of_new {fs : Fs Flash} (set_up : fs.dev.TnodesSetUp width grpBits)
    (found : fs.findByNumber number = some obj) (is_file : obj.variantType = .file)
    (top_level : obj.file.topLevel = 0) (top : obj.file.top = .blank fs.dev.tnodeSize)
    (no_chunks : obj.nDataChunks = 0) : Holds number width grpBits { fs := fs } := by
  have packed := set_up.toTnodesFit.packed
  have sane : obj.file.Sane width := by
    refine ⟨by omega, ?_, ?_⟩
    · rw [top_level, top]
      exact packed
    · rw [top_level, top]
      trivial
  refine ⟨set_up, obj, found, is_file, sane, fun chunkId => ?_, ?_⟩
  · rw [FileVar.entry_eq sane.low, top_level, top]
    split
    · exact getGroupBase_of_zeros set_up.narrow packed chunkId
    · rfl
  · rw [no_chunks]
    simp

/-- A device with an empty file. -/
def emptyFile : Fs RamFlash where
  dev := ramDevice
  buckets := Function.update (fun _ => []) 1
    [{ objId := 257, variantType := .file, file := { top := .blank 64 } }]

theorem emptyFile_holds : Holds 257 16 0 { fs := emptyFile } := by
  have set_up : ramDevice.setUpTnodes false 64 = some ramDevice := rfl
  exact holds_of_new (Dev.tnodesSetUp_of_setUp (by decide) (by decide) set_up) rfl rfl rfl rfl rfl

end TreeState

end Yaffs
