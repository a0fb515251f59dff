import Yaffs.Geometry
import Yaffs.TnodeRuns

/-!
# Widths of tnode entries

How wide the entries of level 0 tnodes are follows from the number of pages of the device.  Where
the entries are too narrow for page numbers, each stands for a group of pages.
-/

namespace Yaffs

open WordBits

/-! ## Shifts -/

/-- The shifts stop at one, and bits that are shifted out make the value larger than the power of
two. -/
theorem two_pow_calcShiftsLoop_le {x : Nat} (pos : 0 < x) (fuel extraBits shifts : Nat) :
    let counted := calcShiftsLoop fuel x extraBits shifts
    shifts ≤ counted.2 ∧ 2 ^ (counted.2 - shifts) ≤ x ∧
      (counted.1 ≠ extraBits → 2 ^ (counted.2 - shifts) < x) := by
  induction fuel generalizing x extraBits shifts with
  | zero =>
    dsimp only [calcShiftsLoop]
    rw [Nat.sub_self]
    exact ⟨le_rfl, pos, fun extra => absurd rfl extra⟩
  | succ fuel induction =>
    simp only [calcShiftsLoop]
    split
    case isTrue more =>
      have rest := induction (x := x / 2) (by omega)
        (if x % 2 = 1 then extraBits + 1 else extraBits) (shifts + 1)
      generalize calcShiftsLoop fuel (x / 2) _ (shifts + 1) = counted at rest ⊢
      obtain ⟨longer, low, above⟩ := rest
      have double : 2 ^ (counted.2 - shifts) = 2 * 2 ^ (counted.2 - (shifts + 1)) := by
        rw [← pow_succ']
        congr 1
        omega
      rw [double]
      refine ⟨by omega, by omega, ?_⟩
      intro extra
      split at above
      · omega
      · have strict := above extra
        omega
    case isFalse =>
      dsimp only
      rw [Nat.sub_self]
      exact ⟨le_rfl, pos, fun extra => absurd rfl extra⟩

/-- The shifts are the fewest that reach the number. -/
theorem calcShiftsCeiling_le_iff {x : Nat} (bound : x < 2 ^ 32) (count : Nat) :
    calcShiftsCeiling x ≤ count ↔ x ≤ 2 ^ count := by
  constructor
  · intro enough
    exact (le_calcShiftsCeiling bound).trans (Nat.pow_le_pow_right (by omega) enough)
  · intro fits
    obtain rfl | pos := Nat.eq_zero_or_pos x
    · simp [calcShiftsCeiling, calcShiftsLoop]
    obtain ⟨-, low, above⟩ := two_pow_calcShiftsLoop_le pos 32 0 0
    rw [calcShiftsCeiling]
    generalize calcShiftsLoop 32 x 0 0 = counted at low above ⊢
    split
    case isTrue extra =>
      exact (Nat.pow_lt_pow_iff_right (by omega)).mp ((above extra).trans_le fits)
    case isFalse => exact (Nat.pow_le_pow_iff_right (by omega)).mp (low.trans fits)

/-! ## Set-up -/

/-- The numbers that the entries of level 0 tnodes are packed with. -/
structure TnodeFormat where
  width : Nat
  mask : UInt32
  grpBits : Nat
  grpSize : Nat
  size : Nat

/-- Number of pages that the entries must tell apart, in the arithmetic of the device record. -/
def Geometry.chunkCount (geo : Geometry) : UInt32 :=
  geo.param.chunksPerBlock * (geo.internalEndBlock + 1)

/-- Bits of a page number.  With wide tnodes they are made even, so that we end up with 32-bit
words. -/
def Geometry.chunkBits (geo : Geometry) : Nat :=
  let bits := calcShiftsCeiling geo.chunkCount.toNat
  if geo.param.wideTnodesDisabled then bits else if bits % 2 = 1 then bits + 1 else bits

def Geometry.tnodeWidth (geo : Geometry) : Nat :=
  if geo.param.wideTnodesDisabled then 16 else if geo.chunkBits < 16 then 16 else geo.chunkBits

/-- All bits of an entry.  The language leaves open what shifting by all 32 bits gives: nothing is
left of the one, or a machine that looks at five bits of the count does not shift. -/
def tnodeMask (shiftsOut : Bool) (width : Nat) : UInt32 :=
  if width < 32 then 1 <<< UInt32.ofNat width - 1 else if shiftsOut then 0 - 1 else 1 - 1

/-- The part of `yaffs_guts_initialise` that sets up the tnodes.  The group size has 16 bits. -/
def Geometry.initialise (shiftsOut : Bool) (sizeofTnode : Nat) (geo : Geometry) :
    Option TnodeFormat :=
  let grpBits := if geo.chunkBits ≤ geo.tnodeWidth then 0 else geo.chunkBits - geo.tnodeWidth
  let size := geo.tnodeWidth * 16 / 8
  let grpSize := 1 <<< grpBits % 2 ^ 16
  if geo.param.chunksPerBlock.toNat < grpSize then
    none
  else
    some {
      width := geo.tnodeWidth
      mask := tnodeMask shiftsOut geo.tnodeWidth
      grpBits := grpBits
      grpSize := grpSize
      size := if size < sizeofTnode then sizeofTnode else size }

/-! ## Entries in memory -/

/-- Memory from the first word of a tnode on, and the words that were read or written. -/
structure TnodeWords where
  words : Nat → UInt32
  touched : List Nat

namespace TnodeWords

/-- Replace the bits of a mask in a word. -/
def replace (mem : TnodeWords) (word : Nat) (mask bits : UInt32) : TnodeWords where
  words := Function.update mem.words word ((mem.words word &&& ~~~mask) ||| (mask &&& bits))
  touched := mem.touched ++ [word]

def read (mem : TnodeWords) (word : Nat) : UInt32 × TnodeWords :=
  (mem.words word, { mem with touched := mem.touched ++ [word] })

end TnodeWords

namespace TnodeFormat

/-- Store a page number at a position of a level 0 tnode. -/
def loadTnode0 (fmt : TnodeFormat) (pos val : UInt32) (mem : TnodeWords) : TnodeWords :=
  let val := val >>> UInt32.ofNat fmt.grpBits
  let bitInMap := pos.toNat % 16 * fmt.width
  let wordInMap := bitInMap / 32
  let bitInWord := UInt32.ofNat (bitInMap % 32)
  let mem := mem.replace wordInMap (fmt.mask <<< bitInWord) (val <<< bitInWord)
  if 32 - bitInMap % 32 < fmt.width then
    let bitInWord := UInt32.ofNat (32 - bitInMap % 32)
    mem.replace (wordInMap + 1) (fmt.mask >>> bitInWord) (val >>> bitInWord)
  else mem

/-- First page of the group stored at a position of a level 0 tnode. -/
def getGroupBase (fmt : TnodeFormat) (pos : UInt32) (mem : TnodeWords) : UInt32 × TnodeWords :=
  let bitInMap := pos.toNat % 16 * fmt.width
  let wordInMap := bitInMap / 32
  let low := mem.read wordInMap
  let val := low.1 >>> UInt32.ofNat (bitInMap % 32)
  let all :=
    if 32 - bitInMap % 32 < fmt.width then
      let high := low.2.read (wordInMap + 1)
      (val ||| (high.1 <<< UInt32.ofNat (32 - bitInMap % 32)), high.2)
    else (val, low.2)
  ((all.1 &&& fmt.mask) <<< UInt32.ofNat fmt.grpBits, all.2)

/-- Storing a page number at a position of a tnode and reading it back. -/
structure Addresses (fmt : TnodeFormat) (pos : UInt32) (page : Nat)
    (before after : TnodeWords) : Prop where
  base_pos : (fmt.getGroupBase pos after).1 ≠ 0
  base_le : (fmt.getGroupBase pos after).1.toNat ≤ page
  lt_base : page < (fmt.getGroupBase pos after).1.toNat + fmt.grpSize
  others : ∀ other : UInt32, other.toNat % 16 ≠ pos.toNat % 16 →
    (fmt.getGroupBase other after).1 = (fmt.getGroupBase other before).1
  inside : ∀ word ∈ (fmt.getGroupBase pos after).2.touched, 4 * word + 4 ≤ fmt.size

end TnodeFormat

/-! ## Words of a tnode as a list -/

namespace TnodeWords

/-- The first words of the memory. -/
def listed (mem : TnodeWords) (count : Nat) : List Nat :=
  (List.range count).map fun i => (mem.words i).toNat

theorem getD_listed {mem : TnodeWords} {count word : Nat} (inside : word < count) :
    (mem.listed count).getD word 0 = (mem.words word).toNat := by
  simp [listed, List.getD_eq_getElem?_getD, inside]

theorem listed_fit (mem : TnodeWords) {width count : Nat} (room : 16 * width ≤ 32 * count) :
    WordsFit width (mem.listed count) := by
  refine ⟨by simpa [listed] using room, ?_⟩
  intro i
  by_cases inside : i < count
  · rw [getD_listed inside]
    exact UInt32.toNat_lt _
  · simp [listed, List.getD_eq_getElem?_getD, inside]

/-- The words without the bits of a mask. -/
theorem toNat_without (word mask : UInt32) :
    (word &&& ~~~mask).toNat = wordWithout word.toNat mask.toNat := by
  have ones : (-1 : UInt32).toNat = 0xffffffff := by decide
  rw [wordWithout, ← UInt32.neg_one_xor, UInt32.toNat_and, UInt32.toNat_xor, ones]

theorem replace_listed (mem : TnodeWords) {count word : Nat} (inside : word < count)
    (mask bits : UInt32) :
    (mem.replace word mask bits).listed count = (mem.listed count).set word
      (wordWithout ((mem.listed count).getD word 0) mask.toNat |||
        (mask.toNat &&& bits.toNat)) := by
  rw [getD_listed inside, ← toNat_without, ← UInt32.toNat_and, ← UInt32.toNat_or]
  apply List.ext_getElem
  · simp [listed]
  · intro i left right
    rw [List.getElem_set]
    simp only [listed, List.getElem_map, List.getElem_range, replace, Function.update_apply]
    by_cases same : i = word
    · rw [if_pos same, if_pos same.symm]
    · rw [if_neg same, if_neg (Ne.symm same)]

end TnodeWords

namespace TnodeFormat

open TnodeWords

/-- The mask has the bits of an entry, and a tnode has room for all its entries. -/
structure Sound (fmt : TnodeFormat) : Prop where
  some_bits : 0 < fmt.width
  narrow : fmt.width ≤ 32
  even : fmt.width % 2 = 0
  grp : fmt.grpBits ≤ 16
  mask_eq : fmt.mask.toNat = 2 ^ fmt.width - 1
  room : 2 * fmt.width ≤ fmt.size

variable {fmt : TnodeFormat}

/-- Number of words that the entries of a tnode take. -/
def wordCount (fmt : TnodeFormat) : Nat := fmt.width / 2

theorem toNat_shift {count : Nat} (small : count < 32) : (UInt32.ofNat count).toNat %
    32 = count := by
  rw [UInt32.toNat_ofNat_of_lt' (by rw [UInt32.size]; omega), Nat.mod_eq_of_lt small]

theorem loadTnode0_listed (sound : fmt.Sound) (pos val : UInt32) (mem : TnodeWords) :
    (fmt.loadTnode0 pos val mem).listed fmt.wordCount =
      Yaffs.loadTnode0 fmt.width fmt.grpBits (mem.listed fmt.wordCount) pos.toNat val.toNat := by
  have even := sound.even
  have grp := sound.grp
  have last : pos.toNat % 16 * fmt.width ≤ 15 * fmt.width := Nat.mul_le_mul_right _ (by omega)
  have some_bits := sound.some_bits
  simp only [loadTnode0, Yaffs.loadTnode0]
  generalize pos.toNat % 16 * fmt.width = start at last ⊢
  have low : start / 32 < fmt.wordCount := by
    rw [wordCount]
    omega
  split
  case isTrue across =>
    have high : start / 32 + 1 < fmt.wordCount := by
      rw [wordCount]
      omega
    rw [replace_listed _ high, replace_listed _ low]
    simp only [UInt32.toNat_shiftLeft, UInt32.toNat_shiftRight, sound.mask_eq,
      toNat_shift (show start % 32 < 32 by omega), toNat_shift (show fmt.grpBits < 32 by omega),
      toNat_shift (show 32 - start % 32 < 32 by have := sound.narrow; omega)]
  case isFalse =>
    rw [replace_listed _ low]
    simp only [UInt32.toNat_shiftLeft, UInt32.toNat_shiftRight, sound.mask_eq,
      toNat_shift (show start % 32 < 32 by omega), toNat_shift (show fmt.grpBits < 32 by omega)]

theorem getGroupBase_listed (sound : fmt.Sound) (pos : UInt32) (mem : TnodeWords) :
    (fmt.getGroupBase pos mem).1.toNat =
      Yaffs.getGroupBase fmt.width fmt.grpBits (mem.listed fmt.wordCount) pos.toNat := by
  have even := sound.even
  have grp := sound.grp
  have last : pos.toNat % 16 * fmt.width ≤ 15 * fmt.width := Nat.mul_le_mul_right _ (by omega)
  have some_bits := sound.some_bits
  simp only [getGroupBase, Yaffs.getGroupBase, TnodeWords.read]
  generalize pos.toNat % 16 * fmt.width = start at last ⊢
  have low : start / 32 < fmt.wordCount := by
    rw [wordCount]
    omega
  rw [getD_listed low]
  split
  case isTrue across =>
    have high : start / 32 + 1 < fmt.wordCount := by
      rw [wordCount]
      omega
    rw [getD_listed high]
    simp only [UInt32.toNat_shiftLeft, UInt32.toNat_shiftRight, UInt32.toNat_and, UInt32.toNat_or,
      sound.mask_eq, toNat_shift (show start % 32 < 32 by omega),
      toNat_shift (show fmt.grpBits < 32 by omega),
      toNat_shift (show 32 - start % 32 < 32 by have := sound.narrow; omega)]
  case isFalse =>
    simp only [UInt32.toNat_shiftLeft, UInt32.toNat_shiftRight, UInt32.toNat_and, sound.mask_eq,
      toNat_shift (show start % 32 < 32 by omega), toNat_shift (show fmt.grpBits < 32 by omega)]

/-- Storing and reading an entry stays inside the tnode. -/
theorem Sound.touched_inside (sound : fmt.Sound) (pos val : UInt32) (words : Nat → UInt32) :
    ∀ word ∈ (fmt.getGroupBase pos (fmt.loadTnode0 pos val ⟨words, []⟩)).2.touched,
      4 * word + 4 ≤ fmt.size := by
  have even := sound.even
  have room := sound.room
  have last : pos.toNat % 16 * fmt.width ≤ 15 * fmt.width := Nat.mul_le_mul_right _ (by omega)
  have some_bits := sound.some_bits
  simp only [getGroupBase, loadTnode0, TnodeWords.read, TnodeWords.replace]
  generalize pos.toNat % 16 * fmt.width = start at last ⊢
  split
  case isTrue across =>
    intro word touched
    simp only [List.mem_append, List.mem_singleton, List.nil_append] at touched
    omega
  case isFalse =>
    intro word touched
    have place : word = start / 32 := by simpa using touched
    omega

/-- A page number that fits into the bits of an entry and a group is addressed. -/
theorem Sound.addresses (sound : fmt.Sound) (size_eq : fmt.grpSize = 2 ^ fmt.grpBits) {page : Nat}
    (fits : page < 2 ^ (fmt.width + fmt.grpBits)) (small : page < 2 ^ 32)
    (beyond : fmt.grpSize ≤ page) (pos : UInt32) (words : Nat → UInt32) :
    fmt.Addresses pos page ⟨words, []⟩ (fmt.loadTnode0 pos (UInt32.ofNat page) ⟨words, []⟩) := by
  have packed (mem : TnodeWords) : WordsFit fmt.width (mem.listed fmt.wordCount) := by
    have even := sound.even
    exact listed_fit mem (by rw [wordCount]; omega)
  have number : (UInt32.ofNat page).toNat = page := UInt32.toNat_ofNat_of_lt' small
  have base : (fmt.getGroupBase pos (fmt.loadTnode0 pos (UInt32.ofNat page) ⟨words, []⟩)).1.toNat =
      page / fmt.grpSize * fmt.grpSize := by
    rw [getGroupBase_listed sound, loadTnode0_listed sound, number,
      getGroupBase_loadTnode0_self sound.some_bits sound.narrow (packed _) _ fits small, groupBase,
      Nat.shiftRight_eq_div_pow, Nat.shiftLeft_eq, size_eq]
  have some_pages : 0 < fmt.grpSize := by
    rw [size_eq]
    exact Nat.two_pow_pos _
  have rest := Nat.div_add_mod' page fmt.grpSize
  have rest_lt := Nat.mod_lt page some_pages
  refine ⟨?_, ?_, ?_, ?_, sound.touched_inside pos _ words⟩
  · intro zero
    rw [zero, UInt32.toNat_zero] at base
    omega
  · rw [base]
    omega
  · rw [base]
    omega
  · intro other apart
    apply UInt32.toNat_inj.mp
    rw [getGroupBase_listed sound, getGroupBase_listed sound, loadTnode0_listed sound,
      getGroupBase_loadTnode0_other sound.some_bits sound.narrow (packed _) apart]

/-- A group ends below the end of the numbers of 32 bits. -/
theorem group_end_le (value : UInt32) {grpBits : Nat} (grp : grpBits ≤ 16) :
    (value <<< UInt32.ofNat grpBits).toNat + 2 ^ grpBits ≤ 2 ^ 32 := by
  rw [UInt32.toNat_shiftLeft, toNat_shift (by omega), Nat.shiftLeft_eq]
  have halves : (2 : Nat) ^ 32 = 2 ^ (32 - grpBits) * 2 ^ grpBits := by
    rw [← pow_add]
    congr 1
    omega
  rw [halves, Nat.mul_mod_mul_right]
  have lt : value.toNat % 2 ^ (32 - grpBits) + 1 ≤ 2 ^ (32 - grpBits) :=
    Nat.mod_lt _ (Nat.two_pow_pos _)
  calc value.toNat % 2 ^ (32 - grpBits) * 2 ^ grpBits + 2 ^ grpBits
      = (value.toNat % 2 ^ (32 - grpBits) + 1) * 2 ^ grpBits := by ring
    _ ≤ 2 ^ (32 - grpBits) * 2 ^ grpBits := Nat.mul_le_mul_right _ lt

theorem getGroupBase_end_le (fmt : TnodeFormat) (grp : fmt.grpBits ≤ 16) (pos : UInt32)
    (mem : TnodeWords) : (fmt.getGroupBase pos mem).1.toNat + 2 ^ fmt.grpBits ≤ 2 ^ 32 :=
  group_end_le _ grp

end TnodeFormat

/-- The packed entries address every page of the block range. -/
def Geometry.EntriesAddress (geo : Geometry) (fmt : TnodeFormat) : Prop :=
  ∀ (pos : UInt32) (page : Nat) (words : Nat → UInt32),
    geo.internalStartBlock.toNat * geo.param.chunksPerBlock.toNat ≤ page →
    page < (geo.internalEndBlock.toNat + 1) * geo.param.chunksPerBlock.toNat →
    fmt.Addresses pos page ⟨words, []⟩ (fmt.loadTnode0 pos (UInt32.ofNat page) ⟨words, []⟩)

/-! ## Formats of accepted geometries -/

namespace Geometry

variable {geo : Geometry}

/-- Number of pages up to the end of the block range. -/
def pageEnd (geo : Geometry) : Nat :=
  (geo.internalEndBlock.toNat + 1) * geo.param.chunksPerBlock.toNat

theorem chunkCount_toNat (geo : Geometry) : geo.chunkCount.toNat = geo.pageEnd % 2 ^ 32 := by
  rw [chunkCount, UInt32.toNat_mul, UInt32.toNat_add, UInt32.toNat_one, pageEnd, Nat.mul_mod_mod,
    Nat.mul_comm]

/-- What the set-up of the tnodes comes to. -/
structure FormatOf (geo : Geometry) (shiftsOut : Bool) (fmt : TnodeFormat) : Prop where
  width : fmt.width = geo.tnodeWidth
  mask : fmt.mask = tnodeMask shiftsOut geo.tnodeWidth
  grpBits : fmt.grpBits = geo.chunkBits - geo.tnodeWidth
  grpSize : fmt.grpSize = 2 ^ (geo.chunkBits - geo.tnodeWidth) % 2 ^ 16
  size : geo.tnodeWidth * 2 ≤ fmt.size
  small_group : fmt.grpSize ≤ geo.param.chunksPerBlock.toNat

theorem initialise_format {shiftsOut : Bool} {sizeofTnode : Nat} {fmt : TnodeFormat}
    (set : geo.initialise shiftsOut sizeofTnode = some fmt) : geo.FormatOf shiftsOut fmt := by
  have bits : (if geo.chunkBits ≤ geo.tnodeWidth then 0 else geo.chunkBits - geo.tnodeWidth) =
      geo.chunkBits - geo.tnodeWidth := by
    split <;> omega
  simp only [initialise, bits, Nat.one_shiftLeft] at set
  split at set
  case isTrue => cases set
  case isFalse small =>
    obtain rfl := Option.some.inj set
    refine ⟨rfl, rfl, rfl, rfl, ?_, not_lt.mp small⟩
    dsimp only
    split <;> omega

/-- The larger of the two kinds of tnodes gives the size of both. -/
theorem initialise_size {shiftsOut : Bool} {sizeofTnode : Nat} {fmt : TnodeFormat}
    (set : geo.initialise shiftsOut sizeofTnode = some fmt) :
    fmt.size = max (geo.tnodeWidth * 2) sizeofTnode := by
  simp only [initialise, Option.ite_none_left_eq_some, Option.some.injEq] at set
  obtain ⟨-, rfl⟩ := set
  dsimp only
  split <;> omega

/-- A page number has at most 32 bits. -/
theorem chunkBits_le (geo : Geometry) : geo.chunkBits ≤ 32 := by
  have bound := UInt32.toNat_lt geo.chunkCount
  have bits : calcShiftsCeiling geo.chunkCount.toNat ≤ 32 :=
    (calcShiftsCeiling_le_iff bound 32).mpr bound.le
  simp only [chunkBits]
  split
  · exact bits
  · split <;> omega

theorem chunkCount_le (geo : Geometry) : geo.chunkCount.toNat ≤ 2 ^ geo.chunkBits := by
  have bound := UInt32.toNat_lt geo.chunkCount
  apply (calcShiftsCeiling_le_iff bound _).mp
  simp only [chunkBits]
  split
  · exact le_rfl
  · split <;> omega

theorem tnodeWidth_facts (geo : Geometry) :
    16 ≤ geo.tnodeWidth ∧ geo.tnodeWidth ≤ 32 ∧ geo.tnodeWidth % 2 = 0 := by
  have bits := geo.chunkBits_le
  rw [tnodeWidth]
  split
  case isTrue => omega
  case isFalse wide =>
    have even : geo.chunkBits % 2 = 0 := by
      simp only [chunkBits, if_neg wide]
      split <;> omega
    split <;> omega

/-- Wide entries have all bits of a page number. -/
theorem chunkBits_le_tnodeWidth (wide : ¬geo.param.wideTnodesDisabled) :
    geo.chunkBits ≤ geo.tnodeWidth := by
  rw [tnodeWidth, if_neg wide]
  split <;> omega

/-- Few enough pages have small numbers. -/
theorem chunkBits_le_of_le (count : Nat) (even : count % 2 = 0 ∨ geo.param.wideTnodesDisabled)
    (few : geo.chunkCount.toNat ≤ 2 ^ count) : geo.chunkBits ≤ count := by
  have bits := (calcShiftsCeiling_le_iff (UInt32.toNat_lt _) count).mpr few
  simp only [chunkBits]
  split
  case isTrue => exact bits
  case isFalse wide =>
    have even := even.resolve_right wide
    split <;> omega

theorem tnodeMask_toNat {shiftsOut : Bool} {width : Nat} (narrow : width ≤ 32)
    (defined : width < 32 ∨ shiftsOut) : (tnodeMask shiftsOut width).toNat = 2 ^ width - 1 := by
  rw [tnodeMask]
  split
  case isTrue small =>
    have power : 2 ^ width < 2 ^ 32 := Nat.pow_lt_pow_right (by omega) small
    have one : (1 <<< UInt32.ofNat width : UInt32).toNat = 2 ^ width := by
      rw [UInt32.toNat_shiftLeft, TnodeFormat.toNat_shift small, UInt32.toNat_one,
        Nat.one_shiftLeft,
        Nat.mod_eq_of_lt power]
    have some_bits : 1 ≤ 2 ^ width := Nat.two_pow_pos width
    rw [UInt32.toNat_sub_of_le _ _ (UInt32.le_iff_toNat_le.mpr (by rw [one]; exact some_bits)), one,
      UInt32.toNat_one]
  case isFalse large =>
    have full : width = 32 := by omega
    rw [if_pos (defined.resolve_left large), full]
    decide

theorem FormatOf.grp_le {shiftsOut : Bool} {fmt : TnodeFormat} (set : geo.FormatOf shiftsOut fmt) :
    fmt.grpBits ≤ 16 := by
  have bits := geo.chunkBits_le
  have width := geo.tnodeWidth_facts.1
  rw [set.grpBits]
  omega

theorem FormatOf.sound {shiftsOut : Bool} {fmt : TnodeFormat} (set : geo.FormatOf shiftsOut fmt)
    (defined : geo.tnodeWidth < 32 ∨ shiftsOut) : fmt.Sound := by
  obtain ⟨wide, narrow, even⟩ := geo.tnodeWidth_facts
  have size := set.size
  refine ⟨?_, ?_, ?_, set.grp_le, ?_, ?_⟩
  · rw [set.width]
    omega
  · rw [set.width]
    exact narrow
  · rw [set.width]
    exact even
  · rw [set.mask, set.width]
    exact tnodeMask_toNat narrow defined
  · rw [set.width]
    omega

/-- Page numbers have at most 32 bits.  Narrow entries leave at most 15 of them to a group, and wide
entries do not need the mask of all 32 where the machine does not have it. -/
def EntriesFit (geo : Geometry) (shiftsOut : Bool) : Prop :=
  geo.pageEnd < 2 ^ 32 ∧
    if geo.param.wideTnodesDisabled then geo.pageEnd ≤ 2 ^ 31
    else geo.pageEnd ≤ 2 ^ 30 ∨ shiftsOut

theorem FormatOf.addresses {shiftsOut : Bool} {fmt : TnodeFormat} (accepted : geo.Accepted)
    (set : geo.FormatOf shiftsOut fmt) (fit : geo.EntriesFit shiftsOut) :
    geo.EntriesAddress fmt := by
  obtain ⟨numbers, format⟩ := fit
  have count : geo.chunkCount.toNat = geo.pageEnd := by
    rw [chunkCount_toNat, Nat.mod_eq_of_lt numbers]
  have few := geo.chunkCount_le
  have defined : geo.tnodeWidth < 32 ∨ shiftsOut := by
    by_cases wide : geo.param.wideTnodesDisabled
    · left
      rw [tnodeWidth, if_pos wide]
      omega
    · rw [if_neg wide] at format
      obtain low | whole := format
      · left
        have bits := chunkBits_le_of_le 30 (.inl rfl) (by rw [count]; exact low)
        rw [tnodeWidth, if_neg wide]
        split <;> omega
      · exact .inr whole
  have group : geo.chunkBits - geo.tnodeWidth < 16 := by
    by_cases wide : geo.param.wideTnodesDisabled
    · rw [if_pos wide] at format
      have bits := chunkBits_le_of_le 31 (.inr wide) (by rw [count]; exact format)
      have width := geo.tnodeWidth_facts.1
      omega
    · have enough := chunkBits_le_tnodeWidth wide
      omega
  have size_eq : fmt.grpSize = 2 ^ fmt.grpBits := by
    rw [set.grpSize, set.grpBits, Nat.mod_eq_of_lt (Nat.pow_lt_pow_right (by omega) group)]
  intro pos page words low high
  have first : 1 * geo.param.chunksPerBlock.toNat ≤
      geo.internalStartBlock.toNat * geo.param.chunksPerBlock.toNat :=
    Nat.mul_le_mul_right _ accepted.first_pos
  have small_group := set.small_group
  have fits : page < 2 ^ (fmt.width + fmt.grpBits) := by
    have bits : geo.chunkBits ≤ fmt.width + fmt.grpBits := by
      rw [set.width, set.grpBits]
      omega
    calc page < geo.pageEnd := high
      _ = geo.chunkCount.toNat := count.symm
      _ ≤ 2 ^ geo.chunkBits := few
      _ ≤ 2 ^ (fmt.width + fmt.grpBits) := Nat.pow_le_pow_right (by omega) bits
  exact (set.sound defined).addresses size_eq fits (high.trans numbers) (by omega) pos words

/-- A base has no bits outside the mask. -/
theorem FormatOf.base_le_mask {shiftsOut : Bool} {fmt : TnodeFormat}
    (set : geo.FormatOf shiftsOut fmt)
    (enough : geo.chunkBits ≤ geo.tnodeWidth) (pos : UInt32) (mem : TnodeWords) :
    (fmt.getGroupBase pos mem).1.toNat ≤ (tnodeMask shiftsOut geo.tnodeWidth).toNat := by
  have no_group : fmt.grpBits = 0 := by
    rw [set.grpBits]
    omega
  have value (all : UInt32) :
      ((all &&& fmt.mask) <<< UInt32.ofNat fmt.grpBits).toNat ≤ fmt.mask.toNat := by
    rw [no_group]
    simpa using Nat.and_le_right
  rw [← set.mask]
  exact value _

theorem FormatOf.fit {shiftsOut : Bool} {fmt : TnodeFormat} (accepted : geo.Accepted)
    (set : geo.FormatOf shiftsOut fmt) (some_blocks : geo.internalStartBlock ≤ geo.internalEndBlock)
    (right : geo.EntriesAddress fmt) : geo.EntriesFit shiftsOut := by
  have chunks := accepted.chunks
  have first_le : geo.internalStartBlock.toNat * geo.param.chunksPerBlock.toNat ≤
      geo.internalEndBlock.toNat * geo.param.chunksPerBlock.toNat :=
    Nat.mul_le_mul_right _ (UInt32.le_iff_toNat_le.mp some_blocks)
  have end_eq : geo.pageEnd = geo.internalEndBlock.toNat * geo.param.chunksPerBlock.toNat +
      geo.param.chunksPerBlock.toNat := by
    rw [pageEnd, Nat.add_mul, Nat.one_mul]
  have last := right 0 (geo.pageEnd - 1) (fun _ => 0) (by omega) (by rw [← pageEnd]; omega)
  have group_le : fmt.grpSize ≤ 2 ^ fmt.grpBits := by
    rw [set.grpSize, set.grpBits]
    exact Nat.mod_le _ _
  have base_end := fmt.getGroupBase_end_le set.grp_le 0
    (fmt.loadTnode0 0 (UInt32.ofNat (geo.pageEnd - 1)) ⟨fun _ => 0, []⟩)
  have below := last.lt_base
  have numbers : geo.pageEnd < 2 ^ 32 := by
    -- Only the last number of 32 bits could still be reached, but then the count of the pages
    -- wraps to zero.
    by_contra many
    have whole : geo.pageEnd = 2 ^ 32 := by omega
    have none_left : geo.chunkCount.toNat = 0 := by rw [chunkCount_toNat, whole, Nat.mod_self]
    have bits := @chunkBits_le_of_le geo 0 (.inl rfl) (by omega)
    have width : geo.tnodeWidth = 16 := by
      rw [tnodeWidth]
      split
      · rfl
      · split <;> omega
    have no_group : fmt.grpBits = 0 := by
      rw [set.grpBits]
      omega
    have masked := set.base_le_mask (by omega) 0
      (fmt.loadTnode0 0 (UInt32.ofNat (geo.pageEnd - 1)) ⟨fun _ => 0, []⟩)
    rw [width, tnodeMask_toNat (by omega) (.inl (by omega))] at masked
    rw [no_group] at group_le
    omega
  refine ⟨numbers, ?_⟩
  have count : geo.chunkCount.toNat = geo.pageEnd := by
    rw [chunkCount_toNat, Nat.mod_eq_of_lt numbers]
  have few := geo.chunkCount_le
  rw [count] at few
  have bits := geo.chunkBits_le
  split
  case isTrue narrow =>
    by_contra many
    have all_bits : geo.chunkBits = 32 := by
      by_contra less
      have power : 2 ^ geo.chunkBits ≤ 2 ^ 31 := Nat.pow_le_pow_right (by omega) (by omega)
      omega
    have width : geo.tnodeWidth = 16 := if_pos narrow
    have no_group : fmt.grpSize = 0 := by
      rw [set.grpSize, all_bits, width]
      exact Nat.mod_self _
    have above := last.base_le
    omega
  case isFalse wide =>
    by_contra many
    obtain ⟨many, stays⟩ := not_or.mp many
    have width : geo.tnodeWidth = 32 := by
      have power : 30 < geo.chunkBits := by
        by_contra less
        have power : 2 ^ geo.chunkBits ≤ 2 ^ 30 := Nat.pow_le_pow_right (by omega) (by omega)
        omega
      have even := geo.tnodeWidth_facts
      have enough := chunkBits_le_tnodeWidth wide
      omega
    have masked := set.base_le_mask (by omega) 0
      (fmt.loadTnode0 0 (UInt32.ofNat (geo.pageEnd - 1)) ⟨fun _ => 0, []⟩)
    have no_mask : tnodeMask shiftsOut 32 = 0 := by
      rw [tnodeMask, if_neg (by omega), if_neg stays]
      rfl
    rw [width, no_mask] at masked
    exact last.base_pos (UInt32.toNat_inj.mp (Nat.le_zero.mp masked))

end Geometry

namespace GeometryParam

/-- Entries address every page of a device that has pages if and only if its page numbers fit. -/
theorem entriesAddress_iff {param : GeometryParam} {geo : Geometry} {shiftsOut : Bool}
    {sizeofTnode : Nat} {fmt : TnodeFormat} (checked : param.llInit = some geo)
    (set : geo.initialise shiftsOut sizeofTnode = some fmt) :
    geo.EntriesAddress fmt ↔
      geo.internalEndBlock < geo.internalStartBlock ∨ geo.EntriesFit shiftsOut := by
  have accepted := llInit_accepted checked
  have format := Geometry.initialise_format set
  constructor
  · intro right
    obtain no_blocks | some_blocks := UInt32.lt_or_le geo.internalEndBlock geo.internalStartBlock
    · exact .inl no_blocks
    · exact .inr (format.fit accepted some_blocks right)
  · rintro (no_blocks | fit)
    · intro pos page words low high
      have before : (geo.internalEndBlock.toNat + 1) * geo.param.chunksPerBlock.toNat ≤
          geo.internalStartBlock.toNat * geo.param.chunksPerBlock.toNat :=
        Nat.mul_le_mul_right _ (UInt32.lt_iff_toNat_lt.mp no_blocks)
      omega
    · exact format.addresses accepted fit

theorem entriesAddress_oneGigabit :
    Geometry.EntriesAddress ⟨oneGigabit, 1, 1024, 2048⟩ ⟨18, 0x3ffff, 0, 1, 36⟩ := by
  have checked : oneGigabit.llInit = some ⟨oneGigabit, 1, 1024, 2048⟩ := by rfl
  have set : Geometry.initialise true 32 ⟨oneGigabit, 1, 1024, 2048⟩ =
      some ⟨18, 0x3ffff, 0, 1, 36⟩ := by rfl
  exact (entriesAddress_iff checked set).mpr (.inr ⟨by decide, by decide⟩)

/-- Almost all of the page numbers of 32 bits, without wide tnodes. -/
def allPages : GeometryParam :=
  { oneGigabit with wideTnodesDisabled := true, startBlock := 1, endBlock := 0x3fffffe }

/-- A group of 2 ^ 16 pages has a size of zero. -/
theorem not_entriesAddress_allPages :
    ¬∀ (param : GeometryParam) (geo : Geometry) (shiftsOut : Bool) (sizeofTnode : Nat)
      (fmt : TnodeFormat), param.llInit = some geo → geo.initialise shiftsOut
        sizeofTnode = some fmt →
      geo.EntriesAddress fmt := by
  intro claim
  have right := claim allPages ⟨allPages, 1, 0x3fffffe, 2048⟩ true 32
    ⟨16, 0xffff, 16, 0, 32⟩ (by rfl)
    (by rfl) 0 64 (fun _ => 0) (by decide) (by decide)
  have low := right.base_le
  have high := right.lt_base
  exact absurd high (not_lt.mpr low)

end GeometryParam

end Yaffs
