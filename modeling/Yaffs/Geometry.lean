import Mathlib.Tactic.Common

/-!
# Geometry

The parameters of a device say how large its pages are, how many of them a block has and which
blocks it may use.  Before a mount they are checked, and the numbers that depend on them are
computed with the 32-bit arithmetic of the device record.
-/

namespace Yaffs

/-! ## Parameters -/

/-- Parameters of a device that its geometry depends on. -/
structure GeometryParam where
  inbandTags : Bool
  isYaffs2 : Bool
  wideTnodesDisabled : Bool
  disableSummary : Bool
  totalBytesPerChunk : UInt32
  chunksPerBlock : UInt32
  startBlock : UInt32
  endBlock : UInt32
  nReservedBlocks : UInt32

/-- The geometry that `yaffs_guts_ll_init` leaves in the device record. -/
structure Geometry where
  param : GeometryParam
  internalStartBlock : UInt32
  internalEndBlock : UInt32
  dataBytesPerChunk : UInt32

/-- A device that starts at block zero has all its blocks shifted by one. -/
def GeometryParam.internalStartBlock (param : GeometryParam) : UInt32 :=
  if param.startBlock = 0 then param.startBlock + 1 else param.startBlock

/-- The last block, shifted like the first. -/
def GeometryParam.internalEndBlock (param : GeometryParam) : UInt32 :=
  if param.startBlock = 0 then param.endBlock + 1 else param.endBlock

/-- Size of the tags that are kept in the data area of a page. -/
def packedTags2TagsOnlySize : UInt32 := 16

/-- Check the geometry parameters, and make room for inband tags. -/
def GeometryParam.llInit (param : GeometryParam) : Option Geometry :=
  let first := param.internalStartBlock
  let last := param.internalEndBlock
  if (!param.inbandTags ∧ param.isYaffs2 ∧ param.totalBytesPerChunk < 1024) ∨
      (!param.isYaffs2 ∧ param.totalBytesPerChunk < 512) ∨
      (param.inbandTags ∧ !param.isYaffs2) ∨
      param.chunksPerBlock < 2 ∨
      param.nReservedBlocks < 2 ∨
      first ≤ 0 ∨
      last ≤ 0 ∨
      last ≤ first + param.nReservedBlocks + 2 then
    none
  else
    some {
      param := param
      internalStartBlock := first
      internalEndBlock := last
      dataBytesPerChunk :=
        if param.inbandTags then param.totalBytesPerChunk - packedTags2TagsOnlySize
        else param.totalBytesPerChunk }

/-- What the geometry checks promise. -/
structure Geometry.Accepted (geo : Geometry) : Prop where
  chunks : 2 ≤ geo.param.chunksPerBlock.toNat
  first_pos : 0 < geo.internalStartBlock.toNat

theorem GeometryParam.llInit_accepted {param : GeometryParam} {geo : Geometry}
    (passed : param.llInit = some geo) : geo.Accepted := by
  rw [llInit] at passed
  split at passed
  case isTrue => cases passed
  case isFalse good =>
    obtain rfl := Option.some.inj passed
    simp only [not_or] at good
    obtain ⟨-, -, -, chunks, -, first, -, -⟩ := good
    exact ⟨UInt32.le_iff_toNat_le.mp (UInt32.not_lt.mp chunks),
      UInt32.lt_iff_toNat_lt.mp (UInt32.not_le.mp first)⟩

/-- A device of 1024 blocks of 64 pages. -/
def GeometryParam.oneGigabit : GeometryParam where
  inbandTags := false
  isYaffs2 := true
  wideTnodesDisabled := false
  disableSummary := false
  totalBytesPerChunk := 2048
  chunksPerBlock := 64
  startBlock := 0
  endBlock := 1023
  nReservedBlocks := 5

end Yaffs
