import Yaffs.Types
import Yaffs.Library.Memory
import Yaffs.Library.Words

/-!
# Names and values

The extended attributes of an object are packed into the rest of its header page, one record after
the other.  A record has its size, a name with its final zero, and a value.  There is no count of
the records: they end where the next size is not positive, or where it reaches to the end of the
area.
-/

namespace Yaffs

/-- Why an access to the records fails. -/
inductive NvalError
  | enodata
  | eexist
  | enospc
  | erange
deriving DecidableEq, Repr

/-- Flag of a value that is to be new. -/
def xattrCreate : Nat := 1

/-- Flag of a value that is to replace an old one. -/
def xattrReplace : Nat := 2

/-- A word as a signed number. -/
def s32OfWord (word : Nat) : Int := if word < 2 ^ 31 then word else word - 2 ^ 32

section Records

variable (swap : Bool) (xb : Buf) (xbSize : Nat)

/-- The size stored at a position. -/
def nvalSize (pos : Nat) : Int := s32OfWord (Words.value swap (Memory.load xb pos 4))

/-- The size stored at the position after a record, none too close to the end. -/
def nvalNextSize (pos : Nat) : Int :=
  if (pos : Int) < xbSize - 4 then nvalSize swap xb pos else 0

/-- The loop of `nvalFind`. -/
def nvalFindLoop (name : List UInt8) : Nat → Nat → Int → Option (Nat × Int)
  | 0, _, _ => none
  | fuel + 1, pos, size =>
    if 0 < size ∧ size < xbSize ∧ pos + size < xbSize then
      if Memory.strncmp xb (pos + 4) name size.toNat then some (pos, size)
      else
        let pos := pos + size.toNat
        nvalFindLoop name fuel pos (nvalNextSize swap xb xbSize pos)
    else none

/-- The position and the size of the record with a name. -/
def nvalFind (name : List UInt8) : Option (Nat × Int) :=
  nvalFindLoop swap xb xbSize name (xbSize + 1) 0 (nvalSize swap xb 0)

/-- The loop of `nvalUsed`. -/
def nvalUsedLoop : Nat → Nat → Int → Nat
  | 0, pos, _ => pos
  | fuel + 1, pos, size =>
    if 0 < size ∧ size < xbSize ∧ pos + size < xbSize then
      let pos := pos + size.toNat
      nvalUsedLoop fuel pos (nvalNextSize swap xb xbSize pos)
    else pos

/-- The position behind all records. -/
def nvalUsed : Nat := nvalUsedLoop swap xb xbSize (xbSize + 1) 0 (nvalSize swap xb 0)

/-- Delete the record with a name: the rest is moved over it, and the end of the area filled with
zeros. -/
def nvalDel (name : List UInt8) : Option NvalError × Buf :=
  match nvalFind swap xb xbSize name with
  | none => (some .enodata, xb)
  | some (pos, _) =>
    let size := (nvalSize swap xb pos).toNat
    let xb := Memory.moveDown xb pos size (xbSize - (pos + size))
    (none, Memory.put xb (xbSize - size) (List.replicate size 0))

/-- Size of a new record.  The length of the name is counted to one more than the size of the
area. -/
def nvalReclen (name value : List UInt8) : Int :=
  s32OfWord ((4 + min name.length (xbSize + 1) + 1 + value.length) % 2 ^ 32)

/-- Store a record.  The copy of the name is filled up with zeros to the length of the record. -/
def nvalPutRecord (start : Nat) (name value : List UInt8) : Buf :=
  let reclen := nvalReclen xbSize name value
  let count := (reclen % 2 ^ 32).toNat
  let xb := Memory.put xb start (Words.bytes swap 4 count)
  let xb := Memory.put xb (start + 4) (Memory.strncpy name count)
  Memory.put xb (start + 4 + (min name.length (xbSize + 1) + 1)) value

/-- Store a value under a name.  An old record with that name is deleted first. -/
def nvalSet (name value : List UInt8) (flags : Nat) : Option NvalError × Buf :=
  let found := nvalFind swap xb xbSize name
  if flags &&& xattrCreate ≠ 0 ∧ found.isSome then (some .eexist, xb)
  else if flags &&& xattrReplace ≠ 0 ∧ found.isNone then (some .enodata, xb)
  else
    let start := nvalUsed swap xb xbSize
    let sizeExist := match found with
      | some (_, size) => size
      | none => 0
    let space : Int := xbSize - start + sizeExist
    if space < nvalReclen xbSize name value then (some .enospc, xb)
    else if found.isSome then
      let xb := (nvalDel swap xb xbSize name).2
      (none, nvalPutRecord swap xb xbSize (nvalUsed swap xb xbSize) name value)
    else (none, nvalPutRecord swap xb xbSize start name value)

/-- Advance over the name of a record: the position of its zero and the size left. -/
def nvalSkipName : Nat → Nat → Int → Nat × Int
  | 0, pos, size => (pos, size)
  | fuel + 1, pos, size =>
    if xb pos ≠ 0 ∧ 0 < size ∧ pos < xbSize then nvalSkipName fuel (pos + 1) (size - 1)
    else (pos, size)

/-- The size of the value under a name and the bytes stored in the caller's buffer.  With a buffer
of size zero the size is asked for only. -/
def nvalGet (name : List UInt8) (bsize : Int) : Except NvalError (Int × List UInt8) :=
  match nvalFind swap xb xbSize name with
  | none => .error .enodata
  | some (pos, _) =>
    let skipped := nvalSkipName xb xbSize xbSize (pos + 4) (nvalSize swap xb pos - 4)
    let pos := skipped.1 + 1
    let size := skipped.2 - 1
    if bsize = 0 then .ok (size, [])
    else if size ≤ bsize then .ok (size, Memory.load xb pos size.toNat)
    else .error .erange

/-- The loop of `nvalList`, with the bytes stored in the caller's buffer.  It ends at a name for
which there is no room. -/
def nvalListLoop (bsize : Int) : Nat → Nat → Int → List UInt8 → List UInt8
  | 0, _, _, copied => copied
  | fuel + 1, pos, size, copied =>
    if 4 < size ∧ size ≤ xbSize ∧ pos + size < xbSize then
      -- the port counts to one more than the limit
      let nameLen := Memory.strnlen xb (pos + 4) ((size - 4).toNat + 1)
      if copied.length + nameLen + 1 < bsize then
        let next := pos + 4 + (size - 4).toNat
        nvalListLoop bsize fuel next (nvalNextSize swap xb xbSize next)
          (copied ++ Memory.load xb (pos + 4) nameLen ++ [0])
      else copied
    else copied

/-- The names of all records, each with its final zero. -/
def nvalList (bsize : Int) : List UInt8 :=
  nvalListLoop swap xb xbSize bsize (xbSize + 1) 0 (nvalSize swap xb 0) []

/-- Are there any records? -/
def nvalHasvalues : Bool := decide (0 < nvalUsed swap xb xbSize)

end Records

/-- A change of the records. -/
inductive NvalStep
  | set (name value : List UInt8) (flags : Nat)
  | del (name : List UInt8)

/-- Carry out a change. -/
def NvalStep.exec (swap : Bool) (xbSize : Nat) : NvalStep → Buf → Option NvalError × Buf
  | set name value flags, xb => nvalSet swap xb xbSize name value flags
  | del name, xb => nvalDel swap xb xbSize name

end Yaffs
