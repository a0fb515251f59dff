import Yaffs.FileTrees
import Yaffs.Objects

/-!
# Files

The part of the guts layer that reads, writes, truncates and deletes files, over the pages in use,
the short operations cache and the trees of the files.  Which page a write gets, if any, what garbage
is collected on the way and whether there is room for another chunk is up to the layers below: their
answers are lists here, of which nothing is assumed.  Garbage collection comes across the pages of
files that still have them; names and directories are left out.
-/

namespace Yaffs

/-- The data bytes of a page. -/
abbrev Chunk := Nat → UInt8

/-- A page in use. -/
structure Page where
  objId : Nat
  /-- Number of the chunk in its file, zero for a header. -/
  chunkId : Nat
  nBytes : Nat := 0
  data : Chunk := fun _ => 0
  /-- Size of the file in a header. -/
  fileSize : Nat := 0

/-- An entry of the short operations cache. -/
structure CacheEntry where
  object : Option Nat := none
  chunkId : Nat := 0
  lastUse : Nat := 0
  dirty : Bool := false
  nBytes : Nat := 0
  data : Chunk := fun _ => 0

/-- A file object. -/
structure FileObj where
  fileSize : Nat := 0
  storedSize : Nat := 0
  tree : FileTree := {}
  nDataChunks : Int := 0
  hdrChunk : Nat := 0
  /-- The directory that the file is in. -/
  parent : Option Nat := none
  dirty : Bool := false
  deleted : Bool := false
  unlinked : Bool := false
  softDel : Bool := false
  isShadowed : Bool := false
  deferedFree : Bool := false
  /-- Does an inode hold the object? -/
  hasInode : Bool := false

/-- What garbage collection comes across: a page of a file, which it moves, or a page of a soft
deleted file, which it drops. -/
inductive Collected
  | data (number chunkId : Nat)
  | header (number : Nat)
  | softDeleted (number : Nat)
deriving DecidableEq, Repr

/-- Parameters of a mounted device that the files depend on. -/
structure FileParam where
  isYaffs2 : Bool := true
  disableSoftDel : Bool := false
  nCaches : Nat := 0
  cacheBypassAligned : Bool := false
  inbandTags : Bool := false
  dataBytesPerChunk : Nat
  /-- Number of bits of a tnode entry. -/
  tnodeWidth : Nat := 16
  /-- A tnode entry stands for this many pages, as a power of two. -/
  chunkGrpBits : Nat := 0
  /-- First page of the device, and the one after the last. -/
  firstChunk : Nat := 0
  endChunk : Nat := 2 ^ 32
deriving DecidableEq, Repr

/-- The files of a device. -/
structure Files where
  param : FileParam
  memory : TnodeMemory := {}
  objs : Nat → Option FileObj := fun _ => none
  /-- Numbers of the objects in the hash buckets. -/
  numbers : Finset Nat := ∅
  /-- The pages in use. -/
  pages : Nat → Option Page := fun _ => none
  cache : Nat → CacheEntry := fun _ => {}
  cacheLastUse : Nat := 0
  nDeletedFiles : Int := 0
  /-- The pages that the coming writes get.  A write without one fails. -/
  programs : List (Option Nat) := []
  /-- What the coming garbage collections come across. -/
  collections : List (List Collected) := []
  /-- Answers of the coming calls of `yaffs_check_alloc_available`. -/
  allocAvailable : List Bool := []
  /-- Is there memory for the coming objects? -/
  objMemory : List Bool := []

/-- Number of times a value can be halved. -/
def calcShifts : Nat → Nat → Nat
  | 0, _ => 0
  | fuel + 1, value => if value = 0 ∨ value % 2 = 1 then 0 else calcShifts fuel (value / 2) + 1

/-- Chunk of an address in a file, counted from zero, and the offset in it. -/
def FileParam.addrToChunk (param : FileParam) (addr : Nat) : Nat × Nat :=
  let chunkShift := calcShifts 32 param.dataBytesPerChunk
  let chunkDiv := param.dataBytesPerChunk >>> chunkShift
  let chunk := (addr >>> chunkShift) % 2 ^ 32
  if chunkDiv = 1 then (chunk, addr % 2 ^ chunkShift % 2 ^ 32)
  else
    let chunk := chunk / chunkDiv
    (chunk, (((addr : Int) - chunk * param.dataBytesPerChunk) % 2 ^ 32).toNat)

namespace Files

variable (fs : Files)

/-! ## Objects and pages -/

def modifyObj (number : Nat) (change : FileObj → FileObj) : Files :=
  { fs with objs := Function.update fs.objs number ((fs.objs number).map change) }

/-- Is the directory one of the hidden ones? -/
def isHidden (parent : Option Nat) : Bool :=
  decide (parent = some objectIdUnlinked ∨ parent = some objectIdDeleted)

/-- Write a page. -/
def writeNewChunk (page : Page) : Int × Files :=
  let written := { fs with programs := fs.programs.tail }
  match fs.programs.head?.join with
  | none => (-1, written)
  | some chunk =>
    if 0 < chunk ∧ (fs.pages chunk).isNone then
      (chunk, { written with pages := Function.update fs.pages chunk (some page) })
    else (-1, written)

/-- Delete a page. -/
def chunkDel (chunk : Nat) : Files :=
  if chunk = 0 then fs else { fs with pages := Function.update fs.pages chunk none }

/-- Is there room for another chunk? -/
def checkAllocAvailable : Bool × Files :=
  (fs.allocAvailable.headD true, { fs with allocAvailable := fs.allocAvailable.tail })

/-! ## Trees -/

/-- First page of the group that a tnode has for a chunk. -/
def getGroupBase (groups : Fin 16 → Nat) (inodeChunk : Nat) : Nat :=
  groups (Fin.ofNat 16 inodeChunk) <<< fs.param.chunkGrpBits % 2 ^ 32

/-- Let the tree of a file say that a chunk is in a page. -/
def loadTnode0 (tree : FileTree) (inodeChunk nandChunk : Nat) : FileTree :=
  let group := (nandChunk >>> fs.param.chunkGrpBits) % 2 ^ fs.param.tnodeWidth
  { tree with top := tree.top.loadTnode0 group tree.topLevel inodeChunk }

/-- Look for the page of a chunk in a group.  The tags are looked at if there are several pages. -/
def findChunkInGroup (objId inodeChunk : Nat) : Nat → Nat → Option Nat
  | 0, _ => none
  | left + 1, theChunk =>
    if theChunk = 0 then none
    else if (fs.pages theChunk).any fun page => decide (fs.param.chunkGrpBits = 0 ∨
        page.objId = objId ∧ page.chunkId = inodeChunk) then some theChunk
    else findChunkInGroup objId inodeChunk left (theChunk + 1)

/-- Look for the page of a chunk. -/
def findChunkInFile (number inodeChunk : Nat) : Option Nat :=
  match (fs.objs number).bind fun obj => obj.tree.findTnode0 inodeChunk with
  | none => none
  | some groups =>
    fs.findChunkInGroup number inodeChunk (2 ^ fs.param.chunkGrpBits)
      (fs.getGroupBase groups inodeChunk)

/-- Look for the page of a chunk and take it from the tree. -/
def findDelFileChunk (number inodeChunk : Nat) : Option Nat × Files :=
  match fs.findChunkInFile number inodeChunk with
  | none => (none, fs)
  | some chunk =>
    (some chunk, fs.modifyObj number fun obj =>
      { obj with tree := fs.loadTnode0 obj.tree inodeChunk 0 })

/-- Put the page of a chunk into the tree, or just its tnodes if there is no page. -/
def putChunkInFile (number inodeChunk nandChunk : Nat) : Bool × Files :=
  match fs.objs number with
  | none => (false, fs)
  | some obj =>
    let found := obj.tree.addFindTnode0 inodeChunk fs.memory
    let tree := found.2.1
    let fs := { fs with
      memory := found.2.2
      objs := Function.update fs.objs number (some { obj with tree }) }
    if ¬found.1 then (false, fs)
    else if nandChunk = 0 then (true, fs)
    else
      let existing := ((tree.findTnode0 inodeChunk).map
        fun groups => fs.getGroupBase groups inodeChunk).getD 0
      (true, fs.modifyObj number fun obj =>
        { obj with
          nDataChunks := if existing = 0 then obj.nDataChunks + 1 else obj.nDataChunks
          tree := fs.loadTnode0 tree inodeChunk nandChunk })

/-! ## Deleting objects -/

/-- Is part of a file in the cache only? -/
def objCacheDirty (number : Nat) : Bool :=
  (List.range fs.param.nCaches).any fun i =>
    decide ((fs.cache i).object = some number) && (fs.cache i).dirty

/-- Drop a file from the cache. -/
def invalidateWholeCache (number : Nat) : Files :=
  { fs with
    cache := fun i =>
      if i < fs.param.nCaches ∧ (fs.cache i).object = some number then
        { fs.cache i with object := none }
      else fs.cache i }

/-- Write the header of a file. -/
def updateOhWith (gc : Files → Files) (number : Nat) : Int × Files :=
  let fs := gc fs
  match fs.objs number with
  | none => (-1, fs)
  | some obj =>
    let written := fs.writeNewChunk
      { objId := number
        chunkId := 0
        fileSize := if isHidden obj.parent then 0 else obj.storedSize }
    let fs := written.2
    if written.1 < 0 then (written.1, fs)
    else
      let fs := fs.modifyObj number fun obj => { obj with hdrChunk := written.1.toNat }
      let fs := fs.chunkDel obj.hdrChunk
      (written.1, fs.modifyObj number fun obj =>
        { obj with dirty := if fs.objCacheDirty number then obj.dirty else false })

/-- Move a file to one of the hidden directories. -/
def changeObjNameWith (gc : Files → Files) (number newDir : Nat) : Bool × Files :=
  let fs := fs.modifyObj number fun obj =>
    { obj with
      dirty := true
      parent := some newDir
      unlinked := obj.unlinked || decide (newDir = objectIdUnlinked) }
  let updated := fs.updateOhWith gc number
  (decide (0 ≤ updated.1), updated.2)

/-- Free an object, or have it freed with its inode. -/
def freeObj (number : Nat) : Files :=
  if (fs.objs number).any FileObj.hasInode then
    fs.modifyObj number fun obj => { obj with deferedFree := true }
  else
    { fs with
      objs := Function.update fs.objs number none
      numbers := fs.numbers.erase number }

/-- Delete an object. -/
def genericObjDelWith (gc : Files → Files) (number : Nat) : Files :=
  let fs := fs.invalidateWholeCache number
  let fs :=
    if fs.param.isYaffs2 ∧ (fs.objs number).any fun obj =>
        decide (obj.parent ≠ some objectIdDeleted) then
      (fs.changeObjNameWith gc number objectIdDeleted).2
    else fs
  let fs := fs.modifyObj number fun obj => { obj with parent := none }
  let fs := fs.chunkDel (((fs.objs number).map FileObj.hdrChunk).getD 0)
  let fs := fs.modifyObj number fun obj => { obj with hdrChunk := 0 }
  fs.freeObj number

/-- Free the top of the tree of a file. -/
def freeTop (number : Nat) : Files :=
  match fs.objs number with
  | none => fs
  | some obj =>
    { fs with
      memory := fs.memory.freeTnode obj.tree.top.address
      objs := Function.update fs.objs number
        (some { obj with tree := { obj.tree with top := .null } }) }

/-! ## Collecting garbage -/

/-- Deal with one page of a block that is collected.  With the last page of a soft deleted file goes
the file. -/
def gcProcessChunk (collected : Collected) : Files :=
  match collected with
  | .data number inodeChunk =>
    match fs.objs number, fs.findChunkInFile number inodeChunk with
    | some obj, some oldChunk =>
      if obj.deleted ∧ obj.softDel then fs
      else
        match fs.pages oldChunk with
        | none => fs
        | some page =>
          let written := fs.writeNewChunk page
          if written.1 < 0 then written.2
          else (written.2.putChunkInFile number inodeChunk written.1.toNat).2.chunkDel oldChunk
    | _, _ => fs
  | .header number =>
    match fs.objs number with
    | none => fs
    | some obj =>
      match fs.pages obj.hdrChunk with
      | none => fs
      | some page =>
        let written := fs.writeNewChunk { page with fileSize := obj.storedSize }
        if written.1 < 0 then written.2
        else
          (written.2.modifyObj number fun obj =>
            { obj with hdrChunk := written.1.toNat }).chunkDel obj.hdrChunk
  | .softDeleted number =>
    match fs.objs number with
    | none => fs
    | some obj =>
      if obj.deleted ∧ obj.softDel ∧ 0 < obj.nDataChunks then
        let fs := fs.modifyObj number fun obj => { obj with nDataChunks := obj.nDataChunks - 1 }
        if obj.nDataChunks - 1 ≤ 0 then
          let fs := (fs.freeTop number).genericObjDelWith id number
          { fs with nDeletedFiles := fs.nDeletedFiles - 1 }
        else fs
      else fs

/-- Collect garbage. -/
def checkGc : Files :=
  (fs.collections.headD []).foldl gcProcessChunk { fs with collections := fs.collections.tail }

/-- Write the header of a file. -/
def updateOh (number : Nat) : Int × Files := fs.updateOhWith checkGc number

/-- Delete an object. -/
def genericObjDel (number : Nat) : Files := fs.genericObjDelWith checkGc number

/-! ## The data of a chunk -/

/-- Read a chunk.  Without a page it reads as zeros. -/
def rdDataObj (number inodeChunk : Nat) : Chunk :=
  match (fs.findChunkInFile number inodeChunk).bind fs.pages with
  | none => fun _ => 0
  | some page => page.data

/-- Write a chunk. -/
def wrDataObj (number inodeChunk : Nat) (data : Chunk) (nBytes : Nat) : Int × Files :=
  let fs := fs.checkGc
  let prevChunk := fs.findChunkInFile number inodeChunk
  let made := if prevChunk.isNone then fs.putChunkInFile number inodeChunk 0 else (true, fs)
  let fs := made.2
  if ¬made.1 then (0, fs)
  else
    -- The end of the chunk is computed in 32 bits.
    let endpos := ((inodeChunk - 1) * fs.param.dataBytesPerChunk + nBytes) % 2 ^ 32
    let fs := fs.modifyObj number fun obj => { obj with storedSize := max obj.storedSize endpos }
    let written := fs.writeNewChunk { objId := number, chunkId := inodeChunk, nBytes, data }
    let fs := written.2
    if 0 < written.1 then
      let fs := (fs.putChunkInFile number inodeChunk written.1.toNat).2
      (written.1, fs.chunkDel (prevChunk.getD 0))
    else (written.1, fs)

/-! ## The cache -/

def setCache (i : Nat) (entry : CacheEntry) : Files :=
  { fs with cache := Function.update fs.cache i entry }

/-- Write one entry of the cache, and drop it if asked to. -/
def flushSingleCache (i : Nat) (discard : Bool) : Files :=
  let entry := fs.cache i
  let fs :=
    match entry.object with
    | none => fs
    | some number =>
      if entry.dirty then
        let fs := (fs.wrDataObj number entry.chunkId entry.data entry.nBytes).2
        fs.setCache i { fs.cache i with dirty := false }
      else fs
  if discard then fs.setCache i { fs.cache i with object := none } else fs

/-- Write the entries of a file. -/
def flushFileCache (number : Nat) (discard : Bool) : Files :=
  (List.range fs.param.nCaches).foldl
    (fun fs i =>
      if (fs.cache i).object = some number then fs.flushSingleCache i discard else fs) fs

/-- The entry that has been used least recently. -/
def lruCache : Nat :=
  (List.range fs.param.nCaches).foldl
    (fun best i => if (fs.cache i).lastUse < (fs.cache best).lastUse then i else best) 0

theorem lruCache_lt (some_cache : 0 < fs.param.nCaches) : fs.lruCache < fs.param.nCaches := by
  have folded : ∀ (indices : List Nat) (best : Nat), best < fs.param.nCaches →
      (∀ i ∈ indices, i < fs.param.nCaches) →
      indices.foldl (fun best i =>
        if (fs.cache i).lastUse < (fs.cache best).lastUse then i else best) best <
          fs.param.nCaches := by
    intro indices
    induction indices with
    | nil => exact fun _ best_lt _ => best_lt
    | cons i indices rest =>
      intro best best_lt inside
      refine rest _ ?_ fun j j_mem => inside j (List.mem_cons_of_mem _ j_mem)
      dsimp only
      split
      · exact inside i (List.mem_cons_self ..)
      · exact best_lt
  exact folded _ 0 some_cache fun i i_mem => List.mem_range.mp i_mem

/-- Get an entry that is not in use. -/
def grabChunkCache : Nat × Files :=
  match (List.range fs.param.nCaches).find? fun i => (fs.cache i).object.isNone with
  | some i => (i, fs)
  | none => (fs.lruCache, fs.flushSingleCache fs.lruCache true)

/-- The entry of a chunk. -/
def findChunkCache (number inodeChunk : Nat) : Option Nat :=
  (List.range fs.param.nCaches).find? fun i =>
    decide ((fs.cache i).object = some number ∧ (fs.cache i).chunkId = inodeChunk)

/-- Note the use of an entry. -/
def useCache (i : Nat) (isWrite : Bool) : Files :=
  let reset := 100000000 < fs.cacheLastUse
  let cache : Nat → CacheEntry := fun j =>
    if reset ∧ 1 ≤ j ∧ j < fs.param.nCaches then { fs.cache j with lastUse := 0 } else fs.cache j
  let lastUse := (if reset then 0 else fs.cacheLastUse) + 1
  { fs with
    cacheLastUse := lastUse
    cache := Function.update cache i
      { cache i with lastUse, dirty := (cache i).dirty || isWrite } }

/-- Drop a chunk from the cache. -/
def invalidateChunkCache (number inodeChunk : Nat) : Files :=
  match fs.findChunkCache number inodeChunk with
  | none => fs
  | some i => fs.setCache i { fs.cache i with object := none }

/-- Get an entry and load a chunk into it. -/
def loadChunkCache (number inodeChunk : Nat) : Nat × Files :=
  let grabbed := fs.grabChunkCache
  let fs := grabbed.2
  (grabbed.1, fs.setCache grabbed.1
    { fs.cache grabbed.1 with
      object := some number
      chunkId := inodeChunk
      dirty := false
      data := fs.rdDataObj number inodeChunk })

/-! ## Reading and writing -/

/-- Copy bytes into a chunk. -/
def copyInto (data : Chunk) (start : Nat) (bytes : List UInt8) : Chunk := fun i =>
  if start ≤ i then (bytes[i - start]?).getD (data i) else data i

/-- Bytes of a chunk. -/
def copyFrom (data : Chunk) (start count : Nat) : List UInt8 :=
  (List.range count).map fun i => data (start + i)

/-- Read a file chunk by chunk.  The fuel stands for the loop. -/
def fileRd (number : Nat) : Nat → Nat → Nat → Files → List UInt8 × Files
  | 0, _, _, fs => ([], fs)
  | _, _, 0, fs => ([], fs)
  | fuel + 1, offset, n, fs =>
    let place := fs.param.addrToChunk offset
    let chunk := place.1 + 1
    let start := place.2
    let nCopy :=
      if start + n < fs.param.dataBytesPerChunk then n else fs.param.dataBytesPerChunk - start
    let cached := fs.findChunkCache number chunk
    let read : Chunk × Files :=
      if cached.isSome ∨ nCopy ≠ fs.param.dataBytesPerChunk ∨ fs.param.inbandTags then
        if 0 < fs.param.nCaches then
          let loaded : Nat × Files :=
            match cached with
            | some i => (i, fs)
            | none =>
              let loaded := fs.loadChunkCache number chunk
              let fs := loaded.2
              (loaded.1, fs.setCache loaded.1 { fs.cache loaded.1 with nBytes := 0 })
          let fs := loaded.2.useCache loaded.1 false
          ((fs.cache loaded.1).data, fs)
        else (fs.rdDataObj number chunk, fs)
      else (fs.rdDataObj number chunk, fs)
    let rest := fileRd number fuel (offset + nCopy) (n - nCopy) read.2
    (copyFrom read.1 start nCopy ++ rest.1, rest.2)

/-- Write part of a chunk through the cache. -/
def wrCached (number inodeChunk start : Nat) (bytes : List UInt8) (nWriteback : Nat)
    (writeThrough : Bool) : Int × Files :=
  let found : Option Nat × Files :=
    match fs.findChunkCache number inodeChunk with
    | none =>
      let available := fs.checkAllocAvailable
      if available.1 then
        let loaded := available.2.loadChunkCache number inodeChunk
        (some loaded.1, loaded.2)
      else (none, available.2)
    | some i =>
      -- An entry that has only been read has had no space check made for it.
      if (fs.cache i).dirty then (some i, fs)
      else
        let available := fs.checkAllocAvailable
        if available.1 then (some i, available.2) else (none, available.2)
  let fs := found.2
  match found.1 with
  | none => (-1, fs)
  | some i =>
    let fs := fs.useCache i true
    let fs := fs.setCache i
      { fs.cache i with data := copyInto (fs.cache i).data start bytes, nBytes := nWriteback }
    if writeThrough then
      let written := fs.wrDataObj number inodeChunk (fs.cache i).data nWriteback
      let fs := written.2
      (written.1, fs.setCache i { fs.cache i with dirty := false })
    else (0, fs)

/-- Write part of a chunk, or all of it. -/
def wrChunk (number inodeChunk start : Nat) (bytes : List UInt8) (nWriteback : Nat)
    (writeThrough : Bool) : Int × Files :=
  if bytes.length ≠ fs.param.dataBytesPerChunk ∨ ¬fs.param.cacheBypassAligned ∨
      fs.param.inbandTags then
    if 0 < fs.param.nCaches then fs.wrCached number inodeChunk start bytes nWriteback writeThrough
    else
      fs.wrDataObj number inodeChunk (copyInto (fs.rdDataObj number inodeChunk) start bytes)
        nWriteback
  else
    let written := fs.wrDataObj number inodeChunk (copyInto (fun _ => 0) 0 bytes)
      fs.param.dataBytesPerChunk
    (written.1, written.2.invalidateChunkCache number inodeChunk)

/-- Write a file chunk by chunk.  The fuel stands for the loop. -/
def doFileWrLoop (number : Nat) (writeThrough : Bool) :
    Nat → Nat → List UInt8 → Files → Nat × Files
  | 0, _, _, fs => (0, fs)
  | _, _, [], fs => (0, fs)
  | fuel + 1, offset, buffer, fs =>
    let place := fs.param.addrToChunk offset
    let start := place.2
    let n := buffer.length
    let fileSize := ((fs.objs number).map FileObj.fileSize).getD 0
    let chunkStart := place.1 * fs.param.dataBytesPerChunk
    let nBytesRead := min ((fileSize - chunkStart) % 2 ^ 32) fs.param.dataBytesPerChunk
    let partly := start + n < fs.param.dataBytesPerChunk
    let nCopy := if partly then n else fs.param.dataBytesPerChunk - start
    let nWriteback := if partly then max nBytesRead (start + n) else fs.param.dataBytesPerChunk
    let written := fs.wrChunk number (place.1 + 1) start (buffer.take nCopy) nWriteback writeThrough
    if written.1 < 0 then (0, written.2)
    else
      let rest :=
        doFileWrLoop number writeThrough fuel (offset + nCopy) (buffer.drop nCopy) written.2
      (nCopy + rest.1, rest.2)

/-- Write a file. -/
def doFileWr (number offset : Nat) (buffer : List UInt8) (writeThrough : Bool) : Nat × Files :=
  let done := doFileWrLoop number writeThrough buffer.length offset buffer fs
  (done.1, done.2.modifyObj number fun obj =>
    { obj with fileSize := max obj.fileSize (offset + done.1), dirty := true })

/-! ## Resizing -/

/-- Drop the chunks of a file from a new end on, from the last one backwards. -/
def pruneChunks (number newSize : Nat) : Files :=
  let oldSize := ((fs.objs number).map FileObj.fileSize).getD 0
  let lastDel := (if 0 < oldSize then (fs.param.addrToChunk (oldSize - 1)).1 else 0) + 1
  let startDel := (fs.param.addrToChunk (newSize + fs.param.dataBytesPerChunk - 1)).1 + 1
  (List.range' startDel (lastDel + 1 - startDel)).reverse.foldl
    (fun fs i =>
      let found := fs.findDelFileChunk number i
      let fs := found.2
      match found.1 with
      | none => fs
      | some chunk =>
        if chunk < fs.param.firstChunk ∨ fs.param.endChunk ≤ chunk then fs
        else
          (fs.modifyObj number fun obj =>
            { obj with nDataChunks := obj.nDataChunks - 1 }).chunkDel chunk) fs

/-- Prune the tree of a file. -/
def pruneTree (number : Nat) : Files :=
  match fs.objs number with
  | none => fs
  | some obj =>
    let pruned := obj.tree.pruneTree fs.memory
    { fs with
      memory := pruned.2
      objs := Function.update fs.objs number (some { obj with tree := pruned.1 }) }

/-- Cut a file off. -/
def resizeFileDown (number newSize : Nat) : Files :=
  let place := fs.param.addrToChunk newSize
  let fs := fs.pruneChunks number newSize
  let fs :=
    if place.2 = 0 then fs
    else
      let data := fs.rdDataObj number (place.1 + 1)
      (fs.wrDataObj number (place.1 + 1) (fun i => if i < place.2 then data i else 0) place.2).2
  let fs := fs.modifyObj number fun obj => { obj with fileSize := newSize, storedSize := newSize }
  fs.pruneTree number

/-- Largest hole that is filled with zeros, in chunks. -/
def smallHoleThreshold : Nat := 4

/-- Fill a small hole with zeros.  The fuel stands for the loop. -/
def fillHole (number : Nat) : Nat → Nat → Nat → Files → Bool × Files
  | 0, _, increase, fs => (decide (increase = 0), fs)
  | fuel + 1, pos, increase, fs =>
    if increase = 0 then (true, fs)
    else
      let thisWrite := min increase fs.param.dataBytesPerChunk
      let written := fs.doFileWr number pos (List.replicate thisWrite 0) false
      if written.1 = thisWrite then
        fillHole number fuel (pos + thisWrite) (increase - thisWrite) written.2
      else (false, written.2)

/-- Make up for a hole at the end of a file: fill it with zeros if it is small, or mark its start
with a header. -/
def handleHole (number newSize : Nat) : Files :=
  let oldSize := ((fs.objs number).map FileObj.fileSize).getD 0
  if ¬fs.param.isYaffs2 ∨ newSize ≤ oldSize then fs
  else
    let increase := newSize - oldSize
    let small := increase < smallHoleThreshold * fs.param.dataBytesPerChunk
    let available : Bool × Files := if small then fs.checkAllocAvailable else (false, fs)
    let fs := available.2
    let filled : Bool × Files :=
      if available.1 then
        let filled := fillHole number increase oldSize increase fs
        (filled.1, if filled.1 then filled.2 else filled.2.resizeFileDown number oldSize)
      else (false, fs)
    let fs := filled.2
    let parent := (fs.objs number).bind FileObj.parent
    if ¬filled.1 ∧ parent.isSome ∧ ¬isHidden parent then (fs.updateOh number).2 else fs

/-- Write a file, after a hole if there is one. -/
def wrFile (number offset : Nat) (buffer : List UInt8) (writeThrough : Bool) : Nat × Files :=
  (fs.handleHole number offset).doFileWr number offset buffer writeThrough

/-- Change the size of a file. -/
def resizeFile (number newSize : Nat) : Files :=
  let oldSize := ((fs.objs number).map FileObj.fileSize).getD 0
  let fs := fs.flushFileCache number true
  let fs := fs.invalidateWholeCache number
  let fs := fs.checkGc
  if newSize = oldSize then fs
  else
    let fs :=
      if oldSize < newSize then
        (fs.handleHole number newSize).modifyObj number fun obj => { obj with fileSize := newSize }
      else fs.resizeFileDown number newSize
    match fs.objs number with
    | none => fs
    | some obj =>
      if obj.parent.isSome ∧ ¬obj.isShadowed ∧ ¬isHidden obj.parent then (fs.updateOh number).2
      else fs

/-- Write the cached part of a file, and its header. -/
def flushFile (number : Nat) (dataSync discardCache : Bool) : Bool × Files :=
  if ¬(fs.objs number).any FileObj.dirty then (true, fs)
  else
    let fs := fs.flushFileCache number discardCache
    if dataSync then (true, fs)
    else
      let updated := fs.updateOh number
      (decide (0 ≤ updated.1), updated.2)

/-! ## Creating and deleting files -/

/-- Make a file object. -/
def newObj (number : Nat) : Bool × Files :=
  let taken := fs.memory.getTnode
  match taken.1 with
  | none => (false, { fs with memory := taken.2 })
  | some tnode =>
    let room := fs.objMemory.headD true
    let fs := { fs with memory := taken.2, objMemory := fs.objMemory.tail }
    if room then
      (true, { fs with
        objs := Function.update fs.objs number
          (some { tree := { topLevel := 0, top := .blank 0 (some tnode) } })
        numbers := insert number fs.numbers })
    else (false, { fs with memory := fs.memory.freeTnode (some tnode) })

/-- Soft delete a deleted file, or delete it at once if it has no data. -/
def softDelFile (number : Nat) : Files :=
  match fs.objs number with
  | none => fs
  | some obj =>
    if ¬obj.deleted ∨ obj.softDel then fs
    else if obj.nDataChunks ≤ 0 then (fs.freeTop number).genericObjDel number
    else
      let done := obj.tree.top.softDelWorker obj.tree.topLevel fs.memory
      { fs with
        memory := done.2.2
        objs := Function.update fs.objs number
          (some { obj with tree := { obj.tree with top := done.2.1 }, softDel := true }) }

/-- Count a file as deleted. -/
def markDeleted (number : Nat) : Files :=
  { fs.modifyObj number fun obj => { obj with deleted := true } with
    nDeletedFiles := fs.nDeletedFiles + 1 }

/-- Is the data of a file deleted by cutting it off? -/
def resizesToDelete : Bool := fs.param.disableSoftDel || fs.param.isYaffs2

/-- Unlink a file that still has data: at once, or later if an inode holds it. -/
def unlinkFileIfNeeded (number : Nat) : Bool × Files :=
  if ¬(fs.objs number).any FileObj.hasInode then
    let moved := fs.changeObjNameWith checkGc number objectIdDeleted
    let fs := moved.2.markDeleted number
    let fs := if fs.resizesToDelete then fs.resizeFile number 0 else fs
    (moved.1, fs.softDelFile number)
  else fs.changeObjNameWith checkGc number objectIdUnlinked

/-- Delete a file. -/
def delFile (number : Nat) : Files :=
  let fs := if fs.resizesToDelete then fs.resizeFile number 0 else fs
  match fs.objs number with
  | none => fs
  | some obj =>
    if 0 < obj.nDataChunks then
      let needed := if ¬obj.unlinked then fs.unlinkFileIfNeeded number else (true, fs)
      let fs := needed.2
      match fs.objs number with
      | none => fs
      | some obj =>
        if needed.1 ∧ obj.unlinked ∧ ¬obj.deleted then
          (fs.markDeleted number).softDelFile number
        else fs
    else (fs.freeTop number).genericObjDel number

/-- Create a file in a directory. -/
def createFile (number parent : Nat) : Bool × Files :=
  let made := fs.newObj number
  let fs := made.2
  if ¬made.1 then (false, fs)
  else
    let fs := fs.modifyObj number fun obj => { obj with parent := some parent, dirty := true }
    let updated := fs.updateOh number
    if updated.1 < 0 then (false, updated.2.delFile number) else (true, updated.2)

/-- Unlink a file without further links: at once, or when the inode that holds it lets go. -/
def unlinkObj (number : Nat) : Files :=
  if (fs.objs number).any FileObj.hasInode then
    (fs.changeObjNameWith checkGc number objectIdUnlinked).2
  else fs.delFile number

/-- Let go of the object of an inode. -/
def releaseInode (number : Nat) : Files :=
  let fs := fs.modifyObj number fun obj => { obj with hasInode := false }
  if (fs.objs number).any FileObj.unlinked then fs.delFile number else fs

end Files

end Yaffs
