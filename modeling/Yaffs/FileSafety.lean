import Yaffs.FileMoves

/-!
# Owners of pages over runs

Files are read, written, cut off, extended and flushed, and garbage is collected, in any order and with
any pages and tnodes refused on the way.  At all times the pages in use are those that the files refer
to.
-/

namespace Yaffs

namespace Files

variable {fs fs' fs'' : Files} {number inodeChunk : Nat}

/-- Pages have their owners, and the cache holds chunks and no headers. -/
structure Proper (fs : Files) : Prop where
  owned : fs.Owned
  slots : ∀ i, i < fs.param.nCaches → (fs.cache i).object.isSome → 0 < (fs.cache i).chunkId

/-- What all of the file operations have in common, no matter what fails in them. -/
structure Safe (fs fs' : Files) : Prop where
  param : fs.Proper → fs'.param = fs.param
  proper : fs.Proper → fs'.Proper
  spends : fs.Proper → Spends fs fs'
  same_objs : fs.Proper → ∀ number, (fs'.objs number).isSome = (fs.objs number).isSome

theorem Safe.refl (fs : Files) : Safe fs fs :=
  ⟨fun _ => rfl, id, fun _ => .refl fs, fun _ _ => rfl⟩

theorem Safe.trans (first : Safe fs fs') (second : Safe fs' fs'') : Safe fs fs'' :=
  ⟨fun proper => (second.param (first.proper proper)).trans (first.param proper),
    second.proper ∘ first.proper,
    fun proper => (first.spends proper).trans (second.spends (first.proper proper)),
    fun proper number =>
      (second.same_objs (first.proper proper) number).trans (first.same_objs proper number)⟩

theorem safe_of_proper (safe : fs.Proper → Safe fs fs') : Safe fs fs' :=
  ⟨fun proper => (safe proper).param proper, fun proper => (safe proper).proper proper,
    fun proper => (safe proper).spends proper, fun proper => (safe proper).same_objs proper⟩

/-- The pages have been moved about without the cache. -/
theorem SameOutlines.safe (same : fs.Owned → SameOutlines fs fs')
    (owned : fs.Owned → fs'.Owned) : Safe fs fs' := by
  refine ⟨fun proper => (same proper.owned).param, fun proper => ⟨owned proper.owned, ?_⟩,
    fun proper => (same proper.owned).spends, fun proper number => ?_⟩
  · rw [(same proper.owned).param, (same proper.owned).cache]
    exact proper.slots
  · have isSome := congrArg Option.isSome ((same proper.owned).outlines number)
    rw [Option.isSome_map, Option.isSome_map] at isSome
    exact isSome

theorem checkGc_safe (fs : Files) : Safe fs fs.checkGc :=
  SameOutlines.safe (fun owned => (checkGc_owned owned).2.toSameOutlines)
    fun owned => (checkGc_owned owned).1

theorem updateOh_safe (fs : Files) (number : Nat) : Safe fs (fs.updateOh number).2 :=
  SameOutlines.safe (fun owned => (updateOh_owned owned number).2.toSameOutlines)
    fun owned => (updateOh_owned owned number).1

theorem wrDataObj_outlines (owned : fs.Owned) (number : Nat) (positive : 0 < inodeChunk)
    (data : Chunk) (nBytes : Nat) :
    SameOutlines fs (fs.wrDataObj number inodeChunk data nBytes).2 := by
  rcases (wrDataObj_owned owned number positive data nBytes).2 with ⟨-, rewrites⟩ | ⟨-, unseen⟩
  · exact rewrites.toSameOutlines
  · exact unseen.toSameOutlines

theorem wrDataObj_safe (fs : Files) (number : Nat) (positive : 0 < inodeChunk) (data : Chunk)
    (nBytes : Nat) : Safe fs (fs.wrDataObj number inodeChunk data nBytes).2 :=
  SameOutlines.safe (fun owned => wrDataObj_outlines owned number positive data nBytes)
    fun owned => (wrDataObj_owned owned number positive data nBytes).1

theorem pruneChunks_safe (fs : Files) (number newSize : Nat) :
    Safe fs (fs.pruneChunks number newSize) :=
  SameOutlines.safe (fun owned => (pruneChunks_owned owned number newSize).2.toSameOutlines)
    fun owned => (pruneChunks_owned owned number newSize).1

theorem pruneTree_safe (fs : Files) (number : Nat) : Safe fs (fs.pruneTree number) :=
  SameOutlines.safe (fun owned => (pruneTree_owned owned number).2.toSameOutlines)
    fun owned => (pruneTree_owned owned number).1

/-- A change of an object that does not concern its pages. -/
theorem modifyObj_safe (fs : Files) (number : Nat) {change : FileObj → FileObj}
    (same : ∀ obj, FileObj.SamePages obj (change obj)) : Safe fs (fs.modifyObj number change) := by
  refine ⟨fun _ => rfl, fun proper => ⟨proper.owned.modifyObj number same, proper.slots⟩,
    fun _ => .of_pages (List.suffix_refl _) id rfl fun _ _ free _ => free, fun _ n => ?_⟩
  simp only [Files.modifyObj]
  by_cases here : n = number
  · rw [here, Function.update_self, Option.isSome_map]
  · rw [Function.update_of_ne here]

/-! ## The cache -/

/-- The cache has changed, and still has no headers. -/
theorem safe_of_cache (param : fs'.param = fs.param) (pages : fs'.pages = fs.pages)
    (objs : fs'.objs = fs.objs) (programs : fs'.programs <:+ fs.programs)
    (memory : fs'.memory = fs.memory)
    (room : ∀ answer ∈ fs'.allocAvailable, answer ∈ fs.allocAvailable)
    (slots : ∀ i, i < fs.param.nCaches → (fs'.cache i).object.isSome →
      0 < (fs'.cache i).chunkId ∨ (fs.cache i).object.isSome ∧
        (fs'.cache i).chunkId = (fs.cache i).chunkId) : Safe fs fs' := by
  refine ⟨fun _ => param, fun proper => ⟨?_, fun i i_lt held => ?_⟩, fun _ => ⟨programs, ?_⟩,
    fun _ number => by rw [objs]⟩
  · exact proper.owned.congr param (fun _ inside => programs.subset inside) pages
      (fun n k => by rw [entry, entry, objs]) (fun n => by rw [objs])
      fun found => proper.owned.live (objs ▸ found)
  · rw [param] at i_lt
    rcases slots i i_lt held with positive | ⟨held', same⟩
    · exact positive
    · rw [same]
      exact proper.slots i i_lt held'
  · intro supplied
    refine ⟨fun given inside => ?_, supplied.apart.sublist programs.sublist, memory ▸ supplied.memory,
      fun answer inside => supplied.room answer (room answer inside)⟩
    rw [pages]
    exact supplied.pages given (programs.subset inside)

theorem setCache_safe (fs : Files) (i : Nat) {entry : CacheEntry}
    (slot : entry.object.isSome → 0 < entry.chunkId ∨ (fs.cache i).object.isSome ∧
      entry.chunkId = (fs.cache i).chunkId) : Safe fs (fs.setCache i entry) := by
  refine safe_of_cache rfl rfl rfl (List.suffix_refl _) rfl (fun _ => id) fun j _ held => ?_
  simp only [setCache] at held ⊢
  by_cases here : j = i
  · subst here
    rw [Function.update_self] at held ⊢
    exact slot held
  · rw [Function.update_of_ne here] at held ⊢
    exact Or.inr ⟨held, rfl⟩

theorem checkAllocAvailable_safe (fs : Files) : Safe fs fs.checkAllocAvailable.2 :=
  safe_of_cache rfl rfl rfl (List.suffix_refl _) rfl (fun _ => List.mem_of_mem_tail)
    fun _ _ held => Or.inr ⟨held, rfl⟩

theorem invalidateWholeCache_safe (fs : Files) (number : Nat) :
    Safe fs (fs.invalidateWholeCache number) := by
  refine safe_of_cache rfl rfl rfl (List.suffix_refl _) rfl (fun _ => id) fun i _ held => ?_
  simp only [invalidateWholeCache] at held ⊢
  split at held
  case isTrue => cases held
  case isFalse others =>
    rw [if_neg others]
    exact Or.inr ⟨held, rfl⟩

theorem useCache_safe (fs : Files) (i : Nat) (isWrite : Bool) : Safe fs (fs.useCache i isWrite) := by
  refine safe_of_cache rfl rfl rfl (List.suffix_refl _) rfl (fun _ => id) fun j _ held => ?_
  have same (j : Nat) : ((fs.useCache i isWrite).cache j).object = (fs.cache j).object ∧
      ((fs.useCache i isWrite).cache j).chunkId = (fs.cache j).chunkId := by
    simp only [useCache]
    by_cases here : j = i
    · subst here
      rw [Function.update_self]
      dsimp only
      split <;> exact ⟨rfl, rfl⟩
    · rw [Function.update_of_ne here]
      split <;> exact ⟨rfl, rfl⟩
  rw [(same j).1] at held
  exact Or.inr ⟨held, (same j).2⟩

theorem invalidateChunkCache_safe (fs : Files) (number inodeChunk : Nat) :
    Safe fs (fs.invalidateChunkCache number inodeChunk) := by
  simp only [invalidateChunkCache]
  split
  · exact Safe.refl fs
  · exact setCache_safe fs _ (by simp)

theorem flushSingleCache_safe (fs : Files) {i : Nat} (i_lt : i < fs.param.nCaches)
    (discard : Bool) : Safe fs (fs.flushSingleCache i discard) := by
  have dropped (fs : Files) : Safe fs
      (if discard then fs.setCache i { fs.cache i with object := none } else fs) := by
    split
    · exact setCache_safe fs i (by simp)
    · exact Safe.refl fs
  simp only [flushSingleCache]
  refine Safe.trans ?_ (dropped _)
  split
  case h_1 => exact Safe.refl fs
  case h_2 number held =>
    split
    case isFalse => exact Safe.refl fs
    case isTrue =>
      have cleaned (fs : Files) : Safe fs (fs.setCache i { fs.cache i with dirty := false }) :=
        setCache_safe fs i fun held => Or.inr ⟨held, rfl⟩
      -- The write needs a chunk that is not the header, which only a proper cache promises.
      refine safe_of_proper fun proper => Safe.trans ?_ (cleaned _)
      exact wrDataObj_safe fs number (proper.slots i i_lt (by rw [held]; rfl)) _ _

theorem flushFileCache_safe (fs : Files) (number : Nat) (discard : Bool) :
    Safe fs (fs.flushFileCache number discard) := by
  have swept (entries : List Nat) : ∀ fs : Files, (∀ i ∈ entries, i < fs.param.nCaches) →
      Safe fs (entries.foldl (fun fs i =>
        if (fs.cache i).object = some number then fs.flushSingleCache i discard else fs) fs) := by
    induction entries with
    | nil => exact fun fs _ => Safe.refl fs
    | cons i entries ih =>
      intro fs inside
      have first : Safe fs (if (fs.cache i).object = some number then fs.flushSingleCache i discard
          else fs) := by
        split
        · exact flushSingleCache_safe fs (inside i List.mem_cons_self) discard
        · exact Safe.refl fs
      refine safe_of_proper fun proper => first.trans (ih _ fun j later => ?_)
      rw [first.param proper]
      exact inside j (List.mem_cons_of_mem i later)
  exact swept _ fs fun i inside => List.mem_range.mp inside

theorem grabChunkCache_safe (fs : Files) (some_cache : 0 < fs.param.nCaches) :
    Safe fs fs.grabChunkCache.2 := by
  simp only [grabChunkCache]
  split
  · exact Safe.refl fs
  · exact flushSingleCache_safe fs (fs.lruCache_lt some_cache) true

theorem loadChunkCache_safe (fs : Files) (some_cache : 0 < fs.param.nCaches) (number : Nat)
    (positive : 0 < inodeChunk) : Safe fs (fs.loadChunkCache number inodeChunk).2 := by
  simp only [loadChunkCache]
  exact (grabChunkCache_safe fs some_cache).trans (setCache_safe _ _ fun _ => Or.inl positive)

/-! ## Reading and writing -/

/-- The entry of a chunk, which is loaded if it is not there. -/
def readEntry (fs : Files) (number chunk : Nat) : Nat × Files :=
  match fs.findChunkCache number chunk with
  | some i => (i, fs)
  | none =>
    let loaded := fs.loadChunkCache number chunk
    (loaded.1, loaded.2.setCache loaded.1 { loaded.2.cache loaded.1 with nBytes := 0 })

/-- What reading does for one chunk. -/
def readChunk (fs : Files) (number chunk nCopy : Nat) : Chunk × Files :=
  if (fs.findChunkCache number chunk).isSome ∨ nCopy ≠ fs.param.dataBytesPerChunk ∨
      fs.param.inbandTags then
    if 0 < fs.param.nCaches then
      let loaded := fs.readEntry number chunk
      let used := loaded.2.useCache loaded.1 false
      ((used.cache loaded.1).data, used)
    else (fs.rdDataObj number chunk, fs)
  else (fs.rdDataObj number chunk, fs)

/-- How much of a chunk is copied. -/
def copySize (fs : Files) (offset n : Nat) : Nat :=
  if (fs.param.addrToChunk offset).2 + n < fs.param.dataBytesPerChunk then n
  else fs.param.dataBytesPerChunk - (fs.param.addrToChunk offset).2

theorem fileRd_succ (fs : Files) (number fuel offset n : Nat) :
    fileRd number (fuel + 1) offset (n + 1) fs =
      let nCopy := fs.copySize offset (n + 1)
      let read := fs.readChunk number ((fs.param.addrToChunk offset).1 + 1) nCopy
      let rest := fileRd number fuel (offset + nCopy) (n + 1 - nCopy) read.2
      (copyFrom read.1 (fs.param.addrToChunk offset).2 nCopy ++ rest.1, rest.2) := rfl

theorem readChunk_safe (fs : Files) (number : Nat) (positive : 0 < inodeChunk) (nCopy : Nat) :
    Safe fs (fs.readChunk number inodeChunk nCopy).2 := by
  simp only [readChunk]
  split
  case isFalse => exact Safe.refl fs
  case isTrue =>
    split
    case isFalse => exact Safe.refl fs
    case isTrue some_cache =>
      refine Safe.trans ?_ (useCache_safe _ _ false)
      simp only [readEntry]
      split
      · exact Safe.refl fs
      · exact (loadChunkCache_safe fs some_cache number positive).trans
          (setCache_safe _ _ fun held => Or.inr ⟨held, rfl⟩)

theorem fileRd_safe (number : Nat) (fuel offset n : Nat) (fs : Files) :
    Safe fs (fileRd number fuel offset n fs).2 := by
  induction fuel generalizing offset n fs with
  | zero => exact Safe.refl fs
  | succ fuel ih =>
    cases n with
    | zero => exact Safe.refl fs
    | succ n =>
      rw [fileRd_succ]
      exact (readChunk_safe fs number (Nat.succ_pos _) _).trans (ih _ _ _)

/-- The entry that part of a chunk is written to, if there is one to be had. -/
def writeEntry (fs : Files) (number inodeChunk : Nat) : Option Nat × Files :=
  match fs.findChunkCache number inodeChunk with
  | none =>
    let available := fs.checkAllocAvailable
    if available.1 then
      let loaded := available.2.loadChunkCache number inodeChunk
      (some loaded.1, loaded.2)
    else (none, available.2)
  | some i =>
    if (fs.cache i).dirty then (some i, fs)
    else
      let available := fs.checkAllocAvailable
      if available.1 then (some i, available.2) else (none, available.2)

/-- Fill an entry with the bytes that are written. -/
def fillEntry (fs : Files) (i start : Nat) (bytes : List UInt8) (nWriteback : Nat) : Files :=
  let used := fs.useCache i true
  used.setCache i
    { used.cache i with data := copyInto (used.cache i).data start bytes, nBytes := nWriteback }

theorem wrCached_eq (fs : Files) (number inodeChunk start : Nat) (bytes : List UInt8)
    (nWriteback : Nat) (writeThrough : Bool) :
    fs.wrCached number inodeChunk start bytes nWriteback writeThrough =
      match (fs.writeEntry number inodeChunk).1 with
      | none => (-1, (fs.writeEntry number inodeChunk).2)
      | some i =>
        let filled := (fs.writeEntry number inodeChunk).2.fillEntry i start bytes nWriteback
        if writeThrough then
          let written := filled.wrDataObj number inodeChunk (filled.cache i).data nWriteback
          (written.1, written.2.setCache i { written.2.cache i with dirty := false })
        else (0, filled) := rfl

theorem writeEntry_safe (fs : Files) (some_cache : 0 < fs.param.nCaches) (number : Nat)
    (positive : 0 < inodeChunk) : Safe fs (fs.writeEntry number inodeChunk).2 := by
  simp only [writeEntry]
  split
  · split
    · exact (checkAllocAvailable_safe fs).trans
        (loadChunkCache_safe fs.checkAllocAvailable.2 some_cache number positive)
    · exact checkAllocAvailable_safe fs
  · split
    · exact Safe.refl fs
    · split
      · exact checkAllocAvailable_safe fs
      · exact checkAllocAvailable_safe fs

theorem fillEntry_safe (fs : Files) (i start : Nat) (bytes : List UInt8) (nWriteback : Nat) :
    Safe fs (fs.fillEntry i start bytes nWriteback) :=
  (useCache_safe fs i true).trans (setCache_safe _ i fun held => Or.inr ⟨held, rfl⟩)

theorem wrCached_safe (fs : Files) (some_cache : 0 < fs.param.nCaches) (number : Nat)
    (positive : 0 < inodeChunk) (start : Nat) (bytes : List UInt8) (nWriteback : Nat)
    (writeThrough : Bool) :
    Safe fs (fs.wrCached number inodeChunk start bytes nWriteback writeThrough).2 := by
  have found := writeEntry_safe fs some_cache number positive
  rw [wrCached_eq]
  split
  case h_1 => exact found
  case h_2 i _ =>
    have filled := found.trans (fillEntry_safe _ i start bytes nWriteback)
    split
    · exact (filled.trans (wrDataObj_safe _ number positive _ _)).trans
        (setCache_safe _ i fun held => Or.inr ⟨held, rfl⟩)
    · exact filled

theorem wrChunk_safe (fs : Files) (number : Nat) (positive : 0 < inodeChunk) (start : Nat)
    (bytes : List UInt8) (nWriteback : Nat) (writeThrough : Bool) :
    Safe fs (fs.wrChunk number inodeChunk start bytes nWriteback writeThrough).2 := by
  simp only [wrChunk]
  split
  · split
    case isTrue some_cache =>
      exact wrCached_safe fs some_cache number positive start bytes nWriteback writeThrough
    case isFalse => exact wrDataObj_safe fs number positive _ _
  · exact (wrDataObj_safe fs number positive _ _).trans (invalidateChunkCache_safe _ number _)

/-- How many bytes of a chunk count once it has been written. -/
def writeBack (fs : Files) (number offset n : Nat) : Nat :=
  let place := fs.param.addrToChunk offset
  let fileSize := ((fs.objs number).map FileObj.fileSize).getD 0
  let chunkStart := place.1 * fs.param.dataBytesPerChunk
  let nBytesRead := min ((fileSize - chunkStart) % 2 ^ 32) fs.param.dataBytesPerChunk
  if place.2 + n < fs.param.dataBytesPerChunk then max nBytesRead (place.2 + n)
  else fs.param.dataBytesPerChunk

theorem doFileWrLoop_succ (fs : Files) (number : Nat) (writeThrough : Bool) (fuel offset : Nat)
    (byte : UInt8) (bytes : List UInt8) :
    doFileWrLoop number writeThrough (fuel + 1) offset (byte :: bytes) fs =
      let nCopy := fs.copySize offset (bytes.length + 1)
      let place := fs.param.addrToChunk offset
      let written := fs.wrChunk number (place.1 + 1) place.2 ((byte :: bytes).take nCopy)
        (fs.writeBack number offset (bytes.length + 1)) writeThrough
      if written.1 < 0 then (0, written.2)
      else
        let rest := doFileWrLoop number writeThrough fuel (offset + nCopy)
          ((byte :: bytes).drop nCopy) written.2
        (nCopy + rest.1, rest.2) := rfl

theorem doFileWrLoop_safe (number : Nat) (writeThrough : Bool) (fuel offset : Nat)
    (buffer : List UInt8) (fs : Files) :
    Safe fs (doFileWrLoop number writeThrough fuel offset buffer fs).2 := by
  induction fuel generalizing offset buffer fs with
  | zero => exact Safe.refl fs
  | succ fuel ih =>
    cases buffer with
    | nil => exact Safe.refl fs
    | cons byte buffer =>
      rw [doFileWrLoop_succ]
      dsimp only
      split
      · exact wrChunk_safe fs number (Nat.succ_pos _) _ _ _ _
      · exact (wrChunk_safe fs number (Nat.succ_pos _) _ _ _ _).trans (ih _ _ _)

theorem doFileWr_safe (fs : Files) (number offset : Nat) (buffer : List UInt8)
    (writeThrough : Bool) : Safe fs (fs.doFileWr number offset buffer writeThrough).2 :=
  (doFileWrLoop_safe number writeThrough buffer.length offset buffer fs).trans
    (modifyObj_safe _ number fun _ => ⟨rfl, rfl, rfl, rfl⟩)

/-! ## Resizing and flushing -/

/-- Write the last chunk of a file anew without the bytes from an offset on, unless it ends there. -/
def cutChunk (fs : Files) (number : Nat) (place : Nat × Nat) : Files :=
  if place.2 = 0 then fs
  else
    let data := fs.rdDataObj number (place.1 + 1)
    (fs.wrDataObj number (place.1 + 1) (fun i => if i < place.2 then data i else 0) place.2).2

theorem resizeFileDown_eq (fs : Files) (number newSize : Nat) :
    fs.resizeFileDown number newSize =
      (((fs.pruneChunks number newSize).cutChunk number (fs.param.addrToChunk newSize)).modifyObj
        number fun obj => { obj with fileSize := newSize, storedSize := newSize }).pruneTree
          number := rfl

theorem cutChunk_safe (fs : Files) (number : Nat) (place : Nat × Nat) :
    Safe fs (fs.cutChunk number place) := by
  rw [cutChunk]
  split
  · exact Safe.refl fs
  · exact wrDataObj_safe fs number (Nat.succ_pos _) _ _

theorem resizeFileDown_safe (fs : Files) (number newSize : Nat) :
    Safe fs (fs.resizeFileDown number newSize) := by
  have cut := (pruneChunks_safe fs number newSize).trans
    (cutChunk_safe _ number (fs.param.addrToChunk newSize))
  have sized := cut.trans (@modifyObj_safe _ number
    (fun obj => { obj with fileSize := newSize, storedSize := newSize })
    fun _ => ⟨rfl, rfl, rfl, rfl⟩)
  exact sized.trans (pruneTree_safe _ number)

theorem fillHole_safe (number : Nat) (fuel pos increase : Nat) (fs : Files) :
    Safe fs (fillHole number fuel pos increase fs).2 := by
  induction fuel generalizing pos increase fs with
  | zero => exact Safe.refl fs
  | succ fuel ih =>
    simp only [fillHole]
    split
    · exact Safe.refl fs
    · split
      · exact (doFileWr_safe fs number pos _ false).trans (ih _ _ _)
      · exact doFileWr_safe fs number pos _ false

theorem handleHole_safe (fs : Files) (number newSize : Nat) :
    Safe fs (fs.handleHole number newSize) := by
  simp only [handleHole]
  generalize ((fs.objs number).map FileObj.fileSize).getD 0 = oldSize
  split
  case isTrue => exact Safe.refl fs
  case isFalse =>
    have available : Safe fs (if newSize - oldSize <
        smallHoleThreshold * fs.param.dataBytesPerChunk then fs.checkAllocAvailable
        else (false, fs)).2 := by
      split
      · exact checkAllocAvailable_safe fs
      · exact Safe.refl fs
    generalize (if newSize - oldSize < smallHoleThreshold * fs.param.dataBytesPerChunk then
      fs.checkAllocAvailable else (false, fs)) = room at available ⊢
    have filled : Safe fs (if room.1 then
        ((fillHole number (newSize - oldSize) oldSize (newSize - oldSize) room.2).1,
          if (fillHole number (newSize - oldSize) oldSize (newSize - oldSize) room.2).1 then
            (fillHole number (newSize - oldSize) oldSize (newSize - oldSize) room.2).2
          else
            (fillHole number (newSize - oldSize) oldSize (newSize - oldSize) room.2).2.resizeFileDown
              number oldSize)
        else (false, room.2) : Bool × Files).2 := by
      refine available.trans ?_
      split
      · dsimp only
        split
        · exact fillHole_safe number _ _ _ room.2
        · exact (fillHole_safe number _ _ _ room.2).trans (resizeFileDown_safe _ number oldSize)
      · exact Safe.refl _
    generalize (if room.1 then
        ((fillHole number (newSize - oldSize) oldSize (newSize - oldSize) room.2).1,
          if (fillHole number (newSize - oldSize) oldSize (newSize - oldSize) room.2).1 then
            (fillHole number (newSize - oldSize) oldSize (newSize - oldSize) room.2).2
          else
            (fillHole number (newSize - oldSize) oldSize (newSize - oldSize) room.2).2.resizeFileDown
              number oldSize)
        else (false, room.2) : Bool × Files) = result at filled ⊢
    split
    · exact filled.trans (updateOh_safe _ number)
    · exact filled

theorem wrFile_safe (fs : Files) (number offset : Nat) (buffer : List UInt8) (writeThrough : Bool) :
    Safe fs (fs.wrFile number offset buffer writeThrough).2 :=
  (handleHole_safe fs number offset).trans (doFileWr_safe _ number offset buffer writeThrough)

theorem resizeFile_safe (fs : Files) (number newSize : Nat) :
    Safe fs (fs.resizeFile number newSize) := by
  have settled : Safe fs ((fs.flushFileCache number true).invalidateWholeCache number).checkGc :=
    ((flushFileCache_safe fs number true).trans (invalidateWholeCache_safe _ number)).trans
      (checkGc_safe _)
  simp only [resizeFile]
  generalize ((fs.flushFileCache number true).invalidateWholeCache number).checkGc = first
    at settled ⊢
  split
  case isTrue => exact settled
  case isFalse =>
    have resized : Safe fs (if ((fs.objs number).map FileObj.fileSize).getD 0 < newSize then
        (first.handleHole number newSize).modifyObj number fun obj => { obj with fileSize := newSize }
        else first.resizeFileDown number newSize) := by
      refine settled.trans ?_
      split
      · exact (handleHole_safe first number newSize).trans
          (modifyObj_safe _ number fun _ => ⟨rfl, rfl, rfl, rfl⟩)
      · exact resizeFileDown_safe first number newSize
    generalize (if ((fs.objs number).map FileObj.fileSize).getD 0 < newSize then
      (first.handleHole number newSize).modifyObj number fun obj => { obj with fileSize := newSize }
      else first.resizeFileDown number newSize) = second at resized ⊢
    split
    · exact resized
    · split
      · exact resized.trans (updateOh_safe _ number)
      · exact resized

theorem flushFile_safe (fs : Files) (number : Nat) (dataSync discardCache : Bool) :
    Safe fs (fs.flushFile number dataSync discardCache).2 := by
  simp only [flushFile]
  split
  · exact Safe.refl fs
  · split
    · exact flushFileCache_safe fs number discardCache
    · exact (flushFileCache_safe fs number discardCache).trans (updateOh_safe _ number)

end Files

end Yaffs
