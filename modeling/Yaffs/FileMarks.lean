import Yaffs.FileContents

/-!
# Marks of unwritten data

A file of which a chunk lies in the cache only is marked as dirty, and so a flush does not pass it
over.  The mark is set at the end of a write, and a header that is written leaves it while there is
something to write.  Whatever fails, a flush leaves nothing of its file to be written.
-/

namespace Yaffs

namespace Files

variable {fs fs' fs'' : Files} {exempt : Set Nat} {number inodeChunk : Nat}

/-- The entry of the cache has data of a file that is not on the flash. -/
def Unwritten (fs : Files) (i number : Nat) : Prop :=
  i < fs.param.nCaches ∧ (fs.cache i).object = some number ∧ (fs.cache i).dirty = true

theorem objCacheDirty_iff : fs.objCacheDirty number = true ↔ ∃ i, fs.Unwritten i number := by
  simp only [objCacheDirty, List.any_eq_true, List.mem_range, Bool.and_eq_true, decide_eq_true_eq,
    Unwritten]

/-- A file with unwritten data is marked. -/
def MarkedAt (fs : Files) (number : Nat) : Prop :=
  (∃ i, fs.Unwritten i number) → (fs.objs number).any FileObj.dirty = true

/-! ## Keeping marks -/

/-- All files but the exempt ones are marked if they were. -/
structure Marks (exempt : Set Nat) (fs fs' : Files) : Prop extends Safe fs fs' where
  marks : fs.Proper → ∀ n, n ∉ exempt → fs.MarkedAt n → fs'.MarkedAt n

theorem Marks.refl (exempt : Set Nat) (fs : Files) : Marks exempt fs fs :=
  ⟨Safe.refl fs, fun _ _ _ => id⟩

theorem Marks.trans (first : Marks exempt fs fs') (second : Marks exempt fs' fs'') :
    Marks exempt fs fs'' :=
  ⟨first.toSafe.trans second.toSafe, fun proper n other =>
    second.marks (first.proper proper) n other ∘ first.marks proper n other⟩

theorem marks_of_proper (marks : fs.Proper → Marks exempt fs fs') : Marks exempt fs fs' :=
  ⟨safe_of_proper fun proper => (marks proper).toSafe, fun proper => (marks proper).marks proper⟩

theorem SameOutlines.marks (same : fs.Owned → SameOutlines fs fs')
    (owned : fs.Owned → fs'.Owned) : Marks exempt fs fs' := by
  refine ⟨SameOutlines.safe same owned, fun proper n _ marked unwritten => ?_⟩
  have outlines := same proper.owned
  simp only [Unwritten, outlines.param, outlines.cache] at unwritten
  have dirty := congrArg (Option.any id) (outlines.dirty (objCacheDirty_iff.mpr unwritten))
  rw [Option.any_map, Option.any_map] at dirty
  exact dirty.trans (marked unwritten)

theorem checkGc_marks (fs : Files) : Marks exempt fs fs.checkGc :=
  SameOutlines.marks (fun owned => (checkGc_owned owned).2.toSameOutlines)
    fun owned => (checkGc_owned owned).1

theorem updateOh_marks (fs : Files) (number : Nat) : Marks exempt fs (fs.updateOh number).2 :=
  SameOutlines.marks (fun owned => (updateOh_owned owned number).2.toSameOutlines)
    fun owned => (updateOh_owned owned number).1

theorem wrDataObj_marks (fs : Files) (number : Nat) (positive : 0 < inodeChunk) (data : Chunk)
    (nBytes : Nat) : Marks exempt fs (fs.wrDataObj number inodeChunk data nBytes).2 :=
  SameOutlines.marks (fun owned => wrDataObj_outlines owned number positive data nBytes)
    fun owned => (wrDataObj_owned owned number positive data nBytes).1

theorem pruneChunks_marks (fs : Files) (number newSize : Nat) :
    Marks exempt fs (fs.pruneChunks number newSize) :=
  SameOutlines.marks (fun owned => (pruneChunks_owned owned number newSize).2.toSameOutlines)
    fun owned => (pruneChunks_owned owned number newSize).1

theorem pruneTree_marks (fs : Files) (number : Nat) : Marks exempt fs (fs.pruneTree number) :=
  SameOutlines.marks (fun owned => (pruneTree_owned owned number).2.toSameOutlines)
    fun owned => (pruneTree_owned owned number).1

/-- A change of an object that does not take its mark away. -/
theorem modifyObj_marks (fs : Files) (number : Nat) {change : FileObj → FileObj}
    (same : ∀ obj, FileObj.SamePages obj (change obj))
    (dirty : ∀ obj, obj.dirty = true → (change obj).dirty = true) :
    Marks exempt fs (fs.modifyObj number change) := by
  refine ⟨modifyObj_safe fs number same, fun _ n _ marked unwritten => ?_⟩
  have before : (fs.objs n).any FileObj.dirty = true := marked unwritten
  simp only [modifyObj]
  by_cases here : n = number
  · subst here
    rw [Function.update_self]
    obtain ⟨obj, found, is_dirty⟩ := (Option.any_eq_true ..).mp before
    rw [found, Option.map_some, Option.any_some]
    exact dirty obj is_dirty
  · rw [Function.update_of_ne here]
    exact before

/-! ## The cache -/

/-- The cache has changed, without anything new in it that is not on the flash. -/
theorem Safe.marks_of_cache (safe : Safe fs fs') (objs : fs'.objs = fs.objs)
    (slots : ∀ i n, n ∉ exempt → fs'.Unwritten i n → ∃ j, fs.Unwritten j n) :
    Marks exempt fs fs' := by
  refine ⟨safe, fun _ n other marked ⟨i, unwritten⟩ => ?_⟩
  rw [objs]
  exact marked (slots i n other unwritten)

/-- An entry has changed, and has nothing new that is not on the flash. -/
theorem Safe.setCache_marks {i : Nat} {entry : CacheEntry} (safe : Safe fs (fs.setCache i entry))
    (slot : ∀ n, n ∉ exempt → entry.object = some n → entry.dirty = true →
      (fs.cache i).object = some n ∧ (fs.cache i).dirty = true) :
    Marks exempt fs (fs.setCache i entry) := by
  refine safe.marks_of_cache rfl fun j n other ⟨j_lt, object, dirty⟩ => ⟨j, j_lt, ?_⟩
  simp only [setCache] at object dirty
  by_cases here : j = i
  · subst here
    rw [Function.update_self] at object dirty
    exact slot n other object dirty
  · rw [Function.update_of_ne here] at object dirty
    exact ⟨object, dirty⟩

/-- An entry without an object, or without a need to be written. -/
theorem dropEntry_marks (fs : Files) (i : Nat) :
    Marks exempt fs (fs.setCache i { fs.cache i with object := none }) := by
  have safe : Safe fs (fs.setCache i { fs.cache i with object := none }) :=
    setCache_safe fs i nofun
  exact safe.setCache_marks fun _ _ held => by cases held

theorem cleanEntry_marks (fs : Files) (i : Nat) :
    Marks exempt fs (fs.setCache i { fs.cache i with dirty := false }) := by
  have safe : Safe fs (fs.setCache i { fs.cache i with dirty := false }) :=
    setCache_safe fs i fun held => Or.inr ⟨held, rfl⟩
  exact safe.setCache_marks fun _ _ _ dirty => by cases dirty

theorem checkAllocAvailable_marks (fs : Files) : Marks exempt fs fs.checkAllocAvailable.2 :=
  (checkAllocAvailable_safe fs).marks_of_cache rfl fun i _ _ unwritten => ⟨i, unwritten⟩

theorem invalidateWholeCache_marks (fs : Files) (number : Nat) :
    Marks exempt fs (fs.invalidateWholeCache number) := by
  refine (invalidateWholeCache_safe fs number).marks_of_cache rfl
    fun i n _ ⟨i_lt, object, dirty⟩ => ⟨i, i_lt, ?_⟩
  simp only [invalidateWholeCache] at object dirty
  split at object
  case isTrue => cases object
  case isFalse others =>
    rw [if_neg others] at dirty
    exact ⟨object, dirty⟩

/-- The use of an entry for reading does not soil it, and other entries are never soiled. -/
theorem useCache_slot (fs : Files) (i j : Nat) (isWrite : Bool) :
    ((fs.useCache i isWrite).cache j).object = (fs.cache j).object ∧
      ((fs.useCache i isWrite).cache j).dirty = ((fs.cache j).dirty || (decide (j = i) && isWrite)) := by
  simp only [useCache]
  by_cases here : j = i
  · subst here
    rw [Function.update_self, decide_eq_true rfl, Bool.true_and]
    dsimp only
    split <;> exact ⟨rfl, rfl⟩
  · rw [Function.update_of_ne here, decide_eq_false here, Bool.false_and, Bool.or_false]
    split <;> exact ⟨rfl, rfl⟩

theorem useCache_marks (fs : Files) (i : Nat) {isWrite : Bool}
    (soils : isWrite = true → ∃ n, n ∈ exempt ∧ (fs.cache i).object = some n) :
    Marks exempt fs (fs.useCache i isWrite) := by
  refine (useCache_safe fs i isWrite).marks_of_cache rfl
    fun j n other ⟨j_lt, object, dirty⟩ => ⟨j, j_lt, ?_⟩
  obtain ⟨same_object, same_dirty⟩ := fs.useCache_slot i j isWrite
  rw [same_object] at object
  rw [same_dirty, Bool.or_eq_true, Bool.and_eq_true, decide_eq_true_eq] at dirty
  refine ⟨object, dirty.resolve_right ?_⟩
  rintro ⟨rfl, is_write⟩
  obtain ⟨soiled, inside, held⟩ := soils is_write
  obtain rfl := Option.some.inj (held.symm.trans object)
  exact other inside

theorem invalidateChunkCache_marks (fs : Files) (number inodeChunk : Nat) :
    Marks exempt fs (fs.invalidateChunkCache number inodeChunk) := by
  simp only [invalidateChunkCache]
  split
  · exact Marks.refl exempt fs
  · exact dropEntry_marks fs _

/-- Flushing an entry writes it if it has to be written, and drops it if it is to be dropped. -/
theorem flushSingleCache_marks (fs : Files) {i : Nat} (i_lt : i < fs.param.nCaches)
    (discard : Bool) : Marks exempt fs (fs.flushSingleCache i discard) := by
  have dropped (fs : Files) : Marks exempt fs
      (if discard then fs.setCache i { fs.cache i with object := none } else fs) := by
    split
    · exact dropEntry_marks fs i
    · exact Marks.refl exempt fs
  simp only [flushSingleCache]
  refine Marks.trans ?_ (dropped _)
  split
  case h_1 => exact Marks.refl exempt fs
  case h_2 number held =>
    split
    case isFalse => exact Marks.refl exempt fs
    case isTrue =>
      refine marks_of_proper fun proper => Marks.trans ?_ (cleanEntry_marks _ i)
      exact wrDataObj_marks fs number (proper.slots i i_lt (by rw [held]; rfl)) _ _

theorem flushFileCache_marks (fs : Files) (number : Nat) (discard : Bool) :
    Marks exempt fs (fs.flushFileCache number discard) := by
  have swept (entries : List Nat) : ∀ fs : Files, (∀ i ∈ entries, i < fs.param.nCaches) →
      Marks exempt fs (entries.foldl (fun fs i =>
        if (fs.cache i).object = some number then fs.flushSingleCache i discard else fs) fs) := by
    induction entries with
    | nil => exact fun fs _ => Marks.refl exempt fs
    | cons i entries ih =>
      intro fs inside
      have first : Marks exempt fs (if (fs.cache i).object = some number then
          fs.flushSingleCache i discard else fs) := by
        split
        · exact flushSingleCache_marks fs (inside i List.mem_cons_self) discard
        · exact Marks.refl exempt fs
      refine marks_of_proper fun proper => first.trans (ih _ fun j later => ?_)
      rw [first.param proper]
      exact inside j (List.mem_cons_of_mem i later)
  exact swept _ fs fun i inside => List.mem_range.mp inside

theorem grabChunkCache_marks (fs : Files) (some_cache : 0 < fs.param.nCaches) :
    Marks exempt fs fs.grabChunkCache.2 := by
  simp only [grabChunkCache]
  split
  · exact Marks.refl exempt fs
  · exact flushSingleCache_marks fs (fs.lruCache_lt some_cache) true

theorem loadChunkCache_marks (fs : Files) (some_cache : 0 < fs.param.nCaches) (number : Nat)
    (positive : 0 < inodeChunk) : Marks exempt fs (fs.loadChunkCache number inodeChunk).2 := by
  simp only [loadChunkCache]
  refine (grabChunkCache_marks fs some_cache).trans
    ((setCache_safe _ _ fun _ => Or.inl positive).setCache_marks ?_)
  exact fun _ _ _ dirty => by cases dirty

/-! ## Reading and writing -/

theorem readChunk_marks (fs : Files) (number : Nat) (positive : 0 < inodeChunk) (nCopy : Nat) :
    Marks exempt fs (fs.readChunk number inodeChunk nCopy).2 := by
  have counted (fs : Files) (i nBytes : Nat) :
      Marks exempt fs (fs.setCache i { fs.cache i with nBytes }) := by
    have safe : Safe fs (fs.setCache i { fs.cache i with nBytes }) :=
      setCache_safe fs i fun held => Or.inr ⟨held, rfl⟩
    exact safe.setCache_marks fun _ _ object dirty => ⟨object, dirty⟩
  simp only [readChunk]
  split
  case isFalse => exact Marks.refl exempt fs
  case isTrue =>
    split
    case isFalse => exact Marks.refl exempt fs
    case isTrue some_cache =>
      refine Marks.trans ?_ (useCache_marks _ _ fun write => absurd write Bool.false_ne_true)
      simp only [readEntry]
      split
      · exact Marks.refl exempt fs
      · exact (loadChunkCache_marks fs some_cache number positive).trans (counted _ _ _)

theorem fileRd_marks (number : Nat) (fuel offset n : Nat) (fs : Files) :
    Marks exempt fs (fileRd number fuel offset n fs).2 := by
  induction fuel generalizing offset n fs with
  | zero => exact Marks.refl exempt fs
  | succ fuel ih =>
    cases n with
    | zero => exact Marks.refl exempt fs
    | succ n =>
      rw [fileRd_succ]
      exact (readChunk_marks fs number (Nat.succ_pos _) _).trans (ih _ _ _)

theorem writeEntry_marks (fs : Files) (some_cache : 0 < fs.param.nCaches) (number : Nat)
    (positive : 0 < inodeChunk) : Marks exempt fs (fs.writeEntry number inodeChunk).2 ∧
      ∀ i, (fs.writeEntry number inodeChunk).1 = some i →
        ((fs.writeEntry number inodeChunk).2.cache i).object = some number := by
  have asked := @checkAllocAvailable_marks exempt fs
  simp only [writeEntry]
  cases found : fs.findChunkCache number inodeChunk with
  | none =>
    dsimp only
    split
    · refine ⟨asked.trans (loadChunkCache_marks fs.checkAllocAvailable.2 some_cache number positive),
        fun i same => ?_⟩
      obtain rfl := Option.some.inj same
      simp only [loadChunkCache, setCache, Function.update_self]
    · exact ⟨asked, by simp⟩
  | some i =>
    have held := findChunkCache_object found
    dsimp only
    split
    · refine ⟨Marks.refl exempt fs, fun j same => ?_⟩
      obtain rfl := Option.some.inj same
      exact held
    · split
      · refine ⟨asked, fun j same => ?_⟩
        obtain rfl := Option.some.inj same
        exact held
      · exact ⟨asked, by simp⟩

/-- While a file is written, its mark may be missing. -/
theorem fillEntry_marks {i : Nat} (held : (fs.cache i).object = some number)
    (inside : number ∈ exempt) (start : Nat) (bytes : List UInt8) (nWriteback : Nat) :
    Marks exempt fs (fs.fillEntry i start bytes nWriteback) := by
  have used := @useCache_marks exempt fs i true fun _ => ⟨number, inside, held⟩
  have filled : Safe (fs.useCache i true) (fs.fillEntry i start bytes nWriteback) :=
    setCache_safe _ i fun held => Or.inr ⟨held, rfl⟩
  exact used.trans (filled.setCache_marks fun _ _ object dirty => ⟨object, dirty⟩)

theorem wrCached_marks (fs : Files) (some_cache : 0 < fs.param.nCaches) (inside : number ∈ exempt)
    (positive : 0 < inodeChunk) (start : Nat) (bytes : List UInt8) (nWriteback : Nat)
    (writeThrough : Bool) :
    Marks exempt fs (fs.wrCached number inodeChunk start bytes nWriteback writeThrough).2 := by
  obtain ⟨entered, object⟩ := @writeEntry_marks exempt inodeChunk fs some_cache number positive
  rw [wrCached_eq]
  split
  case h_1 => exact entered
  case h_2 i found =>
    have filled := entered.trans (fillEntry_marks (object i found) inside start bytes nWriteback)
    split
    · exact (filled.trans (wrDataObj_marks _ number positive _ _)).trans (cleanEntry_marks _ i)
    · exact filled

theorem wrChunk_marks (fs : Files) (inside : number ∈ exempt) (positive : 0 < inodeChunk)
    (start : Nat) (bytes : List UInt8) (nWriteback : Nat) (writeThrough : Bool) :
    Marks exempt fs (fs.wrChunk number inodeChunk start bytes nWriteback writeThrough).2 := by
  simp only [wrChunk]
  split
  · split
    case isTrue some_cache =>
      exact wrCached_marks fs some_cache inside positive start bytes nWriteback writeThrough
    case isFalse => exact wrDataObj_marks fs number positive _ _
  · exact (wrDataObj_marks fs number positive _ _).trans (invalidateChunkCache_marks _ number _)

theorem doFileWrLoop_marks (inside : number ∈ exempt) (writeThrough : Bool) (fuel offset : Nat)
    (buffer : List UInt8) (fs : Files) :
    Marks exempt fs (doFileWrLoop number writeThrough fuel offset buffer fs).2 := by
  induction fuel generalizing offset buffer fs with
  | zero => exact Marks.refl exempt fs
  | succ fuel ih =>
    cases buffer with
    | nil => exact Marks.refl exempt fs
    | cons byte buffer =>
      rw [doFileWrLoop_succ]
      dsimp only
      split
      · exact wrChunk_marks fs inside (Nat.succ_pos _) _ _ _ _
      · exact (wrChunk_marks fs inside (Nat.succ_pos _) _ _ _ _).trans (ih _ _ _)

/-- Once a file has been written, it has its mark. -/
theorem doFileWr_marks (there : (fs.objs number).isSome) (offset : Nat) (buffer : List UInt8)
    (writeThrough : Bool) :
    Marks exempt fs (fs.doFileWr number offset buffer writeThrough).2 := by
  refine ⟨doFileWr_safe fs number offset buffer writeThrough, fun proper n other marked => ?_⟩
  have written := @doFileWrLoop_marks {number} number rfl writeThrough buffer.length offset buffer fs
  have there' := (written.same_objs proper number).trans there
  rw [doFileWr]
  generalize doFileWrLoop number writeThrough buffer.length offset buffer fs = done
    at written there' ⊢
  obtain ⟨obj, found⟩ := Option.isSome_iff_exists.mp there'
  by_cases here : n = number
  · subst here
    intro _
    simp only [modifyObj, Function.update_self, found, Option.map_some, Option.any_some]
  · have kept := written.marks proper n here marked
    intro unwritten
    simp only [modifyObj, Function.update_of_ne here]
    exact kept unwritten

/-! ## Resizing and flushing -/

theorem cutChunk_marks (fs : Files) (number : Nat) (place : Nat × Nat) :
    Marks exempt fs (fs.cutChunk number place) := by
  rw [cutChunk]
  split
  · exact Marks.refl exempt fs
  · exact wrDataObj_marks fs number (Nat.succ_pos _) _ _

theorem resizeFileDown_marks (fs : Files) (number newSize : Nat) :
    Marks exempt fs (fs.resizeFileDown number newSize) := by
  have cut := (@pruneChunks_marks exempt fs number newSize).trans
    (cutChunk_marks _ number (fs.param.addrToChunk newSize))
  have sized := cut.trans (@modifyObj_marks exempt _ number
    (fun obj => { obj with fileSize := newSize, storedSize := newSize })
    (fun _ => ⟨rfl, rfl, rfl, rfl⟩) fun _ => id)
  exact sized.trans (pruneTree_marks _ number)

theorem fillHole_marks (fuel pos increase : Nat) (fs : Files) (there : (fs.objs number).isSome) :
    Marks exempt fs (fillHole number fuel pos increase fs).2 := by
  induction fuel generalizing pos increase fs with
  | zero => exact Marks.refl exempt fs
  | succ fuel ih =>
    simp only [fillHole]
    split
    · exact Marks.refl exempt fs
    · have written := @doFileWr_marks fs exempt number there pos
        (List.replicate (min increase fs.param.dataBytesPerChunk) 0) false
      split
      · refine marks_of_proper fun proper => written.trans (ih _ _ _ ?_)
        rw [written.same_objs proper]
        exact there
      · exact written

theorem handleHole_marks (there : (fs.objs number).isSome) (newSize : Nat) :
    Marks exempt fs (fs.handleHole number newSize) := by
  simp only [handleHole]
  generalize ((fs.objs number).map FileObj.fileSize).getD 0 = oldSize
  split
  case isTrue => exact Marks.refl exempt fs
  case isFalse =>
    have available : Marks exempt fs (if newSize - oldSize <
          smallHoleThreshold * fs.param.dataBytesPerChunk then fs.checkAllocAvailable
        else (false, fs)).2 ∧
        ((if newSize - oldSize < smallHoleThreshold * fs.param.dataBytesPerChunk then
          fs.checkAllocAvailable else (false, fs)).2.objs number).isSome := by
      split
      · exact ⟨checkAllocAvailable_marks fs, there⟩
      · exact ⟨Marks.refl exempt fs, there⟩
    generalize (if newSize - oldSize < smallHoleThreshold * fs.param.dataBytesPerChunk then
      fs.checkAllocAvailable else (false, fs)) = room at available ⊢
    have hole := @fillHole_marks exempt number (newSize - oldSize) oldSize (newSize - oldSize)
      room.2 available.2
    have filled : Marks exempt fs (if room.1 then
        ((fillHole number (newSize - oldSize) oldSize (newSize - oldSize) room.2).1,
          if (fillHole number (newSize - oldSize) oldSize (newSize - oldSize) room.2).1 then
            (fillHole number (newSize - oldSize) oldSize (newSize - oldSize) room.2).2
          else
            (fillHole number (newSize - oldSize) oldSize (newSize - oldSize) room.2).2.resizeFileDown
              number oldSize)
        else (false, room.2) : Bool × Files).2 := by
      refine available.1.trans ?_
      split
      · dsimp only
        split
        · exact hole
        · exact hole.trans (resizeFileDown_marks _ number oldSize)
      · exact Marks.refl exempt _
    generalize (if room.1 then
        ((fillHole number (newSize - oldSize) oldSize (newSize - oldSize) room.2).1,
          if (fillHole number (newSize - oldSize) oldSize (newSize - oldSize) room.2).1 then
            (fillHole number (newSize - oldSize) oldSize (newSize - oldSize) room.2).2
          else
            (fillHole number (newSize - oldSize) oldSize (newSize - oldSize) room.2).2.resizeFileDown
              number oldSize)
        else (false, room.2) : Bool × Files) = result at filled ⊢
    split
    · exact filled.trans (updateOh_marks _ number)
    · exact filled

theorem wrFile_marks (there : (fs.objs number).isSome) (offset : Nat) (buffer : List UInt8)
    (writeThrough : Bool) :
    Marks exempt fs (fs.wrFile number offset buffer writeThrough).2 := by
  have hole := @handleHole_marks fs exempt number there offset
  refine marks_of_proper fun proper => hole.trans (doFileWr_marks ?_ offset buffer writeThrough)
  rw [hole.same_objs proper]
  exact there

theorem resizeFile_marks (there : (fs.objs number).isSome) (newSize : Nat) :
    Marks exempt fs (fs.resizeFile number newSize) := by
  have settled :
      Marks exempt fs ((fs.flushFileCache number true).invalidateWholeCache number).checkGc :=
    ((flushFileCache_marks fs number true).trans (invalidateWholeCache_marks _ number)).trans
      (checkGc_marks _)
  refine marks_of_proper fun proper => ?_
  have there' := (settled.same_objs proper number).trans there
  simp only [resizeFile]
  generalize ((fs.flushFileCache number true).invalidateWholeCache number).checkGc = first
    at settled there' ⊢
  split
  case isTrue => exact settled
  case isFalse =>
    have resized : Marks exempt fs (if ((fs.objs number).map FileObj.fileSize).getD 0 < newSize then
        (first.handleHole number newSize).modifyObj number fun obj => { obj with fileSize := newSize }
        else first.resizeFileDown number newSize) := by
      refine settled.trans ?_
      split
      · exact (handleHole_marks there' newSize).trans
          (modifyObj_marks _ number (fun _ => ⟨rfl, rfl, rfl, rfl⟩) fun _ => id)
      · exact resizeFileDown_marks first number newSize
    generalize (if ((fs.objs number).map FileObj.fileSize).getD 0 < newSize then
      (first.handleHole number newSize).modifyObj number fun obj => { obj with fileSize := newSize }
      else first.resizeFileDown number newSize) = second at resized ⊢
    split
    · exact resized
    · split
      · exact resized.trans (updateOh_marks _ number)
      · exact resized

theorem flushFile_marks (fs : Files) (number : Nat) (dataSync discardCache : Bool) :
    Marks exempt fs (fs.flushFile number dataSync discardCache).2 := by
  simp only [flushFile]
  split
  · exact Marks.refl exempt fs
  · split
    · exact flushFileCache_marks fs number discardCache
    · exact (flushFileCache_marks fs number discardCache).trans (updateOh_marks _ number)

/-- Whatever fails, a flush leaves nothing of its file to be written. -/
theorem flushFile_written (proper : fs.Proper) (marked : fs.MarkedAt number)
    (dataSync discardCache : Bool) (i : Nat) :
    ¬(fs.flushFile number dataSync discardCache).2.Unwritten i number := by
  have safe := flushFileCache_safe fs number discardCache
  have flushed : ¬(fs.flushFileCache number discardCache).Unwritten i number := by
    rintro ⟨i_lt, object, dirty⟩
    rw [safe.param proper] at i_lt
    rw [(flushFileCache_written proper number discardCache i_lt object).2] at dirty
    cases dirty
  intro unwritten
  simp only [flushFile] at unwritten
  split at unwritten
  case isTrue clean => exact clean (marked ⟨i, unwritten⟩)
  case isFalse =>
    split at unwritten
    · exact flushed unwritten
    · have outlines := (updateOh_owned (safe.proper proper).owned number).2.toSameOutlines
      simp only [Unwritten, outlines.param, outlines.cache] at unwritten
      exact flushed unwritten

end Files

end Yaffs
