import Yaffs.FileTreeSound

/-!
# Runs over files

Files are created, opened, read, written, truncated, unlinked and closed, in any order and whatever
the layers below answer.  The tnodes in use stay those of the files as long as no file is deleted at
once whose tree has anything but the first tnode of each level.
-/

namespace Yaffs

open FileTnode

namespace Files

variable {fs fs' : Files} {start : TnodeMemory} {number : Nat} {asked : Prop} {first : FileObj}

/-! ## Cutting files off -/

/-- The tree of a file has only its level 0. -/
def Flat (fs : Files) (number : Nat) : Prop :=
  ∀ obj, fs.objs number = some obj → obj.tree.topLevel = 0

/-- A file is being cut off.  If it is going to be deleted, its tree is slim and nothing waits to be
written to it. -/
structure Trimmed (start : TnodeMemory) (number : Nat) (asked : Prop) (first : FileObj)
    (fs : Files) : Prop where
  sound : Sound ∅ start fs
  file : ∃ obj, fs.objs number = some obj ∧ obj.softDel = false ∧
    obj.hasInode = first.hasInode ∧ obj.unlinked = first.unlinked ∧
    obj.deleted = first.deleted ∧ (asked → Slim obj.tree.topLevel obj.tree.top)
  clear : asked → Clear fs number

namespace Trimmed

theorem hard (trimmed : Trimmed start number asked first fs) : Hard fs number := by
  obtain ⟨obj, found, hard, -⟩ := trimmed.file
  exact ⟨obj, found, hard⟩

theorem ready (trimmed : Trimmed start number asked first fs) : Ready start number fs :=
  ⟨trimmed.sound, trimmed.hard⟩

theorem follows (trimmed : Trimmed start number asked first fs) (sound : Sound ∅ start fs')
    (follows : Follows ∅ fs fs') : Trimmed start number asked first fs' := by
  obtain ⟨obj, found, hard, inode, unlinked, deleted, slim⟩ := trimmed.file
  obtain ⟨obj', found', alike⟩ := follows.found found hard
  refine ⟨sound, ⟨obj', found', alike.softDel.trans hard, alike.hasInode.trans inode,
    alike.unlinked.trans unlinked, alike.deleted.trans deleted, fun is_asked => ?_⟩,
    fun is_asked => follows.clear (trimmed.clear is_asked)⟩
  exact (alike.slim (Set.notMem_empty number) (slim is_asked)).2

/-- The file has changed, but not in its books. -/
theorem modifyObj (trimmed : Trimmed start number asked first fs) {change : FileObj → FileObj}
    (sound : Sound ∅ start (fs.modifyObj number change))
    (softDel : ∀ obj, (change obj).softDel = obj.softDel)
    (hasInode : ∀ obj, (change obj).hasInode = obj.hasInode)
    (unlinked : ∀ obj, (change obj).unlinked = obj.unlinked)
    (deleted : ∀ obj, (change obj).deleted = obj.deleted)
    (slim : ∀ obj, Slim obj.tree.topLevel obj.tree.top →
      Slim (change obj).tree.topLevel (change obj).tree.top) :
    Trimmed start number asked first (fs.modifyObj number change) := by
  obtain ⟨obj, found, hard, inode, is_unlinked, is_deleted, is_slim⟩ := trimmed.file
  refine ⟨sound, ⟨change obj, ?_, (softDel obj).trans hard, (hasInode obj).trans inode,
    (unlinked obj).trans is_unlinked, (deleted obj).trans is_deleted,
    fun is_asked => slim obj (is_slim is_asked)⟩, trimmed.clear⟩
  simp only [Files.modifyObj, Function.update_self, found, Option.map_some]

theorem findDelFileChunk (trimmed : Trimmed start number asked first fs) (inodeChunk : Nat) :
    Trimmed start number asked first (fs.findDelFileChunk number inodeChunk).2 := by
  simp only [Files.findDelFileChunk]
  split
  case h_1 => exact trimmed
  case h_2 chunk chunk_found =>
    refine trimmed.modifyObj ?_ (fun _ => rfl) (fun _ => rfl) (fun _ => rfl) (fun _ => rfl)
      fun obj is_slim => loadTnode0_slim _ _ is_slim
    obtain ⟨obj, found, hard, -⟩ := trimmed.file
    simp only [Files.modifyObj, found, Option.map_some]
    have sane := trimmed.sound.sane number obj found (Set.notMem_empty number)
    have soft_absurd : ∀ {goal : Prop}, obj.softDel = true → goal := fun soft => by
      rw [hard] at soft
      cases soft
    refine trimmed.sound.replace found ?_ (fun _ => ?_) (fun is_loose => is_loose.elim)
      soft_absurd
    · simp only [Files.loadTnode0, tnodes_loadTnode0]
      exact TnodeMoves.refl _ _
    · exact { sane with
        rooted := fun _ => loadTnode0_spined _ _ (sane.rooted hard)
        bare := soft_absurd }

theorem pruneChunks (trimmed : Trimmed start number asked first fs) (newSize : Nat) :
    Trimmed start number asked first (fs.pruneChunks number newSize) := by
  simp only [Files.pruneChunks]
  generalize (List.range' ((fs.param.addrToChunk (newSize + fs.param.dataBytesPerChunk - 1)).1 + 1)
    _).reverse = chunks
  induction chunks generalizing fs with
  | nil => exact trimmed
  | cons chunk chunks rest =>
    rw [List.foldl_cons]
    apply rest
    have found := trimmed.findDelFileChunk chunk
    split
    case h_1 => exact found
    case h_2 page _ =>
      split
      case isTrue => exact found
      case isFalse =>
        have counted : Sound ∅ start
            ((fs.findDelFileChunk number chunk).2.modifyObj number fun obj =>
              { obj with nDataChunks := obj.nDataChunks - 1 }) :=
          found.sound.modifyObj number (fun _ => rfl) (fun _ => rfl)
            (fun _ _ _ sane => { sane with }) fun _ _ is_loose => is_loose.elim
        have modified := found.modifyObj counted (fun _ => rfl) (fun _ => rfl) (fun _ => rfl)
          (fun _ => rfl) fun _ is_slim => is_slim
        exact modified.follows (modified.sound.chunkDel page) (Follows.chunkDel page)

/-- Of a slim tree one tnode is left. -/
theorem pruneTree (trimmed : Trimmed start number asked first fs) :
    Trimmed start number asked first (fs.pruneTree number) ∧
      (asked → Flat (fs.pruneTree number) number) := by
  obtain ⟨obj, found, hard, inode, unlinked, deleted, slim⟩ := trimmed.file
  have sane := trimmed.sound.sane number obj found (Set.notMem_empty number)
  obtain ⟨moves, rooted, flat⟩ := FileTree.pruneTree_spec fs.memory (sane.rooted hard)
  have soft_absurd : ∀ {goal : Prop}, obj.softDel = true → goal := fun soft => by
    rw [hard] at soft
    cases soft
  simp only [Files.pruneTree, found]
  refine ⟨⟨?_, ⟨_, Function.update_self .., hard, inode, unlinked, deleted, fun is_asked => ?_⟩,
    trimmed.clear⟩, fun is_asked obj' found' => ?_⟩
  · exact trimmed.sound.replace found moves
      (fun _ => { sane with rooted := fun _ => rooted, bare := soft_absurd })
      (fun is_loose => is_loose.elim) soft_absurd
  · have level := flat (slim is_asked)
    rw [FileTree.Rooted, level] at rooted
    rw [level]
    exact Slim.of_spined rooted
  · dsimp only at found'
    rw [Function.update_self] at found'
    obtain rfl := Option.some.inj found'
    exact flat (slim is_asked)

end Trimmed

/-- The start of a file is the start of its first chunk. -/
theorem addrToChunk_zero (param : FileParam) : param.addrToChunk 0 = (0, 0) := by
  simp [FileParam.addrToChunk]

namespace Trimmed

/-- Nothing is written when a file is cut off at its start. -/
theorem resizeFileDown (trimmed : Trimmed start number asked first fs) (newSize : Nat)
    (whole : asked → newSize = 0) :
    Trimmed start number asked first (fs.resizeFileDown number newSize) ∧
      (asked → Flat (fs.resizeFileDown number newSize) number) := by
  simp only [Files.resizeFileDown]
  apply pruneTree
  have pruned := trimmed.pruneChunks newSize
  generalize fs.pruneChunks number newSize = cut at pruned ⊢
  have rewritten : Trimmed start number asked first
      (if (fs.param.addrToChunk newSize).2 = 0 then cut
      else (cut.wrDataObj number ((fs.param.addrToChunk newSize).1 + 1)
        (fun i => if i < (fs.param.addrToChunk newSize).2 then
          cut.rdDataObj number ((fs.param.addrToChunk newSize).1 + 1) i else 0)
        (fs.param.addrToChunk newSize).2).2) := by
    split
    case isTrue => exact pruned
    case isFalse inside =>
      have not_asked : ¬asked := by
        intro is_asked
        rw [whole is_asked, addrToChunk_zero] at inside
        exact inside rfl
      obtain ⟨sound, follows⟩ := wrDataObj_sound pruned.sound pruned.hard
        ((fs.param.addrToChunk newSize).1 + 1)
        (fun i => if i < (fs.param.addrToChunk newSize).2 then
          cut.rdDataObj number ((fs.param.addrToChunk newSize).1 + 1) i else 0)
        (fs.param.addrToChunk newSize).2
      obtain ⟨obj, found, hard, inode, unlinked, deleted, -⟩ := pruned.file
      obtain ⟨obj', found', alike⟩ := (follows Set.univ (Or.inl trivial)).found found hard
      exact ⟨sound, ⟨obj', found', alike.softDel.trans hard, alike.hasInode.trans inode,
        alike.unlinked.trans unlinked, alike.deleted.trans deleted,
        fun is_asked => absurd is_asked not_asked⟩, fun is_asked => absurd is_asked not_asked⟩
  refine rewritten.modifyObj ?_ (fun _ => rfl) (fun _ => rfl) (fun _ => rfl) (fun _ => rfl)
    fun _ is_slim => is_slim
  exact rewritten.sound.modify_same number fun _ => ⟨rfl, rfl, rfl, rfl, rfl, rfl, rfl⟩

end Trimmed

namespace Ready

theorem trimmed (ready : Ready start number fs) :
    ∃ first, Trimmed start number False first fs := by
  obtain ⟨obj, found, hard⟩ := ready.hard
  exact ⟨obj, ready.sound, ⟨obj, found, hard, rfl, rfl, rfl, False.elim⟩, False.elim⟩

theorem resizeFileDown (ready : Ready start number fs) (newSize : Nat) :
    Ready start number (fs.resizeFileDown number newSize) := by
  obtain ⟨first, trimmed⟩ := ready.trimmed
  exact (trimmed.resizeFileDown newSize False.elim).1.ready

theorem handleHole (ready : Ready start number fs) (newSize : Nat) :
    Ready start number (fs.handleHole number newSize) := by
  simp only [Files.handleHole]
  generalize ((fs.objs number).map FileObj.fileSize).getD 0 = oldSize
  split
  case isTrue => exact ready
  case isFalse =>
    -- The hole is filled if it is small and there is room; what has been filled goes if it fails.
    have available : Ready start number
        (if newSize - oldSize < smallHoleThreshold * fs.param.dataBytesPerChunk then
          fs.checkAllocAvailable else (false, fs)).2 := by
      split
      · exact ready.checkAllocAvailable
      · exact ready
    generalize (if newSize - oldSize < smallHoleThreshold * fs.param.dataBytesPerChunk then
      fs.checkAllocAvailable else (false, fs)) = room at available ⊢
    have filled : Ready start number
        (if room.1 then
          ((Files.fillHole number (newSize - oldSize) oldSize (newSize - oldSize) room.2).1,
            if (Files.fillHole number (newSize - oldSize) oldSize (newSize - oldSize) room.2).1 then
              (Files.fillHole number (newSize - oldSize) oldSize (newSize - oldSize) room.2).2
            else (Files.fillHole number (newSize - oldSize) oldSize (newSize - oldSize)
              room.2).2.resizeFileDown number oldSize)
        else (false, room.2)).2 := by
      split
      case isTrue =>
        have tried := Ready.fillHole (newSize - oldSize) oldSize (newSize - oldSize) available
        dsimp only
        split
        · exact tried
        · exact tried.resizeFileDown oldSize
      case isFalse => exact available
    generalize (if room.1 then
      ((Files.fillHole number (newSize - oldSize) oldSize (newSize - oldSize) room.2).1,
        if (Files.fillHole number (newSize - oldSize) oldSize (newSize - oldSize) room.2).1 then
          (Files.fillHole number (newSize - oldSize) oldSize (newSize - oldSize) room.2).2
        else (Files.fillHole number (newSize - oldSize) oldSize (newSize - oldSize)
          room.2).2.resizeFileDown number oldSize)
      else (false, room.2)) = result at filled ⊢
    split
    · exact filled.updateOh
    · exact filled

theorem wrFile (ready : Ready start number fs) (offset : Nat) (buffer : List UInt8)
    (writeThrough : Bool) :
    Ready start number (fs.wrFile number offset buffer writeThrough).2 :=
  (ready.handleHole offset).doFileWr offset buffer writeThrough

end Ready

/-- A tree that has only its level 0 is not changed by what else is done. -/
theorem Trimmed.flat (trimmed : Trimmed start number True first fs) (flat : Flat fs number)
    (follows : Follows ∅ fs fs') : Flat fs' number := by
  intro obj' found'
  obtain ⟨obj, found, hard, -, -, -, slim⟩ := trimmed.file
  obtain ⟨o, o_found, alike⟩ := follows.found found hard
  obtain rfl := Option.some.inj (found'.symm.trans o_found)
  exact (alike.slim (Set.notMem_empty number) (slim trivial)).1.trans (flat obj found)

/-- May the data of a file be deleted by cutting it off?  The tree has only the first tnode of each
level and will be pruned, and nothing waits to be written that would make it grow. -/
structure Cuttable (fs : Files) (number : Nat) (obj : FileObj) : Prop where
  slim : Slim obj.tree.topLevel obj.tree.top
  pruned : obj.tree.topLevel = 0 ∨ 0 < obj.fileSize
  near : ∀ i < fs.param.nCaches, (fs.cache i).object = some number →
    (fs.cache i).dirty = true → (fs.cache i).chunkId < 16

/-- What is done first to a file whose size changes: its cached part is written and dropped, and
garbage collected. -/
def settle (fs : Files) (number : Nat) : Files :=
  ((fs.flushFileCache number true).invalidateWholeCache number).checkGc

theorem settle_sound (sound : Sound ∅ start fs) (number : Nat) :
    Sound ∅ start (fs.settle number) ∧ Follows Set.univ fs (fs.settle number) := by
  obtain ⟨flushed, flush_follows⟩ := flushFileCache_sound sound number true
  have dropped := flushed.invalidateWholeCache number
  obtain ⟨collected, gc_follows⟩ := checkGc_sound dropped
  exact ⟨collected, ((flush_follows Set.univ (Or.inl trivial)).trans
    (Follows.invalidateWholeCache number)).trans (gc_follows.mono (Set.empty_subset _))⟩

theorem settle_cuttable (sound : Sound ∅ start fs) {obj : FileObj}
    (found : fs.objs number = some obj) (hard : obj.softDel = false)
    (cuttable : Cuttable fs number obj) :
    Trimmed start number True obj (fs.settle number) ∧
      ∀ obj', (fs.settle number).objs number = some obj' →
        obj'.tree.topLevel = obj.tree.topLevel := by
  obtain ⟨flushed, flush_follows⟩ := flushFileCache_sound sound number true
  have dropped := flushed.invalidateWholeCache number
  obtain ⟨collected, gc_follows⟩ := checkGc_sound dropped
  have follows : Follows ∅ fs (fs.settle number) :=
    ((flush_follows ∅ (Or.inr cuttable.near)).trans
      (Follows.invalidateWholeCache number)).trans gc_follows
  obtain ⟨obj', found', alike⟩ := follows.found found hard
  obtain ⟨level, slim⟩ := alike.slim (Set.notMem_empty number) cuttable.slim
  refine ⟨⟨collected, ⟨obj', found', alike.softDel.trans hard, alike.hasInode, alike.unlinked,
    alike.deleted, fun _ => slim⟩,
    fun _ => gc_follows.clear (clear_invalidateWholeCache number)⟩, fun o o_found => ?_⟩
  obtain rfl := Option.some.inj (found'.symm.trans o_found)
  exact level

/-- What a resize does at its end: a file in a directory gets a new header. -/
def recordResize (fs : Files) (number : Nat) : Files :=
  match fs.objs number with
  | none => fs
  | some obj =>
    if obj.parent.isSome ∧ ¬obj.isShadowed ∧ ¬isHidden obj.parent then (fs.updateOh number).2
    else fs

theorem resizeFile_eq (fs : Files) (number newSize : Nat) :
    fs.resizeFile number newSize =
      if newSize = ((fs.objs number).map FileObj.fileSize).getD 0 then fs.settle number
      else
        (if ((fs.objs number).map FileObj.fileSize).getD 0 < newSize then
          ((fs.settle number).handleHole number newSize).modifyObj number fun obj =>
            { obj with fileSize := newSize }
        else (fs.settle number).resizeFileDown number newSize).recordResize number :=
  rfl

theorem Trimmed.recordResize (trimmed : Trimmed start number True first fs)
    (flat : Flat fs number) :
    Trimmed start number True first (fs.recordResize number) ∧
      Flat (fs.recordResize number) number := by
  simp only [Files.recordResize]
  split
  case h_1 => exact ⟨trimmed, flat⟩
  case h_2 =>
    split
    case isTrue =>
      obtain ⟨updated, follows⟩ := updateOh_sound trimmed.sound number
      exact ⟨trimmed.follows updated follows, trimmed.flat flat follows⟩
    case isFalse => exact ⟨trimmed, flat⟩

/-- Of a file that may be cut off at its start one tnode is left. -/
theorem resizeFile_cut (sound : Sound ∅ start fs) {obj : FileObj}
    (found : fs.objs number = some obj) (hard : obj.softDel = false)
    (cuttable : Cuttable fs number obj) :
    Trimmed start number True obj (fs.resizeFile number 0) ∧
      Flat (fs.resizeFile number 0) number := by
  obtain ⟨settled, level⟩ := settle_cuttable sound found hard cuttable
  have size_eq : ((fs.objs number).map FileObj.fileSize).getD 0 = obj.fileSize := by
    rw [found]
    rfl
  rw [resizeFile_eq, size_eq]
  split
  case isTrue same_size =>
    refine ⟨settled, fun obj' found' => (level obj' found').trans ?_⟩
    exact cuttable.pruned.resolve_right (by omega)
  case isFalse =>
    rw [if_neg (Nat.not_lt_zero _)]
    obtain ⟨cut, flat⟩ := settled.resizeFileDown 0 fun _ => rfl
    exact cut.recordResize (flat trivial)

theorem Ready.recordResize (ready : Ready start number fs) :
    Ready start number (fs.recordResize number) := by
  simp only [Files.recordResize]
  split
  case h_1 => exact ready
  case h_2 =>
    split
    · exact ready.updateOh
    · exact ready

theorem Ready.resizeFile (ready : Ready start number fs) (newSize : Nat) :
    Ready start number (fs.resizeFile number newSize) := by
  obtain ⟨settled, follows⟩ := settle_sound ready.sound number
  have here := ready.follows settled follows
  rw [resizeFile_eq]
  split
  case isTrue => exact here
  case isFalse =>
    apply Ready.recordResize
    split
    case isTrue =>
      exact (here.handleHole newSize).modifyObj fun _ => ⟨rfl, rfl, rfl, rfl, rfl, rfl, rfl⟩
    case isFalse => exact here.resizeFileDown newSize

theorem Ready.flushFile (ready : Ready start number fs) (dataSync discardCache : Bool) :
    Ready start number (fs.flushFile number dataSync discardCache).2 := by
  simp only [Files.flushFile]
  split
  case isTrue => exact ready
  case isFalse =>
    obtain ⟨flushed, follows⟩ := flushFileCache_sound ready.sound number discardCache
    have flushed_ready := ready.follows flushed (follows Set.univ (Or.inl trivial))
    split
    case isTrue => exact flushed_ready
    case isFalse => exact flushed_ready.updateOh

/-! ## Deleting files -/

theorem bare_of_flat (sound : Sound ∅ start fs) {obj : FileObj} (found : fs.objs number = some obj)
    (hard : obj.softDel = false) (flat : obj.tree.topLevel = 0) : obj.tree.top.Bare := by
  have rooted := (sound.sane number obj found (Set.notMem_empty number)).rooted hard
  rw [FileTree.Rooted, flat] at rooted
  exact rooted.bare

/-- A file of one tnode is deleted at once. -/
theorem deleteNow_sound (sound : Sound ∅ start fs) {obj : FileObj}
    (found : fs.objs number = some obj) (hard : obj.softDel = false)
    (closed : obj.hasInode = false) (flat : obj.tree.topLevel = 0) :
    Sound ∅ start ((fs.freeTop number).genericObjDel number) ∧
      ((fs.freeTop number).genericObjDel number).objs number = none := by
  refine genericObjDel_sound (sound.freeTop fun o o_found => ?_)
  obtain rfl := Option.some.inj (found.symm.trans o_found)
  refine ⟨bare_of_flat sound found hard flat, closed, fun soft => ?_⟩
  rw [hard] at soft
  cases soft

/-- A deleted file goes at once, or it is soft deleted and its tnodes but the top are freed. -/
theorem softDelFile_sound (sound : Sound ∅ start fs) {obj : FileObj}
    (found : fs.objs number = some obj) (hard : obj.softDel = false)
    (closed : obj.hasInode = false) (flat : obj.nDataChunks ≤ 0 → obj.tree.topLevel = 0)
    (clear : 0 < obj.nDataChunks → Clear fs number) :
    Sound ∅ start (fs.softDelFile number) ∧
      ∀ obj', (fs.softDelFile number).objs number = some obj' → obj'.deleted = obj.deleted := by
  simp only [Files.softDelFile, found]
  split
  case isTrue =>
    refine ⟨sound, fun obj' found' => ?_⟩
    obtain rfl := Option.some.inj (found.symm.trans found')
    rfl
  case isFalse deleted =>
    split
    case isTrue few =>
      obtain ⟨done, gone⟩ := deleteNow_sound sound found hard closed (flat few)
      refine ⟨done, fun obj' found' => ?_⟩
      rw [gone] at found'
      cases found'
    case isFalse many =>
      have is_deleted : obj.deleted = true := by
        by_contra not_deleted
        exact deleted (Or.inl not_deleted)
      have sane := sound.sane number obj found (Set.notMem_empty number)
      have rooted := sane.rooted hard
      obtain ⟨-, moves, -, bare⟩ := softDelWorker_spec fs.memory rooted.shaped
      refine ⟨sound.replace found moves (fun _ => ?_) (fun is_loose => is_loose.elim)
        fun _ => clear (Int.not_le.mp many), fun obj' found' => ?_⟩
      · exact {
          rooted := fun hard => absurd hard (by simp)
          bare := fun _ => bare rooted.not_null
          deleted := fun _ => is_deleted
          closed := fun _ => closed
          hidden := sane.hidden }
      · dsimp only at found'
        rw [Function.update_self] at found'
        obtain rfl := Option.some.inj found'
        rfl

theorem markDeleted_sound (sound : Sound ∅ start fs) (number : Nat)
    (hidden : ∀ obj, fs.objs number = some obj → isHidden obj.parent) :
    Sound ∅ start (fs.markDeleted number) := by
  have marked : Sound ∅ start (fs.modifyObj number fun obj => { obj with deleted := true }) :=
    sound.modifyObj number (fun _ => rfl) (fun _ => rfl)
      (fun obj found _ sane => { sane with
        deleted := fun _ => rfl
        hidden := fun _ => hidden obj found })
      fun _ _ is_loose => is_loose.elim
  exact marked.congr rfl rfl rfl rfl rfl

/-- A file that can be deleted without leaving tnodes behind: its data can be cut off if that is how
it is deleted, its tree has only its level 0 if it goes at once, and nothing waits to be written if
it is soft deleted. -/
structure Ripe (fs : Files) (number : Nat) (obj : FileObj) : Prop where
  cuttable : fs.resizesToDelete = true → Cuttable fs number obj
  flat : obj.nDataChunks ≤ 0 → obj.tree.topLevel = 0
  clear : 0 < obj.nDataChunks → Clear fs number

theorem Trimmed.ripe (trimmed : Trimmed start number True first fs) (flat : Flat fs number)
    {obj : FileObj} (found : fs.objs number = some obj) : Ripe fs number obj where
  cuttable := fun _ => by
    obtain ⟨o, o_found, -, -, -, -, slim⟩ := trimmed.file
    obtain rfl := Option.some.inj (found.symm.trans o_found)
    refine ⟨slim trivial, Or.inl (flat obj found), fun i i_lt object is_dirty => ?_⟩
    rw [trimmed.clear trivial i i_lt object] at is_dirty
    cases is_dirty
  flat := fun _ => flat obj found
  clear := fun _ => trimmed.clear trivial

theorem Ripe.follows {obj obj' : FileObj} (ripe : Ripe fs number obj) (many : 0 < obj.nDataChunks)
    (follows : Follows ∅ fs fs') (alike : Alike (number ∉ (∅ : Set Nat)) obj obj') :
    Ripe fs' number obj' ∧ 0 < obj'.nDataChunks := by
  have many' : 0 < obj'.nDataChunks := many.trans_le alike.nDataChunks
  refine ⟨⟨fun resizes => ?_, fun few => absurd few (Int.not_le.mpr many'),
    fun _ => follows.clear (ripe.clear many)⟩, many'⟩
  have cuttable := ripe.cuttable (by
    rw [resizesToDelete, follows.param] at resizes
    exact resizes)
  obtain ⟨level, slim⟩ := alike.slim (Set.notMem_empty number) cuttable.slim
  refine ⟨slim, ?_, fun i i_lt object is_dirty => ?_⟩
  · rw [level, alike.fileSize]
    exact cuttable.pruned
  · rw [follows.param] at i_lt
    obtain ⟨was_dirty, held⟩ := follows.dirty i is_dirty
    obtain ⟨was_held, chunk_eq⟩ := held number object
    rw [chunk_eq]
    exact cuttable.near i i_lt was_held was_dirty

/-- A ripe file is cut off if that is how its data is deleted. -/
theorem cutToDelete_sound (sound : Sound ∅ start fs) {obj : FileObj}
    (found : fs.objs number = some obj) (hard : obj.softDel = false)
    (cuttable : fs.resizesToDelete = true → Cuttable fs number obj)
    (flat : fs.resizesToDelete = false → obj.nDataChunks ≤ 0 → obj.tree.topLevel = 0)
    (clear : fs.resizesToDelete = false → 0 < obj.nDataChunks → Clear fs number) :
    Sound ∅ start (if fs.resizesToDelete then fs.resizeFile number 0 else fs) ∧
      ∃ obj', (if fs.resizesToDelete then fs.resizeFile number 0 else fs).objs number = some obj' ∧
        obj'.softDel = false ∧ obj'.hasInode = obj.hasInode ∧ obj'.unlinked = obj.unlinked ∧
        obj'.deleted = obj.deleted ∧
        Ripe (if fs.resizesToDelete then fs.resizeFile number 0 else fs) number obj' := by
  split
  case isTrue resizes =>
    obtain ⟨trimmed, is_flat⟩ := resizeFile_cut sound found hard (cuttable resizes)
    obtain ⟨obj', found', hard', inode, unlinked, deleted, -⟩ := trimmed.file
    exact ⟨trimmed.sound, obj', found', hard', inode, unlinked, deleted,
      trimmed.ripe is_flat found'⟩
  case isFalse not_resizes =>
    have keeps : fs.resizesToDelete = false := Bool.not_eq_true _ ▸ not_resizes
    exact ⟨sound, obj, found, hard, rfl, rfl, rfl, cuttable, flat keeps, clear keeps⟩

/-- A file is moved to one of the hidden directories. -/
theorem changeObjName_sound (sound : Sound ∅ start fs) {obj : FileObj}
    (found : fs.objs number = some obj) (hard : obj.softDel = false) (newDir : Nat)
    (hidden : isHidden (some newDir)) :
    Sound ∅ start (fs.changeObjNameWith checkGc number newDir).2 ∧
      ∃ obj', (fs.changeObjNameWith checkGc number newDir).2.objs number = some obj' ∧
        obj'.softDel = false ∧ obj'.hasInode = obj.hasInode ∧ obj'.deleted = obj.deleted ∧
        obj'.parent = some newDir ∧
        (Ripe fs number obj → 0 < obj.nDataChunks →
          Ripe (fs.changeObjNameWith checkGc number newDir).2 number obj' ∧
            0 < obj'.nDataChunks) := by
  let change : FileObj → FileObj := fun obj =>
    { obj with
      dirty := true
      parent := some newDir
      unlinked := obj.unlinked || decide (newDir = objectIdUnlinked) }
  have changed : Sound ∅ start (fs.modifyObj number change) :=
    sound.modifyObj number (fun _ => rfl) (fun _ => rfl)
      (fun _ _ _ sane => { sane with hidden := fun _ => hidden }) fun _ _ is_loose => is_loose.elim
  have changed_found : (fs.modifyObj number change).objs number = some (change obj) := by
    simp only [Files.modifyObj, Function.update_self, found, Option.map_some]
  obtain ⟨updated, follows⟩ := updateOh_sound changed number
  obtain ⟨obj', found', alike⟩ := follows.found changed_found hard
  refine ⟨updated, obj', found', alike.softDel.trans hard, alike.hasInode, alike.deleted,
    alike.parent, fun ripe many => ?_⟩
  have ripe' : Ripe (fs.modifyObj number change) number (change obj) :=
    ⟨fun resizes => ⟨(ripe.cuttable resizes).slim, (ripe.cuttable resizes).pruned,
      (ripe.cuttable resizes).near⟩, ripe.flat, ripe.clear⟩
  exact ripe'.follows many follows alike

/-- A file without an inode is moved to the directory of deleted ones and deleted. -/
theorem unlinkFileIfNeeded_sound (sound : Sound ∅ start fs) {obj : FileObj}
    (found : fs.objs number = some obj) (hard : obj.softDel = false)
    (closed : obj.hasInode = false) (ripe : Ripe fs number obj) (many : 0 < obj.nDataChunks) :
    Sound ∅ start (fs.unlinkFileIfNeeded number).2 ∧
      ∀ obj', (fs.unlinkFileIfNeeded number).2.objs number = some obj' →
        obj'.deleted = true := by
  have no_inode : ¬(fs.objs number).any FileObj.hasInode = true := by
    rw [found, Option.any_some, closed]
    exact Bool.false_ne_true
  simp only [Files.unlinkFileIfNeeded]
  rw [if_pos no_inode]
  obtain ⟨moved, obj₁, found₁, hard₁, inode₁, -, parent₁, kept⟩ :=
    changeObjName_sound sound found hard objectIdDeleted (by decide)
  obtain ⟨ripe₁, many₁⟩ := kept ripe many
  generalize fs.changeObjNameWith checkGc number objectIdDeleted = result
    at moved found₁ ripe₁ ⊢
  have marked : Sound ∅ start (result.2.markDeleted number) :=
    markDeleted_sound moved number fun o o_found => by
      obtain rfl := Option.some.inj (found₁.symm.trans o_found)
      rw [parent₁]
      decide
  have found₂ : (result.2.markDeleted number).objs number = some { obj₁ with deleted := true } := by
    simp only [markDeleted, Files.modifyObj, Function.update_self, found₁, Option.map_some]
  have cut := cutToDelete_sound marked found₂ hard₁
    (fun resizes => ⟨(ripe₁.cuttable resizes).slim, (ripe₁.cuttable resizes).pruned,
      (ripe₁.cuttable resizes).near⟩) (fun _ => ripe₁.flat) (fun _ => ripe₁.clear)
  generalize (if (result.2.markDeleted number).resizesToDelete then
    (result.2.markDeleted number).resizeFile number 0 else result.2.markDeleted number) = short
    at cut ⊢
  obtain ⟨short_sound, obj₃, found₃, hard₃, inode₃, -, deleted₃, ripe₃⟩ := cut
  obtain ⟨done, deleted⟩ := softDelFile_sound short_sound found₃ hard₃
    (inode₃.trans (inode₁.trans closed)) ripe₃.flat ripe₃.clear
  exact ⟨done, fun obj' found' => (deleted obj' found').trans deleted₃⟩

/-- Can a file be deleted without leaving tnodes behind? -/
structure Deletable (fs : Files) (number : Nat) (obj : FileObj) : Prop where
  cuttable : fs.resizesToDelete = true → Cuttable fs number obj
  flat : fs.resizesToDelete = false → obj.nDataChunks ≤ 0 → obj.tree.topLevel = 0
  clear : fs.resizesToDelete = false → 0 < obj.nDataChunks → Clear fs number

theorem delFile_sound (sound : Sound ∅ start fs) {obj : FileObj}
    (found : fs.objs number = some obj) (hard : obj.softDel = false)
    (closed : obj.hasInode = false) (deletable : Deletable fs number obj) :
    Sound ∅ start (fs.delFile number) := by
  simp only [Files.delFile]
  have cut := cutToDelete_sound sound found hard deletable.cuttable deletable.flat deletable.clear
  generalize (if fs.resizesToDelete then fs.resizeFile number 0 else fs) = short at cut ⊢
  obtain ⟨short_sound, obj₁, found₁, hard₁, inode₁, -, -, ripe₁⟩ := cut
  have closed₁ := inode₁.trans closed
  simp only [found₁]
  split
  case isFalse few => exact (deleteNow_sound short_sound found₁ hard₁ closed₁
    (ripe₁.flat (Int.not_lt.mp few))).1
  case isTrue many =>
    by_cases unlinked : obj₁.unlinked = true
    · simp only [unlinked, not_true_eq_false, if_false, found₁, true_and]
      split
      case isFalse => exact short_sound
      case isTrue not_deleted =>
        have marked := markDeleted_sound short_sound number fun o o_found => by
          obtain rfl := Option.some.inj (found₁.symm.trans o_found)
          exact (short_sound.sane number obj₁ found₁ (Set.notMem_empty number)).hidden
            (Or.inl unlinked)
        have found₂ : (short.markDeleted number).objs number =
            some { obj₁ with deleted := true } := by
          simp only [markDeleted, Files.modifyObj, Function.update_self, found₁, Option.map_some]
        exact (softDelFile_sound marked found₂ hard₁ closed₁ ripe₁.flat ripe₁.clear).1
    · obtain ⟨done, deleted⟩ := unlinkFileIfNeeded_sound short_sound found₁ hard₁ closed₁ ripe₁ many
      simp only [unlinked]
      split
      case h_1 => exact done
      case h_2 obj' found' =>
        rw [if_neg]
        · exact done
        · rintro ⟨-, -, not_deleted⟩
          exact not_deleted (deleted obj' found')

/-! ## Creating files -/

/-- Tnodes have been made, or taken and put back. -/
theorem Sound.remember {loose : Set Nat} (sound : Sound loose start fs) {memory : TnodeMemory}
    (moves : TnodeMoves 0 0 fs.memory memory) : Sound loose start { fs with memory } where
  support := sound.support
  moves := by
    have framed := moves.frame fs.held
    rw [zero_add] at framed
    exact sound.moves.trans framed
  sane := sound.sane
  freed := sound.freed
  clean := sound.clean

/-- A file that is made has one tnode. -/
theorem newObj_sound (sound : Sound ∅ start fs) (fresh : number ∉ fs.numbers) :
    Sound ∅ start (fs.newObj number).2 ∧
      ((fs.newObj number).1 = true →
        ∃ tnode, (fs.newObj number).2.objs number =
          some { tree := { topLevel := 0, top := .leaf tnode fun _ => 0 } }) := by
  have taken := fs.memory.getTnode_moves
  simp only [Files.newObj]
  cases taken_eq : fs.memory.getTnode.1 with
  | none =>
    rw [taken_eq] at taken
    exact ⟨sound.remember taken, by simp⟩
  | some tnode =>
    rw [taken_eq] at taken
    dsimp only
    split
    case isFalse =>
      refine ⟨?_, by simp⟩
      have back := taken.trans (fs.memory.getTnode.2.freeTnode_moves tnode)
      exact (sound.remember back).congr rfl rfl rfl rfl rfl
    case isTrue =>
      have none_here : fs.objs number = none := sound.support number fresh
      refine ⟨?_, fun _ => ⟨tnode, Function.update_self ..⟩⟩
      constructor
      · intro n outside
        have n_ne : n ≠ number := fun same => outside (same ▸ Finset.mem_insert_self ..)
        dsimp only
        rw [Function.update_of_ne n_ne]
        exact sound.support n fun inside => outside (Finset.mem_insert_of_mem inside)
      · have framed := taken.frame fs.held
        rw [zero_add] at framed
        refine (sound.moves.trans framed).of_eq ?_
        simp only [held]
        rw [Finset.sum_insert fresh, Function.update_self]
        refine congrArg₂ (· + ·) rfl (Finset.sum_congr rfl fun n n_mem => ?_)
        have n_ne : n ≠ number := by
          rintro rfl
          exact fresh n_mem
        rw [Function.update_of_ne n_ne]
      · intro n obj found _
        dsimp only at found
        rw [Function.update_apply] at found
        split at found
        case isTrue =>
          obtain rfl := Option.some.inj found
          exact ⟨fun _ => trivial, by simp, by simp, by simp, by simp⟩
        case isFalse => exact sound.sane n obj found (Set.notMem_empty n)
      · exact fun _ is_loose => is_loose.elim
      · intro i i_lt is_dirty n object
        dsimp only at i_lt is_dirty object ⊢
        rw [Function.update_apply]
        split
        case isTrue => exact ⟨_, rfl, rfl⟩
        case isFalse => exact sound.clean i i_lt is_dirty n object

theorem createFile_sound (sound : Sound ∅ start fs) (fresh : number ∉ fs.numbers) (parent : Nat) :
    Sound ∅ start (fs.createFile number parent).2 := by
  obtain ⟨made, made_file⟩ := newObj_sound sound fresh
  have clear : Clear (fs.newObj number).2 number := by
    have unchanged : (fs.newObj number).2.param = fs.param ∧
        (fs.newObj number).2.cache = fs.cache := by
      simp only [Files.newObj]
      split
      · exact ⟨rfl, rfl⟩
      · split <;> exact ⟨rfl, rfl⟩
    intro i i_lt object
    rw [unchanged.1] at i_lt
    rw [unchanged.2] at object ⊢
    by_contra is_dirty
    obtain ⟨obj, found, -⟩ := sound.clean i i_lt (Bool.not_eq_false _ ▸ is_dirty) number object
    exact fresh (sound.mem_numbers found)
  simp only [Files.createFile]
  generalize fs.newObj number = result at made made_file clear ⊢
  split
  case isTrue => exact made
  case isFalse is_made =>
    obtain ⟨tnode, found⟩ := made_file (by simpa using is_made)
    have placed : Sound ∅ start (result.2.modifyObj number fun obj =>
        { obj with parent := some parent, dirty := true }) := by
      refine made.modifyObj number (fun _ => rfl) (fun _ => rfl) (fun obj o_found _ sane => ?_)
        fun _ _ is_loose => is_loose.elim
      obtain rfl := Option.some.inj (found.symm.trans o_found)
      exact { sane with hidden := by simp }
    have placed_found : (result.2.modifyObj number fun obj =>
        { obj with parent := some parent, dirty := true }).objs number =
          some { tree := { topLevel := 0, top := .leaf tnode fun _ => 0 }, parent := some parent,
                 dirty := true } := by
      simp only [Files.modifyObj, Function.update_self, found, Option.map_some]
    have placed_clear : Clear (result.2.modifyObj number fun obj =>
        { obj with parent := some parent, dirty := true }) number := clear
    generalize result.2.modifyObj number (fun obj =>
      { obj with parent := some parent, dirty := true }) = placed_fs
      at placed placed_found placed_clear ⊢
    obtain ⟨updated, follows⟩ := updateOh_sound placed number
    obtain ⟨obj', found', alike⟩ := follows.found placed_found rfl
    split
    case isFalse => exact updated
    case isTrue =>
      obtain ⟨level, slim⟩ := alike.slim (Set.notMem_empty number) (by trivial)
      have clear' := follows.clear placed_clear
      refine delFile_sound updated found' alike.softDel alike.hasInode
        ⟨fun _ => ⟨slim, Or.inl level, fun i i_lt object is_dirty => ?_⟩, fun _ _ => level,
          fun _ _ => clear'⟩
      rw [clear' i i_lt object] at is_dirty
      cases is_dirty

theorem unlinkObj_sound (sound : Sound ∅ start fs) {obj : FileObj}
    (found : fs.objs number = some obj) (hard : obj.softDel = false)
    (deletable : obj.hasInode = false → Deletable fs number obj) :
    Sound ∅ start (fs.unlinkObj number) := by
  simp only [Files.unlinkObj, found, Option.any_some]
  split
  case isTrue => exact (changeObjName_sound sound found hard objectIdUnlinked (by decide)).1
  case isFalse open' =>
    have closed : obj.hasInode = false := Bool.not_eq_true _ ▸ open'
    exact delFile_sound sound found hard closed (deletable closed)

theorem releaseInode_sound (sound : Sound ∅ start fs) {obj : FileObj}
    (found : fs.objs number = some obj) (hard : obj.softDel = false)
    (deletable : obj.unlinked = true → Deletable fs number obj) :
    Sound ∅ start (fs.releaseInode number) := by
  have released : Sound ∅ start (fs.modifyObj number fun obj => { obj with hasInode := false }) :=
    sound.modifyObj number (fun _ => rfl) (fun _ => rfl)
      (fun _ _ _ sane => { sane with closed := fun _ => rfl }) fun _ _ is_loose => is_loose.elim
  have released_found : (fs.modifyObj number fun obj => { obj with hasInode := false }).objs number =
      some { obj with hasInode := false } := by
    simp only [Files.modifyObj, Function.update_self, found, Option.map_some]
  simp only [Files.releaseInode, released_found, Option.any_some]
  split
  case isFalse => exact released
  case isTrue unlinked =>
    have before := deletable unlinked
    refine delFile_sound released released_found hard rfl
      ⟨fun resizes => ?_, before.flat, before.clear⟩
    exact ⟨(before.cuttable resizes).slim, (before.cuttable resizes).pruned,
      (before.cuttable resizes).near⟩

end Files

/-! ## Runs -/

/-- A step of working with files. -/
inductive FileTurn
  | create (number parent : Nat)
  /-- An inode takes hold of a file. -/
  | hold (number : Nat)
  /-- The inode lets go of it. -/
  | release (number : Nat)
  | read (number offset n : Nat)
  | write (number offset : Nat) (buffer : List UInt8) (writeThrough : Bool)
  | truncate (number newSize : Nat)
  | flush (number : Nat) (dataSync discardCache : Bool)
  | unlink (number : Nat)
  | collect
deriving DecidableEq, Repr

namespace Files

/-- Can the file be found in a directory? -/
def isVisible (fs : Files) (number : Nat) : Bool :=
  (fs.objs number).any fun obj => obj.parent.isSome && !isHidden obj.parent

/-- Does an inode hold the file? -/
def isHeld (fs : Files) (number : Nat) : Bool := (fs.objs number).any FileObj.hasInode

end Files

namespace FileTurn

open Files

/-- Take a step.  A new file gets a number that is not in use. -/
def exec : FileTurn → Files → Files
  | create number parent, fs =>
    if number ∈ fs.numbers then fs else (fs.createFile number parent).2
  | hold number, fs =>
    if fs.isVisible number then fs.modifyObj number fun obj => { obj with hasInode := true } else fs
  | release number, fs => if fs.isHeld number then fs.releaseInode number else fs
  | read number offset n, fs => if fs.isHeld number then (fileRd number n offset n fs).2 else fs
  | write number offset buffer writeThrough, fs =>
    if fs.isHeld number then (fs.wrFile number offset buffer writeThrough).2 else fs
  | truncate number newSize, fs =>
    if fs.isHeld number ∨ fs.isVisible number then fs.resizeFile number newSize else fs
  | flush number dataSync discardCache, fs =>
    if fs.isHeld number ∨ fs.isVisible number then (fs.flushFile number dataSync discardCache).2
    else fs
  | unlink number, fs => if fs.isVisible number then fs.unlinkObj number else fs
  | collect, fs => fs.checkGc

/-- A file that is deleted by the step can be deleted without leaving tnodes behind. -/
def LeavesNothing : FileTurn → Files → Prop
  | release number, fs => ∀ obj, fs.objs number = some obj → obj.unlinked = true →
    Deletable fs number obj
  | unlink number, fs => ∀ obj, fs.objs number = some obj → obj.hasInode = false →
    Deletable fs number obj
  | _, _ => True

variable {fs : Files} {start : TnodeMemory}

theorem hard_of_isHeld (sound : Sound ∅ start fs) {number : Nat} (held : fs.isHeld number = true) :
    ∃ obj, fs.objs number = some obj ∧ obj.softDel = false := by
  obtain ⟨obj, found, inode⟩ := (Option.any_eq_true ..).mp held
  refine ⟨obj, found, ?_⟩
  by_contra soft
  have closed := (sound.sane number obj found (Set.notMem_empty number)).closed
    (Bool.not_eq_false _ ▸ soft)
  rw [closed] at inode
  cases inode

theorem hard_of_isVisible (sound : Sound ∅ start fs) {number : Nat}
    (visible : fs.isVisible number = true) :
    ∃ obj, fs.objs number = some obj ∧ obj.softDel = false := by
  obtain ⟨obj, found, inside⟩ := (Option.any_eq_true ..).mp visible
  refine ⟨obj, found, ?_⟩
  by_contra soft
  have sane := sound.sane number obj found (Set.notMem_empty number)
  have hidden := sane.hidden (Or.inr (sane.deleted (Bool.not_eq_false _ ▸ soft)))
  rw [hidden, Bool.not_true, Bool.and_false] at inside
  cases inside

/-- Every step that leaves no tnodes behind keeps the books. -/
theorem exec_sound (turn : FileTurn) (guarded : turn.LeavesNothing fs)
    (sound : Sound ∅ start fs) : Sound ∅ start (turn.exec fs) := by
  cases turn with
  | create number parent =>
    simp only [exec]
    split
    case isTrue => exact sound
    case isFalse fresh => exact createFile_sound sound fresh parent
  | hold number =>
    simp only [exec]
    split
    case isFalse => exact sound
    case isTrue visible =>
      obtain ⟨obj, found, hard⟩ := hard_of_isVisible sound visible
      refine sound.modifyObj number (fun _ => rfl) (fun _ => rfl) (fun o o_found _ sane => ?_)
        fun _ _ is_loose => is_loose.elim
      obtain rfl := Option.some.inj (found.symm.trans o_found)
      refine { sane with closed := fun soft => ?_ }
      rw [hard] at soft
      cases soft
  | release number =>
    simp only [exec]
    split
    case isFalse => exact sound
    case isTrue held =>
      obtain ⟨obj, found, hard⟩ := hard_of_isHeld sound held
      exact releaseInode_sound sound found hard (guarded obj found)
  | read number offset n =>
    simp only [exec]
    split
    case isFalse => exact sound
    case isTrue => exact fileRd_sound number n offset n sound
  | write number offset buffer writeThrough =>
    simp only [exec]
    split
    case isFalse => exact sound
    case isTrue held =>
      have ready : Ready start number fs := ⟨sound, hard_of_isHeld sound held⟩
      exact (ready.wrFile offset buffer writeThrough).sound
  | truncate number newSize =>
    simp only [exec]
    split
    case isFalse => exact sound
    case isTrue inside =>
      have ready : Ready start number fs :=
        ⟨sound, inside.elim (hard_of_isHeld sound) (hard_of_isVisible sound)⟩
      exact (ready.resizeFile newSize).sound
  | flush number dataSync discardCache =>
    simp only [exec]
    split
    case isFalse => exact sound
    case isTrue inside =>
      have ready : Ready start number fs :=
        ⟨sound, inside.elim (hard_of_isHeld sound) (hard_of_isVisible sound)⟩
      exact (ready.flushFile dataSync discardCache).sound
  | unlink number =>
    simp only [exec]
    split
    case isFalse => exact sound
    case isTrue visible =>
      obtain ⟨obj, found, hard⟩ := hard_of_isVisible sound visible
      exact unlinkObj_sound sound found hard (guarded obj found)
  | collect => exact (checkGc_sound sound).1

end FileTurn

namespace Files

/-- A device that has no files yet, and no tnodes. -/
structure Unused (fs : Files) : Prop where
  objs : ∀ number, fs.objs number = none
  numbers : fs.numbers = ∅
  nTnodes : fs.memory.nTnodes = 0
  nTnodesCreated : fs.memory.nTnodesCreated = 0
  freeTnodes : fs.memory.freeTnodes = []
  dirty : ∀ i, (fs.cache i).dirty = false

/-- Tnodes do not leak: the device counts those in the trees of the files, and every tnode that is
not free is in the tree of one file, at one place. -/
structure NoLeaks (fs : Files) : Prop where
  count : fs.memory.nTnodes = fs.held.card
  nodup : fs.held.Nodup
  inTree : ∀ tnode, tnode < fs.memory.nTnodesCreated ∧ tnode ∉ fs.memory.freeTnodes ↔
    ∃! number, tnode ∈ tnodesOf (fs.objs number)

theorem Unused.sound {fs : Files} (unused : fs.Unused) : Sound ∅ fs.memory fs where
  support := fun number _ => unused.objs number
  moves := by
    have none_held : fs.held = 0 := by
      rw [held, unused.numbers]
      rfl
    rw [none_held]
    exact TnodeMoves.refl _ _
  sane := fun number obj found => by
    rw [unused.objs number] at found
    cases found
  freed := fun _ is_loose => is_loose.elim
  clean := fun i _ is_dirty => by
    rw [unused.dirty i] at is_dirty
    cases is_dirty

theorem Sound.mem_held {fs : Files} {start : TnodeMemory} (sound : Sound ∅ start fs)
    {tnode : Nat} : tnode ∈ fs.held ↔ ∃ number, tnode ∈ tnodesOf (fs.objs number) := by
  rw [held, Multiset.mem_sum]
  constructor
  · rintro ⟨number, -, inside⟩
    exact ⟨number, inside⟩
  · rintro ⟨number, inside⟩
    refine ⟨number, ?_, inside⟩
    by_contra outside
    rw [sound.support number outside] at inside
    exact Multiset.notMem_zero _ inside

/-- A tnode that is in the trees of two files is there twice. -/
theorem Sound.same_of_nodup {fs : Files} {start : TnodeMemory} (sound : Sound ∅ start fs)
    (nodup : fs.held.Nodup) {tnode first second : Nat}
    (in_first : tnode ∈ tnodesOf (fs.objs first)) (in_second : tnode ∈ tnodesOf (fs.objs second)) :
    first = second := by
  by_contra differ
  have mem : ∀ number, tnode ∈ tnodesOf (fs.objs number) → number ∈ fs.numbers := by
    intro number inside
    by_contra outside
    rw [sound.support number outside] at inside
    exact Multiset.notMem_zero _ inside
  have split_held : fs.held = tnodesOf (fs.objs first) +
      (tnodesOf (fs.objs second) + ∑ n ∈ (fs.numbers.erase first).erase second,
        tnodesOf (fs.objs n)) := by
    rw [held, ← Finset.add_sum_erase _ _ (mem first in_first),
      ← Finset.add_sum_erase (fs.numbers.erase first) _
        (Finset.mem_erase.mpr ⟨Ne.symm differ, mem second in_second⟩)]
  rw [split_held, Multiset.nodup_add] at nodup
  exact Multiset.disjoint_left.mp nodup.2.2 in_first (Multiset.mem_add.mpr (Or.inl in_second))

theorem Sound.noLeaks {fs : Files} {start : TnodeMemory} (sound : Sound ∅ start fs)
    (nTnodes : start.nTnodes = 0) (nTnodesCreated : start.nTnodesCreated = 0)
    (freeTnodes : start.freeTnodes = []) : fs.NoLeaks := by
  have balance := sound.moves.balance
  rw [nTnodesCreated, freeTnodes, Multiset.range_zero, add_zero, add_zero, Multiset.coe_nil,
    zero_add] at balance
  have nodup_all : ((fs.memory.freeTnodes : Multiset Nat) + fs.held).Nodup := by
    rw [balance]
    exact Multiset.nodup_range _
  obtain ⟨-, nodup, disjoint⟩ := Multiset.nodup_add.mp nodup_all
  refine ⟨?_, nodup, fun tnode => ?_⟩
  · have count := sound.moves.count
    rw [nTnodes, Multiset.card_zero] at count
    omega
  · have made : tnode < fs.memory.nTnodesCreated ↔
        tnode ∈ fs.memory.freeTnodes ∨ tnode ∈ fs.held := by
      rw [← Multiset.mem_range, ← balance, Multiset.mem_add, Multiset.mem_coe]
    constructor
    · rintro ⟨created, not_free⟩
      obtain ⟨number, inside⟩ := sound.mem_held.mp ((made.mp created).resolve_left not_free)
      exact ⟨number, inside, fun other other_inside =>
        sound.same_of_nodup nodup other_inside inside⟩
    · rintro ⟨number, inside, -⟩
      have is_held := sound.mem_held.mpr ⟨number, inside⟩
      exact ⟨made.mpr (Or.inr is_held), fun free =>
        Multiset.disjoint_left.mp disjoint (Multiset.mem_coe.mpr free) is_held⟩

/-- Files with the same trees hold the same tnodes. -/
theorem held_congr {fs fs' : Files} {start : TnodeMemory} (sound : Sound ∅ start fs)
    (sound' : Sound ∅ start fs')
    (same : ∀ number, tnodesOf (fs'.objs number) = tnodesOf (fs.objs number)) :
    fs'.held = fs.held := by
  have widen : ∀ {one : Files} {numbers : Finset Nat}, Sound ∅ start one → one.numbers ⊆ numbers →
      one.held = ∑ number ∈ numbers, tnodesOf (one.objs number) := by
    intro one numbers one_sound subset
    refine Finset.sum_subset subset fun number _ outside => ?_
    rw [one_sound.support number outside]
    rfl
  have left : fs'.numbers ⊆ fs'.numbers ∪ fs.numbers := Finset.subset_union_left
  have right : fs.numbers ⊆ fs'.numbers ∪ fs.numbers := Finset.subset_union_right
  rw [widen sound' left, widen sound right]
  exact Finset.sum_congr rfl fun number _ => same number

end Files

namespace FileTurn

open Files

/-- As long as every file that is deleted can be deleted without leaving tnodes behind, tnodes do not
leak, and the count is back to what it was whenever the files have the same tnodes as then. -/
theorem noLeaks_of_run {fs : Files} (unused : fs.Unused) (earlier later : List FileTurn)
    (guarded : Execution.Guarded exec LeavesNothing (earlier ++ later) fs) :
    (Execution.run exec (earlier ++ later) fs).NoLeaks ∧
      ((∀ number,
          tnodesOf ((Execution.run exec (earlier ++ later) fs).objs number) =
            tnodesOf ((Execution.run exec earlier fs).objs number)) →
        (Execution.run exec (earlier ++ later) fs).memory.nTnodes =
          (Execution.run exec earlier fs).memory.nTnodes) := by
  have step : ∀ turn state, LeavesNothing turn state → Sound ∅ fs.memory state →
      Sound ∅ fs.memory (exec turn state) := fun turn _ guard sound => exec_sound turn guard sound
  have last : Sound ∅ fs.memory (Execution.run exec (earlier ++ later) fs) :=
    Execution.run_invariant step guarded unused.sound
  have before : Sound ∅ fs.memory (Execution.run exec earlier fs) :=
    Execution.run_invariant step
      ((Execution.guarded_append exec LeavesNothing earlier later fs).mp guarded).1 unused.sound
  have no_leaks := last.noLeaks unused.nTnodes unused.nTnodesCreated unused.freeTnodes
  have no_leaks_before := before.noLeaks unused.nTnodes unused.nTnodesCreated unused.freeTnodes
  refine ⟨no_leaks, fun same => ?_⟩
  rw [no_leaks.count, no_leaks_before.count, held_congr before last same]

/-- A device without a cache, with room for some pages. -/
def smallDevice : Files :=
  { param := { dataBytesPerChunk := 512 }
    programs := (List.range 12).map fun page => some (page + 1) }

theorem unused_smallDevice : smallDevice.Unused :=
  ⟨fun _ => rfl, rfl, rfl, rfl, rfl, fun _ => rfl⟩

/-- A file is created, written at an offset and closed. -/
def writeOnce (offset : Nat) : List FileTurn :=
  [create 256 objectIdRoot, hold 256, write 256 offset [1] false, release 256]

theorem guarded_writeOnce : Execution.Guarded exec LeavesNothing (writeOnce 0) smallDevice := by
  refine ⟨trivial, trivial, trivial, fun obj found unlinked => ?_, trivial⟩
  have still_linked : ((exec (write 256 0 [1] false) (exec (hold 256)
      (exec (create 256 objectIdRoot) smallDevice))).objs 256).any FileObj.unlinked = false := by
    decide +kernel
  rw [found, Option.any_some, unlinked] at still_linked
  cases still_linked

theorem noLeaks_of_short : (Execution.run exec (writeOnce 0 ++ [unlink 256]) smallDevice).NoLeaks := by
  refine (noLeaks_of_run unused_smallDevice (writeOnce 0) [unlink 256] ?_).1
  refine (Execution.guarded_append ..).mpr ⟨guarded_writeOnce, fun obj found _ => ?_, trivial⟩
  have sound : Sound ∅ smallDevice.memory (Execution.run exec (writeOnce 0) smallDevice) :=
    Execution.run_invariant (fun turn _ guard sound => exec_sound turn guard sound)
      guarded_writeOnce unused_smallDevice.sound
  have flat : ((Execution.run exec (writeOnce 0) smallDevice).objs 256).all
      (fun obj => decide (obj.tree.topLevel = 0) && !obj.softDel) = true := by
    decide +kernel
  have no_cache : (Execution.run exec (writeOnce 0) smallDevice).param.nCaches = 0 := by
    decide +kernel
  rw [found, Option.all_some, Bool.and_eq_true, decide_eq_true_eq, Bool.not_eq_true'] at flat
  have rooted := (sound.sane 256 obj found (Set.notMem_empty 256)).rooted flat.2
  rw [FileTree.Rooted, flat.1] at rooted
  have clear : Clear (Execution.run exec (writeOnce 0) smallDevice) 256 := fun i i_lt _ => by
    rw [no_cache] at i_lt
    cases i_lt
  refine ⟨fun _ => ⟨?_, Or.inl flat.1, fun i i_lt _ _ => ?_⟩, fun _ _ => flat.1, fun _ _ => clear⟩
  · rw [flat.1]
    exact Slim.of_spined rooted
  · rw [no_cache] at i_lt
    cases i_lt

/-- A file with a byte in its seventeenth chunk has two level 0 tnodes below its top.  They stay in
use when the file has been deleted. -/
theorem not_noLeaks_of_tall :
    ¬(Execution.run exec (writeOnce 8192 ++ [unlink 256]) smallDevice).NoLeaks := by
  intro no_leaks
  have gone : (Execution.run exec (writeOnce 8192 ++ [unlink 256]) smallDevice).numbers = ∅ := by
    decide +kernel
  have counted :
      (Execution.run exec (writeOnce 8192 ++ [unlink 256]) smallDevice).memory.nTnodes = 2 := by
    decide +kernel
  have count := no_leaks.count
  rw [counted, held, gone, Finset.sum_empty, Multiset.card_zero] at count
  cases count

end FileTurn

end Yaffs
