import Yaffs.FileData
import Yaffs.FileTreeBooks
import Yaffs.Library.Execution

/-!
# Tnodes of the files

The tnodes of the existing files are all the tnodes in use, unless a file is deleted at once whose
tree is still taller than one tnode: only the top of its tree is freed then.
-/

namespace Yaffs

open FileTnode

namespace Files

variable {fs fs' : Files} {start : TnodeMemory} {loose : Set Nat}

/-! ## Books -/

/-- The tnodes of an object, if it exists. -/
def tnodesOf : Option FileObj → Multiset Nat
  | none => 0
  | some obj => obj.tree.top.tnodes

/-- The tnodes of all files. -/
def held (fs : Files) : Multiset Nat := ∑ number ∈ fs.numbers, tnodesOf (fs.objs number)

/-- A file has a tree.  Of one that is soft deleted only the top is left, and it is not open;
unlinked and deleted files are in the hidden directories. -/
structure Sane (obj : FileObj) : Prop where
  rooted : obj.softDel = false → obj.tree.Rooted
  bare : obj.softDel = true → obj.tree.top.Bare
  deleted : obj.softDel = true → obj.deleted = true
  closed : obj.softDel = true → obj.hasInode = false
  hidden : obj.unlinked = true ∨ obj.deleted = true → isHidden obj.parent

/-- No entry of the cache waits to be written to a file. -/
def Clear (fs : Files) (number : Nat) : Prop :=
  ∀ i < fs.param.nCaches, (fs.cache i).object = some number → (fs.cache i).dirty = false

/-- The tnodes in use are those of the files.  A file that is being deleted may be loose: the top of
its tree has been freed. -/
structure Sound (loose : Set Nat) (start : TnodeMemory) (fs : Files) : Prop where
  support : ∀ number, number ∉ fs.numbers → fs.objs number = none
  moves : TnodeMoves 0 fs.held start fs.memory
  sane : ∀ number obj, fs.objs number = some obj → number ∉ loose → Sane obj
  freed : ∀ number ∈ loose, ∀ obj, fs.objs number = some obj →
    obj.tree.top = .null ∧ obj.hasInode = false ∧ (obj.softDel = true → obj.nDataChunks ≤ 0)
  clean : ∀ i < fs.param.nCaches, (fs.cache i).dirty = true →
    ∀ number, (fs.cache i).object = some number →
      ∃ obj, fs.objs number = some obj ∧ obj.softDel = false

/-- The books do not depend on the pages. -/
theorem Sound.congr (sound : Sound loose start fs) (param : fs'.param = fs.param)
    (objs : fs'.objs = fs.objs) (numbers : fs'.numbers = fs.numbers)
    (memory : fs'.memory = fs.memory) (cache : fs'.cache = fs.cache) :
    Sound loose start fs' where
  support := by rw [objs, numbers]; exact sound.support
  moves := by
    have held_eq : fs'.held = fs.held := by rw [held, held, objs, numbers]
    rw [memory, held_eq]
    exact sound.moves
  sane := by rw [objs]; exact sound.sane
  freed := by rw [objs]; exact sound.freed
  clean := by rw [param, objs, cache]; exact sound.clean

theorem Sound.mem_numbers (sound : Sound loose start fs) {number : Nat} {obj : FileObj}
    (found : fs.objs number = some obj) : number ∈ fs.numbers := by
  by_contra outside
  rw [sound.support number outside] at found
  cases found

/-- The tnodes of the files after one of them has changed. -/
theorem held_update (number_mem : ∀ n, n ∉ fs.numbers → fs.objs n = none) {number : Nat}
    {obj : FileObj} (found : fs.objs number = some obj) (change : Option FileObj)
    (memory : TnodeMemory) :
    ({ fs with objs := Function.update fs.objs number change, memory } : Files).held +
        obj.tree.top.tnodes = fs.held + tnodesOf change := by
  have mem : number ∈ fs.numbers := by
    by_contra outside
    rw [number_mem number outside] at found
    cases found
  simp only [held]
  rw [← Finset.add_sum_erase _ _ mem,
    ← Finset.add_sum_erase fs.numbers (fun n => tnodesOf (fs.objs n)) mem]
  have others : ∑ n ∈ fs.numbers.erase number,
        tnodesOf (Function.update fs.objs number change n) =
      ∑ n ∈ fs.numbers.erase number, tnodesOf (fs.objs n) := by
    refine Finset.sum_congr rfl fun n n_mem => ?_
    rw [Function.update_of_ne (Finset.ne_of_mem_erase n_mem)]
  rw [others, Function.update_self, found]
  simp only [tnodesOf]
  abel

/-- One file and its tnodes have changed, and it may be loose now. -/
theorem Sound.replaceOn {loose' : Set Nat} (sound : Sound loose start fs) {number : Nat}
    (others : ∀ n, n ≠ number → (n ∈ loose' ↔ n ∈ loose)) {obj obj' : FileObj}
    (found : fs.objs number = some obj) {memory : TnodeMemory}
    (moves : TnodeMoves obj.tree.top.tnodes obj'.tree.top.tnodes fs.memory memory)
    (sane : number ∉ loose' → Sane obj')
    (freed : number ∈ loose' → obj'.tree.top = .null ∧ obj'.hasInode = false ∧
      (obj'.softDel = true → obj'.nDataChunks ≤ 0))
    (clear : obj'.softDel = true → Clear fs number) :
    Sound loose' start
      { fs with objs := Function.update fs.objs number (some obj'), memory } where
  support := fun n outside => by
    have n_ne : n ≠ number := by
      rintro rfl
      exact outside (sound.mem_numbers found)
    dsimp only
    rw [Function.update_of_ne n_ne]
    exact sound.support n outside
  moves := by
    have changed := held_update sound.support found (some obj') memory
    generalize ({ fs with objs := Function.update fs.objs number (some obj'), memory } :
      Files).held = held' at changed
    have tree_in : obj.tree.top.tnodes ≤ fs.held := by
      have le : tnodesOf (fs.objs number) ≤ fs.held :=
        Finset.single_le_sum (f := fun n => tnodesOf (fs.objs n))
          (fun _ _ => Multiset.zero_le _) (sound.mem_numbers found)
      rw [found] at le
      exact le
    obtain ⟨rest, rest_eq⟩ := Multiset.le_iff_exists_add.mp tree_in
    have held_eq : held' = obj'.tree.top.tnodes + rest := by
      refine add_right_cancel (b := obj.tree.top.tnodes) ?_
      rw [changed, rest_eq, tnodesOf]
      abel
    have framed := moves.frame rest
    rw [← rest_eq, ← held_eq] at framed
    exact sound.moves.trans framed
  sane := fun n o n_found not_loose => by
    dsimp only at n_found
    rw [Function.update_apply] at n_found
    split at n_found
    case isTrue same =>
      subst same
      rw [← Option.some.inj n_found]
      exact sane not_loose
    case isFalse n_ne =>
      exact sound.sane n o n_found fun n_loose => not_loose ((others n n_ne).mpr n_loose)
  freed := fun n n_loose o n_found => by
    dsimp only at n_found
    rw [Function.update_apply] at n_found
    split at n_found
    case isTrue same =>
      subst same
      rw [← Option.some.inj n_found]
      exact freed n_loose
    case isFalse n_ne => exact sound.freed n ((others n n_ne).mp n_loose) o n_found
  clean := fun i i_lt is_dirty n object => by
    dsimp only at i_lt is_dirty object ⊢
    rw [Function.update_apply]
    split
    case isTrue same =>
      subst same
      refine ⟨obj', rfl, ?_⟩
      by_contra soft
      rw [clear (Bool.not_eq_false _ ▸ soft) i i_lt object] at is_dirty
      cases is_dirty
    case isFalse => exact sound.clean i i_lt is_dirty n object

/-- One file and its tnodes have changed. -/
theorem Sound.replace (sound : Sound loose start fs) {number : Nat} {obj obj' : FileObj}
    (found : fs.objs number = some obj) {memory : TnodeMemory}
    (moves : TnodeMoves obj.tree.top.tnodes obj'.tree.top.tnodes fs.memory memory)
    (sane : number ∉ loose → Sane obj')
    (freed : number ∈ loose → obj'.tree.top = .null ∧ obj'.hasInode = false ∧
      (obj'.softDel = true → obj'.nDataChunks ≤ 0))
    (clear : obj'.softDel = true → Clear fs number) :
    Sound loose start
      { fs with objs := Function.update fs.objs number (some obj'), memory } :=
  sound.replaceOn (fun _ _ => Iff.rfl) found moves sane freed clear

/-- Nothing waits to be written to a soft deleted file. -/
theorem Sound.clear_of_soft (sound : Sound loose start fs) {number : Nat} {obj : FileObj}
    (found : fs.objs number = some obj) (soft : obj.softDel = true) : Clear fs number := by
  intro i i_lt object
  by_contra is_dirty
  obtain ⟨o, o_found, hard⟩ := sound.clean i i_lt (Bool.not_eq_false _ ▸ is_dirty) number object
  obtain rfl := Option.some.inj (found.symm.trans o_found)
  rw [soft] at hard
  cases hard

/-- Has the same tree and is in the same state of deletion. -/
structure SameBooks (obj obj' : FileObj) : Prop where
  tree : obj'.tree = obj.tree
  nDataChunks : obj'.nDataChunks = obj.nDataChunks
  parent : obj'.parent = obj.parent
  deleted : obj'.deleted = obj.deleted
  unlinked : obj'.unlinked = obj.unlinked
  softDel : obj'.softDel = obj.softDel
  hasInode : obj'.hasInode = obj.hasInode

theorem SameBooks.sane {obj obj' : FileObj} (same : SameBooks obj obj') (sane : Sane obj) :
    Sane obj' where
  rooted := fun soft => by
    rw [same.tree]
    exact sane.rooted (same.softDel ▸ soft)
  bare := fun soft => by
    rw [same.tree]
    exact sane.bare (same.softDel ▸ soft)
  deleted := fun soft => by
    rw [same.deleted]
    exact sane.deleted (same.softDel ▸ soft)
  closed := fun soft => by
    rw [same.hasInode]
    exact sane.closed (same.softDel ▸ soft)
  hidden := by
    rw [same.unlinked, same.deleted, same.parent]
    exact sane.hidden

/-- A change of one object that leaves its tree alone. -/
theorem Sound.modifyObj (sound : Sound loose start fs) (number : Nat) {change : FileObj → FileObj}
    (tree : ∀ obj, (change obj).tree = obj.tree)
    (softDel : ∀ obj, (change obj).softDel = obj.softDel)
    (sane : ∀ obj, fs.objs number = some obj → number ∉ loose → Sane obj → Sane (change obj))
    (freed : ∀ obj, fs.objs number = some obj → number ∈ loose → obj.hasInode = false →
      (change obj).hasInode = false ∧ (change obj).nDataChunks ≤ obj.nDataChunks) :
    Sound loose start (fs.modifyObj number change) := by
  simp only [Files.modifyObj]
  cases found : fs.objs number with
  | none =>
    refine sound.congr rfl ?_ rfl rfl rfl
    rw [Option.map_none, ← found, Function.update_eq_self]
  | some obj =>
    refine sound.replace found ?_ (fun not_loose => ?_) (fun is_loose => ?_) fun soft => ?_
    · rw [tree]
      exact TnodeMoves.refl _ _
    · exact sane obj found not_loose (sound.sane number obj found not_loose)
    · obtain ⟨top, closed, few⟩ := sound.freed number is_loose obj found
      obtain ⟨closed', fewer⟩ := freed obj found is_loose closed
      refine ⟨by rw [tree]; exact top, closed', fun soft => ?_⟩
      rw [softDel] at soft
      exact fewer.trans (few soft)
    · rw [softDel] at soft
      exact sound.clear_of_soft found soft

/-- A change of one object that its books do not show. -/
theorem Sound.modify_same (sound : Sound loose start fs) (number : Nat)
    {change : FileObj → FileObj} (same : ∀ obj, SameBooks obj (change obj)) :
    Sound loose start (fs.modifyObj number change) :=
  sound.modifyObj number (fun obj => (same obj).tree) (fun obj => (same obj).softDel)
    (fun obj _ _ sane => (same obj).sane sane) fun obj _ _ closed =>
      ⟨(same obj).hasInode.trans closed, (same obj).nDataChunks.le⟩

theorem writeNewChunk_rest (page : Page) : (fs.writeNewChunk page).2 =
    { fs with
      programs := (fs.writeNewChunk page).2.programs
      pages := (fs.writeNewChunk page).2.pages } := by
  simp only [writeNewChunk]
  split
  · rfl
  · split <;> rfl

theorem chunkDel_rest (chunk : Nat) :
    fs.chunkDel chunk = { fs with pages := (fs.chunkDel chunk).pages } := by
  simp only [chunkDel]
  split <;> rfl

theorem Sound.writeNewChunk (sound : Sound loose start fs) (page : Page) :
    Sound loose start (fs.writeNewChunk page).2 := by
  rw [writeNewChunk_rest]
  exact sound.congr rfl rfl rfl rfl rfl

theorem Sound.chunkDel (sound : Sound loose start fs) (chunk : Nat) :
    Sound loose start (fs.chunkDel chunk) := by
  rw [chunkDel_rest]
  exact sound.congr rfl rfl rfl rfl rfl

/-! ## What becomes of the files -/

/-- What may happen to a file while others are worked on.  It stays slim if asked to. -/
structure Alike (slim : Prop) (obj obj' : FileObj) : Prop where
  fileSize : obj'.fileSize = obj.fileSize
  parent : obj'.parent = obj.parent
  deleted : obj'.deleted = obj.deleted
  unlinked : obj'.unlinked = obj.unlinked
  softDel : obj'.softDel = obj.softDel
  hasInode : obj'.hasInode = obj.hasInode
  nDataChunks : obj.nDataChunks ≤ obj'.nDataChunks
  slim : slim → Slim obj.tree.topLevel obj.tree.top →
    obj'.tree.topLevel = obj.tree.topLevel ∧ Slim obj'.tree.topLevel obj'.tree.top

theorem Alike.refl {slim : Prop} (obj : FileObj) : Alike slim obj obj :=
  ⟨rfl, rfl, rfl, rfl, rfl, rfl, le_refl _, fun _ is_slim => ⟨rfl, is_slim⟩⟩

theorem Alike.trans {slim : Prop} {obj obj' obj'' : FileObj} (first : Alike slim obj obj')
    (second : Alike slim obj' obj'') : Alike slim obj obj'' where
  fileSize := second.fileSize.trans first.fileSize
  parent := second.parent.trans first.parent
  deleted := second.deleted.trans first.deleted
  unlinked := second.unlinked.trans first.unlinked
  softDel := second.softDel.trans first.softDel
  hasInode := second.hasInode.trans first.hasInode
  nDataChunks := first.nDataChunks.trans second.nDataChunks
  slim := fun asked is_slim => by
    obtain ⟨level_eq, is_slim'⟩ := first.slim asked is_slim
    obtain ⟨level_eq', is_slim''⟩ := second.slim asked is_slim'
    exact ⟨level_eq'.trans level_eq, is_slim''⟩

theorem Alike.mono {slim slim' : Prop} {obj obj' : FileObj} (alike : Alike slim obj obj')
    (asked : slim' → slim) : Alike slim' obj obj' :=
  { alike with slim := fun is_asked => alike.slim (asked is_asked) }

/-- Files that are not soft deleted stay, and no file appears.  The trees of the files that are not
in `tall` stay slim, and no entry of the cache gets dirty. -/
structure Follows (tall : Set Nat) (fs fs' : Files) : Prop where
  param : fs'.param = fs.param
  back : ∀ number obj', fs'.objs number = some obj' → ∃ obj, fs.objs number = some obj ∧
    obj'.softDel = obj.softDel ∧ (obj.softDel = false → Alike (number ∉ tall) obj obj')
  stays : ∀ number obj, fs.objs number = some obj → obj.softDel = false →
    fs'.objs number ≠ none
  dirty : ∀ i, (fs'.cache i).dirty = true → (fs.cache i).dirty = true ∧
    ∀ number, (fs'.cache i).object = some number →
      (fs.cache i).object = some number ∧ (fs'.cache i).chunkId = (fs.cache i).chunkId

namespace Follows

variable {tall : Set Nat} {fs'' : Files}

theorem refl (tall : Set Nat) (fs : Files) : Follows tall fs fs where
  param := rfl
  back := fun _ obj found => ⟨obj, found, rfl, fun _ => Alike.refl obj⟩
  stays := fun _ _ found _ absurd_none => by
    rw [found] at absurd_none
    cases absurd_none
  dirty := fun _ is_dirty => ⟨is_dirty, fun _ held => ⟨held, rfl⟩⟩

theorem trans (first : Follows tall fs fs') (second : Follows tall fs' fs'') :
    Follows tall fs fs'' where
  param := second.param.trans first.param
  back := fun number obj'' found'' => by
    obtain ⟨obj', found', soft', alike'⟩ := second.back number obj'' found''
    obtain ⟨obj, found, soft, alike⟩ := first.back number obj' found'
    exact ⟨obj, found, soft'.trans soft,
      fun hard => (alike hard).trans (alike' (soft.trans hard))⟩
  stays := fun number obj found hard => by
    obtain ⟨obj', found'⟩ := Option.ne_none_iff_exists'.mp (first.stays number obj found hard)
    obtain ⟨o, o_found, soft, -⟩ := first.back number obj' found'
    obtain rfl := Option.some.inj (found.symm.trans o_found)
    exact second.stays number obj' found' (soft.trans hard)
  dirty := fun i is_dirty => by
    obtain ⟨dirty', held'⟩ := second.dirty i is_dirty
    obtain ⟨dirty, held⟩ := first.dirty i dirty'
    refine ⟨dirty, fun number object => ?_⟩
    obtain ⟨object', chunk'⟩ := held' number object
    obtain ⟨object, chunk⟩ := held number object'
    exact ⟨object, chunk'.trans chunk⟩

theorem mono {wide : Set Nat} (follows : Follows tall fs fs') (subset : tall ⊆ wide) :
    Follows wide fs fs' where
  param := follows.param
  back := fun number obj' found' => by
    obtain ⟨obj, found, soft, alike⟩ := follows.back number obj' found'
    exact ⟨obj, found, soft,
      fun hard => (alike hard).mono fun outside inside => outside (subset inside)⟩
  stays := follows.stays
  dirty := follows.dirty

/-- A file that is not soft deleted is still there. -/
theorem found (follows : Follows tall fs fs') {number : Nat} {obj : FileObj}
    (found : fs.objs number = some obj) (hard : obj.softDel = false) :
    ∃ obj', fs'.objs number = some obj' ∧ Alike (number ∉ tall) obj obj' := by
  obtain ⟨obj', found'⟩ := Option.ne_none_iff_exists'.mp (follows.stays number obj found hard)
  obtain ⟨o, o_found, -, alike⟩ := follows.back number obj' found'
  obtain rfl := Option.some.inj (found.symm.trans o_found)
  exact ⟨obj', found', alike hard⟩

/-- The objects have not changed. -/
theorem of_objs (param : fs'.param = fs.param) (objs : fs'.objs = fs.objs)
    (cache : fs'.cache = fs.cache) : Follows tall fs fs' where
  param := param
  back := by
    rw [objs]
    exact (refl tall fs).back
  stays := by
    rw [objs]
    exact (refl tall fs).stays
  dirty := by
    rw [cache]
    exact (refl tall fs).dirty

/-- Only one object has changed. -/
theorem of_update {number : Nat} {obj obj' : FileObj} (found : fs.objs number = some obj)
    (param : fs'.param = fs.param)
    (objs : fs'.objs = Function.update fs.objs number (some obj')) (cache : fs'.cache = fs.cache)
    (soft : obj'.softDel = obj.softDel)
    (alike : obj.softDel = false → Alike (number ∉ tall) obj obj') : Follows tall fs fs' where
  param := param
  back := fun n o n_found => by
    rw [objs, Function.update_apply] at n_found
    split at n_found
    case isTrue same =>
      subst same
      rw [← Option.some.inj n_found]
      exact ⟨obj, found, soft, alike⟩
    case isFalse => exact ⟨o, n_found, rfl, fun _ => Alike.refl o⟩
  stays := fun n o n_found _ => by
    rw [objs, Function.update_apply]
    split
    · exact Option.some_ne_none _
    · rw [n_found]
      exact Option.some_ne_none _
  dirty := by
    rw [cache]
    exact (refl tall fs).dirty

theorem modifyObj (number : Nat) {change : FileObj → FileObj}
    (soft : ∀ obj, fs.objs number = some obj → (change obj).softDel = obj.softDel)
    (alike : ∀ obj, fs.objs number = some obj → obj.softDel = false →
      Alike (number ∉ tall) obj (change obj)) :
    Follows tall fs (fs.modifyObj number change) := by
  cases found : fs.objs number with
  | none =>
    refine of_objs rfl ?_ rfl
    simp only [Files.modifyObj, found, Option.map_none]
    rw [← found, Function.update_eq_self]
  | some obj =>
    refine of_update found rfl ?_ rfl (soft obj found) (alike obj found)
    simp only [Files.modifyObj, found, Option.map_some]

/-- A soft deleted file has gone. -/
theorem of_removed {number : Nat}
    (soft : ∀ obj, fs.objs number = some obj → obj.softDel = true)
    (param : fs'.param = fs.param) (objs : fs'.objs = Function.update fs.objs number none)
    (cache : fs'.cache = fs.cache) : Follows tall fs fs' where
  param := param
  back := fun n o n_found => by
    rw [objs, Function.update_apply] at n_found
    split at n_found
    case isTrue => cases n_found
    case isFalse => exact ⟨o, n_found, rfl, fun _ => Alike.refl o⟩
  stays := fun n o n_found hard => by
    rw [objs, Function.update_apply]
    split
    case isTrue same =>
      subst same
      rw [soft o n_found] at hard
      cases hard
    case isFalse =>
      rw [n_found]
      exact Option.some_ne_none _
  dirty := by
    rw [cache]
    exact (refl tall fs).dirty

theorem invalidateWholeCache (number : Nat) :
    Follows tall fs (fs.invalidateWholeCache number) where
  param := rfl
  back := (refl tall fs).back
  stays := (refl tall fs).stays
  dirty := fun i is_dirty => by
    simp only [Files.invalidateWholeCache] at is_dirty ⊢
    split at is_dirty
    case isTrue inside =>
      rw [if_pos inside]
      exact ⟨is_dirty, nofun⟩
    case isFalse outside =>
      rw [if_neg outside]
      exact ⟨is_dirty, fun _ held => ⟨held, rfl⟩⟩

theorem writeNewChunk (page : Page) : Follows tall fs (fs.writeNewChunk page).2 := by
  rw [writeNewChunk_rest]
  exact of_objs rfl rfl rfl

theorem chunkDel (chunk : Nat) : Follows tall fs (fs.chunkDel chunk) := by
  rw [chunkDel_rest]
  exact of_objs rfl rfl rfl

end Follows

/-! ## Putting chunks into files -/

/-- What putting a chunk into a file does to the file. -/
theorem putChunkInFile_cases {number : Nat} {obj : FileObj} (found : fs.objs number = some obj)
    (inodeChunk nandChunk : Nat) :
    ∃ tree nDataChunks, (fs.putChunkInFile number inodeChunk nandChunk).2 =
        { fs with
          memory := (obj.tree.addFindTnode0 inodeChunk fs.memory).2.2
          objs := Function.update fs.objs number (some { obj with tree, nDataChunks }) } ∧
      obj.nDataChunks ≤ nDataChunks ∧
      (tree = (obj.tree.addFindTnode0 inodeChunk fs.memory).2.1 ∨
        ∃ group, tree =
          { topLevel := (obj.tree.addFindTnode0 inodeChunk fs.memory).2.1.topLevel
            top := (obj.tree.addFindTnode0 inodeChunk fs.memory).2.1.top.loadTnode0 group
              (obj.tree.addFindTnode0 inodeChunk fs.memory).2.1.topLevel inodeChunk }) := by
  simp only [putChunkInFile, found]
  split
  case isTrue => exact ⟨_, _, rfl, le_refl _, Or.inl rfl⟩
  case isFalse =>
    split
    case isTrue => exact ⟨_, _, rfl, le_refl _, Or.inl rfl⟩
    case isFalse =>
      generalize (((obj.tree.addFindTnode0 inodeChunk fs.memory).2.1.findTnode0 inodeChunk).map _).getD
        0 = existing
      refine ⟨fs.loadTnode0 (obj.tree.addFindTnode0 inodeChunk fs.memory).2.1 inodeChunk nandChunk,
        if existing = 0 then obj.nDataChunks + 1 else obj.nDataChunks, ?_, ?_, Or.inr ⟨_, rfl⟩⟩
      · simp only [Files.modifyObj, Function.update_self, Option.map_some, Function.update_idem]
        rfl
      · split
        · omega
        · exact le_refl _

/-- A chunk is put into a file that is there with all its tree. -/
theorem Sound.putChunkInFile (sound : Sound loose start fs) {number : Nat}
    (hard : ∀ obj, fs.objs number = some obj → number ∉ loose ∧ obj.softDel = false)
    (inodeChunk nandChunk : Nat) :
    Sound loose start (fs.putChunkInFile number inodeChunk nandChunk).2 := by
  cases found : fs.objs number with
  | none =>
    simp only [Files.putChunkInFile, found]
    exact sound
  | some obj =>
    obtain ⟨not_loose, hard⟩ := hard obj found
    obtain ⟨tree, nDataChunks, eq, -, shape⟩ :=
      putChunkInFile_cases found inodeChunk nandChunk
    obtain ⟨moves, rooted⟩ := FileTree.addFindTnode0_spec inodeChunk fs.memory
      ((sound.sane number obj found not_loose).rooted hard)
    have tree_spec : tree.top.tnodes =
          (obj.tree.addFindTnode0 inodeChunk fs.memory).2.1.top.tnodes ∧ tree.Rooted := by
      rcases shape with rfl | ⟨group, rfl⟩
      · exact ⟨rfl, rooted⟩
      · exact ⟨tnodes_loadTnode0 .., loadTnode0_spined group inodeChunk rooted⟩
    rw [eq]
    refine sound.replace found ?_ (fun _ => ?_) (fun is_loose => absurd is_loose not_loose)
      fun soft => absurd soft (by rw [hard]; exact Bool.false_ne_true)
    · rw [← tree_spec.1] at moves
      exact moves
    · have sane := sound.sane number obj found not_loose
      exact { sane with rooted := fun _ => tree_spec.2, bare := fun soft => absurd soft (by
        rw [hard]; exact Bool.false_ne_true) }

/-- Only the tree of the file may change, and it stays slim for a chunk that is near the start of the
file or has its level 0 tnode. -/
theorem Follows.putChunkInFile {tall : Set Nat} {number inodeChunk : Nat} (nandChunk : Nat)
    (low : number ∈ tall ∨ inodeChunk < 16 ∨ ∃ obj groups, fs.objs number = some obj ∧
      obj.tree.findTnode0 inodeChunk = some groups) :
    Follows tall fs (fs.putChunkInFile number inodeChunk nandChunk).2 := by
  cases found : fs.objs number with
  | none =>
    simp only [Files.putChunkInFile, found]
    exact Follows.refl tall fs
  | some obj =>
    obtain ⟨tree, nDataChunks, eq, more, shape⟩ :=
      putChunkInFile_cases found inodeChunk nandChunk
    rw [eq]
    refine Follows.of_update found rfl rfl rfl rfl fun _ => ?_
    refine ⟨rfl, rfl, rfl, rfl, rfl, rfl, more, fun short is_slim => ?_⟩
    have same : (obj.tree.addFindTnode0 inodeChunk fs.memory).2 = (obj.tree, fs.memory) := by
      rcases low with is_tall | first | ⟨o, groups, o_found, groups_eq⟩
      · exact absurd is_tall short
      · exact FileTree.addFindTnode0_of_first first fs.memory is_slim
      · obtain rfl := Option.some.inj (found.symm.trans o_found)
        rw [FileTree.addFindTnode0_of_found groups_eq]
    rw [same] at shape
    rcases shape with rfl | ⟨group, rfl⟩
    · exact ⟨rfl, is_slim⟩
    · exact ⟨rfl, loadTnode0_slim group inodeChunk is_slim⟩

/-! ## Deleting objects -/

theorem Sound.invalidateWholeCache (sound : Sound loose start fs) (number : Nat) :
    Sound loose start (fs.invalidateWholeCache number) where
  support := sound.support
  moves := sound.moves
  sane := sound.sane
  freed := sound.freed
  clean := fun i i_lt is_dirty n object => by
    simp only [Files.invalidateWholeCache] at is_dirty object ⊢
    split at object
    case isTrue => cases object
    case isFalse outside =>
      rw [if_neg outside] at is_dirty
      exact sound.clean i i_lt is_dirty n object

theorem Sound.updateOhWith {gc : Files → Files} (gc_sound : Sound loose start (gc fs))
    (number : Nat) : Sound loose start (fs.updateOhWith gc number).2 := by
  simp only [Files.updateOhWith]
  split
  case h_1 => exact gc_sound
  case h_2 obj found =>
    have written := gc_sound.writeNewChunk
      { objId := number
        chunkId := 0
        fileSize := if isHidden obj.parent then 0 else obj.storedSize }
    generalize (gc fs).writeNewChunk _ = result at written ⊢
    by_cases failed : result.1 < 0
    · rw [if_pos failed]
      exact written
    · rw [if_neg failed]
      refine Sound.modify_same (Sound.chunkDel (Sound.modify_same written number ?_) _) number ?_
      · exact fun _ => ⟨rfl, rfl, rfl, rfl, rfl, rfl, rfl⟩
      · exact fun _ => ⟨rfl, rfl, rfl, rfl, rfl, rfl, rfl⟩

theorem Sound.changeObjNameWith {gc : Files → Files}
    (gc_sound : ∀ fs, Sound loose start fs → Sound loose start (gc fs))
    (sound : Sound loose start fs) (number : Nat) {newDir : Nat}
    (hidden : isHidden (some newDir)) :
    Sound loose start (fs.changeObjNameWith gc number newDir).2 := by
  simp only [Files.changeObjNameWith]
  refine Sound.updateOhWith (gc_sound _ ?_) number
  refine sound.modifyObj number (fun _ => rfl) (fun _ => rfl) (fun obj _ _ sane => ?_)
    fun _ _ _ closed => ⟨closed, le_refl _⟩
  exact { sane with hidden := fun _ => hidden }

/-- A file without a tree goes. -/
theorem Sound.remove {number : Nat} (sound : Sound (insert number loose) start fs)
    (clear : Clear fs number) :
    Sound loose start
      { fs with
        objs := Function.update fs.objs number none
        numbers := fs.numbers.erase number } where
  support := fun n outside => by
    dsimp only
    rw [Function.update_apply]
    split
    case isTrue => rfl
    case isFalse n_ne =>
      exact sound.support n fun inside => outside (Finset.mem_erase.mpr ⟨n_ne, inside⟩)
  moves := by
    have none_held : tnodesOf (fs.objs number) = 0 := by
      cases found : fs.objs number with
      | none => rfl
      | some obj =>
        rw [tnodesOf, (sound.freed number (Set.mem_insert ..) obj found).1]
        rfl
    have held_eq : ({ fs with
        objs := Function.update fs.objs number none
        numbers := fs.numbers.erase number } : Files).held = fs.held := by
      simp only [held]
      have others : ∑ n ∈ fs.numbers.erase number,
            tnodesOf (Function.update fs.objs number none n) =
          ∑ n ∈ fs.numbers.erase number, tnodesOf (fs.objs n) := by
        refine Finset.sum_congr rfl fun n n_mem => ?_
        rw [Function.update_of_ne (Finset.ne_of_mem_erase n_mem)]
      rw [others]
      exact Finset.sum_erase _ none_held
    rw [held_eq]
    exact sound.moves
  sane := fun n obj found not_loose => by
    dsimp only at found
    rw [Function.update_apply] at found
    split at found
    case isTrue => cases found
    case isFalse n_ne =>
      exact sound.sane n obj found fun inside =>
        (Set.mem_insert_iff.mp inside).elim n_ne not_loose
  freed := fun n n_loose obj found => by
    dsimp only at found
    rw [Function.update_apply] at found
    split at found
    case isTrue => cases found
    case isFalse => exact sound.freed n (Set.mem_insert_of_mem _ n_loose) obj found
  clean := fun i i_lt is_dirty n object => by
    dsimp only at i_lt is_dirty object ⊢
    rw [Function.update_apply]
    split
    case isTrue same =>
      subst same
      rw [clear i i_lt object] at is_dirty
      cases is_dirty
    case isFalse => exact sound.clean i i_lt is_dirty n object

/-- The last tnode of a file is freed. -/
theorem Sound.freeTop (sound : Sound loose start fs) {number : Nat}
    (bare : ∀ obj, fs.objs number = some obj → obj.tree.top.Bare ∧ obj.hasInode = false ∧
      (obj.softDel = true → obj.nDataChunks ≤ 0)) :
    Sound (insert number loose) start (fs.freeTop number) := by
  simp only [Files.freeTop]
  cases found : fs.objs number with
  | none =>
    refine { sound with
      sane := fun n obj n_found outside =>
        sound.sane n obj n_found fun inside => outside (Set.mem_insert_of_mem _ inside)
      freed := fun n n_loose obj n_found => ?_ }
    rcases Set.mem_insert_iff.mp n_loose with rfl | n_loose
    · rw [found] at n_found
      cases n_found
    · exact sound.freed n n_loose obj n_found
  | some obj =>
    obtain ⟨⟨address, address_eq, tnodes_eq⟩, closed, few⟩ := bare obj found
    have freed : TnodeMoves obj.tree.top.tnodes FileTnode.null.tnodes fs.memory
        (fs.memory.freeTnode obj.tree.top.address) := by
      rw [tnodes_eq, address_eq]
      exact fs.memory.freeTnode_moves address
    refine sound.replaceOn (fun n n_ne => ?_) found freed
      (fun outside => absurd (Set.mem_insert ..) outside) (fun _ => ⟨rfl, closed, few⟩) fun soft =>
        sound.clear_of_soft found soft
    rw [Set.mem_insert_iff]
    exact or_iff_right n_ne

/-- A soft deleted file stays one. -/
theorem Follows.soft {tall : Set Nat} (follows : Follows tall fs fs') {number : Nat}
    (soft : ∀ obj, fs.objs number = some obj → obj.softDel = true) {obj : FileObj}
    (found : fs'.objs number = some obj) : obj.softDel = true := by
  obtain ⟨obj', found', same, -⟩ := follows.back number obj found
  rw [same]
  exact soft obj' found'

theorem Follows.updateOhWith {tall : Set Nat} {gc : Files → Files}
    (gc_follows : Follows tall fs (gc fs)) (number : Nat) :
    Follows tall fs (fs.updateOhWith gc number).2 := by
  simp only [Files.updateOhWith]
  split
  case h_1 => exact gc_follows
  case h_2 obj found =>
    have written := gc_follows.trans (Follows.writeNewChunk
      { objId := number
        chunkId := 0
        fileSize := if isHidden obj.parent then 0 else obj.storedSize })
    generalize (gc fs).writeNewChunk _ = result at written ⊢
    by_cases failed : result.1 < 0
    · rw [if_pos failed]
      exact written
    · rw [if_neg failed]
      refine written.trans (((Follows.modifyObj number ?_ ?_).trans (Follows.chunkDel _)).trans
        (Follows.modifyObj number ?_ ?_))
      · exact fun _ _ => rfl
      · exact fun _ _ _ =>
          ⟨rfl, rfl, rfl, rfl, rfl, rfl, le_refl _, fun _ is_slim => ⟨rfl, is_slim⟩⟩
      · exact fun _ _ => rfl
      · exact fun _ _ _ =>
          ⟨rfl, rfl, rfl, rfl, rfl, rfl, le_refl _, fun _ is_slim => ⟨rfl, is_slim⟩⟩

theorem Follows.clear {tall : Set Nat} (follows : Follows tall fs fs') {number : Nat}
    (clear : Clear fs number) : Clear fs' number := by
  intro i i_lt object
  by_contra is_dirty
  obtain ⟨was_dirty, held⟩ := follows.dirty i (Bool.not_eq_false _ ▸ is_dirty)
  rw [follows.param] at i_lt
  rw [clear i i_lt (held number object).1] at was_dirty
  cases was_dirty

theorem clear_invalidateWholeCache (number : Nat) :
    Clear (fs.invalidateWholeCache number) number := by
  intro i i_lt object
  simp only [Files.invalidateWholeCache] at object
  split at object
  case isTrue => cases object
  case isFalse outside => exact absurd ⟨i_lt, object⟩ outside

/-- A file whose tnodes are all free is deleted. -/
theorem Sound.genericObjDelWith {gc : Files → Files} {number : Nat}
    (gc_sound : ∀ fs, Sound (insert number loose) start fs →
      Sound (insert number loose) start (gc fs) ∧ Follows ∅ fs (gc fs))
    (sound : Sound (insert number loose) start fs) :
    Sound loose start (fs.genericObjDelWith gc number) ∧
      (fs.genericObjDelWith gc number).objs number = none := by
  have dropped := sound.invalidateWholeCache number
  have clear : Clear (fs.invalidateWholeCache number) number := clear_invalidateWholeCache number
  simp only [Files.genericObjDelWith]
  generalize fs.invalidateWholeCache number = first at dropped clear ⊢
  have moved : Sound (insert number loose) start
        (if first.param.isYaffs2 ∧ (first.objs number).any fun obj =>
            decide (obj.parent ≠ some objectIdDeleted) then
          (first.changeObjNameWith gc number objectIdDeleted).2
        else first) ∧
      Clear (if first.param.isYaffs2 ∧ (first.objs number).any fun obj =>
            decide (obj.parent ≠ some objectIdDeleted) then
          (first.changeObjNameWith gc number objectIdDeleted).2
        else first) number := by
    split
    · have changed : Sound (insert number loose) start
          (first.modifyObj number fun obj =>
            { obj with
              dirty := true
              parent := some objectIdDeleted
              unlinked := obj.unlinked || decide (objectIdDeleted = objectIdUnlinked) }) :=
        dropped.modifyObj number (fun _ => rfl) (fun _ => rfl)
          (fun _ _ not_loose => absurd (Set.mem_insert ..) not_loose)
          fun _ _ _ closed => ⟨closed, le_refl _⟩
      have collected := gc_sound _ changed
      exact ⟨Sound.updateOhWith collected.1 number,
        (Follows.updateOhWith collected.2 number).clear clear⟩
    · exact ⟨dropped, clear⟩
  generalize (if first.param.isYaffs2 ∧ (first.objs number).any fun obj =>
      decide (obj.parent ≠ some objectIdDeleted) then
    (first.changeObjNameWith gc number objectIdDeleted).2 else first) = second at moved ⊢
  have is_loose : number ∈ insert number loose := Set.mem_insert ..
  have removed : Sound (insert number loose) start
      (second.modifyObj number fun obj => { obj with parent := none }) :=
    moved.1.modifyObj number (fun _ => rfl) (fun _ => rfl)
      (fun _ _ not_loose => absurd is_loose not_loose) fun _ _ _ closed => ⟨closed, le_refl _⟩
  have clear' : Clear (second.modifyObj number fun obj => { obj with parent := none }) number :=
    moved.2
  generalize second.modifyObj number (fun obj => { obj with parent := none }) = third
    at removed clear' ⊢
  have deleted := removed.chunkDel (((third.objs number).map FileObj.hdrChunk).getD 0)
  have deleted_follows : Follows ∅ third
      (third.chunkDel (((third.objs number).map FileObj.hdrChunk).getD 0)) := Follows.chunkDel _
  have clear'' := deleted_follows.clear clear'
  generalize third.chunkDel (((third.objs number).map FileObj.hdrChunk).getD 0) = fourth
    at deleted clear'' ⊢
  have done : Sound (insert number loose) start
      (fourth.modifyObj number fun obj => { obj with hdrChunk := 0 }) :=
    deleted.modify_same number fun _ => ⟨rfl, rfl, rfl, rfl, rfl, rfl, rfl⟩
  have last_clear : Clear (fourth.modifyObj number fun obj => { obj with hdrChunk := 0 }) number :=
    clear''
  generalize fourth.modifyObj number (fun obj => { obj with hdrChunk := 0 }) = last
    at done last_clear ⊢
  simp only [freeObj]
  have closed : ¬(last.objs number).any FileObj.hasInode = true := by
    cases found : last.objs number with
    | none => exact Bool.false_ne_true
    | some obj =>
      rw [Option.any_some, (done.freed number is_loose obj found).2.1]
      exact Bool.false_ne_true
  rw [if_neg closed]
  exact ⟨done.remove last_clear, Function.update_self ..⟩

/-- A soft deleted file changes in some way that its deletion allows. -/
theorem Follows.modify_soft {tall : Set Nat} {number : Nat}
    (soft : ∀ obj, fs.objs number = some obj → obj.softDel = true) {change : FileObj → FileObj}
    (same : ∀ obj, (change obj).softDel = obj.softDel) :
    Follows tall fs (fs.modifyObj number change) :=
  Follows.modifyObj number (fun obj _ => same obj) fun obj found hard => by
    rw [soft obj found] at hard
    cases hard

theorem Follows.freeTop {tall : Set Nat} {number : Nat}
    (soft : ∀ obj, fs.objs number = some obj → obj.softDel = true) :
    Follows tall fs (fs.freeTop number) := by
  simp only [Files.freeTop]
  split
  case h_1 => exact Follows.refl tall fs
  case h_2 obj found =>
    refine Follows.of_update found rfl rfl rfl rfl fun hard => ?_
    rw [soft obj found] at hard
    cases hard

theorem Follows.genericObjDelWith {tall : Set Nat} {number : Nat}
    (soft : ∀ obj, fs.objs number = some obj → obj.softDel = true) :
    Follows tall fs (fs.genericObjDelWith id number) := by
  have dropped : Follows tall fs (fs.invalidateWholeCache number) :=
    Follows.invalidateWholeCache number
  simp only [Files.genericObjDelWith]
  generalize fs.invalidateWholeCache number = first at dropped ⊢
  have moved : Follows tall fs
      (if first.param.isYaffs2 ∧ (first.objs number).any fun obj =>
          decide (obj.parent ≠ some objectIdDeleted) then
        (first.changeObjNameWith id number objectIdDeleted).2
      else first) := by
    split
    · refine dropped.trans ?_
      simp only [Files.changeObjNameWith]
      refine Follows.trans ?_ (Follows.updateOhWith (Follows.refl _ _) number)
      exact Follows.modify_soft (fun obj => dropped.soft soft) fun _ => rfl
    · exact dropped
  generalize (if first.param.isYaffs2 ∧ (first.objs number).any fun obj =>
      decide (obj.parent ≠ some objectIdDeleted) then
    (first.changeObjNameWith id number objectIdDeleted).2 else first) = second at moved ⊢
  have removed : Follows tall fs
      (second.modifyObj number fun obj => { obj with parent := none }) :=
    moved.trans (Follows.modify_soft (fun obj => moved.soft soft) fun _ => rfl)
  generalize second.modifyObj number (fun obj => { obj with parent := none }) = third
    at removed ⊢
  have deleted := removed.trans
    (Follows.chunkDel (((third.objs number).map FileObj.hdrChunk).getD 0))
  generalize third.chunkDel (((third.objs number).map FileObj.hdrChunk).getD 0) = fourth
    at deleted ⊢
  have done : Follows tall fs
      (fourth.modifyObj number fun obj => { obj with hdrChunk := 0 }) :=
    deleted.trans (Follows.modify_soft (fun obj => deleted.soft soft) fun _ => rfl)
  generalize fourth.modifyObj number (fun obj => { obj with hdrChunk := 0 }) = last at done ⊢
  simp only [freeObj]
  split
  · exact done.trans (Follows.modify_soft (fun obj => done.soft soft) fun _ => rfl)
  · exact done.trans (Follows.of_removed (fun obj => done.soft soft) rfl rfl rfl)

/-! ## Collecting garbage -/

/-- A file in which a page is found has a tree. -/
theorem findChunkInFile_tree {number inodeChunk chunk : Nat}
    (found : fs.findChunkInFile number inodeChunk = some chunk) :
    ∃ obj groups, fs.objs number = some obj ∧ obj.tree.findTnode0 inodeChunk = some groups := by
  simp only [findChunkInFile] at found
  split at found
  case h_1 => cases found
  case h_2 groups groups_eq =>
    obtain ⟨obj, obj_eq, found_eq⟩ := Option.bind_eq_some_iff.mp groups_eq
    exact ⟨obj, groups, obj_eq, found_eq⟩

theorem findTnode0_not_null {tree : FileTree} {inodeChunk : Nat} {groups : Fin 16 → Nat}
    (found : tree.findTnode0 inodeChunk = some groups) : tree.top ≠ .null := by
  intro is_null
  simp only [FileTree.findTnode0, is_null] at found
  split at found
  · cases found
  · cases level : tree.topLevel <;> rw [level] at found <;> cases found

/-- A file with pages is in place. -/
theorem Sound.in_place (sound : Sound loose start fs) {number inodeChunk : Nat} {obj : FileObj}
    {groups : Fin 16 → Nat} (found : fs.objs number = some obj)
    (inside : obj.tree.findTnode0 inodeChunk = some groups) : number ∉ loose := fun is_loose =>
  findTnode0_not_null inside (sound.freed number is_loose obj found).1

/-- The page of a file has moved. -/
theorem gcProcessChunk_data (sound : Sound loose start fs) (number inodeChunk : Nat) :
    Sound loose start (fs.gcProcessChunk (.data number inodeChunk)) ∧
      Follows ∅ fs (fs.gcProcessChunk (.data number inodeChunk)) := by
  have same : Sound loose start fs ∧ Follows ∅ fs fs := ⟨sound, Follows.refl ∅ fs⟩
  simp only [gcProcessChunk]
  split
  case h_2 => exact same
  case h_1 obj oldChunk found chunk_found =>
    obtain ⟨o, groups, o_found, inside⟩ := findChunkInFile_tree chunk_found
    obtain rfl := Option.some.inj (found.symm.trans o_found)
    split
    case isTrue => exact same
    case isFalse in_place =>
      split
      case h_1 => exact same
      case h_2 page page_eq =>
        have not_loose := sound.in_place found inside
        have hard : obj.softDel = false := by
          by_contra soft
          rw [Bool.not_eq_false] at soft
          exact in_place ⟨(sound.sane number obj found not_loose).deleted soft, soft⟩
        have written := sound.writeNewChunk page
        have follows : Follows ∅ fs (fs.writeNewChunk page).2 := Follows.writeNewChunk page
        have objs_eq : (fs.writeNewChunk page).2.objs = fs.objs := by
          rw [writeNewChunk_rest]
        generalize fs.writeNewChunk page = result at written follows objs_eq ⊢
        by_cases failed : result.1 < 0
        · rw [if_pos failed]
          exact ⟨written, follows⟩
        · rw [if_neg failed]
          constructor
          · refine (written.putChunkInFile (fun o o_found => ?_) _ _).chunkDel _
            rw [objs_eq] at o_found
            obtain rfl := Option.some.inj (found.symm.trans o_found)
            exact ⟨not_loose, hard⟩
          · refine (follows.trans (Follows.putChunkInFile _ ?_)).trans (Follows.chunkDel _)
            right
            right
            exact ⟨obj, groups, by rw [objs_eq]; exact found, inside⟩

/-- The header of a file has moved. -/
theorem gcProcessChunk_header (sound : Sound loose start fs) (number : Nat) :
    Sound loose start (fs.gcProcessChunk (.header number)) ∧
      Follows ∅ fs (fs.gcProcessChunk (.header number)) := by
  have same : Sound loose start fs ∧ Follows ∅ fs fs := ⟨sound, Follows.refl ∅ fs⟩
  simp only [gcProcessChunk]
  split
  case h_1 => exact same
  case h_2 obj found =>
    split
    case h_1 => exact same
    case h_2 page page_eq =>
      have written := sound.writeNewChunk { page with fileSize := obj.storedSize }
      have follows : Follows ∅ fs (fs.writeNewChunk { page with fileSize := obj.storedSize }).2 :=
        Follows.writeNewChunk _
      generalize fs.writeNewChunk { page with fileSize := obj.storedSize } = result
        at written follows ⊢
      by_cases failed : result.1 < 0
      · rw [if_pos failed]
        exact ⟨written, follows⟩
      · rw [if_neg failed]
        constructor
        · refine Sound.chunkDel (Sound.modify_same written number ?_) _
          exact fun _ => ⟨rfl, rfl, rfl, rfl, rfl, rfl, rfl⟩
        · refine follows.trans (Follows.trans (Follows.modifyObj number ?_ ?_)
            (Follows.chunkDel _))
          · exact fun _ _ => rfl
          · exact fun _ _ _ =>
              ⟨rfl, rfl, rfl, rfl, rfl, rfl, le_refl _, fun _ is_slim => ⟨rfl, is_slim⟩⟩

/-- A page of a soft deleted file has been dropped, and the file with its last page. -/
theorem gcProcessChunk_softDeleted (sound : Sound loose start fs) (number : Nat) :
    Sound loose start (fs.gcProcessChunk (.softDeleted number)) ∧
      Follows ∅ fs (fs.gcProcessChunk (.softDeleted number)) := by
  have same : Sound loose start fs ∧ Follows ∅ fs fs := ⟨sound, Follows.refl ∅ fs⟩
  simp only [gcProcessChunk]
  split
  case h_1 => exact same
  case h_2 obj found =>
    split
    case isFalse => exact same
    case isTrue dropped =>
      obtain ⟨deleted, soft, some_left⟩ := dropped
      have not_loose : number ∉ loose := fun is_loose => by
        have few := (sound.freed number is_loose obj found).2.2 soft
        omega
      have sane := sound.sane number obj found not_loose
      have soft_here : ∀ o, fs.objs number = some o → o.softDel = true := by
        intro o o_found
        obtain rfl := Option.some.inj (found.symm.trans o_found)
        exact soft
      have counted : Sound loose start
          (fs.modifyObj number fun obj => { obj with nDataChunks := obj.nDataChunks - 1 }) :=
        sound.modifyObj number (fun _ => rfl) (fun _ => rfl) (fun _ _ _ sane => { sane with })
          fun _ _ _ closed => ⟨closed, by dsimp only; omega⟩
      have follows : Follows ∅ fs
          (fs.modifyObj number fun obj => { obj with nDataChunks := obj.nDataChunks - 1 }) :=
        Follows.modify_soft soft_here fun _ => rfl
      have found' : (fs.modifyObj number fun obj =>
          { obj with nDataChunks := obj.nDataChunks - 1 }).objs number =
            some { obj with nDataChunks := obj.nDataChunks - 1 } := by
        simp only [Files.modifyObj, Function.update_self, found, Option.map_some]
      generalize fs.modifyObj number (fun obj =>
        { obj with nDataChunks := obj.nDataChunks - 1 }) = fewer at counted follows found' ⊢
      split
      case isFalse => exact ⟨counted, follows⟩
      case isTrue none_left =>
        have freed : Sound (insert number loose) start (fewer.freeTop number) := by
          refine counted.freeTop fun o o_found => ?_
          obtain rfl := Option.some.inj (found'.symm.trans o_found)
          exact ⟨sane.bare soft, sane.closed soft, fun _ => none_left⟩
        constructor
        · exact (Sound.genericObjDelWith (fun fs sound => ⟨sound, Follows.refl ∅ fs⟩) freed).1.congr rfl rfl rfl rfl rfl
        · have freed_follows := follows.trans (Follows.freeTop fun o => follows.soft soft_here)
          refine (freed_follows.trans (Follows.genericObjDelWith fun o =>
            freed_follows.soft soft_here)).trans (Follows.of_objs rfl rfl rfl)

theorem gcProcessChunk_sound (sound : Sound loose start fs) (collected : Collected) :
    Sound loose start (fs.gcProcessChunk collected) ∧
      Follows ∅ fs (fs.gcProcessChunk collected) := by
  cases collected with
  | data number inodeChunk => exact gcProcessChunk_data sound number inodeChunk
  | header number => exact gcProcessChunk_header sound number
  | softDeleted number => exact gcProcessChunk_softDeleted sound number

/-- Garbage collection keeps the books and leaves the files that are not soft deleted as they are. -/
theorem checkGc_sound (sound : Sound loose start fs) :
    Sound loose start fs.checkGc ∧ Follows ∅ fs fs.checkGc := by
  have folded : ∀ (collected : List Collected) (first : Files), Sound loose start first →
      Sound loose start (collected.foldl gcProcessChunk first) ∧
        Follows ∅ first (collected.foldl gcProcessChunk first) := by
    intro collected
    induction collected with
    | nil => exact fun first sound => ⟨sound, Follows.refl ∅ first⟩
    | cons page rest ih =>
      intro first sound
      obtain ⟨next_sound, next_follows⟩ := gcProcessChunk_sound sound page
      obtain ⟨last_sound, last_follows⟩ := ih _ next_sound
      exact ⟨last_sound, next_follows.trans last_follows⟩
  have shifted : Sound loose start { fs with collections := fs.collections.tail } :=
    sound.congr rfl rfl rfl rfl rfl
  obtain ⟨done, follows⟩ := folded (fs.collections.headD []) _ shifted
  have unchanged : Follows ∅ fs { fs with collections := fs.collections.tail } :=
    Follows.of_objs rfl rfl rfl
  exact ⟨done, unchanged.trans follows⟩

theorem updateOh_sound (sound : Sound loose start fs) (number : Nat) :
    Sound loose start (fs.updateOh number).2 ∧ Follows ∅ fs (fs.updateOh number).2 :=
  ⟨Sound.updateOhWith (checkGc_sound sound).1 number,
    Follows.updateOhWith (checkGc_sound sound).2 number⟩

theorem genericObjDel_sound {number : Nat} (sound : Sound (insert number loose) start fs) :
    Sound loose start (fs.genericObjDel number) ∧ (fs.genericObjDel number).objs number = none :=
  Sound.genericObjDelWith (fun _ sound => checkGc_sound sound) sound

/-! ## Writing chunks -/

/-- A file is there and not soft deleted. -/
def Hard (fs : Files) (number : Nat) : Prop :=
  ∃ obj, fs.objs number = some obj ∧ obj.softDel = false

theorem Hard.of_found {number : Nat} (hard : Hard fs number) {obj : FileObj}
    (found : fs.objs number = some obj) : obj.softDel = false := by
  obtain ⟨o, o_found, o_hard⟩ := hard
  obtain rfl := Option.some.inj (found.symm.trans o_found)
  exact o_hard

theorem Follows.hard {tall : Set Nat} (follows : Follows tall fs fs') {number : Nat}
    (hard : Hard fs number) : Hard fs' number := by
  obtain ⟨obj, found, obj_hard⟩ := hard
  obtain ⟨obj', found', alike⟩ := follows.found found obj_hard
  exact ⟨obj', found', alike.softDel.trans obj_hard⟩

/-- A file may be fed and made taller unless the chunk is near its start. -/
theorem wrDataObj_sound (sound : Sound ∅ start fs) {number : Nat} (hard : Hard fs number)
    (inodeChunk : Nat) (data : Chunk) (nBytes : Nat) :
    Sound ∅ start (fs.wrDataObj number inodeChunk data nBytes).2 ∧
      ∀ tall : Set Nat, number ∈ tall ∨ inodeChunk < 16 →
        Follows tall fs (fs.wrDataObj number inodeChunk data nBytes).2 := by
  obtain ⟨collected, gc_follows⟩ := checkGc_sound sound
  have hard' := gc_follows.hard hard
  simp only [wrDataObj]
  generalize fs.checkGc = first at collected gc_follows hard' ⊢
  generalize first.findChunkInFile number inodeChunk = prevChunk
  have made : Sound ∅ start
        (if prevChunk.isNone then first.putChunkInFile number inodeChunk 0 else (true, first)).2 ∧
      ∀ tall : Set Nat, number ∈ tall ∨ inodeChunk < 16 → Follows tall fs
        (if prevChunk.isNone then first.putChunkInFile number inodeChunk 0
          else (true, first)).2 := by
    split
    · exact ⟨collected.putChunkInFile (fun obj found => ⟨id, hard'.of_found found⟩) _ _,
        fun tall low => (gc_follows.mono (Set.empty_subset tall)).trans
          (Follows.putChunkInFile _ (low.imp_right Or.inl))⟩
    · exact ⟨collected, fun tall _ => gc_follows.mono (Set.empty_subset tall)⟩
  generalize (if prevChunk.isNone then first.putChunkInFile number inodeChunk 0
    else (true, first)) = second at made ⊢
  split
  case isTrue => exact made
  case isFalse =>
    have stored : Sound ∅ start (second.2.modifyObj number fun obj =>
          { obj with
            storedSize := max obj.storedSize
              (((inodeChunk - 1) * second.2.param.dataBytesPerChunk + nBytes) % 2 ^ 32) }) ∧
        ∀ tall : Set Nat, number ∈ tall ∨ inodeChunk < 16 → Follows tall fs
          (second.2.modifyObj number fun obj =>
            { obj with
              storedSize := max obj.storedSize
                (((inodeChunk - 1) * second.2.param.dataBytesPerChunk + nBytes) % 2 ^ 32) }) := by
      refine ⟨made.1.modify_same number fun _ => ⟨rfl, rfl, rfl, rfl, rfl, rfl, rfl⟩,
        fun tall low => (made.2 tall low).trans
          (Follows.modifyObj number (fun _ _ => rfl) fun _ _ _ => ?_)⟩
      exact ⟨rfl, rfl, rfl, rfl, rfl, rfl, le_refl _, fun _ is_slim => ⟨rfl, is_slim⟩⟩
    generalize second.2.modifyObj number (fun obj =>
      { obj with
        storedSize := max obj.storedSize
          (((inodeChunk - 1) * second.2.param.dataBytesPerChunk + nBytes) % 2 ^ 32) }) = third
      at stored ⊢
    have written : Sound ∅ start
          (third.writeNewChunk { objId := number, chunkId := inodeChunk, nBytes, data }).2 ∧
        ∀ tall : Set Nat, number ∈ tall ∨ inodeChunk < 16 → Follows tall fs
          (third.writeNewChunk { objId := number, chunkId := inodeChunk, nBytes, data }).2 :=
      ⟨stored.1.writeNewChunk _, fun tall low => (stored.2 tall low).trans
        (Follows.writeNewChunk _)⟩
    generalize third.writeNewChunk { objId := number, chunkId := inodeChunk, nBytes, data } = result
      at written ⊢
    split
    case isTrue =>
      have hard_here := (written.2 Set.univ (Or.inl trivial)).hard hard
      constructor
      · exact (written.1.putChunkInFile (fun obj found => ⟨id, hard_here.of_found found⟩) _ _).chunkDel _
      · exact fun tall low => ((written.2 tall low).trans
          (Follows.putChunkInFile _ (low.imp_right Or.inl))).trans (Follows.chunkDel _)
    case isFalse => exact written

/-! ## The cache -/

/-- An entry of the cache that does not wait to be written has been filled. -/
theorem Sound.setCache (sound : Sound loose start fs) (i : Nat) {entry : CacheEntry}
    (kept : entry.dirty = true → ∀ number, entry.object = some number →
      ∃ obj, fs.objs number = some obj ∧ obj.softDel = false) :
    Sound loose start (fs.setCache i entry) where
  support := sound.support
  moves := sound.moves
  sane := sound.sane
  freed := sound.freed
  clean := fun j j_lt is_dirty number object => by
    simp only [Files.setCache, Function.update_apply] at is_dirty object
    split at is_dirty
    case isTrue same =>
      rw [if_pos same] at object
      exact kept is_dirty number object
    case isFalse others =>
      rw [if_neg others] at object
      exact sound.clean j j_lt is_dirty number object

theorem Follows.setCache {tall : Set Nat} (i : Nat) {entry : CacheEntry}
    (kept : entry.dirty = true → (fs.cache i).dirty = true ∧
      ∀ number, entry.object = some number →
        (fs.cache i).object = some number ∧ entry.chunkId = (fs.cache i).chunkId) :
    Follows tall fs (fs.setCache i entry) where
  param := rfl
  back := (Follows.refl tall fs).back
  stays := (Follows.refl tall fs).stays
  dirty := fun j is_dirty => by
    simp only [Files.setCache, Function.update_apply] at is_dirty ⊢
    split at is_dirty
    case isTrue same =>
      subst same
      rw [if_pos rfl]
      exact kept is_dirty
    case isFalse others =>
      rw [if_neg others]
      exact ⟨is_dirty, fun _ held => ⟨held, rfl⟩⟩

/-- An entry of the cache is written, and the other entries and files stay. -/
theorem flushSingleCache_sound (sound : Sound ∅ start fs) {i : Nat} (i_lt : i < fs.param.nCaches)
    (discard : Bool) :
    Sound ∅ start (fs.flushSingleCache i discard) ∧
      ∀ tall : Set Nat,
        (∀ number, (fs.cache i).object = some number → (fs.cache i).dirty = true →
          number ∈ tall ∨ (fs.cache i).chunkId < 16) →
        Follows tall fs (fs.flushSingleCache i discard) := by
  have discarded : ∀ flushed : Files,
      (Sound ∅ start flushed ∧ ∀ tall : Set Nat,
        (∀ number, (fs.cache i).object = some number → (fs.cache i).dirty = true →
          number ∈ tall ∨ (fs.cache i).chunkId < 16) → Follows tall fs flushed) →
      Sound ∅ start (if discard then
          flushed.setCache i { flushed.cache i with object := none } else flushed) ∧
        ∀ tall : Set Nat,
          (∀ number, (fs.cache i).object = some number → (fs.cache i).dirty = true →
            number ∈ tall ∨ (fs.cache i).chunkId < 16) →
          Follows tall fs (if discard then
            flushed.setCache i { flushed.cache i with object := none } else flushed) := by
    intro flushed ⟨done, follows⟩
    split
    case isTrue =>
      exact ⟨done.setCache i fun _ => nofun, fun tall low => (follows tall low).trans
        (Follows.setCache i fun is_dirty => ⟨is_dirty, nofun⟩)⟩
    case isFalse => exact ⟨done, follows⟩
  simp only [flushSingleCache]
  apply discarded
  split
  case h_1 => exact ⟨sound, fun tall _ => Follows.refl tall fs⟩
  case h_2 number object =>
    split
    case isTrue is_dirty =>
      obtain ⟨done, follows⟩ := wrDataObj_sound sound (sound.clean i i_lt is_dirty number object)
        (fs.cache i).chunkId (fs.cache i).data (fs.cache i).nBytes
      exact ⟨done.setCache i nofun, fun tall low =>
        (follows tall (low number object is_dirty)).trans (Follows.setCache i nofun)⟩
    case isFalse => exact ⟨sound, fun tall _ => Follows.refl tall fs⟩

/-- The entries of a file are written. -/
theorem flushFileCache_sound (sound : Sound ∅ start fs) (number : Nat) (discard : Bool) :
    Sound ∅ start (fs.flushFileCache number discard) ∧
      ∀ tall : Set Nat,
        (number ∈ tall ∨ ∀ i < fs.param.nCaches, (fs.cache i).object = some number →
          (fs.cache i).dirty = true → (fs.cache i).chunkId < 16) →
        Follows tall fs (fs.flushFileCache number discard) := by
  let step := fun (fs : Files) (i : Nat) =>
    if (fs.cache i).object = some number then fs.flushSingleCache i discard else fs
  have folded : ∀ (indices : List Nat) (first : Files), Sound ∅ start first →
      (∀ i ∈ indices, i < first.param.nCaches) →
      Sound ∅ start (indices.foldl step first) ∧
        ∀ tall : Set Nat,
          (number ∈ tall ∨ ∀ i < first.param.nCaches, (first.cache i).object = some number →
            (first.cache i).dirty = true → (first.cache i).chunkId < 16) →
          Follows tall first (indices.foldl step first) := by
    intro indices
    induction indices with
    | nil => exact fun first sound _ => ⟨sound, fun tall _ => Follows.refl tall first⟩
    | cons i indices rest =>
      intro first sound inside
      have next : Sound ∅ start (step first i) ∧
          ∀ tall : Set Nat,
            (number ∈ tall ∨ ∀ i < first.param.nCaches, (first.cache i).object = some number →
              (first.cache i).dirty = true → (first.cache i).chunkId < 16) →
            Follows tall first (step first i) := by
        simp only [step]
        split
        case isFalse => exact ⟨sound, fun tall _ => Follows.refl tall first⟩
        case isTrue mine =>
          have i_lt := inside i (List.mem_cons_self ..)
          obtain ⟨done, follows⟩ := flushSingleCache_sound sound i_lt discard
          refine ⟨done, fun tall low => follows tall fun n object is_dirty => ?_⟩
          obtain rfl := Option.some.inj (mine.symm.trans object)
          exact low.imp_right fun near => near i i_lt object is_dirty
      have param_eq := (next.2 Set.univ (Or.inl trivial)).param
      obtain ⟨done, follows⟩ := rest (step first i) next.1 fun j j_mem => by
        rw [param_eq]
        exact inside j (List.mem_cons_of_mem _ j_mem)
      refine ⟨done, fun tall low => (next.2 tall low).trans (follows tall ?_)⟩
      refine low.imp_right fun near j j_lt object is_dirty => ?_
      obtain ⟨was_dirty, held⟩ := (next.2 tall low).dirty j is_dirty
      obtain ⟨was_held, chunk_eq⟩ := held number object
      rw [chunk_eq]
      exact near j (by rw [← param_eq]; exact j_lt) was_held was_dirty
  exact folded (List.range fs.param.nCaches) fs sound fun i i_mem => List.mem_range.mp i_mem

theorem grabChunkCache_sound (sound : Sound ∅ start fs) (some_cache : 0 < fs.param.nCaches) :
    fs.grabChunkCache.1 < fs.param.nCaches ∧ Sound ∅ start fs.grabChunkCache.2 ∧
      Follows Set.univ fs fs.grabChunkCache.2 := by
  simp only [grabChunkCache]
  split
  case h_1 i unused =>
    exact ⟨List.mem_range.mp (List.mem_of_find?_eq_some unused), sound, Follows.refl _ fs⟩
  case h_2 =>
    have lru_lt := fs.lruCache_lt some_cache
    obtain ⟨done, follows⟩ := flushSingleCache_sound sound lru_lt true
    exact ⟨lru_lt, done, follows Set.univ fun _ _ _ => Or.inl trivial⟩

theorem loadChunkCache_sound (sound : Sound ∅ start fs) (some_cache : 0 < fs.param.nCaches)
    (number inodeChunk : Nat) :
    Sound ∅ start (fs.loadChunkCache number inodeChunk).2 ∧
      Follows Set.univ fs (fs.loadChunkCache number inodeChunk).2 ∧
      ((fs.loadChunkCache number inodeChunk).2.cache
        (fs.loadChunkCache number inodeChunk).1).object = some number ∧
      ((fs.loadChunkCache number inodeChunk).2.cache
        (fs.loadChunkCache number inodeChunk).1).dirty = false := by
  obtain ⟨-, done, follows⟩ := grabChunkCache_sound sound some_cache
  simp only [loadChunkCache]
  refine ⟨done.setCache _ nofun, follows.trans (Follows.setCache _ nofun), ?_⟩
  simp only [Files.setCache, Function.update_self, and_self]

theorem findChunkCache_object {number inodeChunk i : Nat}
    (found : fs.findChunkCache number inodeChunk = some i) :
    (fs.cache i).object = some number := by
  simp only [findChunkCache] at found
  have matches_eq := List.find?_some found
  exact (of_decide_eq_true matches_eq).1

/-- An entry that is used may be written to if its file is there. -/
theorem Sound.useCache (sound : Sound loose start fs) (i : Nat) (isWrite : Bool)
    (kept : isWrite = true → ∀ number, (fs.cache i).object = some number → Hard fs number) :
    Sound loose start (fs.useCache i isWrite) where
  support := sound.support
  moves := sound.moves
  sane := sound.sane
  freed := sound.freed
  clean := fun j j_lt is_dirty number object => by
    have same : ((fs.useCache i isWrite).cache j).object = (fs.cache j).object ∧
        ((fs.useCache i isWrite).cache j).dirty =
          ((fs.cache j).dirty || (decide (j = i) && isWrite)) := by
      simp only [Files.useCache, Function.update_apply]
      split
      case isTrue same =>
        subst same
        split <;> exact ⟨rfl, by simp⟩
      case isFalse others =>
        simp only [others, decide_false, Bool.false_and, Bool.or_false]
        split <;> exact ⟨rfl, rfl⟩
    rw [same.1] at object
    rw [same.2, Bool.or_eq_true, Bool.and_eq_true] at is_dirty
    rcases is_dirty with was_dirty | ⟨here, is_write⟩
    · exact sound.clean j j_lt was_dirty number object
    · obtain rfl := of_decide_eq_true here
      exact kept is_write number object

/-! ## Reading and writing files -/

/-- Reading only needs entries of the cache. -/
theorem fileRd_sound (number : Nat) (fuel offset n : Nat) (sound : Sound ∅ start fs) :
    Sound ∅ start (fileRd number fuel offset n fs).2 := by
  induction fuel generalizing offset n fs with
  | zero => exact sound
  | succ fuel ih =>
    cases n with
    | zero => exact sound
    | succ n =>
      simp only [fileRd]
      generalize (if (fs.param.addrToChunk offset).2 + (n + 1) < fs.param.dataBytesPerChunk then n + 1
        else fs.param.dataBytesPerChunk - (fs.param.addrToChunk offset).2) = nCopy
      apply ih
      split
      case isFalse => exact sound
      case isTrue =>
        split
        case isFalse => exact sound
        case isTrue some_cache =>
          refine Sound.useCache ?_ _ false fun absurd_write => nomatch absurd_write
          split
          · exact sound
          · obtain ⟨loaded, -, -, is_clean⟩ := loadChunkCache_sound sound some_cache number
              ((fs.param.addrToChunk offset).1 + 1)
            refine loaded.setCache _ fun is_dirty => ?_
            rw [is_clean] at is_dirty
            cases is_dirty

/-- The books are sound, and a file is there to be written. -/
structure Ready (start : TnodeMemory) (number : Nat) (fs : Files) : Prop where
  sound : Sound ∅ start fs
  hard : Hard fs number

namespace Ready

variable {number : Nat}

theorem follows {tall : Set Nat} (ready : Ready start number fs) (sound : Sound ∅ start fs')
    (follows : Follows tall fs fs') : Ready start number fs' :=
  ⟨sound, follows.hard ready.hard⟩

theorem modifyObj (ready : Ready start number fs) {change : FileObj → FileObj}
    (same : ∀ obj, SameBooks obj (change obj)) :
    Ready start number (fs.modifyObj number change) := by
  refine ⟨ready.sound.modify_same number same, ?_⟩
  obtain ⟨obj, found, hard⟩ := ready.hard
  refine ⟨change obj, ?_, (same obj).softDel.trans hard⟩
  simp only [Files.modifyObj, Function.update_self, found, Option.map_some]

theorem checkGc (ready : Ready start number fs) : Ready start number fs.checkGc :=
  ready.follows (checkGc_sound ready.sound).1 (checkGc_sound ready.sound).2

theorem updateOh (ready : Ready start number fs) : Ready start number (fs.updateOh number).2 :=
  ready.follows (updateOh_sound ready.sound number).1 (updateOh_sound ready.sound number).2

theorem checkAllocAvailable (ready : Ready start number fs) :
    Ready start number fs.checkAllocAvailable.2 := by
  have same : Follows ∅ fs fs.checkAllocAvailable.2 := Follows.of_objs rfl rfl rfl
  exact ready.follows (ready.sound.congr rfl rfl rfl rfl rfl) same

theorem wrDataObj (ready : Ready start number fs) (inodeChunk : Nat) (data : Chunk)
    (nBytes : Nat) : Ready start number (fs.wrDataObj number inodeChunk data nBytes).2 := by
  obtain ⟨sound, follows⟩ := wrDataObj_sound ready.sound ready.hard inodeChunk data nBytes
  exact ready.follows sound (follows Set.univ (Or.inl trivial))

/-- An entry of the cache that is the file's is written to, once it has been found. -/
theorem wrFound {found : Option Nat × Files} (found_mine : Ready start number found.2 ∧
      ∀ i, found.1 = some i → (found.2.cache i).object = some number)
    (inodeChunk first : Nat) (bytes : List UInt8) (nWriteback : Nat) (writeThrough : Bool) :
    Ready start number
      (match found.1 with
      | none => (-1, found.2)
      | some i =>
        let fs := found.2.useCache i true
        let fs := fs.setCache i
          { fs.cache i with
            data := copyInto (fs.cache i).data first bytes
            nBytes := nWriteback }
        if writeThrough then
          let written := fs.wrDataObj number inodeChunk (fs.cache i).data nWriteback
          let fs := written.2
          (written.1, fs.setCache i { fs.cache i with dirty := false })
        else ((0 : Int), fs)).2 := by
  obtain ⟨found_ready, mine⟩ := found_mine
  cases found_eq : found.1 with
  | none => exact found_ready
  | some i =>
    have object := mine i found_eq
    have used : Ready start number (found.2.useCache i true) := by
      refine ⟨found_ready.sound.useCache i true fun _ n n_object => ?_, found_ready.hard⟩
      obtain rfl := Option.some.inj (object.symm.trans n_object)
      exact found_ready.hard
    have object' : ((found.2.useCache i true).cache i).object = some number := by
      simp only [Files.useCache, Function.update_self]
      split <;> exact object
    have copied : Ready start number
        ((found.2.useCache i true).setCache i
          { (found.2.useCache i true).cache i with
            data := copyInto ((found.2.useCache i true).cache i).data first bytes
            nBytes := nWriteback }) := by
      refine ⟨used.sound.setCache i fun _ n n_object => ?_, used.hard⟩
      obtain rfl := Option.some.inj (object'.symm.trans n_object)
      exact used.hard
    dsimp only
    split
    case isFalse => exact copied
    case isTrue =>
      have through := copied.wrDataObj inodeChunk
        (((found.2.useCache i true).setCache i
          { (found.2.useCache i true).cache i with
            data := copyInto ((found.2.useCache i true).cache i).data first bytes
            nBytes := nWriteback }).cache i).data nWriteback
      exact ⟨through.sound.setCache i (by simp), through.hard⟩

/-- An entry of the cache that is the file's is written to. -/
theorem wrCached (ready : Ready start number fs) (some_cache : 0 < fs.param.nCaches)
    (inodeChunk first : Nat) (bytes : List UInt8) (nWriteback : Nat) (writeThrough : Bool) :
    Ready start number
      (fs.wrCached number inodeChunk first bytes nWriteback writeThrough).2 := by
  simp only [Files.wrCached]
  refine wrFound ?_ inodeChunk first bytes nWriteback writeThrough
  have available := ready.checkAllocAvailable
  split
  case h_1 =>
    split
    case isTrue =>
      obtain ⟨loaded, follows, object, -⟩ := loadChunkCache_sound available.sound some_cache number
        inodeChunk
      refine ⟨available.follows loaded follows, fun i i_eq => ?_⟩
      obtain rfl := Option.some.inj i_eq
      exact object
    case isFalse => exact ⟨available, by simp⟩
  case h_2 i found =>
    have object := findChunkCache_object found
    have mine : ∀ j, some i = some j → (fs.cache j).object = some number := by
      intro j j_eq
      obtain rfl := Option.some.inj j_eq
      exact object
    split
    case isTrue => exact ⟨ready, mine⟩
    case isFalse =>
      split
      case isTrue => exact ⟨available, mine⟩
      case isFalse => exact ⟨available, by simp⟩

theorem wrChunk (ready : Ready start number fs) (inodeChunk first : Nat) (bytes : List UInt8)
    (nWriteback : Nat) (writeThrough : Bool) :
    Ready start number
      (fs.wrChunk number inodeChunk first bytes nWriteback writeThrough).2 := by
  simp only [Files.wrChunk]
  split
  case isTrue =>
    split
    case isTrue some_cache => exact ready.wrCached some_cache ..
    case isFalse => exact ready.wrDataObj ..
  case isFalse =>
    have written := ready.wrDataObj inodeChunk (copyInto (fun _ => 0) 0 bytes)
      fs.param.dataBytesPerChunk
    simp only [Files.invalidateChunkCache]
    split
    case h_1 => exact written
    case h_2 => exact ⟨written.sound.setCache _ fun _ => nofun, written.hard⟩

theorem doFileWrLoop (writeThrough : Bool) (fuel offset : Nat) (buffer : List UInt8)
    (ready : Ready start number fs) :
    Ready start number (Files.doFileWrLoop number writeThrough fuel offset buffer fs).2 := by
  induction fuel generalizing offset buffer fs with
  | zero => exact ready
  | succ fuel ih =>
    cases buffer with
    | nil => exact ready
    | cons byte rest =>
      have next : ∀ (nCopy : Nat) (written : Int × Files), Ready start number written.2 →
          Ready start number
            (if written.1 < 0 then (0, written.2)
            else
              let rest := Files.doFileWrLoop number writeThrough fuel (offset + nCopy)
                ((byte :: rest).drop nCopy) written.2
              (nCopy + rest.1, rest.2)).2 := by
        intro nCopy written written_ready
        split
        case isTrue => exact written_ready
        case isFalse => exact ih _ _ written_ready
      exact next _ _ (ready.wrChunk ..)

theorem doFileWr (ready : Ready start number fs) (offset : Nat) (buffer : List UInt8)
    (writeThrough : Bool) :
    Ready start number (fs.doFileWr number offset buffer writeThrough).2 := by
  simp only [Files.doFileWr]
  refine modifyObj (doFileWrLoop writeThrough buffer.length offset buffer ready) ?_
  exact fun _ => ⟨rfl, rfl, rfl, rfl, rfl, rfl, rfl⟩

theorem fillHole (fuel pos increase : Nat) (ready : Ready start number fs) :
    Ready start number (Files.fillHole number fuel pos increase fs).2 := by
  induction fuel generalizing pos increase fs with
  | zero => exact ready
  | succ fuel ih =>
    simp only [Files.fillHole]
    have written := ready.doFileWr pos
      (List.replicate (min increase fs.param.dataBytesPerChunk) 0) false
    split
    case isTrue => exact ready
    case isFalse =>
      split
      case isTrue => exact ih _ _ written
      case isFalse => exact written

end Ready

end Files

end Yaffs
