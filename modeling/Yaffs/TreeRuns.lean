import Yaffs.TreeFormat

/-!
# The directory structure in all runs

Every call of the file system interface leaves the objects in order, however it ends.  There are two
exceptions.  A directory is taken into itself if it is removed while its newest hard link lies in it,
and an object is used after it has been freed if it is renamed over the object that it is the newest
hard link of.
-/

namespace Yaffs

/-- The objects form a tree: every object but the tops is in the list of exactly one directory, once,
which is its parent, and the parents of any object lead to one of the tops. -/
structure Volume.IsTree {Store : Type} (vol : Volume Store) : Prop where
  listed : ∀ number, (vol.objs number).isSome → ¬isTop number → ∃ directory dirObj,
    vol.parentOf number = some directory ∧ vol.objs directory = some dirObj ∧
      dirObj.variantType = .directory ∧ dirObj.children.count number = 1 ∧
      ∀ other otherObj, vol.objs other = some otherObj → number ∈ otherObj.children →
        other = directory
  rooted : ∀ number, (vol.objs number).isSome → Forest.Rooted vol.parentOf isTop number

theorem Volume.TidyBut.isTree {Store : Type} {vol : Volume Store} {loose : Option Nat}
    (tidy : vol.TidyBut loose) : vol.IsTree where
  listed number live not_top := by
    obtain ⟨directory, up⟩ := tidy.sound.has_parent number live not_top
    obtain ⟨obj, found⟩ := Option.isSome_iff_exists.mp live
    have parent : obj.parent = some directory := (Volume.parentOf_eq found).symm.trans up
    obtain ⟨dirObj, dir_found, is_dir⟩ := tidy.directory number obj directory found parent
    have nodup : dirObj.children.Nodup := by
      simpa [Volume.forest, dir_found] using tidy.sound.nodup directory
    have mem := (Volume.mem_children_iff tidy found dir_found).mpr parent
    refine ⟨directory, dirObj, up, dir_found, is_dir, List.count_eq_one_of_mem nodup mem, ?_⟩
    intro other otherObj other_found other_mem
    have parent' := (Volume.mem_children_iff tidy found other_found).mp other_mem
    exact Option.some.inj (parent'.symm.trans parent)
  rooted := tidy.sound.rooted

namespace Vfs

variable {Store : Type} {P : Pages Store} {fuel : Nat} {vfs : Vfs Store}

/-- The objects are in order, and each inode in use holds an object, which no other one holds. -/
structure Orderly (vfs : Vfs Store) : Prop where
  tidy : vfs.vol.Tidy
  held : ∀ index number, (vfs.inode index).iObj = some number → ∃ obj,
    vfs.vol.objs number = some obj ∧ obj.myInode.isSome ∧ obj.variantType ≠ .hardlink
  single : ∀ index other number, (vfs.inode index).iObj = some number →
    (vfs.inode other).iObj = some number → index = other
  bounded : ∀ index number, (vfs.inode index).iObj = some number → index < nHandles

/-! ## Inodes -/

theorem Orderly.remount (orderly : vfs.Orderly) {vol : Volume Store} (tidy : vol.Tidy)
    (kept : ∀ number obj, vfs.vol.objs number = some obj → obj.myInode.isSome → ∃ obj',
      vol.objs number = some obj' ∧ obj'.myInode.isSome ∧ obj'.variantType = obj.variantType) :
    ({ vfs with vol } : Vfs Store).Orderly where
  tidy := tidy
  held index number eq := by
    obtain ⟨obj, found, inode, type⟩ := orderly.held index number eq
    obtain ⟨obj', found', inode', type'⟩ := kept number obj found inode
    exact ⟨obj', found', inode', type' ▸ type⟩
  single := orderly.single
  bounded := orderly.bounded

theorem Orderly.setVol (orderly : vfs.Orderly) {vol : Volume Store} (tidy : vol.Tidy)
    (holds : Volume.Holds vfs.vol vol) : ({ vfs with vol } : Vfs Store).Orderly := by
  refine orderly.remount tidy fun number obj found inode => ?_
  obtain ⟨obj', found', inode', type'⟩ := holds.held number obj found inode
  exact ⟨obj', found', inode' ▸ inode, type'⟩

theorem Orderly.setCount (orderly : vfs.Orderly) (index : Nat) (count : Int) :
    (vfs.setInode index { vfs.inode index with count }).Orderly := by
  have same (other : Nat) : ((vfs.setInode index { vfs.inode index with count }).inode other).iObj =
      (vfs.inode other).iObj := by
    by_cases eq : other = index
    · subst eq
      simp [setInode]
    · simp [setInode, eq]
  constructor
  case tidy => exact orderly.tidy
  all_goals simp only [same]
  case held => exact orderly.held
  case single => exact orderly.single
  case bounded => exact orderly.bounded

/-- An inode lets go of its object. -/
theorem Orderly.release (orderly : vfs.Orderly) {index number : Nat}
    (eq : (vfs.inode index).iObj = some number) {vol : Volume Store} (tidy : vol.Tidy)
    (kept : ∀ other obj, other ≠ number → vfs.vol.objs other = some obj → ∃ obj',
      vol.objs other = some obj' ∧ obj'.myInode = obj.myInode ∧ obj'.variantType = obj.variantType) :
    (({ vfs with vol } : Vfs Store).setInode index
      { vfs.inode index with iObj := none }).Orderly := by
  have iObj (other number' : Nat) (eq' : ((({ vfs with vol } : Vfs Store).setInode index
      { vfs.inode index with iObj := none }).inode other).iObj = some number') :
      other ≠ index ∧ (vfs.inode other).iObj = some number' := by
    by_cases same : other = index
    · subst same
      simp [setInode] at eq'
    · exact ⟨same, by simpa [setInode, same] using eq'⟩
  constructor
  case tidy => exact tidy
  case held =>
    intro other number' eq'
    obtain ⟨ne, eq'⟩ := iObj other number' eq'
    obtain ⟨obj, found, inode, type⟩ := orderly.held other number' eq'
    have ne' : number' ≠ number := by
      rintro rfl
      exact ne (orderly.single other index number' eq' eq)
    obtain ⟨obj', found', inode', type'⟩ := kept number' obj ne' found
    exact ⟨obj', found', inode' ▸ inode, type' ▸ type⟩
  case single =>
    intro first second number' eq' eq''
    exact orderly.single first second number' (iObj first number' eq').2 (iObj second number' eq'').2
  case bounded =>
    intro other number' eq'
    exact orderly.bounded other number' (iObj other number' eq').2

theorem releaseInode_keeps (orderly : vfs.Orderly) (index : Nat) :
    (vfs.releaseInode P index).Orderly := by
  simp only [releaseInode]
  split
  case h_1 => exact orderly
  case h_2 number eq =>
    obtain ⟨obj, found, inode, type⟩ := orderly.held index number eq
    have tidy := Volume.tidy_setInode orderly.tidy found none (by simp)
    have soft : obj.softDel = false := by
      refine Bool.eq_false_iff.mpr fun soft => ?_
      have none := ((orderly.tidy.node number obj found).softDel soft).2.2
      simp [none] at inode
    have found' : (vfs.vol.modify number fun node => { node with myInode := none }).objs number =
        some { obj with myInode := none } :=
      Volume.modify_self _ found
    have released := orderly.release eq tidy fun other otherObj ne other_found =>
      ⟨otherObj, by rw [Volume.modify_found _ other_found, if_neg ne], rfl, rfl⟩
    split
    case isFalse => exact released
    case isTrue unlinked =>
      have unlinked : obj.unlinked = true := by
        change ((vfs.vol.modify number fun node => { node with myInode := none }).objs number).any
          Node.unlinked = true at unlinked
        rw [found'] at unlinked
        exact unlinked
      have hidden := (orderly.tidy.node number obj found).hidden_iff.mp unlinked
      obtain ⟨tidy', changes⟩ := Volume.delObj_keeps (P := P) tidy found'
        (orderly.tidy.movable_of_hidden found hidden)
        ((orderly.tidy.node number obj found).trash_ring (.inl hidden)) rfl soft
      exact released.setVol tidy' changes.holds

theorem putInode_keeps (orderly : vfs.Orderly) (inodeId : Int) :
    (vfs.putInode P inodeId).Orderly := by
  simp only [putInode]
  split
  case isFalse => exact orderly
  case isTrue =>
    split
    · exact (releaseInode_keeps (orderly.setCount _ _) _).setCount _ _
    · exact orderly.setCount _ _

/-! ## Handles -/

theorem Orderly.congr (orderly : vfs.Orderly) {after : Vfs Store} (vol : after.vol = vfs.vol)
    (inode : after.inode = vfs.inode) : after.Orderly := by
  constructor
  case tidy => exact vol ▸ orderly.tidy
  all_goals simp only [vol, inode]
  case held => exact orderly.held
  case single => exact orderly.single
  case bounded => exact orderly.bounded

theorem Orderly.fail (orderly : vfs.Orderly) (error : Errno) : (vfs.fail error).2.Orderly :=
  orderly.congr rfl rfl

theorem Orderly.report (orderly : vfs.Orderly) (done : Bool) (error : Errno) :
    (vfs.report done error).2.Orderly := by
  rw [Vfs.report]
  split
  · exact orderly
  · exact orderly.fail error

theorem Orderly.closeDir (orderly : vfs.Orderly) (dir : Option Nat) : (vfs.closeDir dir).Orderly := by
  cases dir with
  | none => exact orderly
  | some index => exact orderly.congr rfl rfl

theorem putFileDes_keeps (orderly : vfs.Orderly) (fdId : Int) : (vfs.putFileDes P fdId).Orderly := by
  simp only [putFileDes]
  split
  case isFalse => exact orderly
  case isTrue =>
    generalize fdId.toNat = index
    split
    case isFalse => exact orderly.congr rfl rfl
    case isTrue =>
      have counted : (vfs.setFd index
          { vfs.fd index with handleCount := (vfs.fd index).handleCount - 1 }).Orderly :=
        orderly.congr rfl rfl
      generalize vfs.setFd index
        { vfs.fd index with handleCount := (vfs.fd index).handleCount - 1 } = vfs at *
      have closed : (if (vfs.fd index).isDir then
          (vfs.closeDir (vfs.fd index).dir).setFd index { vfs.fd index with dir := none }
          else vfs).Orderly := by
        split
        · exact (counted.closeDir _).congr rfl rfl
        · exact counted
      generalize (if (vfs.fd index).isDir then
        (vfs.closeDir (vfs.fd index).dir).setFd index { vfs.fd index with dir := none }
        else vfs) = vfs at *
      split
      · exact (putInode_keeps closed _).congr rfl rfl
      · exact closed

theorem putHandle_keeps (orderly : vfs.Orderly) (handle : Int) : (vfs.putHandle P handle).Orderly := by
  simp only [putHandle]
  split
  case h_1 => exact orderly
  case h_2 index _ =>
    split
    case isFalse => exact orderly
    case isTrue =>
      have counted : (vfs.setHandle index
          { vfs.handle index with useCount := (vfs.handle index).useCount - 1 }).Orderly :=
        orderly.congr rfl rfl
      split
      · exact (putFileDes_keeps counted _).congr rfl rfl
      · exact counted

theorem newHandle_keeps (orderly : vfs.Orderly) : vfs.newHandle.2.Orderly := by
  rw [newHandle]
  split
  · exact orderly
  · exact orderly.congr rfl rfl

theorem newHandleAndFileDes_same (vfs : Vfs Store) :
    vfs.newHandleAndFileDes.2.vol = vfs.vol ∧ vfs.newHandleAndFileDes.2.inode = vfs.inode := by
  have taken : vfs.newHandle.2.vol = vfs.vol ∧ vfs.newHandle.2.inode = vfs.inode := by
    rw [newHandle]
    split <;> exact ⟨rfl, rfl⟩
  simp only [newHandleAndFileDes]
  split
  · exact taken
  · split <;> exact taken

theorem openFailed_keeps (orderly : vfs.Orderly) (handle : Nat) (dsc : Option Nat) (error : Errno) :
    (vfs.openFailed P handle dsc error).2.Orderly :=
  have noted : (vfs.setError error).Orderly := orderly.congr rfl rfl
  putHandle_keeps (noted.closeDir dsc) handle

/-! ## Opening -/

/-- An inode is taken for an object, which has one already or gets one that is free. -/
theorem Orderly.take (orderly : vfs.Orderly) {index number : Nat} (bound : index < nHandles)
    (free : (vfs.inode index).iObj = some number ∨ (vfs.inode index).iObj = none ∧
      ∀ other, (vfs.inode other).iObj ≠ some number)
    (count : Int) {vol : Volume Store} (tidy : vol.Tidy) {obj : Node}
    (found : vol.objs number = some obj) (inode : obj.myInode.isSome)
    (type : obj.variantType ≠ .hardlink)
    (kept : ∀ other obj, other ≠ number → vfs.vol.objs other = some obj → ∃ obj',
      vol.objs other = some obj' ∧ obj'.myInode = obj.myInode ∧ obj'.variantType = obj.variantType) :
    (({ vfs with vol } : Vfs Store).setInode index { count, iObj := some number }).Orderly := by
  have iObj (other number' : Nat) (eq' : ((({ vfs with vol } : Vfs Store).setInode index
      { count, iObj := some number }).inode other).iObj = some number') :
      other = index ∧ number' = number ∨
        other ≠ index ∧ number' ≠ number ∧ (vfs.inode other).iObj = some number' := by
    by_cases same : other = index
    · subst same
      left
      exact ⟨rfl, by simpa [setInode, eq_comm] using eq'⟩
    · right
      have holds : (vfs.inode other).iObj = some number' := by simpa [setInode, same] using eq'
      refine ⟨same, fun taken => ?_, holds⟩
      rcases free with owned | ⟨-, unowned⟩
      · exact same (orderly.single other index number' holds (taken ▸ owned))
      · exact unowned other (taken ▸ holds)
  constructor
  case tidy => exact tidy
  case held =>
    intro other number' eq'
    rcases iObj other number' eq' with ⟨-, rfl⟩ | ⟨-, ne, eq'⟩
    · exact ⟨obj, found, inode, type⟩
    · obtain ⟨obj', found', inode', type'⟩ := orderly.held other number' eq'
      obtain ⟨obj'', found'', inode'', type''⟩ := kept number' obj' ne found'
      exact ⟨obj'', found'', inode'' ▸ inode', type'' ▸ type'⟩
  case single =>
    intro first second number' eq' eq''
    rcases iObj first number' eq' with ⟨rfl, rfl⟩ | ⟨-, ne, eq'⟩
    · rcases iObj second _ eq'' with ⟨rfl, -⟩ | ⟨-, ne, -⟩
      · rfl
      · exact absurd rfl ne
    · rcases iObj second _ eq'' with ⟨-, same⟩ | ⟨-, -, eq''⟩
      · exact absurd same ne
      · exact orderly.single first second number' eq' eq''
  case bounded =>
    intro other number' eq'
    rcases iObj other number' eq' with ⟨rfl, -⟩ | ⟨-, -, eq'⟩
    · exact bound
    · exact orderly.bounded other number' eq'

/-- An object that can be opened: in use, and no hard link. -/
structure CanOpen (vfs : Vfs Store) (number : Nat) (obj : Node) : Prop where
  found : vfs.vol.objs number = some obj
  visible : ¬obj.Hidden
  type : obj.variantType ≠ .hardlink

theorem getInodeIdForObject_cases (orderly : vfs.Orderly) {number : Nat} {obj : Node}
    (can : vfs.CanOpen number obj) : vfs.getInodeIdForObject number = (-1, vfs) ∨
      ∃ index count, index < nHandles ∧ ((vfs.inode index).iObj = some number ∨
        (vfs.inode index).iObj = none ∧ ∀ other, (vfs.inode other).iObj ≠ some number) ∧
      vfs.getInodeIdForObject number =
        ((index : Int), vfs.setInode index { count, iObj := some number }) := by
  have equiv : vfs.vol.getEquivalentObj (some number) = some number := by
    simp [Volume.getEquivalentObj, can.found, can.type]
  simp only [getInodeIdForObject, findInodeIdForObject, equiv]
  cases owned : (List.range nHandles).find? fun index => decide ((vfs.inode index).iObj = some number) with
  | some index =>
    right
    refine ⟨index, _, ?_, .inl (by simpa using List.find?_some owned), rfl⟩
    simpa using List.mem_of_find?_eq_some owned
  | none =>
    have unowned (other : Nat) : (vfs.inode other).iObj ≠ some number := by
      intro eq
      have bound := orderly.bounded other number eq
      have checked := List.find?_eq_none.mp owned other (by simpa using bound)
      simp [eq] at checked
    rw [Option.none_or]
    cases free : (List.range nHandles).find? fun index => (vfs.inode index).iObj.isNone with
    | none => exact .inl rfl
    | some index =>
      right
      have vacant := List.find?_some free
      refine ⟨index, _, by simpa using List.mem_of_find?_eq_some free,
        .inr ⟨by simpa using vacant, unowned⟩, rfl⟩

/-- Filling the slot of a handle changes neither the volume nor the inodes. -/
theorem fillSlot_keeps (vfs : Vfs Store) (handle : Nat) (filled : Nat → FileDes) :
    (match vfs.handleToFileDes handle with
      | none => vfs
      | some fdId => vfs.setFd fdId (filled fdId)).vol = vfs.vol ∧
    (match vfs.handleToFileDes handle with
      | none => vfs
      | some fdId => vfs.setFd fdId (filled fdId)).inode = vfs.inode := by
  split
  · exact ⟨rfl, rfl⟩
  · exact ⟨rfl, rfl⟩

theorem openObject_keeps (orderly : vfs.Orderly) (handle : Nat) {number : Nat} {obj : Node}
    (can : vfs.CanOpen number obj) (isDir : Bool) (dsc : Option Nat) (flags : OpenFlags) :
    (vfs.openObject P handle number isDir dsc flags).2.Orderly := by
  have soft := orderly.tidy.soft_of_visible can.found can.visible
  have marked (inode : Int) : (vfs.vol.modify number fun node =>
      { node with myInode := some inode }).Tidy :=
    Volume.tidy_setInode orderly.tidy can.found (some inode) fun _ => ⟨soft, can.type⟩
  have changed (inode : Int) (other : Nat) (otherObj : Node)
      (found : vfs.vol.objs other = some otherObj) : (vfs.vol.modify number fun node =>
        { node with myInode := some inode }).objs other = some
          (if other = number then { otherObj with myInode := some inode } else otherObj) :=
    Volume.modify_found _ found
  have hooked : ({ (vfs.getInodeIdForObject number).2 with
      vol := vfs.vol.modify number fun node =>
        { node with myInode := some (vfs.getInodeIdForObject number).1 } } : Vfs Store).Orderly := by
    rcases getInodeIdForObject_cases orderly can with full | ⟨index, count, bound, free, eq⟩
    · rw [full]
      refine orderly.remount (marked _) fun other otherObj found inode => ⟨_, changed _ other _ found, ?_⟩
      split
      · exact ⟨rfl, rfl⟩
      · exact ⟨inode, rfl⟩
    · rw [eq]
      refine (orderly.take bound free count (marked index) ((changed index number obj can.found).trans
        (congrArg some (if_pos rfl))) rfl can.type fun other otherObj ne found => ⟨otherObj, ?_, rfl,
        rfl⟩).congr rfl rfl
      rw [changed index other otherObj found, if_neg ne]
  have entered (after : Vfs Store) (vol : after.vol = vfs.vol)
      (inode : after.inode = (vfs.getInodeIdForObject number).2.inode) :
      (after.mapVol fun vol => vol.modify number fun node =>
        { node with myInode := some (vfs.getInodeIdForObject number).1 }).Orderly :=
    hooked.congr (by rw [mapVol, vol]) inode
  have vol : (vfs.getInodeIdForObject number).2.vol = vfs.vol := by
    rcases getInodeIdForObject_cases orderly can with full | ⟨index, count, -, -, eq⟩
    · rw [full]
    · rw [eq]
      rfl
  obtain ⟨same_vol, same_inode⟩ := fillSlot_keeps (vfs.getInodeIdForObject number).2 handle
    fun fdId => { (vfs.getInodeIdForObject number).2.fd fdId with
      inodeId := (vfs.getInodeIdForObject number).1
      reading := flags.read
      writing := flags.write
      append := flags.append
      shareRead := flags.shareRead
      shareWrite := flags.shareWrite
      isDir
      position := 0
      dir := dsc }
  have opened := entered _ (same_vol.trans vol) same_inode
  simp only [openObject]
  split
  case isFalse => exact opened
  case isTrue =>
    obtain ⟨tidy, swept⟩ := Volume.resizeFile_keeps (P := P) opened.tidy number 0
    exact opened.setVol tidy swept.holds

/-- Creating in a directory that was looked up. -/
theorem create_keeps {vol : Volume Store} (tidy : vol.Tidy) (room : vol.HasBucket) {dir : Nat}
    (used : vol.InUse dir ∧ vol.isType dir .directory = true) (type : ObjType) (name : List Char)
    (mode : Nat) (equivObj : Option Nat) (aliasStr : List Char)
    (links : type = .hardlink →
      ∃ owner ownerObj, equivObj = some owner ∧ vol.CanLink owner ownerObj) :
    Volume.Created type vol (vol.createObj P type dir name mode equivObj aliasStr) := by
  obtain ⟨⟨not_trash, dirObj, dir_found, visible⟩, is_dir⟩ := used
  have dir_type : dirObj.variantType = .directory := by
    simpa [Volume.isType, dir_found] using is_dir
  exact Volume.createObj_keeps tidy room dir_found dir_type not_trash visible type name mode equivObj
    aliasStr links

theorem createFile_keeps {vol : Volume Store} (tidy : vol.Tidy) (room : vol.HasBucket) {dir : Nat}
    (used : vol.InUse dir ∧ vol.isType dir .directory = true) (name : List Char) (mode : Nat) :
    Volume.Created .file vol (vol.createFile P dir name mode) :=
  create_keeps tidy room used .file name mode none [] (by simp)

theorem openDir_keeps (orderly : vfs.Orderly) : vfs.openDir.2.Orderly := by
  rw [openDir]
  split
  · exact orderly
  · exact orderly.congr rfl rfl

theorem openDir_vol (vfs : Vfs Store) : vfs.openDir.2.vol = vfs.vol := by
  rw [openDir]
  split <;> rfl

theorem openExisting_keeps (orderly : vfs.Orderly) (handle : Nat) {number : Nat} {obj : Node}
    (can : vfs.CanOpen number obj) (flags : OpenFlags) :
    (vfs.openExisting P handle number flags).2.Orderly := by
  have opened : (if vfs.vol.isType number .directory then vfs.openDir else (none, vfs)).2.Orderly := by
    split
    · exact openDir_keeps orderly
    · exact orderly
  have vol : (if vfs.vol.isType number .directory then vfs.openDir else (none, vfs)).2.vol =
      vfs.vol := by
    split
    · exact openDir_vol vfs
    · rfl
  delta openExisting
  dsimp only
  generalize (if vfs.vol.isType number .directory then vfs.openDir else (none, vfs)) = opening at *
  split
  · exact openFailed_keeps opened handle _ _
  · exact openObject_keeps opened handle ⟨vol ▸ can.found, can.visible, can.type⟩ _ _ flags

theorem openNew_keeps (orderly : vfs.Orderly) (room : vfs.vol.HasBucket) (handle : Nat)
    {found : FoundDir} (used : vfs.vol.UsedDir found.dir)
    (mode : Nat) (flags : OpenFlags) : (vfs.openNew P handle found mode flags).2.Orderly := by
  simp only [openNew]
  split
  case h_1 => exact openFailed_keeps orderly handle _ _
  case h_2 => exact openFailed_keeps orderly handle _ _
  case h_3 dir _ dir_eq =>
    split
    case isTrue => exact openFailed_keeps orderly handle _ _
    case isFalse =>
      split
      case isTrue => exact openFailed_keeps orderly handle _ _
      case isFalse =>
        split
        case isTrue => exact openFailed_keeps orderly handle _ _
        case isFalse =>
          have created := createFile_keeps (P := P) orderly.tidy room (used dir dir_eq) found.name mode
          have made := orderly.setVol created.tidy created.holds
          split
          case h_1 => exact openFailed_keeps made handle _ _
          case h_2 number eq =>
            obtain ⟨obj, found, type, visible, -⟩ := created.new number eq
            exact openObject_keeps made handle ⟨found, visible, by simp [type]⟩ _ _ flags

theorem newHandleAndFileDes_keeps (orderly : vfs.Orderly) : vfs.newHandleAndFileDes.2.Orderly :=
  orderly.congr (newHandleAndFileDes_same vfs).1 (newHandleAndFileDes_same vfs).2

theorem yaffsOpen_keeps (orderly : vfs.Orderly) (room : vfs.vol.HasBucket) {path : List Char}
    {oflag mode sharing : Nat} {outcome : Int × Vfs Store}
    (eq : vfs.yaffsOpen P fuel path oflag mode sharing = some outcome) : outcome.2.Orderly := by
  have taken := newHandleAndFileDes_keeps orderly
  have same := (newHandleAndFileDes_same vfs).1
  have room : vfs.newHandleAndFileDes.2.vol.HasBucket := same ▸ room
  simp only [yaffsOpen] at eq
  generalize vfs.newHandleAndFileDes = handle at *
  split at eq
  case isTrue =>
    obtain rfl := Option.some.inj eq
    exact orderly.fail _
  case isFalse =>
    split at eq
    case h_1 =>
      obtain rfl := Option.some.inj eq
      exact taken.fail _
    case h_2 index _ =>
      obtain ⟨exact', exact_eq, eq⟩ := Option.bind_eq_some_iff.mp eq
      obtain ⟨target, target_eq, eq⟩ := Option.bind_eq_some_iff.mp eq
      have exact_used := (Volume.usedDir_none.findObject taken.tidy fuel path 0 true exact_eq).1
      have target_used := exact_used.followLink taken.tidy fuel false target_eq
      split at eq
      case h_1 number number_eq =>
        obtain rfl := Option.some.inj eq
        obtain ⟨target_eq, type⟩ := Option.filter_eq_some_iff.mp number_eq
        obtain ⟨-, obj, found, visible⟩ := target_used number target_eq
        refine openExisting_keeps taken index ⟨found, visible, fun is_link => ?_⟩ _
        simp [Volume.isType, found, is_link] at type
      case h_2 =>
        obtain ⟨found, found_eq, rfl⟩ := Option.map_eq_some_iff.mp eq
        have found_used := Volume.usedDir_none.findDirectory taken.tidy fuel path 0 found_eq
        have used : handle.2.vol.UsedDir
            ({ found with loop := target.2 || found.loop } : FoundDir).dir := found_used
        exact openNew_keeps taken room index used mode _

theorem yaffsDup_keeps (orderly : vfs.Orderly) (handle : Int) : (vfs.yaffsDup handle).2.Orderly := by
  simp only [yaffsDup]
  split
  case h_1 => exact orderly.fail _
  case h_2 =>
    have taken := newHandle_keeps orderly
    split
    · exact taken.fail _
    · exact taken.congr rfl rfl

theorem yaffsClose_keeps (orderly : vfs.Orderly) (handle : Int) :
    (vfs.yaffsClose P handle).2.Orderly := by
  simp only [yaffsClose]
  split
  case h_2 => exact orderly.fail _
  case h_1 fdId number _ _ =>
    refine putHandle_keeps ?_ handle
    split
    · exact orderly
    · obtain ⟨tidy, swept⟩ := Volume.flushFile_keeps (P := P) orderly.tidy number true
      exact orderly.setVol tidy swept.holds

/-! ## Unlinking -/

/-- The object that a path asks to be unlinked is not one that its newest hard link lies in. -/
def MayUnlink (P : Pages Store) (fuel : Nat) (vfs : Vfs Store) (path : List Char) (isDirectory : Bool) :
    Prop :=
  ∀ dir name number, vfs.unlinkTarget P fuel path isDirectory = some (.ok (dir, name)) →
    vfs.vol.findByName P dir name = some number → ¬vfs.vol.Swallows number

theorem unlinkTarget_dir (tidy : vfs.vol.Tidy) {path : List Char} {isDirectory : Bool} {dir : Nat}
    {name : List Char} (eq : vfs.unlinkTarget P fuel path isDirectory = some (.ok (dir, name))) :
    vfs.vol.InUse dir := by
  simp only [unlinkTarget] at eq
  split at eq
  case isTrue => simp at eq
  case isFalse =>
    obtain ⟨exact', -, eq⟩ := Option.bind_eq_some_iff.mp eq
    obtain ⟨found, found_eq, eq⟩ := Option.map_eq_some_iff.mp eq
    have used := Volume.usedDir_none.findDirectory tidy fuel path 0 found_eq
    split at eq
    case h_1 => simp at eq
    case h_2 => simp at eq
    case h_3 dir' _ dir_eq =>
      have same : dir' = dir := by
        split at eq
        · simp at eq
        · split at eq
          · simp at eq
          · repeat' split at eq
            all_goals simp at eq
            exact eq.1
      exact same ▸ (used dir' dir_eq).1

theorem doUnlink_keeps (orderly : vfs.Orderly) {path : List Char} {isDirectory : Bool}
    (may : MayUnlink P fuel vfs path isDirectory) {outcome : Int × Vfs Store}
    (eq : vfs.doUnlink P fuel path isDirectory = some outcome) : outcome.2.Orderly := by
  obtain ⟨target, target_eq, rfl⟩ := Option.map_eq_some_iff.mp eq
  split
  case h_1 => exact orderly.fail _
  case h_2 dir name =>
    have used := unlinkTarget_dir orderly.tidy target_eq
    obtain ⟨tidy, changes⟩ := Volume.unlinkObj_keeps (P := P) orderly.tidy
      (vfs.vol.findByName P dir name) (by
        intro number obj number_eq found _
        obtain ⟨-, obj', found', visible⟩ := used.findByName orderly.tidy number_eq
        obtain rfl := Option.some.inj (found.symm.trans found')
        exact ⟨orderly.tidy.soft_of_visible found visible, may dir name number target_eq number_eq⟩)
    have done : ({ vfs with vol := (vfs.vol.unlinker P dir name).2 } : Vfs Store).Orderly :=
      orderly.setVol tidy changes.holds
    dsimp only
    split
    · exact done
    · split
      · exact done.fail _
      · exact done

theorem altPath_keeps (orderly : vfs.Orderly) (path : List Char) :
    (vfs.altPath P path).2.Orderly ∧
      (vfs.vol.HasBucket → (vfs.altPath P path).2.vol.HasBucket) := by
  simp only [altPath]
  split
  · exact ⟨orderly, id⟩
  · have same := Volume.sameShape_store vfs.vol (P.kmalloc vfs.vol.store).2
    have changes : Volume.Swept vfs.vol _ := same.changes
    exact ⟨orderly.setVol (orderly.tidy.of_shape same) changes.holds, fun room => room.store _⟩

theorem yaffsRmdir_keeps (orderly : vfs.Orderly) {path : List Char}
    (may : MayUnlink P fuel (vfs.altPath P path).2 (altDirPath path) true) {outcome : Int × Vfs Store}
    (eq : vfs.yaffsRmdir P fuel path = some outcome) : outcome.2.Orderly := by
  have memory := (altPath_keeps (P := P) orderly path).1
  simp only [yaffsRmdir] at eq
  split at eq
  case isTrue =>
    obtain rfl := Option.some.inj eq
    exact orderly.fail _
  case isFalse =>
    split at eq
    case isTrue =>
      obtain rfl := Option.some.inj eq
      exact memory.fail _
    case isFalse => exact doUnlink_keeps memory may eq

/-- An empty object does not lie in itself, so that the object of a handle can be unlinked. -/
theorem yaffsFunlink_keeps (orderly : vfs.Orderly) (handle : Int) :
    (vfs.yaffsFunlink P handle).2.Orderly := by
  simp only [yaffsFunlink]
  split
  case h_1 => exact orderly.fail _
  case h_2 number number_eq =>
    split
    case isTrue => exact orderly.fail _
    case isFalse =>
      split
      case isTrue => exact orderly.fail _
      case isFalse empty =>
        split
        case isTrue => exact orderly.fail _
        case isFalse =>
          obtain ⟨index, -, held⟩ := Option.bind_eq_some_iff.mp number_eq
          obtain ⟨obj, found, inode, -⟩ := orderly.held index number held
          have leaf := Volume.isNonEmptyDir_eq_false orderly.tidy.toTidyBut found
            (Bool.eq_false_iff.mpr empty)
          obtain ⟨tidy, changes⟩ := Volume.unlinkObj_keeps (P := P) orderly.tidy (some number) (by
            intro other otherObj same found' _
            obtain rfl := Option.some.inj same
            obtain rfl := Option.some.inj (found.symm.trans found')
            refine ⟨Bool.eq_false_iff.mpr fun soft => ?_, orderly.tidy.not_swallows_of_leaf found leaf⟩
            have none := ((orderly.tidy.node number obj found).softDel soft).2.2
            simp [none] at inode)
          exact orderly.setVol tidy changes.holds

/-! ## Creating and renaming -/

theorem yaffsMkdir_keeps (orderly : vfs.Orderly) (room : vfs.vol.HasBucket) {path : List Char}
    {mode : Nat} {outcome : Int × Vfs Store}
    (eq : vfs.yaffsMkdir P fuel path mode = some outcome) : outcome.2.Orderly := by
  obtain ⟨memory, room'⟩ := altPath_keeps (P := P) orderly path
  have room := room' room
  simp only [yaffsMkdir] at eq
  generalize vfs.altPath P path = alt at *
  split at eq
  case isTrue =>
    obtain rfl := Option.some.inj eq
    exact orderly.fail _
  case isFalse =>
    split at eq
    case isTrue =>
      obtain rfl := Option.some.inj eq
      exact memory.fail _
    case isFalse =>
      obtain ⟨found, found_eq, rfl⟩ := Option.map_eq_some_iff.mp eq
      have used := Volume.usedDir_none.findDirectory memory.tidy fuel _ 0 found_eq
      split
      case h_1 => exact memory.fail _
      case h_2 => exact memory.fail _
      case h_3 parent _ parent_eq =>
        have created := create_keeps (P := P) memory.tidy room (used parent parent_eq) .directory
          found.name mode none [] (by simp)
        have made := memory.setVol created.tidy created.holds
        split
        · exact memory.fail _
        · split
          · exact memory.fail _
          · split
            · exact memory.fail _
            · split
              · exact made
              · split
                · exact made.fail _
                · exact made.fail _

theorem yaffsSymlink_keeps (orderly : vfs.Orderly) (room : vfs.vol.HasBucket)
    {oldPath newPath : List Char} {outcome : Int × Vfs Store}
    (eq : vfs.yaffsSymlink P fuel oldPath newPath = some outcome) : outcome.2.Orderly := by
  simp only [yaffsSymlink] at eq
  split at eq
  case isTrue =>
    obtain rfl := Option.some.inj eq
    exact orderly.fail _
  case isFalse =>
    obtain ⟨found, found_eq, eq⟩ := Option.bind_eq_some_iff.mp eq
    have used := Volume.usedDir_none.findDirectory orderly.tidy fuel _ 0 found_eq
    split at eq
    case h_1 =>
      obtain rfl := Option.some.inj eq
      exact orderly.fail _
    case h_2 =>
      obtain rfl := Option.some.inj eq
      exact orderly.fail _
    case h_3 parent _ parent_eq =>
      have created := create_keeps (P := P) orderly.tidy room (used parent parent_eq) .symlink
        found.name 0 none oldPath (by simp)
      have made := orderly.setVol created.tidy created.holds
      split at eq
      case isTrue =>
        obtain rfl := Option.some.inj eq
        exact orderly.fail _
      case isFalse =>
        split at eq
        case isTrue =>
          obtain rfl := Option.some.inj eq
          exact orderly.fail _
        case isFalse =>
          split at eq
          case isTrue =>
            obtain rfl := Option.some.inj eq
            exact orderly.fail _
          case isFalse =>
            split at eq
            case isTrue =>
              obtain rfl := Option.some.inj eq
              exact made
            case isFalse =>
              obtain ⟨exact', -, rfl⟩ := Option.map_eq_some_iff.mp eq
              exact made.fail _

theorem linkObj_keeps {vol : Volume Store} (tidy : vol.Tidy) (room : vol.HasBucket) {dir number : Nat}
    (used : vol.InUse dir ∧ vol.isType dir .directory = true) (number_used : vol.InUse number)
    (name : List Char) : (vol.linkObj P dir name number).2.Tidy ∧
      Volume.Holds vol (vol.linkObj P dir name number).2 := by
  simp only [Volume.linkObj]
  split
  case h_1 =>
    exact ⟨tidy, .refl⟩
  case h_2 equiv equiv_eq =>
    obtain ⟨⟨not_trash, obj, found, visible⟩, type⟩ := number_used.getEquivalentObj tidy equiv_eq
    have created := create_keeps (P := P) tidy room used .hardlink name 0 (some equiv) []
      fun _ => ⟨equiv, obj, rfl, found, type obj found, visible, not_trash⟩
    exact ⟨created.tidy, created.holds⟩

theorem yaffsLink_keeps (orderly : vfs.Orderly) (room : vfs.vol.HasBucket)
    {oldPath linkPath : List Char} {outcome : Int × Vfs Store}
    (eq : vfs.yaffsLink P fuel oldPath linkPath = some outcome) : outcome.2.Orderly := by
  simp only [yaffsLink] at eq
  split at eq
  case isTrue =>
    obtain rfl := Option.some.inj eq
    exact orderly.fail _
  case isFalse =>
    obtain ⟨exact', exact_eq, eq⟩ := Option.bind_eq_some_iff.mp eq
    obtain ⟨link, -, eq⟩ := Option.bind_eq_some_iff.mp eq
    obtain ⟨found, found_eq, rfl⟩ := Option.map_eq_some_iff.mp eq
    have used := Volume.usedDir_none.findDirectory orderly.tidy fuel _ 0 found_eq
    have exact_used := (Volume.usedDir_none.findObject orderly.tidy fuel oldPath 0 true exact_eq).1
    split
    case isTrue => exact orderly.fail _
    case isFalse =>
      split
      case isTrue => exact orderly.fail _
      case isFalse =>
        split
        case h_2 => exact orderly.fail _
        case h_1 linkDir number _ dir_eq number_eq =>
          obtain ⟨tidy, holds⟩ := linkObj_keeps (P := P) orderly.tidy room (used linkDir dir_eq)
            (exact_used number number_eq) found.name
          split
          · exact orderly.fail _
          · split
            · exact orderly.fail _
            · split
              · exact orderly.fail _
              · split
                · exact orderly.fail _
                · split
                  · exact orderly.fail _
                  · exact (orderly.setVol tidy holds).report _ _

/-- The objects that two paths ask to be renamed are not a target and its newest hard link. -/
def MayRename (P : Pages Store) (fuel : Nat) (vfs : Vfs Store) (oldPath newPath : List Char) : Prop :=
  ∀ target number, vfs.renameTarget P fuel oldPath newPath = some (.ok target) →
    vfs.vol.renamed P target.oldDir target.oldName = some number →
    ¬vfs.vol.Overtakes P number target.newDir target.newName

theorem yaffsRename_keeps (orderly : vfs.Orderly) {oldPath newPath : List Char}
    (may : MayRename P fuel (vfs.altPath P newPath).2 oldPath (altDirPath newPath))
    {outcome : Int × Vfs Store} (eq : vfs.yaffsRename P fuel oldPath newPath = some outcome) :
    outcome.2.Orderly := by
  have memory := (altPath_keeps (P := P) orderly newPath).1
  simp only [yaffsRename] at eq
  split at eq
  case isTrue =>
    obtain rfl := Option.some.inj eq
    exact orderly.fail _
  case isFalse =>
    split at eq
    case isTrue =>
      obtain rfl := Option.some.inj eq
      exact memory.fail _
    case isFalse =>
      obtain ⟨target, target_eq, rfl⟩ := Option.map_eq_some_iff.mp eq
      split
      case h_1 => exact memory.fail _
      case h_2 target =>
        obtain ⟨used, away⟩ := renameTarget_spec memory.tidy target_eq
        obtain ⟨tidy, holds⟩ := Volume.renameObj_keeps (P := P) memory.tidy target.oldDir target.oldName
          target.newName used fun is_dir number renamed =>
            ⟨away is_dir number renamed, may target number target_eq renamed⟩
        exact memory.setVol tidy holds

/-! ## Calls -/

/-- A call is careful: it removes no object whose newest hard link lies in the object itself, it renames
no object over the object that it is the newest hard link of, and there is a hash bucket for what it
creates. -/
def Careful (P : Pages Store) (fuel : Nat) (call : Call) (vfs : Vfs Store) : Prop :=
  match call with
  | .openFile .. | .mkdir .. | .symlink .. | .link .. => vfs.vol.HasBucket
  | .unlink path => MayUnlink P fuel vfs path false
  | .rmdir path => MayUnlink P fuel (vfs.altPath P path).2 (altDirPath path) true
  | .rename oldPath newPath => MayRename P fuel (vfs.altPath P newPath).2 oldPath (altDirPath newPath)
  | .dup _ | .close _ | .funlink _ => True

theorem call_keeps (orderly : vfs.Orderly) (call : Call) (careful : Careful P fuel call vfs)
    {outcome : Int × Vfs Store} (eq : vfs.call P fuel call = some outcome) : outcome.2.Orderly := by
  cases call with
  | openFile path oflag mode sharing => exact yaffsOpen_keeps orderly careful eq
  | dup handle =>
    obtain rfl := Option.some.inj eq
    exact yaffsDup_keeps orderly handle
  | close handle =>
    obtain rfl := Option.some.inj eq
    exact yaffsClose_keeps orderly handle
  | mkdir path mode => exact yaffsMkdir_keeps orderly careful eq
  | rmdir path => exact yaffsRmdir_keeps orderly careful eq
  | symlink oldPath newPath => exact yaffsSymlink_keeps orderly careful eq
  | link oldPath linkPath => exact yaffsLink_keeps orderly careful eq
  | rename oldPath newPath => exact yaffsRename_keeps orderly careful eq
  | unlink path => exact doUnlink_keeps orderly careful eq
  | funlink handle =>
    obtain rfl := Option.some.inj eq
    exact yaffsFunlink_keeps orderly handle

theorem exec_keeps (call : Call) (vfs : Vfs Store) (careful : Careful P fuel call vfs)
    (orderly : vfs.Orderly) : (vfs.exec P fuel call).Orderly := by
  rw [exec]
  cases eq : vfs.call P fuel call with
  | none => exact orderly
  | some outcome => exact call_keeps orderly call careful eq

theorem run_keeps {calls : List Call}
    (careful : Execution.Guarded (exec P fuel) (Careful P fuel) calls vfs) (orderly : vfs.Orderly) :
    (Execution.run (exec P fuel) calls vfs).Orderly :=
  Execution.run_invariant exec_keeps careful orderly

/-- After every run of careful calls, in which each call may succeed or fail, the objects form a tree. -/
theorem careful_run_isTree {calls : List Call} (orderly : vfs.Orderly)
    (careful : Execution.Guarded (exec P fuel) (Careful P fuel) calls vfs) :
    (Execution.run (exec P fuel) calls vfs).vol.IsTree :=
  (run_keeps careful orderly).tidy.isTree

/-- The file system of a formatted device. -/
def formatted (P : Pages Store) (store : Store) : Vfs Store :=
  { vol := (({ store } : Volume Store).createInitialDir P).2 }

theorem formatted_orderly {store : Store}
    (made : (({ store } : Volume Store).createInitialDir P).1 = true) :
    (formatted P store).Orderly where
  tidy := Volume.createInitialDir_tidy rfl rfl made
  held index number eq := by simp [formatted] at eq
  single index other number eq := by simp [formatted] at eq
  bounded index number eq := by simp [formatted] at eq

/-- Pages that never fail and never need garbage collection, with short names only. -/
def quietPages : Pages Unit where
  kmalloc store := (true, store)
  getTnode store _ := (true, store)
  freeTnodes store _ := store
  checkGc store := ([], store)
  writeHeader store _ _ _ _ _ := (true, store)
  hdrChunk _ _ := 1
  headerName _ _ := []
  dropHeader store _ := store
  objCacheDirty _ _ := false
  flushFileCache store _ _ := ([], store)
  invalidateWholeCache store _ := store
  fileSize _ _ := 0
  nDataChunks _ _ := 0
  resizeData store _ _ := ([], store)
  softDelWorker store _ := store

/-- A directory is made and removed again. -/
theorem mkdir_rmdir_isTree : (Execution.run (exec quietPages 20)
    [.mkdir "/d".toList 0o777, .rmdir "/d".toList] (formatted quietPages ())).vol.IsTree := by
  refine careful_run_isTree (formatted_orderly (by decide +kernel)) ⟨?_, ?_, trivial⟩
  · change Volume.HasBucket _
    decide +kernel
  · intro dir name number target found swallows
    let made := (exec quietPages 20 (.mkdir "/d".toList 0o777) (formatted quietPages ())).altPath
      quietPages "/d".toList
    have target' : made.2.unlinkTarget quietPages 20 (altDirPath "/d".toList) true =
        some (.ok (objectIdRoot, "d".toList)) := by
      decide +kernel
    obtain ⟨rfl, rfl⟩ : objectIdRoot = dir ∧ "d".toList = name := by
      simpa using target'.symm.trans target
    have found' : made.2.vol.findByName quietPages objectIdRoot "d".toList = some 257 := by
      decide +kernel
    obtain rfl := Option.some.inj (found'.symm.trans found)
    obtain ⟨obj, link, older, linkObj, directory, obj_found, newest, -⟩ := swallows
    have no_links : (made.2.vol.objs 257).map Node.hardLinks = some [] := by decide +kernel
    simp only [made] at no_links
    rw [obj_found] at no_links
    simp [newest] at no_links

/-- A directory that has a hard link in it becomes its own parent when it is removed. -/
theorem rmdir_of_linked_directory_not_isTree : ¬(Execution.run (exec quietPages 20)
    [.mkdir "/d".toList 0o777, .link "/d".toList "/d/x".toList, .rmdir "/d".toList]
    (formatted quietPages ())).vol.IsTree := by
  intro tree
  refine Forest.not_rooted_of_loop ?_ ?_ (tree.rooted 257 ?_)
  · decide +kernel
  · decide
  · decide +kernel

end Vfs

end Yaffs
