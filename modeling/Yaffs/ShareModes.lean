import Yaffs.DescriptorRuns

/-!
# Share modes

A descriptor says whether it reads or writes its object, and whether it lets others read or write
it. Opening compares a new descriptor with all others that are open on the object.  No other call
opens a descriptor on an object or changes its modes, so that the modes of any two descriptors on
one object agree at all times.
-/

namespace Yaffs

/-- What a descriptor does with its object, and what it lets others do. -/
structure Modes where
  reading : Bool
  writing : Bool
  shareRead : Bool
  shareWrite : Bool
deriving DecidableEq, Repr

namespace Modes

/-- The other descriptor shares what this one does. -/
def Allowed (modes other : Modes) : Prop :=
  (modes.reading = true → other.shareRead = true) ∧
    (modes.writing = true → other.shareWrite = true)

/-- Two descriptors share what they do with each other. -/
def Compatible (modes other : Modes) : Prop := modes.Allowed other ∧ other.Allowed modes

theorem Compatible.symm {modes other : Modes} (compatible : modes.Compatible other) :
    other.Compatible modes :=
  ⟨compatible.2, compatible.1⟩

end Modes

def FileDes.modes (fd : FileDes) : Modes where
  reading := fd.reading
  writing := fd.writing
  shareRead := fd.shareRead
  shareWrite := fd.shareWrite

def OpenFlags.modes (flags : OpenFlags) : Modes where
  reading := flags.read
  writing := flags.write
  shareRead := flags.shareRead
  shareWrite := flags.shareWrite

namespace Yaffsfs

open Vfs (inTable handleToPointer)

variable {fs fs' fs'' : Yaffsfs}

/-- A descriptor in use is open on an object. -/
structure OpenOn (fs : Yaffsfs) (f obj : Nat) : Prop where
  f_lt : f < nHandles
  counted : 0 < (fs.fd f).handleCount
  held : ∃ index : Nat, (fs.fd f).inodeId = index ∧ (fs.inode index).iObj = some obj

/-- Any two descriptors on one object share what they do. -/
def Respected (fs : Yaffsfs) : Prop :=
  ∀ f g obj, f ≠ g → OpenOn fs f obj → OpenOn fs g obj →
    (fs.fd f).modes.Allowed (fs.fd g).modes

/-! ## Calls that open nothing -/

/-- Every descriptor that is open on an object has been open on it, in the same modes. -/
def OpensNone (fs fs' : Yaffsfs) : Prop :=
  ∀ f obj, OpenOn fs' f obj → OpenOn fs f obj ∧ (fs'.fd f).modes = (fs.fd f).modes

namespace OpensNone

theorem refl : OpensNone fs fs := fun _ _ on => ⟨on, rfl⟩

theorem trans (first : OpensNone fs fs') (second : OpensNone fs' fs'') : OpensNone fs fs'' := by
  intro f obj on
  obtain ⟨on', modes'⟩ := second f obj on
  obtain ⟨on'', modes''⟩ := first f obj on'
  exact ⟨on'', modes'.trans modes''⟩

theorem respected (none : OpensNone fs fs') (respected : Respected fs) : Respected fs' := by
  intro f g obj f_ne f_on g_on
  obtain ⟨f_on', f_modes⟩ := none f obj f_on
  obtain ⟨g_on', g_modes⟩ := none g obj g_on
  rw [f_modes, g_modes]
  exact respected f g obj f_ne f_on' g_on'

/-- Descriptors only go out of use or lose their inodes, and inodes only lose their objects. -/
theorem of_tables
    (fd : ∀ f, 0 < (fs'.fd f).handleCount → 0 ≤ (fs'.fd f).inodeId →
      0 < (fs.fd f).handleCount ∧ (fs'.fd f).inodeId = (fs.fd f).inodeId ∧
        (fs'.fd f).modes = (fs.fd f).modes)
    (iObj : ∀ index obj, (fs'.inode index).iObj = some obj → (fs.inode index).iObj = some obj) :
    OpensNone fs fs' := by
  intro f obj on
  obtain ⟨index, index_eq, obj_eq⟩ := on.held
  obtain ⟨counted, inodeId, modes⟩ := fd f on.counted (by omega)
  exact ⟨⟨on.f_lt, counted, index, inodeId.symm.trans index_eq, iObj index obj obj_eq⟩, modes⟩

theorem of_same (fd : fs'.fd = fs.fd) (inode : fs'.inode = fs.inode) : OpensNone fs fs' :=
  of_tables (fun f counted _ => by rw [fd] at counted ⊢; exact ⟨counted, rfl, rfl⟩)
    fun index obj eq => by rwa [inode] at eq

/-- A descriptor is set that is in use only if it was, with an inode only if it had that. -/
theorem setFd (f : Nat) {fd : FileDes}
    (kept : 0 < fd.handleCount → 0 ≤ fd.inodeId → 0 < (fs.fd f).handleCount ∧
      fd.inodeId = (fs.fd f).inodeId ∧ fd.modes = (fs.fd f).modes) :
    OpensNone fs (fs.setFd f fd) := by
  refine of_tables (fun g counted inodeId => ?_) fun _ _ eq => eq
  by_cases same : g = f
  · subst same
    rw [setFd_fd_self] at counted inodeId ⊢
    exact kept counted inodeId
  · have other : (fs.setFd f fd).fd g = fs.fd g := Function.update_of_ne same ..
    rw [other] at counted ⊢
    exact ⟨counted, rfl, rfl⟩

theorem setInode (index : Nat) {inode : Inode}
    (kept : ∀ obj, inode.iObj = some obj → (fs.inode index).iObj = some obj) :
    OpensNone fs (fs.setInode index inode) := by
  refine of_tables (fun _ counted _ => ⟨counted, rfl, rfl⟩) fun other obj eq => ?_
  by_cases same : other = index
  · subst same
    refine kept obj ?_
    simpa [Yaffsfs.setInode] using eq
  · simpa [Yaffsfs.setInode, same] using eq

theorem releaseInode (fs : Yaffsfs) (index : Nat) : OpensNone fs (fs.releaseInode index) := by
  simp only [Yaffsfs.releaseInode]
  split
  case h_1 => exact refl
  case h_2 obj held =>
    have released : OpensNone fs ((fs.modify obj fun node => { node with myInode := none }).setInode
        index { fs.inode index with iObj := none }) :=
      (of_same rfl rfl : OpensNone fs
        (fs.modify obj fun node => { node with myInode := none })).trans
        (OpensNone.setInode index (by simp))
    split
    · exact released.trans (of_same rfl rfl)
    · exact released

theorem putInode (fs : Yaffsfs) (inodeId : Int) : OpensNone fs (fs.putInode inodeId) := by
  simp only [Yaffsfs.putInode]
  split
  case isFalse => exact refl
  case isTrue =>
    generalize inodeId.toNat = index
    have counted : OpensNone fs (fs.setInode index
        { fs.inode index with count := (fs.inode index).count - 1 }) :=
      OpensNone.setInode index fun _ eq => eq
    split
    · refine (counted.trans (OpensNone.releaseInode _ index)).trans ?_
      exact OpensNone.setInode index fun _ eq => eq
    · exact counted

/-- A descriptor counts one handle less. -/
theorem fewer (fs : Yaffsfs) (f : Nat) : OpensNone fs
    (fs.setFd f { fs.fd f with handleCount := (fs.fd f).handleCount - 1 }) := by
  refine OpensNone.setFd f fun counted _ => ⟨?_, rfl, rfl⟩
  dsimp only at counted
  omega

/-- A descriptor loses its inode. -/
theorem unhook (fs : Yaffsfs) (f : Nat) :
    OpensNone fs (fs.setFd f { fs.fd f with inodeId := -1 }) := by
  refine OpensNone.setFd f fun _ inodeId => ?_
  dsimp only at inodeId
  omega

theorem putFileDes (fs : Yaffsfs) (fdId : Int) : OpensNone fs (fs.putFileDes fdId) := by
  simp only [Yaffsfs.putFileDes]
  split
  case isFalse => exact refl
  case isTrue =>
    generalize fdId.toNat = index
    split
    · exact ((fewer fs index).trans (OpensNone.putInode _ _)).trans (unhook _ index)
    · exact fewer fs index

theorem putHandle (fs : Yaffsfs) (handle : Int) : OpensNone fs (fs.putHandle handle) := by
  simp only [Yaffsfs.putHandle]
  split
  case h_1 => exact refl
  case h_2 index _ =>
    split
    case isFalse => exact refl
    case isTrue =>
      have counted : OpensNone fs (fs.setHandle index
          { fs.handle index with useCount := (fs.handle index).useCount - 1 }) :=
        of_same rfl rfl
      split
      · exact (counted.trans (OpensNone.putFileDes _ _)).trans (of_same rfl rfl)
      · exact counted

theorem newHandle (fs : Yaffsfs) : OpensNone fs fs.newHandle.2 := by
  rw [Yaffsfs.newHandle]
  split
  · exact refl
  · exact of_same rfl rfl

/-- A second handle for a descriptor. -/
theorem yaffsDup (fs : Yaffsfs) (handle : Int) (counts : ∀ f, fs.handleToFileDes handle = some f →
    0 < (fs.fd f).handleCount) : OpensNone fs (fs.yaffsDup handle).2 := by
  simp only [Yaffsfs.yaffsDup]
  split
  case h_1 => exact refl
  case h_2 f found =>
    have taken : OpensNone fs fs.newHandle.2 := OpensNone.newHandle fs
    have same : fs.newHandle.2.fd = fs.fd := by
      rw [Yaffsfs.newHandle]
      split <;> rfl
    split
    case h_1 => exact taken
    case h_2 index _ =>
      have pointed : OpensNone fs (fs.newHandle.2.setHandle index
          { fs.newHandle.2.handle index with fdId := f }) :=
        taken.trans (of_same rfl rfl)
      refine pointed.trans (OpensNone.setFd f fun _ _ => ⟨?_, rfl, rfl⟩)
      rw [setHandle_fd, same]
      exact counts f found

theorem of_dropped {f index : Nat} (dropped : FdDropped f index fs fs') : OpensNone fs fs' := by
  refine of_tables (fun g counted _ => ?_) fun _ _ eq => dropped.iObj_before eq
  by_cases same : g = f
  · rw [same, dropped.handleCount] at counted
    exact absurd counted (lt_irrefl 0)
  · rw [dropped.fd g same] at counted ⊢
    exact ⟨counted, rfl, rfl⟩

theorem breakHandle (fs : Yaffsfs) (dev index : Nat) : OpensNone fs (fs.breakHandle dev index) := by
  have freed : OpensNone fs (if 0 < (fs.handle index).useCount then
      fs.setHandle index { fdId := 0, useCount := 0 } else fs) := by
    split
    · exact of_same rfl rfl
    · exact refl
  obtain ⟨broken, -⟩ | ⟨f, inode, obj, -, -, dropped⟩ := @breakHandle_cases fs dev index
  · rw [broken]
    exact freed
  · exact freed.trans (of_dropped dropped)

theorem breakDeviceHandles (fs : Yaffsfs) (dev : Nat) :
    OpensNone fs (fs.breakDeviceHandles dev) := by
  have broken (indices : List Nat) : ∀ fs : Yaffsfs,
      OpensNone fs (indices.foldl (fun fs index => fs.breakHandle dev index) fs) := by
    induction indices with
    | nil => exact fun _ => refl
    | cons index rest ih =>
      intro fs
      exact (OpensNone.breakHandle fs dev index).trans (ih (fs.breakHandle dev index))
  exact broken (List.range nHandles) fs

theorem deinitialise (fs : Yaffsfs) (dev : Nat) : OpensNone fs (fs.deinitialise dev) :=
  of_same rfl rfl

theorem yaffsUnmount2 (fs : Yaffsfs) (dev : Nat) (force : Bool) :
    OpensNone fs (fs.yaffsUnmount2 dev force).2 := by
  simp only [Yaffsfs.yaffsUnmount2]
  split
  case isFalse => exact refl
  case isTrue =>
    split
    case isFalse => exact refl
    case isTrue =>
      dsimp only
      split
      · exact (OpensNone.breakDeviceHandles fs dev).trans (OpensNone.deinitialise _ dev)
      · exact OpensNone.deinitialise fs dev

theorem yaffsFormat (fs : Yaffsfs) (dev : Nat) (unmountFlag forceUnmount remount : Bool) :
    OpensNone fs (fs.yaffsFormat dev unmountFlag forceUnmount remount).2 := by
  have unmounted : OpensNone fs
      (if unmountFlag then (fs.yaffsUnmount2 dev forceUnmount).2 else fs) := by
    split
    · exact OpensNone.yaffsUnmount2 fs dev forceUnmount
    · exact refl
  simp only [Yaffsfs.yaffsFormat]
  generalize (if unmountFlag then (fs.yaffsUnmount2 dev forceUnmount).2 else fs) = next
    at unmounted ⊢
  split
  · exact unmounted
  · split
    · exact unmounted.trans (of_same rfl rfl)
    · exact unmounted

theorem unlinkObj (fs : Yaffsfs) (obj : Nat) : OpensNone fs (fs.unlinkObj obj) := by
  rw [Yaffsfs.unlinkObj]
  split
  · exact refl
  · split <;> exact of_same rfl rfl

theorem load (fs : Yaffsfs) (obj : Nat) (node : FsObj) : OpensNone fs (fs.load obj node) := by
  rw [Yaffsfs.load]
  split <;> exact of_same rfl rfl

theorem moveTo (fs : Yaffsfs) (f position : Nat) :
    OpensNone fs (fs.setFd f { fs.fd f with position }) :=
  OpensNone.setFd f fun counted _ => ⟨counted, rfl, rfl⟩

theorem getHandle (fs : Yaffsfs) (handle : Int) : OpensNone fs (fs.getHandle handle) := by
  have rest := getHandle_rest fs handle
  exact of_same (by rw [rest]) (by rw [rest])

theorem finish (fs : Yaffsfs) (tr : Transfer) : OpensNone fs (fs.finish tr) := by
  obtain same | ⟨position, moved⟩ := finish_cases fs tr
  · rw [same]
    exact OpensNone.putHandle fs tr.handle
  · rw [moved]
    exact (OpensNone.putHandle fs tr.handle).trans (moveTo _ tr.fdId position)

theorem writePiece (fs : Yaffsfs) (room : Nat) (tr : Transfer) :
    OpensNone fs (fs.writePiece room tr).2 := by
  simp only [Yaffsfs.writePiece]
  split
  · exact refl
  · split
    · exact refl
    · exact of_same rfl rfl

theorem advance (fs : Yaffsfs) (room : Nat) (tr : Transfer) :
    OpensNone fs (fs.advance room tr) := by
  simp only [Yaffsfs.advance]
  split
  case isTrue => exact OpensNone.finish fs tr
  case isFalse =>
    have done : OpensNone fs
        (if tr.isWrite then fs.writePiece room tr else (fs.readPiece tr, fs)).2 := by
      split
      · exact OpensNone.writePiece fs room tr
      · exact refl
    generalize (if tr.isWrite then fs.writePiece room tr else (fs.readPiece tr, fs)) = result
      at done ⊢
    split
    · exact done.trans (of_same rfl rfl)
    · exact done.trans (OpensNone.finish _ _)

theorem startRead (fs : Yaffsfs) (handle : Int) (nbyte : Nat) (isPread : Bool) (offset : Int) :
    OpensNone fs (fs.startRead handle nbyte isPread offset) := by
  simp only [Yaffsfs.startRead]
  split
  case h_1 =>
    split
    · exact refl
    · exact (OpensNone.getHandle fs handle).trans (OpensNone.advance _ _ _)
  case h_2 => exact refl

theorem startWrite (fs : Yaffsfs) (handle : Int) (buf : List UInt8) (isPwrite : Bool)
    (offset : Int) (room : Nat) :
    OpensNone fs (fs.startWrite handle buf isPwrite offset room) := by
  simp only [Yaffsfs.startWrite]
  split
  case h_1 =>
    split
    · exact refl
    · exact (OpensNone.getHandle fs handle).trans (OpensNone.advance _ _ _)
  case h_2 => exact refl

theorem resume (fs : Yaffsfs) (index room : Nat) : OpensNone fs (fs.resume index room) := by
  simp only [Yaffsfs.resume]
  split
  case h_1 => exact refl
  case h_2 tr _ =>
    have taken : OpensNone fs { fs with flight := fs.flight.eraseIdx index } := of_same rfl rfl
    exact taken.trans (OpensNone.advance _ _ _)

/-- A handle and a descriptor that have been taken for each other are open on nothing yet. -/
theorem takenFor (fs : Yaffsfs) (h f : Nat) : OpensNone fs (fs.takenFor h f) := by
  have taken : OpensNone fs (fs.setFd f { inodeId := -1, handleCount := 1 }) :=
    OpensNone.setFd f fun _ inodeId => by
      dsimp only at inodeId
      omega
  exact taken.trans (of_same rfl rfl)

end OpensNone

/-- No turn but an open opens anything. -/
theorem opensNone_of_turn (turn : Turn) {clean : Prop} (sound : Sound clean none fs)
    (no_open : ∀ found mode flags, turn ≠ .openFile found mode flags) :
    OpensNone fs (exec turn fs) := by
  cases turn with
  | openFile found mode flags => exact absurd rfl (no_open found mode flags)
  | dup handle =>
    refine OpensNone.yaffsDup fs handle fun f found => ?_
    obtain ⟨h, h_lt, -, used, f_eq, f_lt⟩ := handleToFileDes_eq_some.mp found
    have some_handle : 0 < fs.handlesOf f := handlesOf_pos h_lt used f_eq
    have := (sound.handles f f_lt).1
    omega
  | close handle =>
    simp only [exec, yaffsClose]
    split
    · exact OpensNone.putHandle fs handle
    · exact OpensNone.refl
  | lseek handle offset whence =>
    obtain same | ⟨f, position, moved⟩ := yaffsLseek_cases fs handle offset whence
    · rw [exec, same]
      exact OpensNone.refl
    · rw [exec, moved]
      exact OpensNone.moveTo fs f position
  | resize obj size => exact OpensNone.of_same rfl rfl
  | unlink obj => exact OpensNone.unlinkObj fs obj
  | load obj node => exact OpensNone.load fs obj node
  | mount dev readOnly =>
    simp only [exec, yaffsMount]
    split
    · exact OpensNone.refl
    · exact OpensNone.of_same rfl rfl
  | remount dev force readOnly =>
    simp only [exec, yaffsRemount]
    split
    · exact OpensNone.of_same rfl rfl
    · exact OpensNone.refl
  | unmount2 dev force => exact OpensNone.yaffsUnmount2 fs dev force
  | format dev unmountFlag forceUnmount remount =>
    exact OpensNone.yaffsFormat fs dev unmountFlag forceUnmount remount
  | read handle nbyte isPread offset => exact OpensNone.startRead fs handle nbyte isPread offset
  | write handle buf isPwrite offset room =>
    exact OpensNone.startWrite fs handle buf isPwrite offset room
  | resume index room => exact OpensNone.resume fs index room

/-! ## Opening -/

variable {f index obj h : Nat} {flags : OpenFlags} {clean : Prop}

/-- An object that a descriptor is open on is in memory, if no descriptor is lost. -/
theorem Sound.live_of_openOn {pending : Option Nat} (sound : Sound clean pending fs)
    (is_clean : clean) (on : OpenOn fs f obj) : ∃ node, fs.objs obj = some node := by
  obtain ⟨h, h_lt, used, fd_eq⟩ := sound.handle_of_fd is_clean on.f_lt on.counted
  obtain ⟨index, index_eq, held⟩ := on.held
  have hooked : some f ≠ pending := fun is_pending => by
    have unhooked := sound.unhooked f is_pending.symm
    omega
  have inside := sound.inodeOf f on.f_lt on.counted hooked
  rw [index_eq, inTable_natCast] at inside
  have refers : Refers fs h f index obj :=
    ⟨h_lt, used, fd_eq, on.f_lt, on.counted, index_eq, inside, held⟩
  obtain ⟨node, found, -⟩ := sound.held h obj refers.handleToObject
  exact ⟨node, found⟩

/-- What is open afterwards: the descriptor that has been hooked, and what was open before. -/
theorem Hooked.openOn_iff (hooked : Hooked f index obj fs fs') (sound : InodesSound (some f) fs)
    (f_lt : f < nHandles) (counted : 0 < (fs.fd f).handleCount) {g other : Nat} :
    OpenOn fs' g other ↔ g = f ∧ other = obj ∨ g ≠ f ∧ OpenOn fs g other := by
  constructor
  · intro on
    obtain ⟨j, j_eq, held⟩ := on.held
    by_cases same : g = f
    · left
      rw [same, hooked.inodeId] at j_eq
      obtain rfl : index = j := by omega
      rw [hooked.inode_self] at held
      exact ⟨same, (Option.some.inj held).symm⟩
    · right
      have g_counted := on.counted
      rw [hooked.fd g same] at j_eq g_counted
      refine ⟨same, on.f_lt, g_counted, j, j_eq, ?_⟩
      by_cases on_index : j = index
      · rw [on_index, hooked.inode_self] at held
        have inside : inTable (fs.fd g).inodeId :=
          sound.inodeOf g on.f_lt g_counted fun is_pending => same (Option.some.inj is_pending)
        have counts : 0 < (fs.inode j).count := by
          rw [sound.fds j (on_index ▸ hooked.i_lt)]
          exact fdsOf_pos on.f_lt g_counted j_eq
        have some_obj : (fs.inode j).iObj ≠ none := fun free => by
          have := (sound.iObj j (on_index ▸ hooked.i_lt)).mp free
          omega
        obtain ⟨o, o_eq⟩ := Option.ne_none_iff_exists'.mp some_obj
        rw [o_eq, hooked.own o (on_index ▸ o_eq)]
        exact held
      · rwa [hooked.inode_other on_index] at held
  · rintro (⟨rfl, rfl⟩ | ⟨g_ne, on⟩)
    · refine ⟨f_lt, ?_, index, hooked.inodeId, ?_⟩
      · rwa [hooked.handleCount]
      · rw [hooked.inode_self]
    · obtain ⟨j, j_eq, held⟩ := on.held
      refine ⟨on.f_lt, ?_, j, ?_, ?_⟩
      · rw [hooked.fd g g_ne]
        exact on.counted
      · rwa [hooked.fd g g_ne]
      · by_cases on_index : j = index
        · rw [on_index, hooked.inode_self, hooked.own other (on_index ▸ held)]
        · rwa [hooked.inode_other on_index]

/-- Hooking a descriptor to an object keeps the share modes exactly if it agrees with all
descriptors that are open on the object. -/
theorem Hooked.respected_iff (hooked : Hooked f index obj fs fs')
    (sound : InodesSound (some f) fs) (f_lt : f < nHandles)
    (counted : 0 < (fs.fd f).handleCount) (respected : Respected fs) :
    Respected fs' ↔
      ∀ g, OpenOn fs g obj → (fs'.fd f).modes.Compatible (fs.fd g).modes := by
  have apart (g other : Nat) (on : OpenOn fs g other) : g ≠ f := by
    rintro rfl
    obtain ⟨j, j_eq, -⟩ := on.held
    have unhooked := sound.unhooked g rfl
    omega
  constructor
  · intro kept g on
    have g_ne := apart g obj on
    have f_on : OpenOn fs' f obj := (hooked.openOn_iff sound f_lt counted).mpr (.inl ⟨rfl, rfl⟩)
    have g_on : OpenOn fs' g obj := (hooked.openOn_iff sound f_lt counted).mpr (.inr ⟨g_ne, on⟩)
    rw [← hooked.fd g g_ne]
    exact ⟨kept f g obj g_ne.symm f_on g_on, kept g f obj g_ne g_on f_on⟩
  · intro compatible g k other g_ne g_on k_on
    rcases (hooked.openOn_iff sound f_lt counted).mp g_on with ⟨rfl, rfl⟩ | ⟨g_ne_f, g_on⟩
    · rcases (hooked.openOn_iff sound f_lt counted).mp k_on with ⟨rfl, -⟩ | ⟨k_ne_f, k_on⟩
      · exact absurd rfl g_ne
      · rw [hooked.fd k k_ne_f]
        exact (compatible k k_on).1
    · rw [hooked.fd g g_ne_f]
      rcases (hooked.openOn_iff sound f_lt counted).mp k_on with ⟨rfl, rfl⟩ | ⟨k_ne_f, k_on⟩
      · exact (compatible g g_on).2
      · rw [hooked.fd k k_ne_f]
        exact respected g k other g_ne g_on k_on

/-- The modes of a descriptor that has been hooked to an object are the ones asked for. -/
theorem openObject_modes (sound : InodesSound (some f) fs) (h_lt : h < nHandles)
    (used : 0 < (fs.handle h).useCount) (f_eq : (fs.handle h).fdId = (f : Nat))
    (f_lt : f < nHandles) (obj : Nat) (isDir : Bool) :
    ((fs.openObject h obj isDir flags).2.fd f).modes = flags.modes := by
  obtain ⟨index, -, -, -, hooked⟩ := getInodeIdForObject_cases sound f_lt obj
  have fd_found : (fs.setInode index
      { count := (fs.inode index).count + 1, iObj := some obj }).handleToFileDes h = some f :=
    handleToFileDes_eq_some.mpr ⟨h, h_lt, rfl, used, f_eq, f_lt⟩
  simp only [openObject, hooked]
  rw [fd_found]
  dsimp only
  split <;> exact congrArg FileDes.modes (setFd_fd_self ..)

theorem not_compatible_iff {modes other : Modes} :
    ¬modes.Compatible other ↔
      modes.reading = true ∧ other.shareRead = false ∨
        modes.shareRead = false ∧ other.reading = true ∨
        modes.writing = true ∧ other.shareWrite = false ∨
        modes.shareWrite = false ∧ other.writing = true := by
  simp only [Modes.Compatible, Modes.Allowed, not_and_or, Classical.not_imp, Bool.not_eq_true]
  grind

theorem mem_opened {fd : FileDes} :
    fd ∈ ((List.range nHandles).map fs.fd).filter (fun fd =>
        decide (0 < fd.handleCount ∧ 0 ≤ fd.inodeId ∧
          (fs.inode fd.inodeId.toNat).iObj = some obj)) ↔
      ∃ g, OpenOn fs g obj ∧ fs.fd g = fd := by
  simp only [List.mem_filter, List.mem_map, List.mem_range, decide_eq_true_eq]
  constructor
  · rintro ⟨⟨g, g_lt, rfl⟩, counted, inodeId, held⟩
    exact ⟨g, ⟨g_lt, counted, (fs.fd g).inodeId.toNat, by omega, held⟩, rfl⟩
  · rintro ⟨g, on, rfl⟩
    obtain ⟨index, index_eq, held⟩ := on.held
    refine ⟨⟨g, on.f_lt, rfl⟩, on.counted, by omega, ?_⟩
    rwa [index_eq, Int.toNat_natCast]

/-- Sharing is denied exactly if some descriptor on the object does not agree with what is asked
for. -/
theorem sharingDenied_iff :
    fs.sharingDenied obj flags = true ↔
      ∃ g, OpenOn fs g obj ∧ ¬flags.modes.Compatible (fs.fd g).modes := by
  simp only [sharingDenied, Bool.or_eq_true, Bool.and_eq_true, List.any_eq_true, mem_opened,
    Bool.not_eq_true', not_compatible_iff]
  constructor
  · rintro (((⟨asked, fd, ⟨g, on, rfl⟩, other⟩ | ⟨asked, fd, ⟨g, on, rfl⟩, other⟩) |
      ⟨asked, fd, ⟨g, on, rfl⟩, other⟩) | ⟨asked, fd, ⟨g, on, rfl⟩, other⟩)
    · exact ⟨g, on, .inl ⟨asked, other⟩⟩
    · exact ⟨g, on, .inr (.inl ⟨asked, other⟩)⟩
    · exact ⟨g, on, .inr (.inr (.inl ⟨asked, other⟩))⟩
    · exact ⟨g, on, .inr (.inr (.inr ⟨asked, other⟩))⟩
  · rintro ⟨g, on, ⟨asked, other⟩ | ⟨asked, other⟩ | ⟨asked, other⟩ | ⟨asked, other⟩⟩
    · exact .inl (.inl (.inl ⟨asked, fs.fd g, ⟨g, on, rfl⟩, other⟩))
    · exact .inl (.inl (.inr ⟨asked, fs.fd g, ⟨g, on, rfl⟩, other⟩))
    · exact .inl (.inr ⟨asked, fs.fd g, ⟨g, on, rfl⟩, other⟩)
    · exact .inr ⟨asked, fs.fd g, ⟨g, on, rfl⟩, other⟩

/-- A handle has been taken for a descriptor that is about to be opened. -/
structure Taken (fs : Yaffsfs) (h f : Nat) (taken : Yaffsfs) : Prop where
  h_lt : h < nHandles
  f_lt : f < nHandles
  handle : taken.handle h = { fdId := f, useCount := 1 }
  fd : taken.fd f = { inodeId := -1, handleCount := 1 }
  sound : Sound True (some f) taken
  opens : OpensNone fs taken

theorem Taken.used {taken : Yaffsfs} (start : Taken fs h f taken) :
    0 < (taken.handle h).useCount := by
  rw [start.handle]
  exact zero_lt_one

theorem Taken.counted {taken : Yaffsfs} (start : Taken fs h f taken) :
    0 < (taken.fd f).handleCount := by
  rw [start.fd]
  exact zero_lt_one

theorem taken_of_new {taken : Yaffsfs} (sound : Sound True none fs)
    (new : fs.newHandleAndFileDes = (some h, taken)) : ∃ f, Taken fs h f taken := by
  obtain ⟨none_left, -⟩ | ⟨k, f, k_lt, f_lt, -, free, f_free, eq⟩ := newHandleAndFileDes_cases fs
  · rw [new] at none_left
    cases none_left
  · obtain ⟨⟨⟩, rfl⟩ := Prod.mk.inj (new.symm.trans eq)
    exact ⟨f, k_lt, f_lt, takenFor_handle h f, takenFor_fd h f, sound.of_new k_lt f_lt free f_free,
      OpensNone.takenFor fs h f⟩

/-- Opening an object keeps the share modes exactly if sharing is not denied. -/
theorem Taken.respected_iff {taken : Yaffsfs} (start : Taken fs h f taken)
    (respected : Respected fs) (obj : Nat) (isDir : Bool) (flags : OpenFlags) :
    Respected (taken.openObject h obj isDir flags).2 ↔
      taken.sharingDenied obj flags = false := by
  have f_eq : (taken.handle h).fdId = (f : Nat) := by rw [start.handle]
  obtain ⟨index, hooked⟩ : ∃ index,
      Hooked f index obj taken (taken.openObject h obj isDir flags).2 :=
    openObject_hooked start.sound.toInodesSound start.h_lt start.used f_eq start.f_lt isDir flags
  rw [hooked.respected_iff start.sound.toInodesSound start.f_lt start.counted
    (start.opens.respected respected)]
  rw [openObject_modes start.sound.toInodesSound start.h_lt start.used f_eq start.f_lt]
  rw [← Bool.not_eq_true, sharingDenied_iff]
  simp only [not_exists, not_and, not_not]

/-- No descriptor is open on a file that has just been created. -/
theorem Taken.create {taken made : Yaffsfs} (start : Taken fs h f taken) {found : PathTarget}
    {mode : Nat} (created : taken.createFile found mode flags = some (obj, made)) :
    Taken fs h f made ∧ made.sharingDenied obj flags = false := by
  obtain ⟨dev, mounted, fresh, rfl⟩ := createFile_cases created
  constructor
  · exact
      { start with
        sound := start.sound.of_new_obj fresh mounted
        opens := start.opens.trans (OpensNone.of_same rfl rfl) }
  · rw [← Bool.not_eq_true, sharingDenied_iff]
    rintro ⟨g, on, -⟩
    have before : OpenOn taken g obj := ⟨on.f_lt, on.counted, on.held⟩
    obtain ⟨node, found⟩ := start.sound.live_of_openOn trivial before
    rw [fresh] at found
    cases found

/-- Opening keeps the share modes, whether it succeeds or not. -/
theorem yaffsOpen_respected (sound : Sound True none fs) (respected : Respected fs)
    (found : PathTarget) (mode : Nat) (flags : OpenFlags) :
    Respected (fs.yaffsOpen found mode flags).2 := by
  simp only [yaffsOpen]
  split
  case h_1 none_left =>
    obtain ⟨-, same | ⟨h, -, same⟩⟩ | ⟨h, f, -, -, -, -, -, eq⟩ := newHandleAndFileDes_cases fs
    · rwa [same]
    · rw [same]
      have freed : OpensNone fs (fs.setHandle h { fdId := -1, useCount := 0 }) :=
        OpensNone.of_same rfl rfl
      exact freed.respected respected
    · rw [eq] at none_left
      cases none_left
  case h_2 handle taken_eq =>
    obtain ⟨f, start⟩ : ∃ f, Taken fs handle f fs.newHandleAndFileDes.2 :=
      taken_of_new sound (Prod.ext taken_eq rfl)
    generalize fs.newHandleAndFileDes.2 = taken at start ⊢
    have given_up : Respected (taken.putHandle handle) :=
      (start.opens.trans (OpensNone.putHandle taken handle)).respected respected
    split
    case h_1 obj node _ =>
      split
      case isTrue => exact given_up
      case isFalse allowed =>
        refine (start.respected_iff respected obj node.isDir flags).mpr ?_
        simp only [openDenied, Bool.or_eq_true, not_or, Bool.not_eq_true] at allowed
        exact allowed.2
    case h_2 =>
      split
      case h_1 => exact given_up
      case h_2 obj made created =>
        obtain ⟨start, alone⟩ := start.create created
        exact (start.respected_iff respected obj false flags).mpr alone

/-! ## Runs -/

theorem exec_respected (turn : Turn) (sound : Sound True none fs) (respected : Respected fs) :
    Respected (exec turn fs) := by
  by_cases opens : ∃ found mode flags, turn = .openFile found mode flags
  · obtain ⟨found, mode, flags, rfl⟩ := opens
    exact yaffsOpen_respected sound respected found mode flags
  · refine (opensNone_of_turn turn sound fun found mode flags eq => ?_).respected respected
    exact opens ⟨found, mode, flags, eq⟩

/-- Share modes are respected in every run without mixed forced unmounts. -/
theorem run_respected {turns : List Turn} (unforced : Execution.Guarded exec Unforced turns {}) :
    Respected (Execution.run exec turns {}) := by
  have step : ∀ turn fs, Unforced turn fs → Sound True none fs ∧ Respected fs →
      Sound True none (exec turn fs) ∧ Respected (exec turn fs) :=
    fun turn fs allowed ⟨sound, respected⟩ =>
      ⟨exec_sound turn sound fun _ => allowed, exec_respected turn sound respected⟩
  have nothing_open : Respected {} := fun f _ _ _ on => absurd on.counted (lt_irrefl 0)
  exact (Execution.run_invariant step unforced ⟨initial_sound, nothing_open⟩).2

/-- A call on the files of the devices that are mounted. -/
inductive FileCall
  | mount (dev : Nat) (readOnly : Bool)
  /-- The look-up of a path brings an object into memory. -/
  | load (obj : Nat) (node : FsObj)
  | openSharing (found : PathTarget) (oflag mode sharing : Nat)
  | dup (handle : Int)
  | close (handle : Int)
  /-- The object loses its last name. -/
  | unlink (obj : Nat)
  /-- The object that has had the new name loses its last one, if there is any. -/
  | rename (replaced : Option Nat)

/-- What a call does to the tables.  A rename does nothing to them unless it replaces an object. -/
def FileCall.turn : FileCall → Option Turn
  | .mount dev readOnly => some (.mount dev readOnly)
  | .load obj node => some (.load obj node)
  | .openSharing found oflag mode sharing =>
    some (.openFile found mode (OpenFlags.of oflag sharing))
  | .dup handle => some (.dup handle)
  | .close handle => some (.close handle)
  | .unlink obj => some (.unlink obj)
  | .rename replaced => replaced.map .unlink

/-- State after a call. -/
def FileCall.exec (call : FileCall) (fs : Yaffsfs) : Yaffsfs :=
  (call.turn.map fun turn => Yaffsfs.exec turn fs).getD fs

theorem FileCall.unforced {call : FileCall} {turn : Turn} (is_turn : call.turn = some turn)
    (fs : Yaffsfs) : Unforced turn fs := by
  cases call with
  | rename replaced =>
    obtain ⟨obj, -, rfl⟩ := Option.map_eq_some_iff.mp is_turn
    trivial
  | _ =>
    obtain rfl := Option.some.inj is_turn
    trivial

/-- At any time, of two descriptors on one object each shares what the other does, and an object
that could be opened is refused for its share modes exactly if opening it would end that. -/
theorem share_modes_respected (calls : List FileCall) :
    let fs := Execution.run FileCall.exec calls {}
    Respected fs ∧
      ∀ handle taken, fs.newHandleAndFileDes = (some handle, taken) → ∀ obj isDir flags,
        (taken.sharingDenied obj flags = true ↔
          ¬Respected (taken.openObject handle obj isDir flags).2) := by
  have step : ∀ call fs, True → Sound True none fs ∧ Respected fs →
      Sound True none (FileCall.exec call fs) ∧ Respected (FileCall.exec call fs) := by
    rintro call fs - ⟨sound, respected⟩
    rw [FileCall.exec]
    cases is_turn : call.turn with
    | none => exact ⟨sound, respected⟩
    | some turn =>
      have allowed := FileCall.unforced is_turn fs
      exact ⟨exec_sound turn sound fun _ => allowed, exec_respected turn sound respected⟩
  have nothing_open : Respected {} := fun f _ _ _ on => absurd on.counted (lt_irrefl 0)
  obtain ⟨sound, respected⟩ := Execution.run_invariant step
    (Execution.guarded_true calls {}) ⟨initial_sound, nothing_open⟩
  refine ⟨respected, fun handle taken new obj isDir flags => ?_⟩
  obtain ⟨f, start⟩ := taken_of_new sound new
  rw [start.respected_iff respected obj isDir flags, Bool.not_eq_false]

example :
    let fs := Execution.run FileCall.exec
      [.mount 0 false, .load 1 { myDev := 0 }, .openSharing { obj := some 1 } 0 0 shareReadFlag] {}
    (fs.yaffsOpen { obj := some 1 } 0 (OpenFlags.of oRdWr shareReadFlag)).1 = -1 ∧
      (fs.yaffsOpen { obj := some 1 } 0 (OpenFlags.of 0 shareReadFlag)).1 = 1 := by
  decide +kernel

end Yaffsfs

end Yaffs
