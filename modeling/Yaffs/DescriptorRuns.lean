import Yaffs.DescriptorOpen

/-!
# Runs and the books

Every turn of every thread keeps the books.  A forced unmount breaks the handles of all devices, but
only the descriptors of one: those of the others are lost, unless there are none.
-/

namespace Yaffs

namespace Yaffsfs

open Vfs (inTable handleToPointer)

variable {fs fs' : Yaffsfs} {clean : Prop} {pending : Option Nat}

/-! ## Closing, mounting, loading -/

theorem yaffsClose_sound (sound : Sound clean pending fs) (handle : Int) :
    Sound clean pending (fs.yaffsClose handle).2 := by
  simp only [yaffsClose]
  split
  · exact putHandle_sound sound handle
  · exact sound

/-- Moving the position of a descriptor. -/
theorem sameTables_position (fdId position : Nat) :
    SameTables fs (fs.setFd fdId { fs.fd fdId with position }) where
  use := fun _ => Iff.rfl
  fdId := fun _ _ => rfl
  handleCount := fun g => by
    simp only [setFd, Function.update_apply]
    split
    case isTrue same => rw [same]
    case isFalse => rfl
  inodeId := fun g => by
    simp only [setFd, Function.update_apply]
    split
    case isTrue same => rw [same]
    case isFalse => rfl
  inode := rfl

theorem position_sound (sound : Sound clean pending fs) (fdId position : Nat) :
    Sound clean pending (fs.setFd fdId { fs.fd fdId with position }) :=
  (sameTables_position fdId position).sound_of_objs sound rfl fun _ mounted => mounted

theorem yaffsLseek_cases (fs : Yaffsfs) (handle offset : Int) (whence : Whence) :
    (fs.yaffsLseek handle offset whence).2 = fs ∨ ∃ fdId position,
      (fs.yaffsLseek handle offset whence).2 = fs.setFd fdId { fs.fd fdId with position } := by
  simp only [yaffsLseek, yaffsLseekOf]
  split
  case h_1 fdId _ _ _ =>
    split
    · exact Or.inr ⟨fdId, _, rfl⟩
    · exact Or.inl rfl
  case h_2 => exact Or.inl rfl

theorem yaffsLseek_sound (sound : Sound clean pending fs) (handle offset : Int) (whence : Whence) :
    Sound clean pending (fs.yaffsLseek handle offset whence).2 := by
  obtain same | ⟨fdId, position, moved⟩ := yaffsLseek_cases fs handle offset whence
  · rw [same]
    exact sound
  · rw [moved]
    exact position_sound sound fdId position

/-- A change of what is not in the tables. -/
theorem Sound.of_rest (sound : Sound clean pending fs) {isMounted readOnly : Nat → Bool}
    {flight : List Transfer} (mounted : ∀ dev, fs.isMounted dev → isMounted dev) :
    Sound clean pending { fs with isMounted, readOnly, flight } := by
  have same : SameTables fs { fs with isMounted, readOnly, flight } :=
    ⟨fun _ => Iff.rfl, fun _ _ => rfl, fun _ => rfl, fun _ => rfl, rfl⟩
  exact same.sound_of_objs sound rfl mounted

theorem mounted_update (dev : Nat) (other : Nat) (mounted : fs.isMounted other) :
    Function.update fs.isMounted dev true other := by
  rw [Function.update_apply]
  split
  · rfl
  · exact mounted

theorem yaffsMount_sound (sound : Sound clean pending fs) (dev : Nat) (readOnly : Bool) :
    Sound clean pending (fs.yaffsMount dev readOnly).2 := by
  simp only [yaffsMount]
  split
  · exact sound
  · exact sound.of_rest (mounted_update dev)

theorem yaffsRemount_sound (sound : Sound clean pending fs) (dev : Nat) (force readOnly : Bool) :
    Sound clean pending (fs.yaffsRemount dev force readOnly).2 := by
  simp only [yaffsRemount]
  split
  · exact sound.of_rest fun _ mounted => mounted
  · exact sound

theorem load_sound (sound : Sound clean pending fs) (obj : Nat) (node : FsObj) :
    Sound clean pending (fs.load obj node) := by
  simp only [load]
  split
  case isTrue allowed => exact sound.of_new_obj allowed.2 allowed.1
  case isFalse => exact sound

theorem unlinkObj_sound (sound : Sound clean pending fs) (obj : Nat) :
    Sound clean pending (fs.unlinkObj obj) := by
  simp only [unlinkObj]
  split
  case h_1 => exact sound
  case h_2 node node_eq =>
    split
    case isTrue not_held =>
      refine sound.of_objs (fun other old found hooked => ?_) fun other old found => ?_
      · have other_ne : other ≠ obj := fun same => by
          rw [same, node_eq] at found
          obtain rfl := Option.some.inj found
          exact hooked (Option.isNone_iff_eq_none.mp not_held)
        exact ⟨old, by rw [Function.update_of_ne other_ne]; exact found, hooked⟩
      · rw [Function.update_apply] at found
        split at found
        · cases found
        · exact sound.mounted other old found
    case isFalse => exact sound.modify obj (fun _ => rfl) fun _ hooked => hooked

/-! ## Breaking -/

theorem isDevBusy_iff (dev : Nat) :
    fs.isDevBusy dev ↔ ∃ handle obj, fs.handleToObject handle = some obj ∧
      fs.devOf obj = some dev := by
  simp only [isDevBusy, List.any_eq_true, List.mem_range, Option.any_eq_true, decide_eq_true_eq]
  constructor
  · rintro ⟨h, -, obj, found, on_dev⟩
    exact ⟨h, obj, found, on_dev⟩
  · rintro ⟨handle, obj, found, on_dev⟩
    obtain ⟨h, f, index, rfl, refers⟩ := handleToObject_iff_refers.mp found
    exact ⟨h, refers.h_lt, obj, found, on_dev⟩

/-- What breaking one handle comes to. -/
theorem breakHandle_cases (dev h : Nat) :
    let freed := if 0 < (fs.handle h).useCount then fs.setHandle h { fdId := 0, useCount := 0 }
      else fs
    (fs.breakHandle dev h = freed ∧
      ∀ f index obj, Refers fs h f index obj → fs.devOf obj ≠ some dev) ∨
      ∃ f index obj, Refers fs h f index obj ∧ fs.devOf obj = some dev ∧
        FdDropped f index freed (fs.breakHandle dev h) := by
  intro freed
  have fd_eq : freed.fd = fs.fd := by
    simp only [freed]
    split <;> rfl
  have devOf_eq : freed.devOf = fs.devOf := by
    simp only [freed]
    split <;> rfl
  cases obj_found : fs.handleToObject h with
  | none =>
    left
    constructor
    · unfold breakHandle
      rw [obj_found]
      cases fs.handleToFileDes h with
      | none => rfl
      | some => rfl
    · intro f index obj refers
      rw [refers.handleToObject] at obj_found
      cases obj_found
  | some obj =>
    obtain ⟨k, f, index, k_eq, refers⟩ := handleToObject_iff_refers.mp obj_found
    obtain rfl : h = k := by omega
    have broken : fs.breakHandle dev h =
        if 0 < (freed.fd f).handleCount ∧ freed.devOf obj = some dev then
          let put := (freed.setFd f { freed.fd f with handleCount := 0 }).putInode
            ((freed.setFd f { freed.fd f with handleCount := 0 }).fd f).inodeId
          put.setFd f { put.fd f with inodeId := -1 }
        else freed := by
      unfold breakHandle
      rw [obj_found, refers.handleToFileDes]
    rw [broken, fd_eq, devOf_eq, setFd_fd_self]
    by_cases on_dev : fs.devOf obj = some dev
    · right
      rw [if_pos ⟨refers.counted, on_dev⟩]
      refine ⟨f, index, obj, refers, on_dev, ?_⟩
      dsimp only
      rw [refers.inode_eq]
      exact dropped_of_put refers.i_lt rfl rfl
    · left
      rw [if_neg fun both => on_dev both.2]
      refine ⟨rfl, fun f' index' obj' refers' => ?_⟩
      have same : obj' = obj := by
        have := refers'.handleToObject
        rw [obj_found] at this
        exact (Option.some.inj this).symm
      rw [same]
      exact on_dev

/-- The state when the handles below `next` have been broken, for a device that all open objects are
on if the state is `clean`. -/
structure Breaking (clean : Prop) (dev : Nat) (start : Yaffsfs) (next : Nat) (fs : Yaffsfs) : Prop
    extends InodesSound none fs where
  broken : ∀ h < next, ¬0 < (fs.handle h).useCount
  nonneg : ∀ f < nHandles, 0 ≤ (fs.fd f).handleCount
  mounted : ∀ obj node, fs.objs obj = some node → fs.isMounted node.myDev
  isMounted : fs.isMounted = start.isMounted
  flight : fs.flight = start.flight
  left : clean → ∀ f < nHandles, 0 < (fs.fd f).handleCount →
    ∃ h, next ≤ h ∧ h < nHandles ∧ 0 < (fs.handle h).useCount ∧ (fs.handle h).fdId = (f : Nat)
  alone : clean → ∀ f < nHandles, 0 < (fs.fd f).handleCount →
    ∃ index < nHandles, ∃ obj, (fs.fd f).inodeId = (index : Nat) ∧
      (fs.inode index).iObj = some obj ∧ fs.devOf obj = some dev

/-- All open objects are on the device. -/
def AllOn (dev : Nat) (fs : Yaffsfs) : Prop :=
  ∀ handle obj, fs.handleToObject handle = some obj → fs.devOf obj = some dev

/-- Descriptors in use have handles if none is lost. -/
theorem Sound.handle_of_fd (sound : Sound clean pending fs) (is_clean : clean) {f : Nat}
    (f_lt : f < nHandles) (counted : 0 < (fs.fd f).handleCount) :
    ∃ h < nHandles, 0 < (fs.handle h).useCount ∧ (fs.handle h).fdId = (f : Nat) := by
  have some_handle : 0 < fs.handlesOf f := by
    have := (sound.handles f f_lt).2 is_clean
    omega
  obtain ⟨h, h_mem, used, fd_eq⟩ := (Tally.count_pos_iff _).mp some_handle
  exact ⟨h, Finset.mem_range.mp h_mem, used, fd_eq⟩

/-- A descriptor in use refers to an object. -/
theorem InodesSound.object_of_fd (sound : InodesSound none fs) {f : Nat} (f_lt : f < nHandles)
    (counted : 0 < (fs.fd f).handleCount) :
    ∃ index < nHandles, ∃ obj, (fs.fd f).inodeId = (index : Nat) ∧
      (fs.inode index).iObj = some obj := by
  obtain ⟨index, i_lt, i_eq⟩ := inTable_cases (sound.inodeOf f f_lt counted (by simp))
  have count_pos : 0 < (fs.inode index).count := by
    rw [sound.fds index i_lt]
    exact fdsOf_pos f_lt counted i_eq
  have held : (fs.inode index).iObj ≠ none := fun free => by
    have := (sound.iObj index i_lt).mp free
    omega
  obtain ⟨obj, obj_eq⟩ := Option.ne_none_iff_exists'.mp held
  exact ⟨index, i_lt, obj, i_eq, obj_eq⟩

/-- A handle in use refers to an object. -/
theorem Sound.refers_of_used (sound : Sound clean none fs) {h : Nat} (h_lt : h < nHandles)
    (used : 0 < (fs.handle h).useCount) : ∃ f index obj, Refers fs h f index obj := by
  obtain ⟨f, f_lt, f_eq⟩ := inTable_cases (sound.fdOf h h_lt used)
  have counted : 0 < (fs.fd f).handleCount := by
    have some_handle : 0 < fs.handlesOf f := handlesOf_pos h_lt used f_eq
    have := (sound.handles f f_lt).1
    omega
  obtain ⟨index, i_lt, obj, i_eq, obj_eq⟩ := sound.toInodesSound.object_of_fd f_lt counted
  exact ⟨f, index, obj, h_lt, used, f_eq, f_lt, counted, i_eq, i_lt, obj_eq⟩

theorem Sound.breaking (sound : Sound clean none fs) {dev : Nat} (alone : clean → AllOn dev fs) :
    Breaking clean dev fs 0 fs where
  toInodesSound := sound.toInodesSound
  broken := fun h absurd_lt => absurd absurd_lt (Nat.not_lt_zero h)
  nonneg := fun f f_lt => by
    have := (sound.handles f f_lt).1
    have nonneg : 0 ≤ fs.handlesOf f := handlesOf_nonneg f
    omega
  mounted := sound.mounted
  isMounted := rfl
  flight := rfl
  left := fun is_clean f f_lt counted => by
    obtain ⟨h, h_lt, used, fd_eq⟩ := sound.handle_of_fd is_clean f_lt counted
    exact ⟨h, Nat.zero_le h, h_lt, used, fd_eq⟩
  alone := fun is_clean f f_lt counted => by
    obtain ⟨h, h_lt, used, fd_eq⟩ := sound.handle_of_fd is_clean f_lt counted
    obtain ⟨index, i_lt, obj, i_eq, obj_eq⟩ := sound.toInodesSound.object_of_fd f_lt counted
    have refers : Refers fs h f index obj :=
      ⟨h_lt, used, fd_eq, f_lt, counted, i_eq, i_lt, obj_eq⟩
    exact ⟨index, i_lt, obj, i_eq, obj_eq, alone is_clean h obj refers.handleToObject⟩

/-- One handle more is broken. -/
theorem Breaking.step {dev next : Nat} {start : Yaffsfs}
    (breaking : Breaking clean dev start next fs) :
    Breaking clean dev start (next + 1) (fs.breakHandle dev next) := by
  let freed := if 0 < (fs.handle next).useCount then
    fs.setHandle next { fdId := 0, useCount := 0 } else fs
  have free : ¬0 < (freed.handle next).useCount := by
    simp only [freed]
    split
    case isTrue =>
      rw [setHandle_handle_self]
      exact lt_irrefl 0
    case isFalse not_used => exact not_used
  have handle_other : ∀ k, k ≠ next → freed.handle k = fs.handle k := by
    intro k k_ne
    simp only [freed]
    split
    · exact Function.update_of_ne k_ne ..
    · rfl
  have rest : freed = { fs with handle := freed.handle } := by
    simp only [freed]
    split <;> rfl
  have broken : ∀ h < next + 1, ¬0 < (freed.handle h).useCount := by
    intro h h_lt
    by_cases same : h = next
    · rw [same]
      exact free
    · rw [handle_other h same]
      exact breaking.broken h (by omega)
  have inodes : InodesSound none freed := by
    rw [rest]
    exact { breaking.toInodesSound with }
  have fd_eq : freed.fd = fs.fd := by rw [rest]
  have inode_eq : freed.inode = fs.inode := by rw [rest]
  have objs_eq : freed.objs = fs.objs := by rw [rest]
  have isMounted_eq : freed.isMounted = fs.isMounted := by rw [rest]
  have flight_eq : freed.flight = fs.flight := by rw [rest]
  obtain ⟨eq, not_on⟩ | ⟨f, index, obj, refers, on_dev, dropped⟩ := breakHandle_cases dev next
  · rw [eq]
    refine
      { inodes with
        broken
        nonneg := by rw [fd_eq]; exact breaking.nonneg
        mounted := by rw [objs_eq, isMounted_eq]; exact breaking.mounted
        isMounted := isMounted_eq.trans breaking.isMounted
        flight := flight_eq.trans breaking.flight
        left := fun is_clean f f_lt counted => ?_
        alone := fun is_clean => ?_ }
    · rw [fd_eq] at counted
      obtain ⟨h, next_le, h_lt, used, h_fd⟩ := breaking.left is_clean f f_lt counted
      have h_ne : h ≠ next := fun same => by
        obtain ⟨index, i_lt, obj, i_eq, obj_eq, on_dev⟩ := breaking.alone is_clean f f_lt counted
        rw [same] at h_lt used h_fd
        exact not_on f index obj ⟨h_lt, used, h_fd, f_lt, counted, i_eq, i_lt, obj_eq⟩ on_dev
      refine ⟨h, by omega, h_lt, ?_, ?_⟩
      · rw [handle_other h h_ne]
        exact used
      · rw [handle_other h h_ne]
        exact h_fd
    · unfold devOf
      rw [fd_eq, inode_eq, objs_eq]
      exact breaking.alone is_clean
  · have counted : 0 < (freed.fd f).handleCount := by rw [fd_eq]; exact refers.counted
    have i_eq : (freed.fd f).inodeId = (index : Nat) := by rw [fd_eq]; exact refers.inode_eq
    have others : ∀ g, 0 < ((fs.breakHandle dev next).fd g).handleCount →
        g ≠ f ∧ (fs.breakHandle dev next).fd g = fs.fd g := by
      intro g g_used
      have g_ne : g ≠ f := fun same => by
        rw [same, dropped.handleCount] at g_used
        exact lt_irrefl 0 g_used
      exact ⟨g_ne, by rw [dropped.fd g g_ne, fd_eq]⟩
    refine
      { dropped.inodesSound inodes refers.f_lt counted i_eq refers.i_lt with
        broken := by rw [dropped.handle]; exact broken
        nonneg := fun g g_lt => ?_
        mounted := fun obj' node' found => ?_
        isMounted := by rw [dropped.isMounted, isMounted_eq, breaking.isMounted]
        flight := by rw [dropped.flight, flight_eq, breaking.flight]
        left := fun is_clean g g_lt g_used => ?_
        alone := fun is_clean g g_lt g_used => ?_ }
    · by_cases same : g = f
      · rw [same, dropped.handleCount]
      · rw [dropped.fd g same, fd_eq]
        exact breaking.nonneg g g_lt
    · obtain ⟨node, node_eq, same⟩ := dropped.nodes obj' node' found
      rw [objs_eq] at node_eq
      rw [dropped.isMounted, isMounted_eq, same]
      exact breaking.mounted obj' node node_eq
    · obtain ⟨g_ne, g_eq⟩ := others g g_used
      rw [g_eq] at g_used
      obtain ⟨h, next_le, h_lt, used, h_fd⟩ := breaking.left is_clean g g_lt g_used
      have h_ne : h ≠ next := fun same => by
        have := refers.fd_eq
        rw [same] at h_fd
        omega
      refine ⟨h, by omega, h_lt, ?_, ?_⟩
      · rw [dropped.handle, handle_other h h_ne]
        exact used
      · rw [dropped.handle, handle_other h h_ne]
        exact h_fd
    · obtain ⟨g_ne, g_eq⟩ := others g g_used
      rw [g_eq] at g_used ⊢
      obtain ⟨j, j_lt, obj', j_eq, obj_eq, on_dev'⟩ := breaking.alone is_clean g g_lt g_used
      obtain ⟨obj_eq', objs_same⟩ := dropped.kept inodes refers.f_lt counted i_eq refers.i_lt g_ne
        g_lt (by rw [fd_eq]; exact g_used) (by rw [fd_eq]; exact j_eq) j_lt
        (by rw [inode_eq]; exact obj_eq)
      refine ⟨j, j_lt, obj', j_eq, obj_eq', ?_⟩
      rw [devOf, objs_same, objs_eq]
      exact on_dev'

/-- All handles are broken. -/
theorem breakDeviceHandles_breaking (sound : Sound clean none fs) {dev : Nat}
    (alone : clean → AllOn dev fs) :
    Breaking clean dev fs nHandles (fs.breakDeviceHandles dev) := by
  have so_far : ∀ n, Breaking clean dev fs n
      ((List.range n).foldl (fun fs index => fs.breakHandle dev index) fs) := by
    intro n
    induction n with
    | zero => exact sound.breaking alone
    | succ n ih =>
      rw [List.range_succ, List.foldl_append]
      exact ih.step
  exact so_far nHandles

/-- A forced unmount ends with no handle in use, and keeps the books but for the descriptors that it
loses. -/
theorem Breaking.sound {dev : Nat} {start : Yaffsfs}
    (breaking : Breaking clean dev start nHandles fs) : Sound clean none fs where
  toInodesSound := breaking.toInodesSound
  fdOf := fun h h_lt used => absurd used (breaking.broken h h_lt)
  handles := fun f f_lt => by
    have no_handle : fs.handlesOf f = 0 :=
      (Tally.count_eq_zero_iff _).mpr fun h h_mem used =>
        breaking.broken h (Finset.mem_range.mp h_mem) used.1
    rw [no_handle]
    refine ⟨breaking.nonneg f f_lt, fun is_clean => ?_⟩
    by_contra counted
    obtain ⟨h, h_ge, h_lt, -⟩ := breaking.left is_clean f f_lt (by omega)
    omega
  held := fun handle obj found => by
    obtain ⟨h, f, index, -, refers⟩ := handleToObject_iff_refers.mp found
    exact absurd refers.used (breaking.broken h refers.h_lt)
  mounted := breaking.mounted

theorem breakDeviceHandles_sound (sound : Sound clean none fs) {dev : Nat}
    (alone : clean → AllOn dev fs) : Sound clean none (fs.breakDeviceHandles dev) :=
  (breakDeviceHandles_breaking sound alone).sound

/-- Forgetting the objects of a device that is not busy. -/
theorem deinitialise_sound (sound : Sound clean none fs) {dev : Nat}
    (idle : ∀ handle obj, fs.handleToObject handle = some obj → fs.devOf obj ≠ some dev) :
    Sound clean none (fs.deinitialise dev) := by
  have same : SameTables fs (fs.deinitialise dev) :=
    ⟨fun _ => Iff.rfl, fun _ _ => rfl, fun _ => rfl, fun _ => rfl, rfl⟩
  refine same.sound sound (fun handle obj node found node_eq hooked => ?_) fun obj node found => ?_
  · have other_dev : node.myDev ≠ dev := fun on_dev =>
      idle handle obj found (by rw [devOf, node_eq, Option.map_some, on_dev])
    refine ⟨node, ?_, hooked⟩
    simp [deinitialise, node_eq, other_dev]
  · simp only [deinitialise, Option.filter_eq_some_iff, decide_eq_true_eq] at found
    simp only [deinitialise, Function.update_of_ne found.2]
    exact sound.mounted obj node found.1

/-- A device that a forced unmount leaves the books of the others in peace for: none of its objects is
open, or no object of another device is. -/
def Unmixed (dev : Nat) (fs : Yaffsfs) : Prop := ¬fs.isDevBusy dev ∨ AllOn dev fs

theorem yaffsUnmount2_sound (sound : Sound clean none fs) {dev : Nat} {force : Bool}
    (unmixed : clean → force → Unmixed dev fs) :
    Sound clean none (fs.yaffsUnmount2 dev force).2 := by
  simp only [yaffsUnmount2]
  split
  case isFalse => exact sound
  case isTrue =>
    split
    case isFalse => exact sound
    case isTrue allowed =>
      dsimp only
      cases busy : fs.isDevBusy dev with
      | false =>
        rw [if_neg (by simp)]
        refine deinitialise_sound sound fun handle obj found on_dev => ?_
        have := (isDevBusy_iff dev).mpr ⟨handle, obj, found, on_dev⟩
        rw [busy] at this
        cases this
      | true =>
        rw [if_pos rfl]
        have forced : force := by
          rcases allowed with idle | forced
          · exact absurd busy idle
          · exact forced
        have alone : clean → AllOn dev fs := fun is_clean => by
          rcases unmixed is_clean forced with idle | all_on
          · exact absurd busy idle
          · exact all_on
        have breaking := breakDeviceHandles_breaking sound alone
        refine deinitialise_sound breaking.sound fun handle obj found => ?_
        obtain ⟨h, f, index, -, refers⟩ := handleToObject_iff_refers.mp found
        exact absurd refers.used (breaking.broken h refers.h_lt)

theorem yaffsFormat_sound (sound : Sound clean none fs) {dev : Nat}
    {unmountFlag forceUnmount remount : Bool}
    (unmixed : clean → unmountFlag → forceUnmount → Unmixed dev fs) :
    Sound clean none (fs.yaffsFormat dev unmountFlag forceUnmount remount).2 := by
  have after : Sound clean none
      (if unmountFlag then (fs.yaffsUnmount2 dev forceUnmount).2 else fs) := by
    split
    case isTrue unmount =>
      exact yaffsUnmount2_sound sound fun is_clean => unmixed is_clean unmount
    case isFalse => exact sound
  simp only [yaffsFormat]
  generalize (if unmountFlag then (fs.yaffsUnmount2 dev forceUnmount).2 else fs) = unmounted
    at after ⊢
  split
  · exact after
  · split
    · exact after.of_rest (mounted_update dev)
    · exact after

/-! ## Reading and writing -/

theorem getHandle_same (fs : Yaffsfs) (handle : Int) : SameTables fs (fs.getHandle handle) := by
  simp only [getHandle]
  split
  case h_1 => exact SameTables.refl
  case h_2 h _ =>
    split
    case isFalse => exact SameTables.refl
    case isTrue used =>
      exact
        { use := fun k => by
            simp only [setHandle, Function.update_apply]
            split
            case isTrue same =>
              rw [same]
              dsimp only
              omega
            case isFalse => rfl
          fdId := fun k _ => by
            simp only [setHandle, Function.update_apply]
            split
            case isTrue same => rw [same]
            case isFalse => rfl
          handleCount := fun _ => rfl
          inodeId := fun _ => rfl
          inode := rfl }

theorem getHandle_rest (fs : Yaffsfs) (handle : Int) :
    fs.getHandle handle = { fs with handle := (fs.getHandle handle).handle } := by
  simp only [getHandle]
  split
  · rfl
  · split <;> rfl

theorem getHandle_sound (sound : Sound clean pending fs) (handle : Int) :
    Sound clean pending (fs.getHandle handle) := by
  have rest := getHandle_rest fs handle
  refine (getHandle_same fs handle).sound_of_objs sound (by rw [rest]) fun dev mounted => ?_
  rw [rest]
  exact mounted

theorem finish_cases (fs : Yaffsfs) (tr : Transfer) :
    fs.finish tr = fs.putHandle tr.handle ∨ ∃ position, fs.finish tr =
      (fs.putHandle tr.handle).setFd tr.fdId
        { (fs.putHandle tr.handle).fd tr.fdId with position } := by
  simp only [finish]
  by_cases moves : ¬tr.isP ∧ (if tr.isWrite then 0 < tr.total else 0 ≤ tr.total)
  · rw [if_pos moves]
    exact Or.inr ⟨_, rfl⟩
  · rw [if_neg moves]
    exact Or.inl rfl

theorem finish_sound (sound : Sound clean pending fs) (tr : Transfer) :
    Sound clean pending (fs.finish tr) := by
  have put := putHandle_sound sound tr.handle
  obtain same | ⟨position, moved⟩ := finish_cases fs tr
  · rw [same]
    exact put
  · rw [moved]
    exact position_sound put tr.fdId position

theorem writePiece_sound (sound : Sound clean pending fs) (room : Nat) (tr : Transfer) :
    Sound clean pending (fs.writePiece room tr).2 := by
  simp only [writePiece]
  split
  · exact sound
  · split
    · exact sound
    · exact sound.modify _ (fun _ => rfl) fun _ hooked => hooked

theorem advance_sound (sound : Sound clean pending fs) (room : Nat) (tr : Transfer) :
    Sound clean pending (fs.advance room tr) := by
  simp only [advance]
  split
  case isTrue => exact finish_sound sound tr
  case isFalse =>
    have done : Sound clean pending
        (if tr.isWrite then fs.writePiece room tr else (fs.readPiece tr, fs)).2 := by
      split
      · exact writePiece_sound sound room tr
      · exact sound
    generalize (if tr.isWrite then fs.writePiece room tr else (fs.readPiece tr, fs)) = result
      at done ⊢
    split
    · exact done.of_rest fun _ mounted => mounted
    · exact finish_sound done _

theorem startRead_sound (sound : Sound clean pending fs) (handle : Int) (nbyte : Nat)
    (isPread : Bool) (offset : Int) :
    Sound clean pending (fs.startRead handle nbyte isPread offset) := by
  simp only [startRead]
  split
  case h_1 =>
    split
    · exact sound
    · exact advance_sound (getHandle_sound sound handle) ..
  case h_2 => exact sound

theorem startWrite_sound (sound : Sound clean pending fs) (handle : Int) (buf : List UInt8)
    (isPwrite : Bool) (offset : Int) (room : Nat) :
    Sound clean pending (fs.startWrite handle buf isPwrite offset room) := by
  simp only [startWrite]
  split
  case h_1 =>
    split
    · exact sound
    · exact advance_sound (getHandle_sound sound handle) ..
  case h_2 => exact sound

theorem resume_sound (sound : Sound clean pending fs) (index room : Nat) :
    Sound clean pending (fs.resume index room) := by
  simp only [resume]
  split
  case h_1 => exact sound
  case h_2 => exact advance_sound (sound.of_rest fun _ mounted => mounted) ..

/-! ## Runs -/

/-- A turn that loses no descriptor: a forced unmount does not meet objects of several devices. -/
def Unforced : Turn → Yaffsfs → Prop
  | .unmount2 dev force, fs => force → Unmixed dev fs
  | .format dev unmountFlag forceUnmount _, fs => unmountFlag → forceUnmount → Unmixed dev fs
  | _, _ => True

/-- One turn keeps the books. -/
theorem exec_sound (turn : Turn) (sound : Sound clean none fs)
    (unforced : clean → Unforced turn fs) : Sound clean none (exec turn fs) := by
  cases turn with
  | openFile found mode flags => exact yaffsOpen_sound sound found mode flags
  | dup handle => exact yaffsDup_sound sound handle
  | close handle => exact yaffsClose_sound sound handle
  | lseek handle offset whence => exact yaffsLseek_sound sound handle offset whence
  | resize obj size => exact sound.modify obj (fun _ => rfl) fun _ hooked => hooked
  | unlink obj => exact unlinkObj_sound sound obj
  | load obj node => exact load_sound sound obj node
  | mount dev readOnly => exact yaffsMount_sound sound dev readOnly
  | remount dev force readOnly => exact yaffsRemount_sound sound dev force readOnly
  | unmount2 dev force => exact yaffsUnmount2_sound sound unforced
  | format dev unmountFlag forceUnmount remount => exact yaffsFormat_sound sound unforced
  | read handle nbyte isPread offset => exact startRead_sound sound handle nbyte isPread offset
  | write handle buf isPwrite offset room =>
    exact startWrite_sound sound handle buf isPwrite offset room
  | resume index room => exact resume_sound sound index room

/-- Nothing is open, mounted or in memory at first. -/
theorem initial_sound : Sound clean none {} where
  inodeOf := fun _ _ used => absurd used (lt_irrefl 0)
  unhooked := fun _ absurd_none => by cases absurd_none
  fds := fun index _ => by
    have none_used : fdsOf {} index = 0 :=
      (Tally.count_eq_zero_iff _).mpr fun f _ used => lt_irrefl 0 used.1
    rw [none_used]
  iObj := fun _ _ => iff_of_true rfl rfl
  unique := fun _ _ _ _ _ absurd_held => by cases absurd_held
  fdOf := fun _ _ used => absurd used (lt_irrefl 0)
  handles := fun f _ => by
    have none_used : handlesOf {} f = 0 :=
      (Tally.count_eq_zero_iff _).mpr fun h _ used => lt_irrefl 0 used.1
    rw [none_used]
    exact ⟨le_refl 0, fun _ => le_refl 0⟩
  held := fun handle obj found => by
    obtain ⟨h, f, index, -, refers⟩ := handleToObject_iff_refers.mp found
    exact absurd refers.used (lt_irrefl 0)
  mounted := fun _ _ absurd_found => by cases absurd_found

/-- No state that any run reaches has a handle without a descriptor or an object. -/
theorem run_sound (turns : List Turn) : Sound False none (Execution.run exec turns {}) := by
  have step : ∀ turn fs, True → Sound False none fs → Sound False none (exec turn fs) :=
    fun turn fs _ sound => exec_sound turn sound fun absurd_clean => absurd_clean.elim
  exact Execution.run_invariant step (Execution.guarded_true turns _) initial_sound

/-- No state that a run without mixed forced unmounts reaches has lost a descriptor. -/
theorem run_sound_of_unforced {turns : List Turn}
    (unforced : Execution.Guarded exec Unforced turns {}) :
    Sound True none (Execution.run exec turns {}) := by
  have step : ∀ turn fs, Unforced turn fs → Sound True none fs → Sound True none (exec turn fs) :=
    fun turn fs allowed sound => exec_sound turn sound fun _ => allowed
  exact Execution.run_invariant step unforced initial_sound

end Yaffsfs

end Yaffs
