import Yaffs.DescriptorRuns

/-!
# Forced unmounts

A forced unmount should break the handles of its own device only.  It breaks all handles, and lets go
of the descriptors of its own device only, so that it does what it should just when all open objects
are on that device, or none is.
-/

namespace Yaffs

namespace Yaffsfs

variable {fs : Yaffsfs}

/-- The handles of the other devices outlive a forced unmount, and no descriptor or inode is in use
afterwards without a handle that refers to it. -/
structure Isolated (dev : Nat) (fs : Yaffsfs) : Prop where
  others : ∀ handle fdId obj, fs.handleToFileDes handle = some fdId →
    fs.handleToObject handle = some obj → fs.devOf obj ≠ some dev →
      (fs.yaffsUnmount2 dev true).2.handleToFileDes handle = some fdId ∧
        (fs.yaffsUnmount2 dev true).2.handleToObject handle = some obj ∧
        ((fs.yaffsUnmount2 dev true).2.fd fdId).position = (fs.fd fdId).position
  fds : ∀ fdId < nHandles, 0 < ((fs.yaffsUnmount2 dev true).2.fd fdId).handleCount →
    ∃ handle, (fs.yaffsUnmount2 dev true).2.handleToFileDes handle = some fdId
  inodes : ∀ index < nHandles, ((fs.yaffsUnmount2 dev true).2.inode index).count ≠ 0 ∨
      ((fs.yaffsUnmount2 dev true).2.inode index).iObj ≠ none →
    ∃ handle, (fs.yaffsUnmount2 dev true).2.handleToInode handle = some index

/-- A forced unmount of a device whose objects are open. -/
theorem unmount_of_busy {dev : Nat} (mounted : fs.isMounted dev) (busy : fs.isDevBusy dev) :
    (fs.yaffsUnmount2 dev true).2 = (fs.breakDeviceHandles dev).deinitialise dev := by
  simp only [yaffsUnmount2, if_pos mounted, or_true, if_true, if_pos busy]

/-- A forced unmount of a device none of whose objects is open. -/
theorem unmount_of_idle {dev : Nat} (mounted : fs.isMounted dev) (idle : ¬fs.isDevBusy dev) :
    (fs.yaffsUnmount2 dev true).2 = fs.deinitialise dev := by
  simp only [yaffsUnmount2, if_pos mounted, or_true, if_true, if_neg idle]

/-- An open object is on a mounted device. -/
theorem Sound.mounted_of_busy (sound : Sound True none fs) {dev : Nat} (busy : fs.isDevBusy dev) :
    fs.isMounted dev := by
  obtain ⟨handle, obj, found, on_dev⟩ := (isDevBusy_iff dev).mp busy
  obtain ⟨node, node_eq, -⟩ := sound.held handle obj found
  rw [devOf, node_eq] at on_dev
  rw [← Option.some.inj on_dev]
  exact sound.mounted obj node node_eq

/-- Every descriptor in use has a handle if none is lost. -/
theorem Sound.fd_has_handle (sound : Sound True none fs) {fdId : Nat} (f_lt : fdId < nHandles)
    (counted : 0 < (fs.fd fdId).handleCount) :
    ∃ handle, fs.handleToFileDes handle = some fdId := by
  obtain ⟨h, h_lt, used, fd_eq⟩ := sound.handle_of_fd trivial f_lt counted
  exact ⟨h, handleToFileDes_eq_some.mpr ⟨h, h_lt, rfl, used, fd_eq, f_lt⟩⟩

/-- Every inode in use has a handle if no descriptor is lost. -/
theorem Sound.inode_has_handle (sound : Sound True none fs) {index : Nat} (i_lt : index < nHandles)
    (used : (fs.inode index).count ≠ 0 ∨ (fs.inode index).iObj ≠ none) :
    ∃ handle, fs.handleToInode handle = some index := by
  have not_zero : (fs.inode index).count ≠ 0 := by
    rcases used with not_zero | held
    · exact not_zero
    · exact fun zero => held ((sound.iObj index i_lt).mpr zero)
  have some_fd : 0 < fs.fdsOf index := by
    have nonneg : 0 ≤ fs.fdsOf index := fdsOf_nonneg index
    rw [sound.fds index i_lt] at not_zero
    omega
  obtain ⟨f, f_mem, counted, inode_eq⟩ := (Tally.count_pos_iff _).mp some_fd
  obtain ⟨handle, fd_eq⟩ := sound.fd_has_handle (Finset.mem_range.mp f_mem) counted
  exact ⟨handle, handleToInode_eq_some.mpr ⟨f, fd_eq, counted, inode_eq, i_lt⟩⟩

/-- The handles of the other devices outlive an unmixed forced unmount. -/
theorem Unmixed.others_kept {dev : Nat} (unmixed : Unmixed dev fs)
    {handle : Int} {fdId obj : Nat} (fd_eq : fs.handleToFileDes handle = some fdId)
    (obj_eq : fs.handleToObject handle = some obj) (elsewhere : fs.devOf obj ≠ some dev) :
    (fs.yaffsUnmount2 dev true).2.handleToFileDes handle = some fdId ∧
      (fs.yaffsUnmount2 dev true).2.handleToObject handle = some obj ∧
      ((fs.yaffsUnmount2 dev true).2.fd fdId).position = (fs.fd fdId).position := by
  have idle : ¬fs.isDevBusy dev := by
    rcases unmixed with idle | all_on
    · exact idle
    · exact absurd (all_on handle obj obj_eq) elsewhere
  by_cases mounted : fs.isMounted dev
  · rw [unmount_of_idle mounted idle]
    exact ⟨fd_eq, obj_eq, rfl⟩
  · have same : (fs.yaffsUnmount2 dev true).2 = fs := by
      simp only [yaffsUnmount2, if_neg mounted]
    rw [same]
    exact ⟨fd_eq, obj_eq, rfl⟩

/-- No handle outlives a forced unmount of a device whose objects are open. -/
theorem Sound.none_kept (sound : Sound True none fs) {dev : Nat} (busy : fs.isDevBusy dev)
    (handle : Int) : (fs.yaffsUnmount2 dev true).2.handleToFileDes handle = none := by
  have lossy : Sound False none fs := { sound with
    handles := fun f f_lt => ⟨(sound.handles f f_lt).1, fun absurd_clean => absurd_clean.elim⟩ }
  have breaking : Breaking False dev fs nHandles (fs.breakDeviceHandles dev) :=
    breakDeviceHandles_breaking lossy fun absurd_clean => absurd_clean.elim
  rw [unmount_of_busy (sound.mounted_of_busy busy) busy]
  generalize fs.breakDeviceHandles dev = broken at breaking
  refine Option.eq_none_iff_forall_ne_some.mpr fun fdId found => ?_
  obtain ⟨h, h_lt, -, used, -⟩ := handleToFileDes_eq_some.mp found
  exact breaking.broken h h_lt used

/-- Forced unmounts are isolated exactly when they are not mixed: in every state that a run without
mixed forced unmounts reaches, the next forced unmount leaves the handles of the other devices alone
and loses no descriptor and no inode if and only if none of the objects of its device is open, or all
open objects are on it. -/
theorem isolated_iff_unmixed {turns : List Turn}
    (unforced : Execution.Guarded exec Unforced turns {}) (dev : Nat) :
    Isolated dev (Execution.run exec turns {}) ↔ Unmixed dev (Execution.run exec turns {}) := by
  have sound : Sound True none (Execution.run exec turns {}) := run_sound_of_unforced unforced
  generalize Execution.run exec turns {} = fs at sound
  constructor
  · intro isolated
    by_cases busy : fs.isDevBusy dev
    case neg => exact Or.inl busy
    refine Or.inr fun handle obj obj_eq => ?_
    by_contra elsewhere
    obtain ⟨h, fdId, index, rfl, refers⟩ := handleToObject_iff_refers.mp obj_eq
    have kept := (isolated.others h fdId obj refers.handleToFileDes obj_eq elsewhere).1
    rw [sound.none_kept busy] at kept
    cases kept
  · intro unmixed
    have after : Sound True none (fs.yaffsUnmount2 dev true).2 :=
      yaffsUnmount2_sound sound fun _ _ => unmixed
    exact
      { others := fun handle fdId obj => unmixed.others_kept
        fds := fun fdId => after.fd_has_handle
        inodes := fun index => after.inode_has_handle }

/-- Open for reading. -/
def readFlags : OpenFlags := OpenFlags.of 0 (shareReadFlag ||| shareWriteFlag)

/-- Open for writing. -/
def writeFlags : OpenFlags := OpenFlags.of oRdWr (shareReadFlag ||| shareWriteFlag)

theorem isolated_single_device :
    Isolated 0 (Execution.run exec
      [.mount 0 false, .mount 1 false, .load 7 { myDev := 0 }, .load 8 { myDev := 1 },
        .openFile { obj := some 7 } 0 readFlags, .dup 0] {}) := by
  refine (isolated_iff_unmixed (by simp [Execution.Guarded, Unforced]) 0).mpr
    (Or.inr fun handle obj found => ?_)
  have checked : ∀ h < nHandles, ((Execution.run exec
      [.mount 0 false, .mount 1 false, .load 7 { myDev := 0 }, .load 8 { myDev := 1 },
        .openFile { obj := some 7 } 0 readFlags, .dup 0] {}).handleToObject (h : Nat)).all
          (fun obj => decide (obj = 7)) := by decide +kernel
  obtain ⟨h, fdId, index, rfl, refers⟩ := handleToObject_iff_refers.mp found
  have is_seven := checked h refers.h_lt
  rw [found] at is_seven
  obtain rfl : obj = 7 := of_decide_eq_true is_seven
  decide +kernel

/-- A forced unmount of one of two devices with open files breaks the handle of the other. -/
theorem not_isolated_of_two_devices :
    ¬Isolated 0 (Execution.run exec
      [.mount 0 false, .mount 1 false, .load 7 { myDev := 0 }, .load 8 { myDev := 1 },
        .openFile { obj := some 7 } 0 readFlags, .openFile { obj := some 8 } 0 readFlags] {}) := by
  intro isolated
  have kept := (isolated.others 1 1 8 (by decide +kernel) (by decide +kernel) (by decide +kernel)).1
  revert kept
  decide +kernel

end Yaffsfs

end Yaffs
