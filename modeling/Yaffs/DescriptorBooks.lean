import Yaffs.Transfers
import Yaffs.Library.Tally

/-!
# Books of the descriptor tables

A descriptor counts its handles and an inode counts its descriptors.  The counts of the inodes are
exact in every state.  Those of the descriptors are exact as long as no forced unmount has lost a
descriptor, and are never too small.
-/

namespace Yaffs

namespace Yaffsfs

open Vfs (inTable handleToPointer)

variable (fs : Yaffsfs)

/-- Number of handles in use of a descriptor. -/
def handlesOf (fdId : Nat) : Int :=
  Tally.count (Finset.range nHandles) fun h =>
    0 < (fs.handle h).useCount ∧ (fs.handle h).fdId = fdId

/-- Number of descriptors in use of an inode. -/
def fdsOf (inodeId : Nat) : Int :=
  Tally.count (Finset.range nHandles) fun fdId =>
    0 < (fs.fd fdId).handleCount ∧ (fs.fd fdId).inodeId = inodeId

/-- The descriptors in use have inodes, which count them and hold an object each.  A descriptor that
is still to be hooked to its object may be pending. -/
structure InodesSound (pending : Option Nat) (fs : Yaffsfs) : Prop where
  inodeOf : ∀ fdId < nHandles, 0 < (fs.fd fdId).handleCount → some fdId ≠ pending →
    inTable (fs.fd fdId).inodeId
  unhooked : ∀ fdId, pending = some fdId → (fs.fd fdId).inodeId = -1
  fds : ∀ index < nHandles, (fs.inode index).count = fs.fdsOf index
  iObj : ∀ index < nHandles, (fs.inode index).iObj = none ↔ (fs.inode index).count = 0
  unique : ∀ index < nHandles, ∀ other < nHandles, ∀ obj,
    (fs.inode index).iObj = some obj → (fs.inode other).iObj = some obj → index = other

/-- The handles in use have descriptors, which count them, and hold objects that are in memory.  The
descriptors that are in use without a handle are lost; there are none if the state is `clean`. -/
structure Sound (clean : Prop) (pending : Option Nat) (fs : Yaffsfs) : Prop
    extends InodesSound pending fs where
  fdOf : ∀ h < nHandles, 0 < (fs.handle h).useCount → inTable (fs.handle h).fdId
  handles : ∀ fdId < nHandles, fs.handlesOf fdId ≤ (fs.fd fdId).handleCount ∧
    (clean → (fs.fd fdId).handleCount ≤ fs.handlesOf fdId)
  held : ∀ handle obj, fs.handleToObject handle = some obj →
    ∃ node, fs.objs obj = some node ∧ node.myInode ≠ none
  mounted : ∀ obj node, fs.objs obj = some node → fs.isMounted node.myDev

/-! ## Looking up a handle -/

@[simp]
theorem setFd_fd_self (fdId : Nat) (fd : FileDes) : (fs.setFd fdId fd).fd fdId = fd :=
  Function.update_self ..

@[simp]
theorem setHandle_fd (h : Nat) (handle : Handle) : (fs.setHandle h handle).fd = fs.fd := rfl

@[simp]
theorem setHandle_handle_self (h : Nat) (handle : Handle) :
    (fs.setHandle h handle).handle h = handle :=
  Function.update_self ..

theorem inTable_iff (index : Int) : inTable index ↔ 0 ≤ index ∧ index < nHandles := by
  simp [inTable]

theorem inTable_natCast (index : Nat) : inTable index ↔ index < nHandles := by
  rw [inTable_iff]
  omega

theorem inTable_cases {index : Int} (inside : inTable index) :
    ∃ i < nHandles, index = (i : Nat) := by
  rw [inTable_iff] at inside
  exact ⟨index.toNat, by omega, by omega⟩

variable {fs}

theorem handleToFileDes_eq_some {handle : Int} {fdId : Nat} :
    fs.handleToFileDes handle = some fdId ↔
      ∃ h < nHandles, handle = (h : Nat) ∧ 0 < (fs.handle h).useCount ∧
        (fs.handle h).fdId = fdId ∧ fdId < nHandles := by
  simp only [handleToFileDes, handleToPointer]
  by_cases inside : inTable handle
  case neg =>
    rw [if_neg inside]
    constructor
    · intro absurd_found
      cases absurd_found
    · rintro ⟨h, h_lt, rfl, -⟩
      exact absurd ((inTable_natCast h).mpr h_lt) inside
  case pos =>
    rw [if_pos inside]
    obtain ⟨h, h_lt, rfl⟩ := inTable_cases inside
    simp only [Int.toNat_natCast]
    constructor
    · intro found
      split at found
      case isTrue used =>
        obtain ⟨f, f_lt, f_eq⟩ := inTable_cases used.2
        have same : f = fdId := by
          have := Option.some.inj found
          omega
        subst same
        exact ⟨h, h_lt, rfl, used.1, f_eq, f_lt⟩
      case isFalse => cases found
    · rintro ⟨h', _, same, used, f_eq, f_lt⟩
      have : h' = h := by omega
      subst this
      rw [if_pos ⟨used, by rw [f_eq]; exact (inTable_natCast fdId).mpr f_lt⟩, f_eq]
      rfl

theorem handleToInode_eq_some {handle : Int} {index : Nat} :
    fs.handleToInode handle = some index ↔
      ∃ fdId, fs.handleToFileDes handle = some fdId ∧ 0 < (fs.fd fdId).handleCount ∧
        (fs.fd fdId).inodeId = index ∧ index < nHandles := by
  simp only [handleToInode]
  cases fs.handleToFileDes handle with
  | none => simp
  | some fdId =>
    simp only [Option.some.injEq]
    constructor
    · intro found
      split at found
      case isTrue used =>
        obtain ⟨i, i_lt, i_eq⟩ := inTable_cases used.2
        have same : i = index := by
          have := Option.some.inj found
          omega
        subst same
        exact ⟨fdId, rfl, used.1, i_eq, i_lt⟩
      case isFalse => cases found
    · rintro ⟨_, rfl, used, i_eq, i_lt⟩
      rw [if_pos ⟨used, by rw [i_eq]; exact (inTable_natCast index).mpr i_lt⟩, i_eq]
      rfl

theorem handleToObject_eq_some {handle : Int} {obj : Nat} :
    fs.handleToObject handle = some obj ↔
      ∃ index, fs.handleToInode handle = some index ∧ (fs.inode index).iObj = some obj := by
  simp only [handleToObject, Option.bind_eq_some_iff]

/-- A handle refers to an object through a descriptor and an inode. -/
structure Refers (fs : Yaffsfs) (h fdId index obj : Nat) : Prop where
  h_lt : h < nHandles
  used : 0 < (fs.handle h).useCount
  fd_eq : (fs.handle h).fdId = fdId
  f_lt : fdId < nHandles
  counted : 0 < (fs.fd fdId).handleCount
  inode_eq : (fs.fd fdId).inodeId = index
  i_lt : index < nHandles
  obj_eq : (fs.inode index).iObj = some obj

theorem handleToObject_iff_refers {handle : Int} {obj : Nat} :
    fs.handleToObject handle = some obj ↔
      ∃ h fdId index, handle = (h : Nat) ∧ Refers fs h fdId index obj := by
  rw [handleToObject_eq_some]
  constructor
  · rintro ⟨index, inode_eq, obj_eq⟩
    obtain ⟨fdId, fd_eq, counted, i_eq, i_lt⟩ := handleToInode_eq_some.mp inode_eq
    obtain ⟨h, h_lt, rfl, used, f_eq, f_lt⟩ := handleToFileDes_eq_some.mp fd_eq
    exact ⟨h, fdId, index, rfl, h_lt, used, f_eq, f_lt, counted, i_eq, i_lt, obj_eq⟩
  · rintro ⟨h, fdId, index, rfl, refers⟩
    exact ⟨index, handleToInode_eq_some.mpr ⟨fdId, handleToFileDes_eq_some.mpr
      ⟨h, refers.h_lt, rfl, refers.used, refers.fd_eq, refers.f_lt⟩,
      refers.counted, refers.inode_eq, refers.i_lt⟩, refers.obj_eq⟩

theorem Refers.handleToObject {h fdId index obj : Nat} (refers : Refers fs h fdId index obj) :
    fs.handleToObject h = some obj :=
  handleToObject_iff_refers.mpr ⟨h, fdId, index, rfl, refers⟩

theorem Refers.handleToFileDes {h fdId index obj : Nat} (refers : Refers fs h fdId index obj) :
    fs.handleToFileDes h = some fdId :=
  handleToFileDes_eq_some.mpr ⟨h, refers.h_lt, rfl, refers.used, refers.fd_eq, refers.f_lt⟩

/-! ## Counting -/

variable {fs' : Yaffsfs}

theorem handlesOf_nonneg (fdId : Nat) : 0 ≤ fs.handlesOf fdId := Tally.count_nonneg _

theorem fdsOf_nonneg (index : Nat) : 0 ≤ fs.fdsOf index := Tally.count_nonneg _

theorem handlesOf_pos {h fdId : Nat} (h_lt : h < nHandles) (used : 0 < (fs.handle h).useCount)
    (fd_eq : (fs.handle h).fdId = fdId) : 0 < fs.handlesOf fdId :=
  (Tally.count_pos_iff _).mpr ⟨h, Finset.mem_range.mpr h_lt, used, fd_eq⟩

theorem fdsOf_pos {fdId index : Nat} (f_lt : fdId < nHandles)
    (used : 0 < (fs.fd fdId).handleCount) (inode_eq : (fs.fd fdId).inodeId = index) :
    0 < fs.fdsOf index :=
  (Tally.count_pos_iff _).mpr ⟨fdId, Finset.mem_range.mpr f_lt, used, inode_eq⟩

/-- Number of handles of a descriptor after one handle has changed. -/
theorem handlesOf_of_agree {h : Nat} (h_lt : h < nHandles)
    (agree : ∀ other, other ≠ h → fs'.handle other = fs.handle other) (fdId : Nat) :
    fs'.handlesOf fdId = fs.handlesOf fdId +
      ((if 0 < (fs'.handle h).useCount ∧ (fs'.handle h).fdId = fdId then 1 else 0) -
        (if 0 < (fs.handle h).useCount ∧ (fs.handle h).fdId = fdId then 1 else 0)) := by
  refine Tally.count_of_agree (Finset.mem_range.mpr h_lt) fun other _ other_ne => ?_
  rw [agree other other_ne]

/-- Number of descriptors of an inode after one descriptor has changed. -/
theorem fdsOf_of_agree {fdId : Nat} (f_lt : fdId < nHandles)
    (agree : ∀ other, other ≠ fdId → fs'.fd other = fs.fd other) (index : Nat) :
    fs'.fdsOf index = fs.fdsOf index +
      ((if 0 < (fs'.fd fdId).handleCount ∧ (fs'.fd fdId).inodeId = index then 1 else 0) -
        (if 0 < (fs.fd fdId).handleCount ∧ (fs.fd fdId).inodeId = index then 1 else 0)) := by
  refine Tally.count_of_agree (Finset.mem_range.mpr f_lt) fun other _ other_ne => ?_
  rw [agree other other_ne]

/-- The tables say the same about who refers to what. -/
structure SameTables (fs fs' : Yaffsfs) : Prop where
  use : ∀ h, 0 < (fs'.handle h).useCount ↔ 0 < (fs.handle h).useCount
  fdId : ∀ h, 0 < (fs.handle h).useCount → (fs'.handle h).fdId = (fs.handle h).fdId
  handleCount : ∀ f, (fs'.fd f).handleCount = (fs.fd f).handleCount
  inodeId : ∀ f, (fs'.fd f).inodeId = (fs.fd f).inodeId
  inode : fs'.inode = fs.inode

namespace SameTables

theorem refl : SameTables fs fs :=
  ⟨fun _ => Iff.rfl, fun _ _ => rfl, fun _ => rfl, fun _ => rfl, rfl⟩

theorem handlesOf (same : SameTables fs fs') (fdId : Nat) :
    fs'.handlesOf fdId = fs.handlesOf fdId :=
  Tally.count_congr fun h _ => by
    rw [same.use h]
    exact and_congr_right fun used => by rw [same.fdId h used]

theorem fdsOf (same : SameTables fs fs') (index : Nat) : fs'.fdsOf index = fs.fdsOf index :=
  Tally.count_congr fun f _ => by rw [same.handleCount f, same.inodeId f]

theorem handleToFileDes (same : SameTables fs fs') (handle : Int) :
    fs'.handleToFileDes handle = fs.handleToFileDes handle := by
  refine Option.ext fun fdId => ?_
  simp only [handleToFileDes_eq_some, same.use]
  refine exists_congr fun h => and_congr_right fun _ => and_congr_right fun _ =>
    and_congr_right fun used => ?_
  rw [same.fdId h used]

theorem handleToInode (same : SameTables fs fs') (handle : Int) :
    fs'.handleToInode handle = fs.handleToInode handle := by
  simp only [Yaffsfs.handleToInode, same.handleToFileDes, same.handleCount, same.inodeId]

theorem handleToObject (same : SameTables fs fs') (handle : Int) :
    fs'.handleToObject handle = fs.handleToObject handle := by
  simp only [Yaffsfs.handleToObject, same.handleToInode, same.inode]

theorem inodesSound (same : SameTables fs fs') {pending : Option Nat}
    (sound : InodesSound pending fs) : InodesSound pending fs' where
  inodeOf := fun f f_lt used => by
    rw [same.inodeId f]
    exact sound.inodeOf f f_lt (by rwa [same.handleCount f] at used)
  unhooked := fun f f_eq => by
    rw [same.inodeId f]
    exact sound.unhooked f f_eq
  fds := fun index index_lt => by
    rw [same.inode, same.fdsOf]
    exact sound.fds index index_lt
  iObj := by
    rw [same.inode]
    exact sound.iObj
  unique := by
    rw [same.inode]
    exact sound.unique

/-- The books stay right if the tables do and no object in use gets lost. -/
theorem sound (same : SameTables fs fs') {clean : Prop} {pending : Option Nat}
    (sound : Sound clean pending fs)
    (held : ∀ handle obj node, fs.handleToObject handle = some obj → fs.objs obj = some node →
      node.myInode ≠ none → ∃ node', fs'.objs obj = some node' ∧ node'.myInode ≠ none)
    (mounted : ∀ obj node, fs'.objs obj = some node → fs'.isMounted node.myDev) :
    Sound clean pending fs' where
  toInodesSound := same.inodesSound sound.toInodesSound
  fdOf := fun h h_lt used => by
    rw [same.fdId h ((same.use h).mp used)]
    exact sound.fdOf h h_lt ((same.use h).mp used)
  handles := fun f f_lt => by
    rw [same.handlesOf, same.handleCount]
    exact sound.handles f f_lt
  held := fun handle obj found => by
    rw [same.handleToObject] at found
    obtain ⟨node, node_eq, hooked⟩ := sound.held handle obj found
    exact held handle obj node found node_eq hooked
  mounted := mounted

end SameTables

/-! ## Letting go -/

/-- An inode has lost one of its descriptors.  With the last one it lets go of its object. -/
structure InodePut (index : Nat) (fs fs' : Yaffsfs) : Prop where
  handle : fs'.handle = fs.handle
  fd : fs'.fd = fs.fd
  isMounted : fs'.isMounted = fs.isMounted
  readOnly : fs'.readOnly = fs.readOnly
  flight : fs'.flight = fs.flight
  inode : fs'.inode = Function.update fs.inode index
    (if (fs.inode index).count ≤ 1 then {}
      else { fs.inode index with count := (fs.inode index).count - 1 })
  objs : ∀ obj, (1 < (fs.inode index).count ∨ (fs.inode index).iObj ≠ some obj) →
    fs'.objs obj = fs.objs obj
  nodes : ∀ obj node', fs'.objs obj = some node' →
    ∃ node, fs.objs obj = some node ∧ node' = { node with myInode := node'.myInode }

theorem modify_nodes {obj : Nat} {change : FsObj → FsObj} {other : Nat} {node' : FsObj}
    (found : (fs.modify obj change).objs other = some node') :
    ∃ node, fs.objs other = some node ∧ node' = if other = obj then change node else node := by
  simp only [modify, Function.update_apply] at found
  split at found
  case isTrue same =>
    subst same
    obtain ⟨node, node_eq, rfl⟩ := Option.map_eq_some_iff.mp found
    exact ⟨node, node_eq, (if_pos rfl).symm⟩
  case isFalse differs => exact ⟨node', found, (if_neg differs).symm⟩

theorem putInode_put {index : Nat} (i_lt : index < nHandles) :
    InodePut index fs (fs.putInode index) := by
  simp only [putInode, if_pos ((inTable_natCast index).mpr i_lt), Int.toNat_natCast, setInode]
  by_cases last : (fs.inode index).count - 1 ≤ 0
  case neg =>
    rw [if_neg last]
    exact
      { handle := rfl
        fd := rfl
        isMounted := rfl
        readOnly := rfl
        flight := rfl
        inode := by rw [if_neg (by omega)]
        objs := fun _ _ => rfl
        nodes := fun _ node' found => ⟨node', found, rfl⟩ }
  case pos =>
    rw [if_pos last]
    have last' : (fs.inode index).count ≤ 1 := by omega
    simp only [releaseInode, Function.update_self]
    cases held : (fs.inode index).iObj with
    | none =>
      exact
        { handle := rfl
          fd := rfl
          isMounted := rfl
          readOnly := rfl
          flight := rfl
          inode := by simp [last']
          objs := fun _ _ => rfl
          nodes := fun _ node' found => ⟨node', found, rfl⟩ }
    | some obj =>
      dsimp only
      split
      case isTrue =>
        refine
          { handle := rfl
            fd := rfl
            isMounted := rfl
            readOnly := rfl
            flight := rfl
            inode := by simp [setInode, modify, last']
            objs := fun other differs => ?_
            nodes := fun other node' found => ?_ }
        · have other_ne : other ≠ obj := fun same => by
            subst same
            rcases differs with more | not_held
            · omega
            · exact not_held held
          simp [setInode, modify, Function.update_of_ne other_ne]
        · simp only [setInode, modify, Function.update_apply] at found
          split at found
          · cases found
          · exact ⟨node', found, rfl⟩
      case isFalse =>
        refine
          { handle := rfl
            fd := rfl
            isMounted := rfl
            readOnly := rfl
            flight := rfl
            inode := by simp [setInode, modify, last']
            objs := fun other differs => ?_
            nodes := fun other node' found => ?_ }
        · have other_ne : other ≠ obj := fun same => by
            subst same
            rcases differs with more | not_held
            · omega
            · exact not_held held
          simp [setInode, modify, Function.update_of_ne other_ne]
        · obtain ⟨node, node_eq, rfl⟩ := modify_nodes found
          refine ⟨node, node_eq, ?_⟩
          split <;> rfl

/-- A descriptor has gone out of use and has let go of its inode. -/
structure FdDropped (fdId index : Nat) (fs fs' : Yaffsfs) : Prop where
  handle : fs'.handle = fs.handle
  fd : ∀ other, other ≠ fdId → fs'.fd other = fs.fd other
  handleCount : (fs'.fd fdId).handleCount = 0
  inodeId : (fs'.fd fdId).inodeId = -1
  isMounted : fs'.isMounted = fs.isMounted
  readOnly : fs'.readOnly = fs.readOnly
  flight : fs'.flight = fs.flight
  inode : fs'.inode = Function.update fs.inode index
    (if (fs.inode index).count ≤ 1 then {}
      else { fs.inode index with count := (fs.inode index).count - 1 })
  objs : ∀ obj, (1 < (fs.inode index).count ∨ (fs.inode index).iObj ≠ some obj) →
    fs'.objs obj = fs.objs obj
  nodes : ∀ obj node', fs'.objs obj = some node' →
    ∃ node, fs.objs obj = some node ∧ node' = { node with myInode := node'.myInode }

/-- The way in which a descriptor goes out of use. -/
theorem dropped_of_put {fdId index : Nat} (i_lt : index < nHandles) {first last : FileDes}
    (none_left : first.handleCount = 0) :
    let put := (fs.setFd fdId first).putInode index
    (last = { put.fd fdId with inodeId := -1 }) →
      FdDropped fdId index fs (put.setFd fdId last) := by
  intro put last_eq
  have step : InodePut index (fs.setFd fdId first) put := putInode_put i_lt
  have fd_eq : put.fd fdId = first := by
    rw [step.fd]
    exact Function.update_self ..
  exact
    { handle := step.handle
      fd := fun other other_ne => by
        simp only [setFd, Function.update_of_ne other_ne]
        rw [step.fd]
        exact Function.update_of_ne other_ne ..
      handleCount := by simp [setFd, last_eq, fd_eq, none_left]
      inodeId := by simp [setFd, last_eq]
      isMounted := step.isMounted
      readOnly := step.readOnly
      flight := step.flight
      inode := step.inode
      objs := step.objs
      nodes := step.nodes }

namespace FdDropped

variable {fdId index : Nat} {pending : Option Nat}

theorem fdsOf (dropped : FdDropped fdId index fs fs') (f_lt : fdId < nHandles)
    (used : 0 < (fs.fd fdId).handleCount) (inode_eq : (fs.fd fdId).inodeId = index) (other : Nat) :
    fs'.fdsOf other = fs.fdsOf other - if index = other then 1 else 0 := by
  rw [fdsOf_of_agree f_lt dropped.fd other, dropped.handleCount, inode_eq]
  simp only [Nat.cast_inj, used, true_and, lt_self_iff_false, false_and, if_false]
  omega

theorem iObj_before (dropped : FdDropped fdId index fs fs') {other obj : Nat}
    (o_obj : (fs'.inode other).iObj = some obj) : (fs.inode other).iObj = some obj := by
  rw [dropped.inode, Function.update_apply] at o_obj
  split at o_obj
  case isTrue same =>
    subst same
    split at o_obj
    · cases o_obj
    · exact o_obj
  case isFalse => exact o_obj

theorem inodesSound (dropped : FdDropped fdId index fs fs') (sound : InodesSound pending fs)
    (f_lt : fdId < nHandles) (used : 0 < (fs.fd fdId).handleCount)
    (inode_eq : (fs.fd fdId).inodeId = index) (i_lt : index < nHandles) :
    InodesSound pending fs' := by
  have count_pos : 0 < (fs.inode index).count := by
    rw [sound.fds index i_lt]
    exact fdsOf_pos f_lt used inode_eq
  refine
    { inodeOf := fun g g_lt g_used g_ne => ?_
      unhooked := fun g g_eq => ?_
      fds := fun j j_lt => ?_
      iObj := fun j j_lt => ?_
      unique := fun j j_lt k k_lt obj j_obj k_obj => ?_ }
  · by_cases same : g = fdId
    · rw [same, dropped.handleCount] at g_used
      omega
    · rw [dropped.fd g same] at g_used ⊢
      exact sound.inodeOf g g_lt g_used g_ne
  · by_cases same : g = fdId
    · rw [same]
      exact dropped.inodeId
    · rw [dropped.fd g same]
      exact sound.unhooked g g_eq
  · rw [dropped.fdsOf f_lt used inode_eq, dropped.inode, Function.update_apply, ← sound.fds j j_lt]
    by_cases same : j = index
    · subst same
      rw [if_pos rfl, if_pos rfl]
      split
      · dsimp only
        omega
      · rfl
    · rw [if_neg same, if_neg (Ne.symm same), Int.sub_zero]
  · rw [dropped.inode, Function.update_apply]
    by_cases same : j = index
    · subst same
      rw [if_pos rfl]
      split
      · simp
      · dsimp only
        rw [sound.iObj j i_lt]
        omega
    · rw [if_neg same]
      exact sound.iObj j j_lt
  · exact sound.unique j j_lt k k_lt obj (dropped.iObj_before j_obj) (dropped.iObj_before k_obj)

theorem setHandle (dropped : FdDropped fdId index fs fs') (h : Nat) (handle : Handle) :
    FdDropped fdId index (fs.setHandle h handle) (fs'.setHandle h handle) :=
  { dropped with handle := by simp only [Yaffsfs.setHandle, dropped.handle] }

/-- The object of another descriptor stays where it is. -/
theorem kept (dropped : FdDropped fdId index fs fs') (sound : InodesSound pending fs)
    (f_lt : fdId < nHandles) (used : 0 < (fs.fd fdId).handleCount)
    (inode_eq : (fs.fd fdId).inodeId = index) (i_lt : index < nHandles)
    {other otherIndex obj : Nat} (other_ne : other ≠ fdId) (o_lt : other < nHandles)
    (o_used : 0 < (fs.fd other).handleCount) (o_inode : (fs.fd other).inodeId = otherIndex)
    (oi_lt : otherIndex < nHandles) (o_obj : (fs.inode otherIndex).iObj = some obj) :
    (fs'.inode otherIndex).iObj = some obj ∧ fs'.objs obj = fs.objs obj := by
  by_cases same : otherIndex = index
  · subst same
    have left : 0 < fs'.fdsOf otherIndex :=
      fdsOf_pos o_lt (by rwa [dropped.fd other other_ne]) (by rwa [dropped.fd other other_ne])
    rw [dropped.fdsOf f_lt used inode_eq, if_pos rfl, ← sound.fds otherIndex i_lt] at left
    have shared : ¬(fs.inode otherIndex).count ≤ 1 := by omega
    refine ⟨?_, dropped.objs obj (Or.inl (by omega))⟩
    rw [dropped.inode, Function.update_self, if_neg shared]
    exact o_obj
  · refine ⟨?_, dropped.objs obj (Or.inr fun i_obj => ?_)⟩
    · rw [dropped.inode, Function.update_of_ne same]
      exact o_obj
    · exact same (sound.unique otherIndex oi_lt index i_lt obj o_obj i_obj)

end FdDropped

variable {clean : Prop} {pending : Option Nat}

/-- What letting go of a handle comes to. -/
theorem putHandle_cases (sound : Sound clean pending fs) (handle : Int) :
    ((∀ h < nHandles, handle = (h : Nat) → ¬0 < (fs.handle h).useCount) ∧
        fs.putHandle handle = fs) ∨
      ∃ h f, h < nHandles ∧ f < nHandles ∧ handle = (h : Nat) ∧ 0 < (fs.handle h).useCount ∧
        (fs.handle h).fdId = (f : Nat) ∧ 0 < (fs.fd f).handleCount ∧
        ((1 < (fs.handle h).useCount ∧ fs.putHandle handle =
            fs.setHandle h { fs.handle h with useCount := (fs.handle h).useCount - 1 }) ∨
          ((fs.handle h).useCount = 1 ∧
            ((((fs.fd f).handleCount = 1 → pending = some f) ∧ fs.putHandle handle =
                (fs.setHandle h { fdId := -1, useCount := 0 }).setFd f
                  { fs.fd f with handleCount := (fs.fd f).handleCount - 1 }) ∨
              ((fs.fd f).handleCount = 1 ∧ ∃ index < nHandles,
                (fs.fd f).inodeId = (index : Nat) ∧
                FdDropped f index (fs.setHandle h { fdId := -1, useCount := 0 })
                  (fs.putHandle handle))))) := by
  by_cases inside : inTable handle
  case neg =>
    refine Or.inl ⟨fun h h_lt h_eq => ?_, by simp only [putHandle, handleToPointer, if_neg inside]⟩
    rw [h_eq] at inside
    exact absurd ((inTable_natCast h).mpr h_lt) inside
  obtain ⟨h, h_lt, rfl⟩ := inTable_cases inside
  by_cases used : 0 < (fs.handle h).useCount
  case neg =>
    refine Or.inl ⟨fun k _ k_eq => ?_, by
      simp only [putHandle, handleToPointer, if_pos inside, Int.toNat_natCast, if_neg used]⟩
    obtain rfl : h = k := by omega
    exact used
  obtain ⟨f, f_lt, f_eq⟩ := inTable_cases (sound.fdOf h h_lt used)
  have counted : 0 < (fs.fd f).handleCount := by
    have some_handle : 0 < fs.handlesOf f := handlesOf_pos h_lt used f_eq
    have := (sound.handles f f_lt).1
    omega
  refine Or.inr ⟨h, f, h_lt, f_lt, rfl, used, f_eq, counted, ?_⟩
  simp only [putHandle, handleToPointer, if_pos inside, Int.toNat_natCast, if_pos used, f_eq]
  by_cases last : (fs.handle h).useCount - 1 < 1
  case neg =>
    left
    rw [if_neg last]
    exact ⟨by omega, rfl⟩
  right
  rw [if_pos last]
  refine ⟨by omega, ?_⟩
  have count_eq : (fs.handle h).useCount - 1 = 0 := by omega
  simp only [putFileDes, if_pos ((inTable_natCast f).mpr f_lt), Int.toNat_natCast]
  split
  case isFalse more =>
    left
    refine ⟨fun one => ?_, ?_⟩
    · by_contra not_pending
      have := (inTable_iff _).mp (sound.inodeOf f f_lt counted (Ne.symm not_pending))
      refine more ⟨?_, ?_⟩
      · simp only [setHandle, one]
        decide
      · simp only [setHandle, setFd, Function.update_self]
        exact this.1
    · simp [setHandle, setFd, count_eq]
  case isTrue ended =>
    right
    simp only [setHandle, setFd, Function.update_self] at ended
    have one : (fs.fd f).handleCount = 1 := by omega
    have inside_inode : inTable (fs.fd f).inodeId := by
      refine sound.inodeOf f f_lt counted fun is_pending => ?_
      have := sound.unhooked f is_pending.symm
      omega
    obtain ⟨index, i_lt, i_eq⟩ := inTable_cases inside_inode
    refine ⟨one, index, i_lt, i_eq, ?_⟩
    let taken := fs.setHandle h { fdId := f, useCount := (fs.handle h).useCount - 1 }
    let put := (taken.setFd f { fs.fd f with inodeId := index, handleCount := 0 }).putInode index
    let done := put.setFd f { put.fd f with inodeId := -1 }
    have dropped : FdDropped f index taken done := dropped_of_put i_lt rfl rfl
    have base : taken.setHandle h { fdId := -1, useCount := 0 } =
        fs.setHandle h { fdId := -1, useCount := 0 } := by
      simp [taken, setHandle]
    have freed := dropped.setHandle h { fdId := -1, useCount := 0 }
    rw [base] at freed
    have handle_eq : done.handle h = { fdId := f, useCount := 0 } := by
      rw [dropped.handle, ← count_eq]
      exact Function.update_self ..
    simp only [setHandle_fd, setFd_fd_self, one, i_eq, Int.sub_self]
    change FdDropped f index _ (done.setHandle h { done.handle h with fdId := -1 })
    rw [handle_eq]
    exact freed

/-- A handle that is free now counts no more. -/
theorem handlesOf_freed {h f : Nat} (h_lt : h < nHandles) (used : 0 < (fs.handle h).useCount)
    (f_eq : (fs.handle h).fdId = (f : Nat))
    (freed : fs'.handle = Function.update fs.handle h { fdId := -1, useCount := 0 }) (g : Nat) :
    fs'.handlesOf g = fs.handlesOf g - if f = g then 1 else 0 := by
  have agree : ∀ other, other ≠ h → fs'.handle other = fs.handle other := by
    intro other other_ne
    rw [freed]
    exact Function.update_of_ne other_ne ..
  rw [handlesOf_of_agree h_lt agree, freed, Function.update_self, f_eq]
  simp only [Nat.cast_inj, used, true_and, lt_self_iff_false, false_and, if_false]
  omega

/-- The books of the inodes after a descriptor counts one handle less. -/
theorem InodesSound.of_fewer (sound : InodesSound pending fs) {f : Nat}
    (inode : fs'.inode = fs.inode) (others : ∀ g, g ≠ f → fs'.fd g = fs.fd g)
    (inodeId : (fs'.fd f).inodeId = (fs.fd f).inodeId)
    (fewer : 0 < (fs'.fd f).handleCount → 0 < (fs.fd f).handleCount)
    (none_left : 0 < (fs.fd f).handleCount → ¬0 < (fs'.fd f).handleCount → pending = some f) :
    InodesSound pending fs' where
  inodeOf := fun g g_lt used g_ne => by
    by_cases same : g = f
    · subst same
      rw [inodeId]
      exact sound.inodeOf g g_lt (fewer used) g_ne
    · rw [others g same] at used ⊢
      exact sound.inodeOf g g_lt used g_ne
  unhooked := fun g g_eq => by
    by_cases same : g = f
    · subst same
      rw [inodeId]
      exact sound.unhooked g g_eq
    · rw [others g same]
      exact sound.unhooked g g_eq
  fds := fun index i_lt => by
    have count_eq : fs'.fdsOf index = fs.fdsOf index := by
      refine Tally.count_congr fun g _ => ?_
      by_cases same : g = f
      · subst same
        rw [inodeId]
        constructor
        · exact fun after => ⟨fewer after.1, after.2⟩
        · intro before
          refine ⟨?_, before.2⟩
          by_contra ended
          have unhooked := sound.unhooked g (none_left before.1 ended)
          omega
      · rw [others g same]
    rw [inode, count_eq]
    exact sound.fds index i_lt
  iObj := by
    rw [inode]
    exact sound.iObj
  unique := by
    rw [inode]
    exact sound.unique

/-- A handle has been freed.  Its descriptor counts one less, and goes out of use with its last
handle. -/
structure HandleFreed (h f : Nat) (fs fs' : Yaffsfs) : Prop where
  handle : fs'.handle = Function.update fs.handle h { fdId := -1, useCount := 0 }
  count : (fs'.fd f).handleCount = (fs.fd f).handleCount - 1
  others : ∀ g, g ≠ f → fs'.fd g = fs.fd g
  inodeId : 0 < (fs'.fd f).handleCount → (fs'.fd f).inodeId = (fs.fd f).inodeId
  iObj : ∀ index obj, (fs'.inode index).iObj = some obj → (fs.inode index).iObj = some obj
  kept : ∀ g < nHandles, 0 < (fs'.fd g).handleCount → ∀ index < nHandles, ∀ obj,
    (fs.fd g).inodeId = (index : Nat) → (fs.inode index).iObj = some obj →
      (fs'.inode index).iObj = some obj ∧ fs'.objs obj = fs.objs obj
  objs : ∀ obj, (∀ index : Nat, (fs.fd f).inodeId = index → (fs.inode index).iObj ≠ some obj) →
    fs'.objs obj = fs.objs obj
  isMounted : fs'.isMounted = fs.isMounted
  readOnly : fs'.readOnly = fs.readOnly
  flight : fs'.flight = fs.flight
  nodes : ∀ obj node', fs'.objs obj = some node' →
    ∃ node, fs.objs obj = some node ∧ node' = { node with myInode := node'.myInode }

/-- What letting go of a handle comes to. -/
theorem putHandle_spec (sound : Sound clean pending fs) (handle : Int) :
    ((∀ h < nHandles, handle = (h : Nat) → ¬0 < (fs.handle h).useCount) ∧
        fs.putHandle handle = fs) ∨
      ∃ h f, h < nHandles ∧ f < nHandles ∧ handle = (h : Nat) ∧ 0 < (fs.handle h).useCount ∧
        (fs.handle h).fdId = (f : Nat) ∧ 0 < (fs.fd f).handleCount ∧
        ((1 < (fs.handle h).useCount ∧ fs.putHandle handle =
            fs.setHandle h { fs.handle h with useCount := (fs.handle h).useCount - 1 }) ∨
          ((fs.handle h).useCount = 1 ∧ HandleFreed h f fs (fs.putHandle handle) ∧
            InodesSound pending (fs.putHandle handle))) := by
  obtain same | ⟨h, f, h_lt, f_lt, h_eq, used, f_eq, counted, ended⟩ :=
    putHandle_cases sound handle
  · exact Or.inl same
  refine Or.inr ⟨h, f, h_lt, f_lt, h_eq, used, f_eq, counted, ?_⟩
  obtain more | ⟨last, ⟨only, eq⟩ | ⟨one, index, i_lt, i_eq, dropped⟩⟩ := ended
  · exact Or.inl more
  · refine Or.inr ⟨last, ?_⟩
    rw [eq]
    have others : ∀ g, g ≠ f → ((fs.setHandle h { fdId := -1, useCount := 0 }).setFd f
        { fs.fd f with handleCount := (fs.fd f).handleCount - 1 }).fd g = fs.fd g :=
      fun g g_ne => Function.update_of_ne g_ne ..
    constructor
    · exact
        { handle := rfl
          count := by rw [setFd_fd_self]
          others
          inodeId := fun _ => by rw [setFd_fd_self]
          iObj := fun _ _ found => found
          kept := fun _ _ _ _ _ _ _ found => ⟨found, rfl⟩
          objs := fun _ _ => rfl
          isMounted := rfl
          readOnly := rfl
          flight := rfl
          nodes := fun _ node' found => ⟨node', found, rfl⟩ }
    · refine sound.toInodesSound.of_fewer rfl others (by rw [setFd_fd_self])
        (fun _ => counted) fun _ none_left => only ?_
      rw [setFd_fd_self] at none_left
      dsimp only at none_left
      omega
  · refine Or.inr ⟨last, ?_, dropped.inodesSound ?_ f_lt counted i_eq i_lt⟩
    · have base : InodesSound pending (fs.setHandle h { fdId := -1, useCount := 0 }) :=
        { sound.toInodesSound with }
      exact
        { handle := dropped.handle
          count := by rw [dropped.handleCount, one, Int.sub_self]
          others := dropped.fd
          inodeId := fun used' => by
            rw [dropped.handleCount] at used'
            exact absurd used' (lt_irrefl 0)
          iObj := fun _ _ found => dropped.iObj_before found
          kept := fun g g_lt g_used j j_lt obj g_inode j_obj => by
            have g_ne : g ≠ f := fun same => by
              rw [same, dropped.handleCount] at g_used
              exact absurd g_used (lt_irrefl 0)
            have g_used' : 0 < (fs.fd g).handleCount := by rwa [dropped.fd g g_ne] at g_used
            exact dropped.kept base f_lt counted i_eq i_lt g_ne g_lt g_used' g_inode j_lt j_obj
          objs := fun obj not_held => dropped.objs obj (Or.inr (not_held index i_eq))
          isMounted := dropped.isMounted
          readOnly := dropped.readOnly
          flight := dropped.flight
          nodes := dropped.nodes }
    · exact { sound.toInodesSound with }

namespace HandleFreed

variable {h f : Nat}

theorem handle_other (freed : HandleFreed h f fs fs') {k : Nat} (k_ne : k ≠ h) :
    fs'.handle k = fs.handle k := by
  rw [freed.handle]
  exact Function.update_of_ne k_ne ..

theorem not_used (freed : HandleFreed h f fs fs') : ¬0 < (fs'.handle h).useCount := by
  rw [freed.handle, Function.update_self]
  exact lt_irrefl 0

/-- What another handle refers to afterwards, it has referred to before. -/
theorem refers_before (freed : HandleFreed h f fs fs') {k g index obj : Nat}
    (refers : Refers fs' k g index obj) : Refers fs k g index obj := by
  have k_ne : k ≠ h := fun same => freed.not_used (same ▸ refers.used)
  have counted : 0 < (fs.fd g).handleCount := by
    have after := refers.counted
    by_cases same : g = f
    · rw [same, freed.count] at after
      rw [same]
      omega
    · rwa [freed.others g same] at after
  have inode_eq : (fs.fd g).inodeId = (index : Nat) := by
    have after := refers.inode_eq
    by_cases same : g = f
    · subst same
      rwa [freed.inodeId refers.counted] at after
    · rwa [freed.others g same] at after
  exact
    { h_lt := refers.h_lt
      used := by rw [← freed.handle_other k_ne]; exact refers.used
      fd_eq := by rw [← freed.handle_other k_ne]; exact refers.fd_eq
      f_lt := refers.f_lt
      counted
      inode_eq
      i_lt := refers.i_lt
      obj_eq := freed.iObj index obj refers.obj_eq }

/-- What another handle has referred to, it refers to afterwards, and the object is as it was. -/
theorem refers_after (freed : HandleFreed h f fs fs') (sound : Sound clean pending fs')
    {k g index obj : Nat} (refers : Refers fs k g index obj) (k_ne : k ≠ h) :
    Refers fs' k g index obj ∧ fs'.objs obj = fs.objs obj := by
  have k_eq := freed.handle_other k_ne
  have used : 0 < (fs'.handle k).useCount := by rw [k_eq]; exact refers.used
  have fd_eq : (fs'.handle k).fdId = (g : Nat) := by rw [k_eq]; exact refers.fd_eq
  have counted : 0 < (fs'.fd g).handleCount := by
    have some_handle : 0 < fs'.handlesOf g := handlesOf_pos refers.h_lt used fd_eq
    have := (sound.handles g refers.f_lt).1
    omega
  have inode_eq : (fs'.fd g).inodeId = (index : Nat) := by
    by_cases same : g = f
    · subst same
      rw [freed.inodeId counted]
      exact refers.inode_eq
    · rw [freed.others g same]
      exact refers.inode_eq
  obtain ⟨obj_eq, objs_eq⟩ := freed.kept g refers.f_lt counted index refers.i_lt obj
    refers.inode_eq refers.obj_eq
  exact ⟨⟨refers.h_lt, used, fd_eq, refers.f_lt, counted, inode_eq, refers.i_lt, obj_eq⟩, objs_eq⟩

/-- The books after a handle has been freed. -/
theorem sound (freed : HandleFreed h f fs fs') (sound : Sound clean pending fs)
    (h_lt : h < nHandles) (used : 0 < (fs.handle h).useCount)
    (f_eq : (fs.handle h).fdId = (f : Nat)) (inodes : InodesSound pending fs') :
    Sound clean pending fs' where
  toInodesSound := inodes
  fdOf := fun k k_lt k_used => by
    have k_ne : k ≠ h := fun same => freed.not_used (same ▸ k_used)
    rw [freed.handle_other k_ne] at k_used ⊢
    exact sound.fdOf k k_lt k_used
  handles := fun g g_lt => by
    rw [handlesOf_freed h_lt used f_eq freed.handle]
    by_cases same : f = g
    · subst same
      rw [if_pos rfl, freed.count]
      have before := sound.handles f g_lt
      exact ⟨by omega, fun is_clean => by have := before.2 is_clean; omega⟩
    · rw [if_neg same, freed.others g (Ne.symm same), Int.sub_zero]
      exact sound.handles g g_lt
  held := fun handle obj found => by
    obtain ⟨k, g, index, rfl, refers⟩ := handleToObject_iff_refers.mp found
    have before := freed.refers_before refers
    rw [(freed.kept g before.f_lt refers.counted index before.i_lt obj before.inode_eq
      before.obj_eq).2]
    exact sound.held k obj before.handleToObject
  mounted := fun obj node' found => by
    obtain ⟨node, node_eq, same⟩ := freed.nodes obj node' found
    rw [freed.isMounted, same]
    exact sound.mounted obj node node_eq

end HandleFreed

theorem putHandle_sound (sound : Sound clean pending fs) (handle : Int) :
    Sound clean pending (fs.putHandle handle) := by
  obtain ⟨-, same⟩ | ⟨h, f, h_lt, f_lt, -, used, f_eq, counted, ended⟩ :=
    putHandle_spec sound handle
  · rw [same]
    exact sound
  obtain ⟨more, eq⟩ | ⟨-, freed, inodes⟩ := ended
  · rw [eq]
    have same : SameTables fs (fs.setHandle h
        { fs.handle h with useCount := (fs.handle h).useCount - 1 }) :=
      { use := fun k => by
          simp only [setHandle, Function.update_apply]
          split
          case isTrue same =>
            subst same
            dsimp only
            omega
          case isFalse => rfl
        fdId := fun k _ => by
          simp only [setHandle, Function.update_apply]
          split
          case isTrue same => rw [same]
          case isFalse => rfl
        handleCount := fun _ => rfl
        inodeId := fun _ => rfl
        inode := rfl }
    exact same.sound sound (fun _ _ node _ found hooked => ⟨node, found, hooked⟩) sound.mounted
  · exact freed.sound sound h_lt used f_eq inodes

end Yaffsfs

end Yaffs
