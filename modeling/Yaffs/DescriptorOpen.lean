import Yaffs.DescriptorBooks

/-!
# Opening and the books

Opening an object takes a handle, a descriptor and an inode.  There are as many inodes as descriptors,
so that an inode is always found.
-/

namespace Yaffs

namespace Yaffsfs

open Vfs (inTable handleToPointer)

variable {fs fs' : Yaffsfs} {clean : Prop} {pending : Option Nat}

/-- The first entry of a table that a search finds. -/
theorem find_range {p : Nat → Prop} [DecidablePred p] {n i : Nat}
    (found : ((List.range n).find? fun i => decide (p i)) = some i) : i < n ∧ p i := by
  have holds := List.find?_some found
  exact ⟨List.mem_range.mp (List.mem_of_find?_eq_some found), of_decide_eq_true holds⟩

theorem find_range_none {p : Nat → Prop} [DecidablePred p] {n : Nat}
    (found : ((List.range n).find? fun i => decide (p i)) = none) : ∀ i < n, ¬p i := by
  intro i i_lt holds
  exact List.find?_eq_none.mp found i (List.mem_range.mpr i_lt) (decide_eq_true holds)

theorem newHandle_cases (fs : Yaffsfs) :
    fs.newHandle = (none, fs) ∨ ∃ h < nHandles, ¬0 < (fs.handle h).useCount ∧
      fs.newHandle = (some h, fs.setHandle h { fdId := -1, useCount := 1 }) := by
  simp only [newHandle]
  split
  case h_1 => exact Or.inl rfl
  case h_2 h found =>
    obtain ⟨h_lt, free⟩ := find_range found
    exact Or.inr ⟨h, h_lt, by omega, rfl⟩

/-- Setting a free handle that stays free changes nothing. -/
theorem sameTables_of_free {h : Nat} (free : ¬0 < (fs.handle h).useCount) {handle : Handle}
    (stays : ¬0 < handle.useCount) : SameTables fs (fs.setHandle h handle) where
  use := fun k => by
    simp only [setHandle, Function.update_apply]
    split
    case isTrue same =>
      subst same
      exact iff_of_false stays free
    case isFalse => rfl
  fdId := fun k used => by
    have k_ne : k ≠ h := fun same => free (same ▸ used)
    simp only [setHandle, Function.update_of_ne k_ne]
  handleCount := fun _ => rfl
  inodeId := fun _ => rfl
  inode := rfl

/-- Taking a handle and a descriptor. -/
theorem newHandleAndFileDes_cases (fs : Yaffsfs) :
    (fs.newHandleAndFileDes.1 = none ∧
      (fs.newHandleAndFileDes.2 = fs ∨ ∃ h, ¬0 < (fs.handle h).useCount ∧
        fs.newHandleAndFileDes.2 = fs.setHandle h { fdId := -1, useCount := 0 })) ∨
      ∃ h f, h < nHandles ∧ f < nHandles ∧ fs.newHandle.1 = some h ∧
        ¬0 < (fs.handle h).useCount ∧ ¬0 < (fs.fd f).handleCount ∧ fs.newHandleAndFileDes =
          (some h, (fs.setFd f { inodeId := -1, handleCount := 1 }).setHandle h
            { fdId := f, useCount := 1 }) := by
  obtain none_left | ⟨h, h_lt, free, taken⟩ := newHandle_cases fs
  · left
    simp only [newHandleAndFileDes, none_left]
    exact ⟨trivial, Or.inl trivial⟩
  · simp only [newHandleAndFileDes, taken]
    split
    case h_1 => exact Or.inl ⟨rfl, Or.inr ⟨h, free, by simp [setHandle]⟩⟩
    case h_2 f found =>
      obtain ⟨f_lt, f_free⟩ := find_range found
      rw [setHandle_fd] at f_free
      exact Or.inr ⟨h, f, h_lt, f_lt, rfl, free, by omega, by simp [setHandle, setFd]⟩

/-- A new handle has a descriptor of its own, which is still to be hooked to an object. -/
theorem Sound.of_new (sound : Sound clean none fs) {h f : Nat} (h_lt : h < nHandles)
    (f_lt : f < nHandles) (free : ¬0 < (fs.handle h).useCount)
    (f_free : ¬0 < (fs.fd f).handleCount) :
    Sound clean (some f) ((fs.setFd f { inodeId := -1, handleCount := 1 }).setHandle h
      { fdId := f, useCount := 1 }) := by
  let after := (fs.setFd f { inodeId := -1, handleCount := 1 }).setHandle h
    { fdId := f, useCount := 1 }
  have handle_other : ∀ k, k ≠ h → after.handle k = fs.handle k :=
    fun k k_ne => Function.update_of_ne k_ne ..
  have fd_other : ∀ g, g ≠ f → after.fd g = fs.fd g := fun g g_ne => Function.update_of_ne g_ne ..
  have handle_self : after.handle h = { fdId := f, useCount := 1 } := setHandle_handle_self ..
  have fd_self : after.fd f = { inodeId := -1, handleCount := 1 } := setFd_fd_self ..
  change Sound clean (some f) after
  refine
    { inodeOf := fun g g_lt used g_ne => ?_
      unhooked := fun g g_eq => ?_
      fds := fun j j_lt => ?_
      iObj := sound.iObj
      unique := sound.unique
      fdOf := fun k k_lt k_used => ?_
      handles := fun g g_lt => ?_
      held := fun handle obj found => ?_
      mounted := sound.mounted }
  · have g_ne' : g ≠ f := fun same => g_ne (congrArg some same)
    rw [fd_other g g_ne'] at used ⊢
    exact sound.inodeOf g g_lt used (by simp)
  · obtain rfl := Option.some.inj g_eq
    rw [fd_self]
  · have same : after.fdsOf j = fs.fdsOf j := by
      have count := fdsOf_of_agree f_lt fd_other j
      have none_after : ¬(0 < (after.fd f).handleCount ∧ (after.fd f).inodeId = (j : Nat)) := by
        rw [fd_self]
        rintro ⟨-, eq⟩
        dsimp only at eq
        omega
      have none_before : ¬(0 < (fs.fd f).handleCount ∧ (fs.fd f).inodeId = (j : Nat)) :=
        fun used => f_free used.1
      rw [if_neg none_after, if_neg none_before] at count
      omega
    rw [same]
    exact sound.fds j j_lt
  · by_cases k_eq : k = h
    · rw [k_eq, handle_self]
      exact (inTable_natCast f).mpr f_lt
    · rw [handle_other k k_eq] at k_used ⊢
      exact sound.fdOf k k_lt k_used
  · have count := handlesOf_of_agree h_lt handle_other g
    have none_before : ¬(0 < (fs.handle h).useCount ∧ (fs.handle h).fdId = (g : Nat)) :=
      fun used => free used.1
    rw [if_neg none_before, handle_self] at count
    simp only [zero_lt_one, true_and, Nat.cast_inj] at count
    by_cases same : f = g
    · subst same
      rw [if_pos rfl] at count
      have before := (sound.handles f f_lt).1
      have nonneg : 0 ≤ fs.handlesOf f := handlesOf_nonneg f
      rw [fd_self]
      dsimp only
      exact ⟨by omega, fun _ => by omega⟩
    · rw [if_neg same] at count
      rw [fd_other g (Ne.symm same), count, Int.sub_zero, Int.add_zero]
      exact sound.handles g g_lt
  · obtain ⟨k, g, index, rfl, refers⟩ := handleToObject_iff_refers.mp found
    have g_ne : g ≠ f := fun same => by
      have := refers.inode_eq
      rw [same, fd_self] at this
      dsimp only at this
      omega
    have k_ne : k ≠ h := fun same => by
      have := refers.fd_eq
      rw [same, handle_self] at this
      dsimp only at this
      omega
    have before : Refers fs k g index obj :=
      { h_lt := refers.h_lt
        used := by rw [← handle_other k k_ne]; exact refers.used
        fd_eq := by rw [← handle_other k k_ne]; exact refers.fd_eq
        f_lt := refers.f_lt
        counted := by rw [← fd_other g g_ne]; exact refers.counted
        inode_eq := by rw [← fd_other g g_ne]; exact refers.inode_eq
        i_lt := refers.i_lt
        obj_eq := refers.obj_eq }
    exact sound.held k obj before.handleToObject

/-- While a descriptor is to be hooked there is a free inode: every inode in use has a descriptor of
its own. -/
theorem InodesSound.free_inode {f : Nat} (sound : InodesSound (some f) fs) (f_lt : f < nHandles) :
    ∃ index < nHandles, (fs.inode index).iObj = none := by
  by_contra all_used
  have owner : ∀ index, ∃ g, index < nHandles →
      g < nHandles ∧ g ≠ f ∧ (fs.fd g).inodeId = (index : Nat) := by
    intro index
    by_cases i_lt : index < nHandles
    case neg => exact ⟨0, fun i_lt' => absurd i_lt' i_lt⟩
    have held : (fs.inode index).iObj ≠ none := fun free => all_used ⟨index, i_lt, free⟩
    have count_pos : 0 < fs.fdsOf index := by
      have not_zero : (fs.inode index).count ≠ 0 :=
        fun zero => held ((sound.iObj index i_lt).mpr zero)
      have nonneg : 0 ≤ fs.fdsOf index := fdsOf_nonneg index
      rw [sound.fds index i_lt] at not_zero
      omega
    obtain ⟨g, g_mem, -, g_eq⟩ := (Tally.count_pos_iff _).mp count_pos
    refine ⟨g, fun _ => ⟨Finset.mem_range.mp g_mem, fun same => ?_, g_eq⟩⟩
    have := sound.unhooked f rfl
    rw [same] at g_eq
    omega
  choose ownerOf owner_spec using owner
  have fewer : (Finset.range nHandles).card ≤ ((Finset.range nHandles).erase f).card := by
    refine Finset.card_le_card_of_injOn ownerOf (fun index i_mem => ?_)
      fun index i_mem other o_mem same => ?_
    · obtain ⟨g_lt, g_ne, -⟩ := owner_spec index (Finset.mem_range.mp i_mem)
      exact Finset.mem_coe.mpr (Finset.mem_erase.mpr ⟨g_ne, Finset.mem_range.mpr g_lt⟩)
    · have i_eq := (owner_spec index (Finset.mem_range.mp i_mem)).2.2
      have o_eq := (owner_spec other (Finset.mem_range.mp o_mem)).2.2
      rw [same] at i_eq
      omega
  rw [Finset.card_erase_of_mem (Finset.mem_range.mpr f_lt), Finset.card_range] at fewer
  omega

/-- The inode for an object is the only one that holds it, if any does. -/
theorem getInodeIdForObject_cases {f : Nat} (sound : InodesSound (some f) fs)
    (f_lt : f < nHandles) (obj : Nat) :
    ∃ index < nHandles, (∀ o, (fs.inode index).iObj = some o → o = obj) ∧
      (∀ k < nHandles, (fs.inode k).iObj = some obj → k = index) ∧
      fs.getInodeIdForObject obj = ((index : Int),
        fs.setInode index { count := (fs.inode index).count + 1, iObj := some obj }) := by
  simp only [getInodeIdForObject, findInodeIdForObject]
  cases found : (List.range nHandles).find? fun index =>
      decide ((fs.inode index).iObj = some obj) with
  | some index =>
    obtain ⟨i_lt, holds⟩ := find_range found
    refine ⟨index, i_lt, fun o o_eq => ?_, fun k k_lt k_eq => ?_, ?_⟩
    · rw [holds] at o_eq
      exact (Option.some.inj o_eq).symm
    · exact sound.unique k k_lt index i_lt obj k_eq holds
    · simp [holds]
  | none =>
    have not_held := find_range_none found
    simp only [Option.none_or]
    split
    case h_1 none_free =>
      obtain ⟨index, i_lt, free⟩ := sound.free_inode f_lt
      have := List.find?_eq_none.mp none_free index (List.mem_range.mpr i_lt)
      rw [free] at this
      exact absurd rfl this
    case h_2 index found_free =>
      have i_lt := List.mem_range.mp (List.mem_of_find?_eq_some found_free)
      have is_free := List.find?_some found_free
      have free : (fs.inode index).iObj = none := Option.isNone_iff_eq_none.mp is_free
      refine ⟨index, i_lt, fun o o_eq => ?_, fun k k_lt k_eq => ?_, ?_⟩
      · rw [free] at o_eq
        cases o_eq
      · exact absurd k_eq (not_held k k_lt)
      · simp [free, (sound.iObj index i_lt).mp free]

/-- Changing what is stored of the objects, but not who holds them. -/
theorem Sound.of_objs (sound : Sound clean pending fs) {objs : Nat → Option FsObj}
    (held : ∀ obj node, fs.objs obj = some node → node.myInode ≠ none →
      ∃ node', objs obj = some node' ∧ node'.myInode ≠ none)
    (mounted : ∀ obj node, objs obj = some node → fs.isMounted node.myDev) :
    Sound clean pending { fs with objs := objs } := by
  have same : SameTables fs { fs with objs := objs } :=
    ⟨fun _ => Iff.rfl, fun _ _ => rfl, fun _ => rfl, fun _ => rfl, rfl⟩
  exact same.sound sound (fun _ obj node _ => held obj node) mounted

theorem Sound.modify (sound : Sound clean pending fs) (obj : Nat) {change : FsObj → FsObj}
    (myDev : ∀ node, (change node).myDev = node.myDev)
    (myInode : ∀ node : FsObj, node.myInode ≠ none → (change node).myInode ≠ none) :
    Sound clean pending (fs.modify obj change) := by
  refine sound.of_objs (fun other node found hooked => ?_) fun other node' found => ?_
  · rw [Function.update_apply]
    split
    case isTrue same =>
      subst same
      exact ⟨change node, by rw [found]; rfl, myInode node hooked⟩
    case isFalse => exact ⟨node, found, hooked⟩
  · obtain ⟨node, node_eq, rfl⟩ := modify_nodes found
    split
    · rw [myDev]
      exact sound.mounted other node node_eq
    · exact sound.mounted other node node_eq

/-- A descriptor has been hooked to an object by way of an inode that no other object has. -/
structure Hooked (f index obj : Nat) (fs fs' : Yaffsfs) : Prop where
  i_lt : index < nHandles
  own : ∀ o, (fs.inode index).iObj = some o → o = obj
  only : ∀ k < nHandles, (fs.inode k).iObj = some obj → k = index
  handle : fs'.handle = fs.handle
  flight : fs'.flight = fs.flight
  isMounted : fs'.isMounted = fs.isMounted
  inodeId : (fs'.fd f).inodeId = index
  handleCount : (fs'.fd f).handleCount = (fs.fd f).handleCount
  fd : ∀ g, g ≠ f → fs'.fd g = fs.fd g
  inode : fs'.inode = Function.update fs.inode index
    { count := (fs.inode index).count + 1, iObj := some obj }
  objs : ∀ o, o ≠ obj → fs'.objs o = fs.objs o
  obj : ∀ node, fs.objs obj = some node →
    ∃ node', fs'.objs obj = some node' ∧ node'.myInode ≠ none ∧ node'.myDev = node.myDev

theorem openObject_hooked {h f obj : Nat} (sound : InodesSound (some f) fs) (h_lt : h < nHandles)
    (used : 0 < (fs.handle h).useCount) (f_eq : (fs.handle h).fdId = (f : Nat))
    (f_lt : f < nHandles) (isDir : Bool) (flags : OpenFlags) :
    ∃ index, Hooked f index obj fs (fs.openObject h obj isDir flags).2 := by
  obtain ⟨index, i_lt, own, only, hooked⟩ := getInodeIdForObject_cases sound f_lt obj
  let taken := fs.setInode index { count := (fs.inode index).count + 1, iObj := some obj }
  have fd_found : taken.handleToFileDes h = some f :=
    handleToFileDes_eq_some.mpr ⟨h, h_lt, rfl, used, f_eq, f_lt⟩
  let fd : FileDes :=
    { taken.fd f with
      inodeId := (index : Int)
      reading := flags.read
      writing := flags.write
      append := flags.append
      shareRead := flags.shareRead
      shareWrite := flags.shareWrite
      isDir
      position := 0 }
  let done := (taken.setFd f fd).modify obj fun node =>
    { node with myInode := some (Int.toNat index) }
  have fd_self : done.fd f = fd := setFd_fd_self ..
  have done_hooked : Hooked f index obj fs done :=
    { i_lt
      own
      only
      handle := rfl
      flight := rfl
      isMounted := rfl
      inodeId := by rw [fd_self]
      handleCount := by rw [fd_self]; rfl
      fd := fun g g_ne => Function.update_of_ne g_ne ..
      inode := rfl
      objs := fun o o_ne => Function.update_of_ne o_ne ..
      obj := fun node found => by
        refine ⟨{ node with myInode := some (Int.toNat index) }, ?_, by simp, rfl⟩
        simp [done, Yaffsfs.modify, found, setFd, taken, setInode] }
  have result : (fs.openObject h obj isDir flags).2 =
      if ¬isDir ∧ flags.trunc ∧ flags.write then done.modify obj fun node => node.resizeFile 0
      else done := by
    simp only [openObject, hooked]
    rw [show (fs.setInode index { count := (fs.inode index).count + 1, iObj := some obj }
      ).handleToFileDes h = some f from fd_found]
  rw [result]
  refine ⟨index, ?_⟩
  split
  · exact
      { done_hooked with
        objs := fun o o_ne => by
          rw [← done_hooked.objs o o_ne]
          exact Function.update_of_ne o_ne ..
        obj := fun node found => by
          obtain ⟨node', found', held, dev_eq⟩ := done_hooked.obj node found
          refine ⟨node'.resizeFile 0, ?_, held, dev_eq⟩
          simp [Yaffsfs.modify, found'] }
  · exact done_hooked

namespace Hooked

variable {f index obj : Nat}

theorem inode_self (hooked : Hooked f index obj fs fs') :
    fs'.inode index = { count := (fs.inode index).count + 1, iObj := some obj } := by
  rw [hooked.inode]
  exact Function.update_self ..

theorem inode_other (hooked : Hooked f index obj fs fs') {j : Nat} (j_ne : j ≠ index) :
    fs'.inode j = fs.inode j := by
  rw [hooked.inode]
  exact Function.update_of_ne j_ne ..

/-- What another descriptor refers to afterwards through another inode, it has referred to before. -/
theorem refers_before (hooked : Hooked f index obj fs fs') {k g j o : Nat}
    (refers : Refers fs' k g j o) (o_ne : o ≠ obj) : Refers fs k g j o := by
  have j_ne : j ≠ index := fun same => by
    have obj_eq := refers.obj_eq
    rw [same, hooked.inode_self] at obj_eq
    exact o_ne (Option.some.inj obj_eq).symm
  have g_ne : g ≠ f := fun same => by
    have inode_eq := refers.inode_eq
    rw [same, hooked.inodeId] at inode_eq
    exact j_ne (by omega)
  exact
    { h_lt := refers.h_lt
      used := by rw [← hooked.handle]; exact refers.used
      fd_eq := by rw [← hooked.handle]; exact refers.fd_eq
      f_lt := refers.f_lt
      counted := by rw [← hooked.fd g g_ne]; exact refers.counted
      inode_eq := by rw [← hooked.fd g g_ne]; exact refers.inode_eq
      i_lt := refers.i_lt
      obj_eq := by rw [← hooked.inode_other j_ne]; exact refers.obj_eq }

/-- What a handle of another descriptor has referred to, it refers to afterwards. -/
theorem refers_after (hooked : Hooked f index obj fs fs') {k g j o : Nat}
    (refers : Refers fs k g j o) (g_ne : g ≠ f) : Refers fs' k g j o where
  h_lt := refers.h_lt
  used := by rw [hooked.handle]; exact refers.used
  fd_eq := by rw [hooked.handle]; exact refers.fd_eq
  f_lt := refers.f_lt
  counted := by rw [hooked.fd g g_ne]; exact refers.counted
  inode_eq := by rw [hooked.fd g g_ne]; exact refers.inode_eq
  i_lt := refers.i_lt
  obj_eq := by
    by_cases same : j = index
    · subst same
      rw [hooked.inode_self, hooked.own o refers.obj_eq]
    · rw [hooked.inode_other same]
      exact refers.obj_eq

theorem inodesSound (hooked : Hooked f index obj fs fs') (sound : InodesSound (some f) fs)
    (f_lt : f < nHandles) (counted : 0 < (fs.fd f).handleCount) : InodesSound none fs' := by
  have count_self : (fs.inode index).count = fs.fdsOf index := sound.fds index hooked.i_lt
  have count_nonneg : 0 ≤ fs.fdsOf index := fdsOf_nonneg index
  refine
    { inodeOf := fun g g_lt g_used _ => ?_
      unhooked := fun g g_eq => ?_
      fds := fun j j_lt => ?_
      iObj := fun j j_lt => ?_
      unique := fun j j_lt k k_lt o j_obj k_obj => ?_ }
  · by_cases same : g = f
    · rw [same, hooked.inodeId]
      exact (inTable_natCast index).mpr hooked.i_lt
    · rw [hooked.fd g same] at g_used ⊢
      exact sound.inodeOf g g_lt g_used fun is_pending => same (Option.some.inj is_pending)
  · cases g_eq
  · have count := fdsOf_of_agree f_lt hooked.fd j
    have none_before : ¬(0 < (fs.fd f).handleCount ∧ (fs.fd f).inodeId = (j : Nat)) := by
      rintro ⟨-, inode_eq⟩
      have := sound.unhooked f rfl
      omega
    rw [if_neg none_before, hooked.handleCount, hooked.inodeId] at count
    simp only [counted, true_and, Nat.cast_inj] at count
    by_cases same : index = j
    · subst same
      rw [if_pos rfl] at count
      rw [hooked.inode_self, count]
      dsimp only
      omega
    · rw [if_neg same] at count
      rw [hooked.inode_other (Ne.symm same), count, sound.fds j j_lt]
      omega
  · by_cases same : j = index
    · subst same
      rw [hooked.inode_self]
      dsimp only
      constructor
      · intro absurd_none
        cases absurd_none
      · omega
    · rw [hooked.inode_other same]
      exact sound.iObj j j_lt
  · have holder : ∀ i < nHandles, (fs'.inode i).iObj = some o →
        (i = index ∧ o = obj) ∨ (i ≠ index ∧ (fs.inode i).iObj = some o) := by
      intro i _ i_obj
      by_cases same : i = index
      · rw [same, hooked.inode_self] at i_obj
        exact Or.inl ⟨same, (Option.some.inj i_obj).symm⟩
      · rw [hooked.inode_other same] at i_obj
        exact Or.inr ⟨same, i_obj⟩
    rcases holder j j_lt j_obj with ⟨rfl, o_eq⟩ | ⟨j_ne, j_obj'⟩
    · rcases holder k k_lt k_obj with ⟨rfl, -⟩ | ⟨-, k_obj'⟩
      · rfl
      · exact (hooked.only k k_lt (o_eq ▸ k_obj')).symm
    · rcases holder k k_lt k_obj with ⟨rfl, o_eq⟩ | ⟨-, k_obj'⟩
      · exact hooked.only j j_lt (o_eq ▸ j_obj')
      · exact sound.unique j j_lt k k_lt o j_obj' k_obj'

theorem sound (hooked : Hooked f index obj fs fs') (sound : Sound clean (some f) fs)
    (f_lt : f < nHandles) (counted : 0 < (fs.fd f).handleCount) {node : FsObj}
    (found : fs.objs obj = some node) : Sound clean none fs' := by
  obtain ⟨node', found', held, dev_eq⟩ := hooked.obj node found
  have handlesOf_eq : ∀ g, fs'.handlesOf g = fs.handlesOf g := fun g => by
    rw [handlesOf, handlesOf, hooked.handle]
  refine
    { hooked.inodesSound sound.toInodesSound f_lt counted with
      fdOf := by rw [hooked.handle]; exact sound.fdOf
      handles := fun g g_lt => ?_
      held := fun handle o o_found => ?_
      mounted := fun o o_node o_found => ?_ }
  · rw [handlesOf_eq]
    by_cases same : g = f
    · rw [same, hooked.handleCount]
      exact sound.handles f f_lt
    · rw [hooked.fd g same]
      exact sound.handles g g_lt
  · by_cases is_obj : o = obj
    · rw [is_obj]
      exact ⟨node', found', held⟩
    · obtain ⟨k, g, j, rfl, refers⟩ := handleToObject_iff_refers.mp o_found
      rw [hooked.objs o is_obj]
      exact sound.held k o (hooked.refers_before refers is_obj).handleToObject
  · rw [hooked.isMounted]
    by_cases is_obj : o = obj
    · rw [is_obj, found'] at o_found
      rw [← Option.some.inj o_found, dev_eq]
      exact sound.mounted obj node found
    · rw [hooked.objs o is_obj] at o_found
      exact sound.mounted o o_node o_found

end Hooked

/-- Hooking the pending descriptor to an object. -/
theorem openObject_sound {h f obj : Nat} {node : FsObj} (sound : Sound clean (some f) fs)
    (h_lt : h < nHandles) (used : 0 < (fs.handle h).useCount)
    (f_eq : (fs.handle h).fdId = (f : Nat)) (f_lt : f < nHandles)
    (counted : 0 < (fs.fd f).handleCount) (found : fs.objs obj = some node) (isDir : Bool)
    (flags : OpenFlags) : Sound clean none (fs.openObject h obj isDir flags).2 := by
  obtain ⟨index, hooked⟩ :=
    openObject_hooked sound.toInodesSound h_lt used f_eq f_lt isDir flags
  exact hooked.sound sound f_lt counted found

/-- A pending descriptor that has gone out of use is not pending any more. -/
theorem Sound.settle {f : Nat} (sound : Sound clean (some f) fs)
    (ended : ¬0 < (fs.fd f).handleCount) : Sound clean none fs :=
  { sound with
    inodeOf := fun g g_lt used _ => sound.inodeOf g g_lt used fun is_pending =>
      ended (Option.some.inj is_pending ▸ used)
    unhooked := fun _ absurd_none => by cases absurd_none }

/-- An open that fails gives back its handle and its descriptor. -/
theorem openFailed_sound {h f : Nat} (sound : Sound clean (some f) fs) (h_lt : h < nHandles)
    (h_eq : fs.handle h = { fdId := f, useCount := 1 })
    (one : (fs.fd f).handleCount = 1) : Sound clean none (fs.putHandle h) := by
  refine (putHandle_sound sound h).settle ?_
  have used : 0 < (fs.handle h).useCount := by rw [h_eq]; exact zero_lt_one
  obtain ⟨not_used, -⟩ | ⟨k, g, k_lt, -, k_eq, -, g_eq, -, ended⟩ := putHandle_spec sound h
  · exact absurd used (not_used h h_lt rfl)
  obtain rfl : h = k := by omega
  rw [h_eq] at g_eq ended
  obtain rfl : f = g := by
    dsimp only at g_eq
    omega
  obtain ⟨more, -⟩ | ⟨-, freed, -⟩ := ended
  · exact absurd more (lt_irrefl 1)
  · rw [freed.count, one]
    decide

theorem createFile_cases {found : PathTarget} {mode : Nat} {flags : OpenFlags} {obj : Nat}
    (made : fs.createFile found mode flags = some (obj, fs')) :
    ∃ dev, fs.isMounted dev ∧ fs.objs obj = none ∧
      fs' = { fs with
        objs := Function.update fs.objs obj (some { myDev := dev, ystMode := mode }) } := by
  simp only [createFile] at made
  split at made
  case h_1 dev new _ _ =>
    split at made
    case isTrue allowed =>
      obtain ⟨rfl, rfl⟩ := Prod.mk.inj (Option.some.inj made)
      exact ⟨dev, allowed.2.1, allowed.2.2.2, rfl⟩
    case isFalse => cases made
  case h_2 => cases made

/-- An object comes into memory. -/
theorem Sound.of_new_obj (sound : Sound clean pending fs) {obj : Nat} {node : FsObj}
    (free : fs.objs obj = none) (mounted : fs.isMounted node.myDev) :
    Sound clean pending { fs with objs := Function.update fs.objs obj (some node) } := by
  refine sound.of_objs (fun other old found hooked => ?_) fun other old found => ?_
  · have other_ne : other ≠ obj := fun same => by
      rw [same, free] at found
      cases found
    exact ⟨old, by rw [Function.update_of_ne other_ne]; exact found, hooked⟩
  · rw [Function.update_apply] at found
    split at found
    · rw [← Option.some.inj found]
      exact mounted
    · exact sound.mounted other old found

/-- The state in which a handle and a descriptor have been taken for each other. -/
def takenFor (fs : Yaffsfs) (h f : Nat) : Yaffsfs :=
  (fs.setFd f { inodeId := -1, handleCount := 1 }).setHandle h { fdId := f, useCount := 1 }

/-- What opening comes to: no handle is free, or the handle is given back, or it is hooked to an object
that is there or is made. -/
theorem yaffsOpen_cases (fs : Yaffsfs) (found : PathTarget) (mode : Nat) (flags : OpenFlags) :
    ((fs.yaffsOpen found mode flags).2 = fs ∨ ∃ h, ¬0 < (fs.handle h).useCount ∧
        (fs.yaffsOpen found mode flags).2 = fs.setHandle h { fdId := -1, useCount := 0 }) ∨
      ∃ h f, h < nHandles ∧ f < nHandles ∧ fs.newHandle.1 = some h ∧
        ¬0 < (fs.handle h).useCount ∧ ¬0 < (fs.fd f).handleCount ∧
        ((fs.yaffsOpen found mode flags).2 = (fs.takenFor h f).putHandle h ∨
          ∃ objs obj node isDir, objs obj = some node ∧
            (objs = fs.objs ∨ fs.objs obj = none ∧ fs.isMounted node.myDev ∧
              objs = Function.update fs.objs obj (some node)) ∧
            (fs.yaffsOpen found mode flags).2 =
              (({ fs.takenFor h f with objs }).openObject h obj isDir flags).2) := by
  obtain ⟨none_left, rest⟩ | ⟨h, f, h_lt, f_lt, is_new, free, f_free, taken⟩ :=
    newHandleAndFileDes_cases fs
  · left
    simpa only [yaffsOpen, none_left] using rest
  right
  refine ⟨h, f, h_lt, f_lt, is_new, free, f_free, ?_⟩
  simp only [yaffsOpen, taken]
  split
  case h_1 obj node path_eq =>
    obtain ⟨other, -, other_eq⟩ := Option.bind_eq_some_iff.mp path_eq
    obtain ⟨_, node_eq, pair⟩ := Option.map_eq_some_iff.mp other_eq
    obtain ⟨rfl, rfl⟩ := Prod.mk.inj pair
    split
    · exact Or.inl rfl
    · exact Or.inr ⟨fs.objs, _, _, _, node_eq, Or.inl rfl, rfl⟩
  case h_2 =>
    split
    case h_1 => exact Or.inl rfl
    case h_2 obj after made =>
      obtain ⟨dev, dev_mounted, not_there, rfl⟩ := createFile_cases made
      exact Or.inr ⟨_, obj, { myDev := dev, ystMode := mode }, false, Function.update_self ..,
        Or.inr ⟨not_there, dev_mounted, rfl⟩, rfl⟩

theorem takenFor_handle (h f : Nat) : (fs.takenFor h f).handle h = { fdId := f, useCount := 1 } :=
  setHandle_handle_self ..

theorem takenFor_fd (h f : Nat) :
    (fs.takenFor h f).fd f = { inodeId := -1, handleCount := 1 } := setFd_fd_self ..

theorem takenFor_objs_sound (sound : Sound clean none fs) {h f obj : Nat} (h_lt : h < nHandles)
    (f_lt : f < nHandles) (free : ¬0 < (fs.handle h).useCount)
    (f_free : ¬0 < (fs.fd f).handleCount) {objs : Nat → Option FsObj} {node : FsObj}
    (origin : objs = fs.objs ∨ fs.objs obj = none ∧ fs.isMounted node.myDev ∧
      objs = Function.update fs.objs obj (some node)) :
    Sound clean (some f) { fs.takenFor h f with objs } := by
  have next : Sound clean (some f) (fs.takenFor h f) := sound.of_new h_lt f_lt free f_free
  obtain rfl | ⟨not_there, dev_mounted, rfl⟩ := origin
  · exact next
  · exact next.of_new_obj not_there dev_mounted

theorem yaffsOpen_sound (sound : Sound clean none fs) (found : PathTarget) (mode : Nat)
    (flags : OpenFlags) : Sound clean none (fs.yaffsOpen found mode flags).2 := by
  obtain (same | ⟨h, free, same⟩) | ⟨h, f, h_lt, f_lt, -, free, f_free, ended⟩ :=
    yaffsOpen_cases fs found mode flags
  · rw [same]
    exact sound
  · rw [same]
    exact (sameTables_of_free free (lt_irrefl 0)).sound sound
      (fun _ _ node _ node_eq hooked => ⟨node, node_eq, hooked⟩) sound.mounted
  obtain failed | ⟨objs, obj, node, isDir, node_eq, origin, hooked⟩ := ended
  · rw [failed]
    exact openFailed_sound (sound.of_new h_lt f_lt free f_free) h_lt (takenFor_handle h f)
      (by rw [takenFor_fd])
  · rw [hooked]
    have next := takenFor_objs_sound sound h_lt f_lt free f_free origin
    have handle_eq : ({ fs.takenFor h f with objs } : Yaffsfs).handle h =
        { fdId := f, useCount := 1 } := takenFor_handle h f
    have fd_eq : ({ fs.takenFor h f with objs } : Yaffsfs).fd f =
        { inodeId := -1, handleCount := 1 } := takenFor_fd h f
    exact openObject_sound next h_lt (by rw [handle_eq]; exact zero_lt_one) (by rw [handle_eq]) f_lt
      (by rw [fd_eq]; exact zero_lt_one) node_eq isDir flags

/-- Books that do not see a change. -/
theorem SameTables.sound_of_objs (same : SameTables fs fs') (sound : Sound clean pending fs)
    (objs : fs'.objs = fs.objs) (mounted : ∀ dev, fs.isMounted dev → fs'.isMounted dev) :
    Sound clean pending fs' := by
  refine same.sound sound (fun _ obj node _ found hooked => ⟨node, ?_, hooked⟩)
    fun obj node found => ?_
  · rw [objs]
    exact found
  · rw [objs] at found
    exact mounted node.myDev (sound.mounted obj node found)

theorem yaffsDup_sound (sound : Sound clean none fs) (handle : Int) :
    Sound clean none (fs.yaffsDup handle).2 := by
  simp only [yaffsDup]
  split
  case h_1 => exact sound
  case h_2 f f_found =>
    obtain ⟨h₀, h₀_lt, rfl, h₀_used, h₀_eq, f_lt⟩ := handleToFileDes_eq_some.mp f_found
    have counted : 0 < (fs.fd f).handleCount := by
      have some_handle : 0 < fs.handlesOf f := handlesOf_pos h₀_lt h₀_used h₀_eq
      have := (sound.handles f f_lt).1
      omega
    obtain none_left | ⟨h, h_lt, free, taken⟩ := newHandle_cases fs
    · rw [none_left]
      exact sound
    rw [taken]
    simp only [setHandle_handle_self, setHandle_fd]
    let after := ((fs.setHandle h { fdId := -1, useCount := 1 }).setHandle h
      { fdId := f, useCount := 1 }).setFd f
        { fs.fd f with handleCount := (fs.fd f).handleCount + 1 }
    have handle_other : ∀ k, k ≠ h → after.handle k = fs.handle k := by
      intro k k_ne
      simp [after, setHandle, setFd, Function.update_of_ne k_ne]
    have handle_self : after.handle h = { fdId := f, useCount := 1 } := setHandle_handle_self ..
    have fd_self : after.fd f = { fs.fd f with handleCount := (fs.fd f).handleCount + 1 } :=
      setFd_fd_self ..
    have fd_other : ∀ g, g ≠ f → after.fd g = fs.fd g :=
      fun g g_ne => Function.update_of_ne g_ne ..
    change Sound clean none after
    refine
      { inodeOf := fun g g_lt used _ => ?_
        unhooked := fun g g_eq => ?_
        fds := fun j j_lt => ?_
        iObj := sound.iObj
        unique := sound.unique
        fdOf := fun k k_lt k_used => ?_
        handles := fun g g_lt => ?_
        held := fun handle obj found => ?_
        mounted := sound.mounted }
    · by_cases same : g = f
      · subst same
        rw [fd_self]
        exact sound.inodeOf g g_lt counted (by simp)
      · rw [fd_other g same] at used ⊢
        exact sound.inodeOf g g_lt used (by simp)
    · cases g_eq
    · have same : after.fdsOf j = fs.fdsOf j := by
        refine Tally.count_congr fun g _ => ?_
        by_cases same : g = f
        · subst same
          rw [fd_self]
          exact and_congr_left fun _ => iff_of_true (by dsimp only; omega) counted
        · rw [fd_other g same]
      rw [same]
      exact sound.fds j j_lt
    · by_cases k_eq : k = h
      · rw [k_eq, handle_self]
        exact (inTable_natCast f).mpr f_lt
      · rw [handle_other k k_eq] at k_used ⊢
        exact sound.fdOf k k_lt k_used
    · have count := handlesOf_of_agree h_lt handle_other g
      have none_before : ¬(0 < (fs.handle h).useCount ∧ (fs.handle h).fdId = (g : Nat)) :=
        fun used => free used.1
      rw [if_neg none_before, handle_self] at count
      simp only [zero_lt_one, true_and, Nat.cast_inj] at count
      by_cases same : f = g
      · subst same
        rw [if_pos rfl] at count
        have before := sound.handles f f_lt
        rw [fd_self]
        dsimp only
        exact ⟨by omega, fun is_clean => by have := before.2 is_clean; omega⟩
      · rw [if_neg same] at count
        rw [fd_other g (Ne.symm same), count, Int.sub_zero, Int.add_zero]
        exact sound.handles g g_lt
    · obtain ⟨k, g, index, rfl, refers⟩ := handleToObject_iff_refers.mp found
      have counted' : 0 < (fs.fd g).handleCount := by
        by_cases same : g = f
        · rw [same]
          exact counted
        · rw [← fd_other g same]
          exact refers.counted
      have inode_eq : (fs.fd g).inodeId = (index : Nat) := by
        have inode_eq' := refers.inode_eq
        by_cases same : g = f
        · subst same
          rwa [fd_self] at inode_eq'
        · rwa [fd_other g same] at inode_eq'
      -- The new handle refers to what the old one does.
      obtain ⟨k', k'_lt, k'_used, k'_eq⟩ : ∃ k' < nHandles, 0 < (fs.handle k').useCount ∧
          (fs.handle k').fdId = (g : Nat) := by
        by_cases k_eq : k = h
        · have fd_eq := refers.fd_eq
          rw [k_eq, handle_self] at fd_eq
          exact ⟨h₀, h₀_lt, h₀_used, h₀_eq.trans fd_eq⟩
        · have used := refers.used
          have fd_eq := refers.fd_eq
          rw [handle_other k k_eq] at used fd_eq
          exact ⟨k, refers.h_lt, used, fd_eq⟩
      have before : Refers fs k' g index obj :=
        ⟨k'_lt, k'_used, k'_eq, refers.f_lt, counted', inode_eq, refers.i_lt, refers.obj_eq⟩
      exact sound.held k' obj before.handleToObject

end Yaffsfs

end Yaffs
