import Yaffs.Appends
import Yaffs.ForcedUnmount

/-!
# Long reads and writes

A long read or write keeps its handle by its number only.  The handle may be gone when the next
piece looks it up, so that the piece moves nothing.  It may also have been taken again for another
file: then the piece moves the other file's bytes, and the end of the call lets go of a handle that
is not its own.
-/

namespace Yaffs

namespace Yaffsfs

variable {fs fs' : Yaffsfs}

theorem SameTables.refers (same : SameTables fs fs') {h f index obj : Nat}
    (refers : Refers fs h f index obj) : Refers fs' h f index obj where
  h_lt := refers.h_lt
  used := (same.use h).mpr refers.used
  fd_eq := by rw [same.fdId h refers.used]; exact refers.fd_eq
  f_lt := refers.f_lt
  counted := by rw [same.handleCount]; exact refers.counted
  inode_eq := by rw [same.inodeId]; exact refers.inode_eq
  i_lt := refers.i_lt
  obj_eq := by rw [same.inode]; exact refers.obj_eq

/-- The handle of a read or write is gone or refers to what it has referred to at the start. -/
def Owns (fs : Yaffsfs) (tr : Transfer) : Prop :=
  ∀ h < nHandles, tr.handle = (h : Nat) → 0 < (fs.handle h).useCount →
    ∃ index, Refers fs h tr.fdId index tr.file

/-- Every read and write in flight owns its handle, and a handle in use counts all of them. -/
structure Sticks (fs : Yaffsfs) : Prop where
  own : ∀ tr ∈ fs.flight, Owns fs tr
  counted : ∀ h < nHandles, 0 < (fs.handle h).useCount →
    (fs.flightOn h : Int) ≤ (fs.handle h).useCount

/-- A turn that moves nothing: what is in flight stays so, and a handle that is still in use refers
to what it has referred to. -/
structure Calm (fs fs' : Yaffsfs) : Prop where
  flight : fs'.flight = fs.flight
  kept : ∀ h f index obj, Refers fs h f index obj → 0 < (fs'.handle h).useCount →
    Refers fs' h f index obj ∧ (fs.flightOn h : Int) ≤ (fs'.handle h).useCount
  fresh : ∀ h < nHandles, 0 < (fs'.handle h).useCount →
    0 < (fs.handle h).useCount ∨ fs.flightOn h = 0

theorem flightOn_eq_zero_iff (h : Nat) :
    fs.flightOn h = 0 ↔ ∀ tr ∈ fs.flight, tr.handle ≠ (h : Nat) := by
  simp [flightOn, List.countP_eq_zero]

/-- A calm turn leaves the reads and writes in flight with their handles. -/
theorem Sticks.of_calm (sticks : Sticks fs) (sound : Sound False none fs) (calm : Calm fs fs') :
    Sticks fs' where
  own := fun tr tr_mem h h_lt h_eq used => by
    rw [calm.flight] at tr_mem
    rcases calm.fresh h h_lt used with before | none_in_flight
    · obtain ⟨index, refers⟩ := sticks.own tr tr_mem h h_lt h_eq before
      exact ⟨index, (calm.kept h tr.fdId index tr.file refers used).1⟩
    · exact absurd h_eq ((flightOn_eq_zero_iff h).mp none_in_flight tr tr_mem)
  counted := fun h h_lt used => by
    have flight_eq : fs'.flightOn h = fs.flightOn h := by rw [flightOn, flightOn, calm.flight]
    rw [flight_eq]
    rcases calm.fresh h h_lt used with before | none_in_flight
    · obtain ⟨f, index, obj, refers⟩ := sound.refers_of_used h_lt before
      exact (calm.kept h f index obj refers used).2
    · rw [none_in_flight]
      push_cast
      omega

/-- The tables are the same, and so are the use counts. -/
theorem calm_of_same (sticks : Sticks fs) (same : SameTables fs fs')
    (handle : fs'.handle = fs.handle) (flight : fs'.flight = fs.flight) : Calm fs fs' where
  flight := flight
  kept := fun h f index obj refers _ => by
    refine ⟨same.refers refers, ?_⟩
    rw [handle]
    exact sticks.counted h refers.h_lt refers.used
  fresh := fun h _ used => by
    rw [handle] at used
    exact Or.inl used

/-! ## Letting go of handles -/

/-- What is left when a handle has been let go of. -/
structure HandlePut (handle : Int) (fs fs' : Yaffsfs) : Prop where
  flight : fs'.flight = fs.flight
  useCount : ∀ k < nHandles, (fs'.handle k).useCount = (fs.handle k).useCount -
    if handle = (k : Nat) ∧ 0 < (fs.handle k).useCount then 1 else 0
  kept : ∀ k f index obj, Refers fs k f index obj → 0 < (fs'.handle k).useCount →
    Refers fs' k f index obj
  objs : ∀ obj, (∀ k f index, handle = (k : Nat) → ¬Refers fs k f index obj) →
    fs'.objs obj = fs.objs obj

theorem putHandle_put {clean : Prop} {pending : Option Nat} (sound : Sound clean pending fs)
    (handle : Int) : HandlePut handle fs (fs.putHandle handle) := by
  obtain ⟨not_used, same⟩ | ⟨h, f, h_lt, f_lt, rfl, used, f_eq, counted, ended⟩ :=
    putHandle_spec sound handle
  · rw [same]
    exact
      { flight := rfl
        useCount := fun k k_lt => by
          rw [if_neg fun both => not_used k k_lt both.1 both.2, Int.sub_zero]
        kept := fun _ _ _ _ refers _ => refers
        objs := fun _ _ => rfl }
  obtain ⟨more, eq⟩ | ⟨last, freed, -⟩ := ended
  · rw [eq]
    have keeps : KeepsOpen fs (fs.setHandle h
        { fs.handle h with useCount := (fs.handle h).useCount - 1 }) :=
      keepsOpen_useCount used (by omega)
    refine
      { flight := rfl
        useCount := fun k _ => ?_
        kept := fun _ _ _ _ refers _ => keeps.same.refers refers
        objs := fun _ _ => rfl }
    simp only [setHandle, Function.update_apply, Nat.cast_inj]
    by_cases same : k = h
    · subst same
      rw [if_pos rfl, if_pos ⟨rfl, used⟩]
    · rw [if_neg same, if_neg fun both => same both.1.symm, Int.sub_zero]
  · have after := putHandle_sound sound h
    refine
      { flight := freed.flight
        useCount := fun k _ => ?_
        kept := fun k g index obj refers k_used => ?_
        objs := fun obj not_held => freed.objs obj fun index i_eq held => ?_ }
    · by_cases same : k = h
      · subst same
        rw [freed.handle, Function.update_self, if_pos ⟨rfl, used⟩, last]
        rfl
      · rw [freed.handle_other same, if_neg fun both => same (by omega), Int.sub_zero]
    · have k_ne : k ≠ h := fun same => freed.not_used (same ▸ k_used)
      exact (freed.refers_after after refers k_ne).1
    · by_cases i_lt : index < nHandles
      · exact not_held h f index rfl ⟨h_lt, used, f_eq, f_lt, counted, i_eq, i_lt, held⟩
      · by_cases is_pending : some f = pending
        · have := sound.unhooked f is_pending.symm
          omega
        · have inside := (inTable_iff _).mp (sound.inodeOf f f_lt counted is_pending)
          omega

/-! ## Opening and closing -/

/-- No close takes a reference that one of several reads and writes in flight holds, and no handle
is taken that a read or write in flight has begun with. -/
def Careful : Turn → Yaffsfs → Prop
  | .openFile _ _ _, fs => ∀ h, fs.newHandle.1 = some h → fs.flightOn h = 0
  | .dup _, fs => ∀ h, fs.newHandle.1 = some h → fs.flightOn h = 0
  | .close handle, fs => ∀ h < nHandles, handle = (h : Nat) → 1 < (fs.handle h).useCount →
      (fs.flightOn h : Int) < (fs.handle h).useCount
  | _, _ => True

theorem yaffsClose_calm (sticks : Sticks fs) (sound : Sound False none fs) {handle : Int}
    (careful : Careful (.close handle) fs) : Calm fs (fs.yaffsClose handle).2 := by
  simp only [yaffsClose]
  split
  case isFalse => exact calm_of_same sticks SameTables.refl rfl rfl
  case isTrue =>
    have put := putHandle_put sound handle
    refine
      { flight := put.flight
        kept := fun h f index obj refers used => ⟨put.kept h f index obj refers used, ?_⟩
        fresh := fun h h_lt used => ?_ }
    · dsimp only at used ⊢
      have use_eq := put.useCount h refers.h_lt
      have before := sticks.counted h refers.h_lt refers.used
      split at use_eq
      case isTrue closes =>
        have := careful h refers.h_lt closes.1 (by omega)
        omega
      case isFalse => omega
    · left
      rw [put.useCount h h_lt] at used
      split at used
      · omega
      · omega

/-- What a handle in use refers to, it refers to while another handle and a free descriptor are
taken. -/
theorem refers_takenFor {h f : Nat} (free : ¬0 < (fs.handle h).useCount)
    (f_free : ¬0 < (fs.fd f).handleCount) (objs : Nat → Option FsObj) {k g index obj : Nat}
    (refers : Refers fs k g index obj) : k ≠ h ∧ g ≠ f ∧
      Refers { fs.takenFor h f with objs } k g index obj := by
  have k_ne : k ≠ h := fun same => free (same ▸ refers.used)
  have g_ne : g ≠ f := fun same => f_free (same ▸ refers.counted)
  have k_eq : ({ fs.takenFor h f with objs } : Yaffsfs).handle k = fs.handle k :=
    Function.update_of_ne k_ne ..
  have g_eq : ({ fs.takenFor h f with objs } : Yaffsfs).fd g = fs.fd g :=
    Function.update_of_ne g_ne ..
  exact ⟨k_ne, g_ne,
    { h_lt := refers.h_lt
      used := by rw [k_eq]; exact refers.used
      fd_eq := by rw [k_eq]; exact refers.fd_eq
      f_lt := refers.f_lt
      counted := by rw [g_eq]; exact refers.counted
      inode_eq := by rw [g_eq]; exact refers.inode_eq
      i_lt := refers.i_lt
      obj_eq := refers.obj_eq }⟩

/-- A turn that takes one handle at most is calm. -/
theorem calm_of_taken (sticks : Sticks fs) {h : Nat} (free : ¬0 < (fs.handle h).useCount)
    (flight : fs'.flight = fs.flight)
    (useCount : ∀ k < nHandles, k ≠ h → (fs'.handle k).useCount = (fs.handle k).useCount)
    (kept : ∀ k g index obj, Refers fs k g index obj → Refers fs' k g index obj)
    (fresh : 0 < (fs'.handle h).useCount → fs.flightOn h = 0) : Calm fs fs' where
  flight := flight
  kept := fun k g index obj refers _ => by
    refine ⟨kept k g index obj refers, ?_⟩
    rw [useCount k refers.h_lt fun same => free (same ▸ refers.used)]
    exact sticks.counted k refers.h_lt refers.used
  fresh := fun k k_lt used => by
    by_cases same : k = h
    · rw [same] at used ⊢
      exact Or.inr (fresh used)
    · rw [useCount k k_lt same] at used
      exact Or.inl used

theorem yaffsOpen_calm (sticks : Sticks fs) (sound : Sound False none fs) {found : PathTarget}
    {mode : Nat} {flags : OpenFlags} (careful : Careful (.openFile found mode flags) fs) :
    Calm fs (fs.yaffsOpen found mode flags).2 := by
  obtain (same | ⟨h, free, same⟩) | ⟨h, f, h_lt, f_lt, is_new, free, f_free, ended⟩ :=
    yaffsOpen_cases fs found mode flags
  · rw [same]
    exact calm_of_same sticks SameTables.refl rfl rfl
  · rw [same]
    refine calm_of_taken sticks free rfl (fun k _ k_ne => ?_)
      (fun k g index obj refers => (sameTables_of_free free (lt_irrefl 0)).refers refers)
      fun used => ?_
    · simp only [setHandle, Function.update_of_ne k_ne]
    · rw [setHandle_handle_self] at used
      exact absurd used (lt_irrefl 0)
  have none_in_flight : fs.flightOn h = 0 := careful h is_new
  obtain failed | ⟨objs, obj, node, isDir, node_eq, origin, opened⟩ := ended
  · rw [failed]
    have taken : Sound False (some f) (fs.takenFor h f) := sound.of_new h_lt f_lt free f_free
    have put := putHandle_put taken h
    have use_eq : ∀ k < nHandles, k ≠ h → (((fs.takenFor h f).putHandle h).handle k).useCount =
        (fs.handle k).useCount := by
      intro k k_lt k_ne
      rw [put.useCount k k_lt, if_neg fun both => k_ne (by omega), Int.sub_zero]
      exact congrArg Handle.useCount (Function.update_of_ne k_ne ..)
    refine calm_of_taken sticks free put.flight use_eq (fun k g index o refers => ?_)
      fun _ => none_in_flight
    obtain ⟨k_ne, -, refers'⟩ := refers_takenFor free f_free fs.objs refers
    refine put.kept k g index o refers' ?_
    rw [use_eq k refers.h_lt k_ne]
    exact refers.used
  · rw [opened]
    have taken := takenFor_objs_sound sound h_lt f_lt free f_free origin
    have handle_eq : ({ fs.takenFor h f with objs } : Yaffsfs).handle h =
        { fdId := f, useCount := 1 } := takenFor_handle h f
    obtain ⟨index, hooked⟩ : ∃ index, Hooked f index obj { fs.takenFor h f with objs }
        (({ fs.takenFor h f with objs } : Yaffsfs).openObject h obj isDir flags).2 :=
      openObject_hooked taken.toInodesSound h_lt (by rw [handle_eq]; exact zero_lt_one)
        (by rw [handle_eq]) f_lt isDir flags
    refine calm_of_taken sticks free hooked.flight (fun k _ k_ne => ?_)
      (fun k g j o refers => ?_) fun _ => none_in_flight
    · rw [hooked.handle]
      exact congrArg Handle.useCount (Function.update_of_ne k_ne ..)
    · obtain ⟨-, g_ne, refers'⟩ := refers_takenFor free f_free objs refers
      exact hooked.refers_after refers' g_ne

theorem yaffsDup_calm (sticks : Sticks fs) {handle : Int} (careful : Careful (.dup handle) fs) :
    Calm fs (fs.yaffsDup handle).2 := by
  have same : Calm fs fs := calm_of_same sticks SameTables.refl rfl rfl
  simp only [yaffsDup]
  split
  case h_1 => exact same
  case h_2 f f_found =>
    obtain none_left | ⟨h, h_lt, free, taken⟩ := newHandle_cases fs
    · rw [none_left]
      exact same
    have none_in_flight : fs.flightOn h = 0 := careful h (by rw [taken])
    rw [taken]
    simp only [setHandle_handle_self, setHandle_fd]
    have handle_other : ∀ k, k ≠ h → (((fs.setHandle h { fdId := -1, useCount := 1 }).setHandle h
        { fdId := f, useCount := 1 }).setFd f
          { fs.fd f with handleCount := (fs.fd f).handleCount + 1 }).handle k = fs.handle k := by
      intro k k_ne
      simp [setHandle, setFd, Function.update_of_ne k_ne]
    refine calm_of_taken sticks free rfl (fun k _ k_ne => by rw [handle_other k k_ne])
      (fun k g index obj refers => ?_) fun _ => none_in_flight
    have k_ne : k ≠ h := fun same => free (same ▸ refers.used)
    have k_eq := handle_other k k_ne
    by_cases g_eq : g = f
    · subst g_eq
      exact
        { h_lt := refers.h_lt
          used := by rw [k_eq]; exact refers.used
          fd_eq := by rw [k_eq]; exact refers.fd_eq
          f_lt := refers.f_lt
          counted := by
            have := refers.counted
            rw [setFd_fd_self]
            dsimp only
            omega
          inode_eq := by rw [setFd_fd_self]; exact refers.inode_eq
          i_lt := refers.i_lt
          obj_eq := refers.obj_eq }
    · have fd_eq : (((fs.setHandle h { fdId := -1, useCount := 1 }).setHandle h
          { fdId := f, useCount := 1 }).setFd f
            { fs.fd f with handleCount := (fs.fd f).handleCount + 1 }).fd g = fs.fd g :=
        Function.update_of_ne g_eq ..
      exact
        { h_lt := refers.h_lt
          used := by rw [k_eq]; exact refers.used
          fd_eq := by rw [k_eq]; exact refers.fd_eq
          f_lt := refers.f_lt
          counted := by rw [fd_eq]; exact refers.counted
          inode_eq := by rw [fd_eq]; exact refers.inode_eq
          i_lt := refers.i_lt
          obj_eq := refers.obj_eq }

/-! ## Devices -/

/-- A turn that breaks all handles is calm: what is in flight has lost its handles. -/
theorem calm_of_broken (flight : fs'.flight = fs.flight)
    (broken : ∀ h < nHandles, ¬0 < (fs'.handle h).useCount) : Calm fs fs' where
  flight := flight
  kept := fun h _ _ _ refers used => absurd used (broken h refers.h_lt)
  fresh := fun h h_lt used => absurd used (broken h h_lt)

theorem yaffsUnmount2_calm (sticks : Sticks fs) (sound : Sound False none fs) (dev : Nat)
    (force : Bool) : Calm fs (fs.yaffsUnmount2 dev force).2 := by
  have same : Calm fs fs := calm_of_same sticks SameTables.refl rfl rfl
  simp only [yaffsUnmount2]
  split
  case isFalse => exact same
  case isTrue =>
    split
    case isFalse => exact same
    case isTrue =>
      dsimp only
      split
      case isTrue =>
        have breaking : Breaking False dev fs nHandles (fs.breakDeviceHandles dev) :=
          breakDeviceHandles_breaking sound fun absurd_clean => absurd_clean.elim
        generalize fs.breakDeviceHandles dev = broken at breaking
        exact calm_of_broken breaking.flight breaking.broken
      case isFalse =>
        exact calm_of_same sticks
          ⟨fun _ => Iff.rfl, fun _ _ => rfl, fun _ => rfl, fun _ => rfl, rfl⟩ rfl rfl

theorem Calm.of_rest (calm : Calm fs fs') {isMounted readOnly : Nat → Bool} :
    Calm fs { fs' with isMounted, readOnly } where
  flight := calm.flight
  kept := fun h f index obj refers used => by
    obtain ⟨refers', counted⟩ := calm.kept h f index obj refers used
    exact ⟨{ refers' with }, counted⟩
  fresh := calm.fresh

theorem yaffsFormat_calm (sticks : Sticks fs) (sound : Sound False none fs) (dev : Nat)
    (unmountFlag forceUnmount remount : Bool) :
    Calm fs (fs.yaffsFormat dev unmountFlag forceUnmount remount).2 := by
  have after : Calm fs (if unmountFlag then (fs.yaffsUnmount2 dev forceUnmount).2 else fs) := by
    split
    · exact yaffsUnmount2_calm sticks sound dev forceUnmount
    · exact calm_of_same sticks SameTables.refl rfl rfl
  simp only [yaffsFormat]
  generalize (if unmountFlag then (fs.yaffsUnmount2 dev forceUnmount).2 else fs) = unmounted
    at after ⊢
  split
  · exact after
  · split
    · exact after.of_rest
    · exact after

/-- A turn that is not part of a read or write is calm. -/
theorem exec_calm (sticks : Sticks fs) (sound : Sound False none fs) {turn : Turn}
    (careful : Careful turn fs) (not_read : ∀ handle nbyte isPread offset,
      turn ≠ .read handle nbyte isPread offset)
    (not_write : ∀ handle buf isPwrite offset room, turn ≠ .write handle buf isPwrite offset room)
    (not_resume : ∀ index room, turn ≠ .resume index room) : Calm fs (exec turn fs) := by
  have same : Calm fs fs := calm_of_same sticks SameTables.refl rfl rfl
  have tables : ∀ objs isMounted readOnly,
      SameTables fs { fs with objs, isMounted, readOnly } := fun _ _ _ =>
    ⟨fun _ => Iff.rfl, fun _ _ => rfl, fun _ => rfl, fun _ => rfl, rfl⟩
  cases turn with
  | openFile found mode flags => exact yaffsOpen_calm sticks sound careful
  | dup handle => exact yaffsDup_calm sticks careful
  | close handle => exact yaffsClose_calm sticks sound careful
  | lseek handle offset whence =>
    simp only [exec]
    obtain eq | ⟨fdId, position, eq⟩ := yaffsLseek_cases fs handle offset whence
    · rw [eq]
      exact same
    · rw [eq]
      exact calm_of_same sticks (sameTables_position fdId position) rfl rfl
  | resize obj size => exact calm_of_same sticks (tables _ _ _) rfl rfl
  | unlink obj =>
    simp only [exec, unlinkObj]
    split
    · exact same
    · split
      · exact calm_of_same sticks (tables _ _ _) rfl rfl
      · exact calm_of_same sticks (tables _ _ _) rfl rfl
  | load obj node =>
    simp only [exec, Yaffsfs.load]
    split
    · exact calm_of_same sticks (tables _ _ _) rfl rfl
    · exact same
  | mount dev readOnly =>
    simp only [exec, yaffsMount]
    split
    · exact same
    · exact calm_of_same sticks (tables _ _ _) rfl rfl
  | remount dev force readOnly =>
    simp only [exec, yaffsRemount]
    split
    · exact calm_of_same sticks (tables _ _ _) rfl rfl
    · exact same
  | unmount2 dev force => exact yaffsUnmount2_calm sticks sound dev force
  | format dev unmountFlag forceUnmount remount =>
    exact yaffsFormat_calm sticks sound dev unmountFlag forceUnmount remount
  | read handle nbyte isPread offset => exact absurd rfl (not_read handle nbyte isPread offset)
  | write handle buf isPwrite offset room =>
    exact absurd rfl (not_write handle buf isPwrite offset room)
  | resume index room => exact absurd rfl (not_resume index room)

/-! ## Reading and writing -/

theorem Refers.obj_unique {h f index obj f' index' obj' : Nat} (refers : Refers fs h f index obj)
    (refers' : Refers fs h f' index' obj') : obj = obj' :=
  Option.some.inj (refers.handleToObject.symm.trans refers'.handleToObject)

/-- A read or write that is about to go on: it owns its handle, which counts it besides those in
flight. -/
structure Poised (tr : Transfer) (fs : Yaffsfs) : Prop where
  own : ∀ other ∈ fs.flight, Owns fs other
  self : Owns fs tr
  counted : ∀ h < nHandles, 0 < (fs.handle h).useCount →
    (fs.flightOn h : Int) + (if tr.handle = h then 1 else 0) ≤ (fs.handle h).useCount

/-- What a read or write may do while it has its turn: it changes no file but its own, and gives
back its own reference and no other when it ends. -/
structure Advanced (tr : Transfer) (fs fs' : Yaffsfs) : Prop where
  sticks : Sticks fs'
  objs : ∀ obj, obj ≠ tr.file → fs'.objs obj = fs.objs obj
  refs : ∀ h < nHandles, 0 < (fs.handle h).useCount →
    (fs'.handle h).useCount - fs'.flightOn h =
      (fs.handle h).useCount - fs.flightOn h - if tr.handle = h then 1 else 0
  gone : ∀ h < nHandles, ¬0 < (fs.handle h).useCount →
    (fs'.handle h).useCount = (fs.handle h).useCount

/-- A change of positions and objects only. -/
structure Quiet (fs fs' : Yaffsfs) : Prop where
  same : SameTables fs fs'
  handle : fs'.handle = fs.handle
  flight : fs'.flight = fs.flight

theorem Quiet.owns (quiet : Quiet fs fs') {tr : Transfer} (owns : Owns fs tr) : Owns fs' tr := by
  intro h h_lt h_eq used
  rw [quiet.handle] at used
  obtain ⟨index, refers⟩ := owns h h_lt h_eq used
  exact ⟨index, quiet.same.refers refers⟩

theorem Quiet.flightOn (quiet : Quiet fs fs') (h : Nat) : fs'.flightOn h = fs.flightOn h := by
  rw [Yaffsfs.flightOn, Yaffsfs.flightOn, quiet.flight]

theorem Quiet.poised (quiet : Quiet fs fs') {tr : Transfer} (poised : Poised tr fs) :
    Poised tr fs' where
  own := fun other other_mem => by
    rw [quiet.flight] at other_mem
    exact quiet.owns (poised.own other other_mem)
  self := quiet.owns poised.self
  counted := fun h h_lt used => by
    rw [quiet.handle] at used ⊢
    rw [quiet.flightOn]
    exact poised.counted h h_lt used

/-- A piece of a read or write of a poised call. -/
theorem piece_quiet {tr : Transfer} (poised : Poised tr fs) (room : Nat) :
    let done := if tr.isWrite then fs.writePiece room tr else (fs.readPiece tr, fs)
    Quiet fs done.2 ∧ (∀ obj, obj ≠ tr.file → done.2.objs obj = fs.objs obj) ∧
      done.1.handle = tr.handle ∧ done.1.fdId = tr.fdId ∧ done.1.file = tr.file := by
  have same : Quiet fs fs := ⟨SameTables.refl, rfl, rfl⟩
  intro done
  simp only [done]
  split
  case isFalse =>
    simp only [readPiece]
    split
    · exact ⟨same, fun _ _ => trivial, rfl, rfl, rfl⟩
    · exact ⟨same, fun _ _ => trivial, rfl, rfl, rfl⟩
  case isTrue =>
    simp only [writePiece]
    split
    case h_1 => exact ⟨same, fun _ _ => rfl, rfl, rfl, rfl⟩
    case h_2 obj found =>
      split
      · exact ⟨same, fun _ _ => rfl, rfl, rfl, rfl⟩
      · obtain ⟨h, f, index, h_eq, refers⟩ := handleToObject_iff_refers.mp found
        obtain ⟨index', refers'⟩ := poised.self h refers.h_lt h_eq refers.used
        have obj_eq : obj = tr.file := refers.obj_unique refers'
        refine ⟨⟨⟨fun _ => Iff.rfl, fun _ _ => rfl, fun _ => rfl, fun _ => rfl, rfl⟩, rfl, rfl⟩,
          fun other other_ne => ?_, rfl, rfl, rfl⟩
        exact Function.update_of_ne (obj_eq ▸ other_ne) ..

theorem finish_advanced {tr : Transfer} (poised : Poised tr fs) (sound : Sound False none fs) :
    Advanced tr fs (fs.finish tr) := by
  have put := putHandle_put sound tr.handle
  have flight_eq : ∀ h, (fs.putHandle tr.handle).flightOn h = fs.flightOn h := by
    intro h
    rw [flightOn, flightOn, put.flight]
  have ended : Advanced tr fs (fs.putHandle tr.handle) := by
    refine
      { sticks :=
          { own := fun other other_mem h h_lt h_eq used => ?_
            counted := fun h h_lt used => ?_ }
        objs := fun obj obj_ne => put.objs obj fun k f index k_eq refers => ?_
        refs := fun h h_lt used => ?_
        gone := fun h h_lt not_used => ?_ }
    · rw [put.flight] at other_mem
      have before : 0 < (fs.handle h).useCount := by
        have use_eq := put.useCount h h_lt
        split at use_eq
        · omega
        · omega
      obtain ⟨index, refers⟩ := poised.own other other_mem h h_lt h_eq before
      exact ⟨index, put.kept h other.fdId index other.file refers used⟩
    · have use_eq := put.useCount h h_lt
      have before : 0 < (fs.handle h).useCount := by
        split at use_eq
        · omega
        · omega
      have counted := poised.counted h h_lt before
      simp only [before, and_true] at use_eq
      rw [flight_eq, use_eq]
      omega
    · obtain ⟨index', refers'⟩ := poised.self k refers.h_lt k_eq refers.used
      exact obj_ne (refers.obj_unique refers')
    · have use_eq := put.useCount h h_lt
      simp only [used, and_true] at use_eq
      rw [flight_eq, use_eq]
      omega
    · rw [put.useCount h h_lt, if_neg fun both => not_used both.2, Int.sub_zero]
  obtain same | ⟨position, moved⟩ := finish_cases fs tr
  · rw [same]
    exact ended
  · rw [moved]
    have quiet : Quiet (fs.putHandle tr.handle) ((fs.putHandle tr.handle).setFd tr.fdId
        { (fs.putHandle tr.handle).fd tr.fdId with position }) :=
      ⟨sameTables_position tr.fdId position, rfl, rfl⟩
    exact
      { sticks :=
          { own := fun other other_mem => quiet.owns (ended.sticks.own other other_mem)
            counted := ended.sticks.counted }
        objs := ended.objs
        refs := ended.refs
        gone := ended.gone }

/-- A turn of a read or write leaves every other file and every other reference alone. -/
theorem advance_advanced {tr : Transfer} (poised : Poised tr fs) (sound : Sound False none fs)
    (room : Nat) : Advanced tr fs (fs.advance room tr) := by
  simp only [advance]
  split
  case isTrue => exact finish_advanced poised sound
  case isFalse =>
    obtain ⟨quiet, objs, handle_eq, fdId_eq, file_eq⟩ := piece_quiet poised room
    have done_sound : Sound False none
        (if tr.isWrite then fs.writePiece room tr else (fs.readPiece tr, fs)).2 := by
      split
      · exact writePiece_sound sound room tr
      · exact sound
    generalize (if tr.isWrite then fs.writePiece room tr else (fs.readPiece tr, fs)) = done
      at quiet objs handle_eq fdId_eq file_eq done_sound ⊢
    have poised' : Poised done.1 done.2 := by
      have before := quiet.poised poised
      exact
        { own := before.own
          self := by
            unfold Owns
            rw [handle_eq, fdId_eq, file_eq]
            exact before.self
          counted := by
            rw [handle_eq]
            exact before.counted }
    split
    case isTrue more =>
      have flight_eq : ∀ h : Nat, ({ done.2 with flight := done.2.flight ++ [done.1] } :
          Yaffsfs).flightOn h = fs.flightOn h + if tr.handle = h then 1 else 0 := by
        intro h
        rw [← quiet.flightOn]
        simp only [flightOn, List.countP_append, List.countP_singleton, handle_eq,
          decide_eq_true_eq]
      refine
        { sticks :=
            { own := fun other other_mem h h_lt h_eq used => ?_
              counted := fun h h_lt used => ?_ }
          objs
          refs := fun h h_lt used => ?_
          gone := fun h h_lt not_used => by rw [quiet.handle] }
      · have owns : Owns done.2 other := by
          rcases List.mem_append.mp other_mem with before | new
          · exact poised'.own other before
          · rw [List.mem_singleton.mp new]
            exact poised'.self
        obtain ⟨index, refers⟩ := owns h h_lt h_eq used
        exact ⟨index, { refers with }⟩
      · rw [flight_eq]
        have counted := poised'.counted h h_lt used
        rw [quiet.flightOn, handle_eq] at counted
        push_cast
        exact counted
      · rw [flight_eq, quiet.handle]
        push_cast
        omega
    case isFalse =>
      have ended := finish_advanced poised' done_sound
      refine
        { sticks := ended.sticks
          objs := fun obj obj_ne => by
            rw [ended.objs obj (file_eq ▸ obj_ne), objs obj obj_ne]
          refs := fun h h_lt used => ?_
          gone := fun h h_lt not_used => ?_ }
      · have := ended.refs h h_lt (by rw [quiet.handle]; exact used)
        rw [quiet.handle, quiet.flightOn, handle_eq] at this
        exact this
      · rw [ended.gone h h_lt (by rw [quiet.handle]; exact not_used), quiet.handle]

/-! ## Turns of reads and writes -/

theorem getHandle_useCount (handle : Int) {h : Nat} (h_lt : h < nHandles) :
    ((fs.getHandle handle).handle h).useCount = (fs.handle h).useCount +
      if handle = h ∧ 0 < (fs.handle h).useCount then 1 else 0 := by
  simp only [getHandle, Vfs.handleToPointer]
  by_cases inside : Vfs.inTable handle
  case neg =>
    rw [if_neg inside, if_neg, Int.add_zero]
    rintro ⟨rfl, -⟩
    exact inside ((inTable_natCast h).mpr h_lt)
  case pos =>
    rw [if_pos inside]
    obtain ⟨k, k_lt, rfl⟩ := inTable_cases inside
    simp only [Int.toNat_natCast, Nat.cast_inj]
    by_cases used : 0 < (fs.handle k).useCount
    · rw [if_pos used]
      by_cases same : k = h
      · subst same
        rw [setHandle_handle_self, if_pos ⟨rfl, used⟩]
      · rw [if_neg fun both => same both.1, Int.add_zero]
        exact congrArg Handle.useCount (Function.update_of_ne (Ne.symm same) ..)
    · rw [if_neg used]
      by_cases same : k = h
      · subst same
        rw [if_neg fun both => used both.2, Int.add_zero]
      · rw [if_neg fun both => same both.1, Int.add_zero]

theorem getHandle_flightOn (handle : Int) (h : Nat) :
    (fs.getHandle handle).flightOn h = fs.flightOn h := by
  rw [flightOn, flightOn, getHandle_rest]

/-- A read or write that begins owns its handle. -/
theorem Sticks.begin (sticks : Sticks fs) {tr : Transfer}
    (fd_eq : fs.handleToFileDes tr.handle = some tr.fdId)
    (obj_eq : fs.handleToObject tr.handle = some tr.file) :
    Poised tr (fs.getHandle tr.handle) := by
  have same := getHandle_same fs tr.handle
  have owns_of : ∀ other, Owns fs other → Owns (fs.getHandle tr.handle) other := by
    intro other owns h h_lt h_eq used
    obtain ⟨index, refers⟩ := owns h h_lt h_eq ((same.use h).mp used)
    exact ⟨index, same.refers refers⟩
  refine
    { own := fun other other_mem => owns_of other (sticks.own other ?_)
      self := owns_of tr fun h h_lt h_eq used => ?_
      counted := fun h h_lt used => ?_ }
  · rw [getHandle_rest] at other_mem
    exact other_mem
  · obtain ⟨k, f, index, k_eq, refers⟩ := handleToObject_iff_refers.mp obj_eq
    obtain rfl : h = k := by omega
    obtain rfl : tr.fdId = f := by
      have found := refers.handleToFileDes
      rw [← k_eq, fd_eq] at found
      exact Option.some.inj found
    exact ⟨index, refers⟩
  · have before := (same.use h).mp used
    have counted := sticks.counted h h_lt before
    rw [getHandle_flightOn, getHandle_useCount tr.handle h_lt]
    simp only [before, and_true]
    omega

/-- A read or write that goes on has kept its handle. -/
theorem Sticks.pick (sticks : Sticks fs) {index : Nat} {tr : Transfer}
    (found : fs.flight[index]? = some tr) :
    Poised tr { fs with flight := fs.flight.eraseIdx index } ∧
      ∀ h : Nat, (({ fs with flight := fs.flight.eraseIdx index } : Yaffsfs).flightOn h : Int) =
        fs.flightOn h - if tr.handle = h then 1 else 0 := by
  obtain ⟨index_lt, tr_eq⟩ := List.getElem?_eq_some_iff.mp found
  have flight_eq : ∀ h : Nat,
      (({ fs with flight := fs.flight.eraseIdx index } : Yaffsfs).flightOn h : Int) =
        fs.flightOn h - if tr.handle = h then 1 else 0 := by
    intro h
    have split_count := (List.getElem_cons_eraseIdx_perm index_lt).countP_eq
      fun tr => decide (tr.handle = (h : Int))
    rw [List.countP_cons, tr_eq] at split_count
    simp only [flightOn, ← split_count, decide_eq_true_eq]
    split
    · push_cast
      omega
    · push_cast
      omega
  refine ⟨?_, flight_eq⟩
  have owns_of : ∀ other, Owns fs other →
      Owns { fs with flight := fs.flight.eraseIdx index } other := by
    intro other owns h h_lt h_eq used
    obtain ⟨i, refers⟩ := owns h h_lt h_eq used
    exact ⟨i, { refers with }⟩
  exact
    { own := fun other other_mem =>
        owns_of other (sticks.own other (List.mem_of_mem_eraseIdx other_mem))
      self := owns_of tr (sticks.own tr (List.mem_of_getElem? found))
      counted := fun h h_lt used => by
        have counted := sticks.counted h h_lt used
        rw [flight_eq]
        dsimp only
        omega }

/-! ## Runs -/

/-- The file that the read or write whose turn it is has been called for. -/
def ownFile (turn : Turn) (fs : Yaffsfs) : Option Nat :=
  match turn with
  | .read handle _ _ _ => fs.handleToObject handle
  | .write handle _ _ _ _ => fs.handleToObject handle
  | .resume index _ => fs.flight[index]?.map Transfer.file
  | _ => none

/-- A read does a piece from the state `begun`: its first one, or one after the turns of others. -/
inductive Reading (fs : Yaffsfs) : Turn → Transfer → Yaffsfs → Prop
  | first {handle offset : Int} {nbyte : Nat} {isPread : Bool} {tr : Transfer}
    (own : fs.handleToObject handle = some tr.file) (handle_eq : tr.handle = handle) :
    Reading fs (.read handle nbyte isPread offset) tr (fs.getHandle handle)
  | next {index room : Nat} {tr : Transfer} (found : fs.flight[index]? = some tr) :
    Reading fs (.resume index room) tr { fs with flight := fs.flight.eraseIdx index }

/-- A turn of a read or write keeps to its own file and its own reference: the bytes it reads are
its file's, no other file changes, and on each handle in use the references that belong to no read
or write in flight stay as many as they are. -/
structure StaysOwn (turn : Turn) (fs : Yaffsfs) : Prop where
  reads : ∀ tr begun, Reading fs turn tr begun → (begun.readPiece tr).buf = tr.buf ∨
    ∃ node, fs.objs tr.file = some node ∧
      (begun.readPiece tr).buf = tr.buf ++ node.fileRd tr.pos.toNat (pieceLength tr)
  writes : ∀ obj, ownFile turn fs ≠ some obj → (exec turn fs).objs obj = fs.objs obj
  refs : ∀ h < nHandles, 0 < (fs.handle h).useCount →
    ((exec turn fs).handle h).useCount - (exec turn fs).flightOn h =
      (fs.handle h).useCount - fs.flightOn h
  gone : ∀ h < nHandles, ¬0 < (fs.handle h).useCount →
    ((exec turn fs).handle h).useCount = (fs.handle h).useCount

/-- Is a piece of a read or write done in the turn? -/
def Turn.isTransfer : Turn → Bool
  | .read _ _ _ _ => true
  | .write _ _ _ _ _ => true
  | .resume _ _ => true
  | _ => false

/-- A piece of a read that owns its handle is read from its file. -/
theorem readPiece_own {tr : Transfer} (owns : Owns fs tr) :
    (fs.readPiece tr).buf = tr.buf ∨ ∃ node, fs.objs tr.file = some node ∧
      (fs.readPiece tr).buf = tr.buf ++ node.fileRd tr.pos.toNat (pieceLength tr) := by
  simp only [readPiece]
  split
  case h_1 => exact Or.inl rfl
  case h_2 node found =>
    right
    obtain ⟨obj, obj_eq, node_eq⟩ := Option.bind_eq_some_iff.mp found
    obtain ⟨h, f, index, h_eq, refers⟩ := handleToObject_iff_refers.mp obj_eq
    obtain ⟨index', refers'⟩ := owns h refers.h_lt h_eq refers.used
    obtain rfl : obj = tr.file := refers.obj_unique refers'
    exact ⟨node, node_eq, rfl⟩

/-- The reads of a turn stay with their own file. -/
theorem Reading.own {turn : Turn} {tr : Transfer} {begun : Yaffsfs} (sticks : Sticks fs)
    (reading : Reading fs turn tr begun) : (begun.readPiece tr).buf = tr.buf ∨
      ∃ node, fs.objs tr.file = some node ∧
        (begun.readPiece tr).buf = tr.buf ++ node.fileRd tr.pos.toNat (pieceLength tr) := by
  cases reading with
  | @first handle offset nbyte isPread _ own handle_eq =>
    have objs_eq : (fs.getHandle handle).objs = fs.objs := by rw [getHandle_rest]
    simp only [readPiece, handle_eq, (getHandle_same fs handle).handleToObject, own, objs_eq]
    cases found : fs.objs tr.file with
    | none =>
      simp only [Option.bind_some, found]
      exact Or.inl trivial
    | some node =>
      simp only [Option.bind_some, found]
      exact Or.inr ⟨node, rfl, rfl⟩
  | next found => exact readPiece_own (sticks.pick found).1.self

/-- The read or write that begins in a turn stays with its own file. -/
theorem staysOwn_of_begin {turn : Turn} (sticks : Sticks fs) (sound : Sound False none fs)
    {tr : Transfer} {room : Nat} (fd_eq : fs.handleToFileDes tr.handle = some tr.fdId)
    (obj_eq : fs.handleToObject tr.handle = some tr.file)
    (own : ownFile turn fs = some tr.file)
    (eq : exec turn fs = (fs.getHandle tr.handle).advance room tr) :
    StaysOwn turn fs ∧ Sticks (exec turn fs) := by
  have same := getHandle_same fs tr.handle
  have advanced : Advanced tr (fs.getHandle tr.handle) (exec turn fs) := by
    rw [eq]
    exact advance_advanced (sticks.begin fd_eq obj_eq) (getHandle_sound sound tr.handle) room
  refine ⟨?_, advanced.sticks⟩
  refine
    { reads := fun _ _ reading => reading.own sticks
      writes := fun obj obj_ne => ?_
      refs := fun h h_lt used => ?_
      gone := fun h h_lt not_used => ?_ }
  · have not_own : obj ≠ tr.file := fun is_own => obj_ne (is_own ▸ own)
    rw [advanced.objs obj not_own, getHandle_rest]
  · have kept := advanced.refs h h_lt ((same.use h).mpr used)
    rw [getHandle_flightOn, getHandle_useCount tr.handle h_lt] at kept
    simp only [used, and_true] at kept
    omega
  · have kept := advanced.gone h h_lt fun after => not_used ((same.use h).mp after)
    rw [kept, getHandle_useCount tr.handle h_lt, if_neg fun both => not_used both.2, Int.add_zero]

/-- A turn that does nothing. -/
theorem staysOwn_of_same {turn : Turn} (sticks : Sticks fs) (same : exec turn fs = fs) :
    StaysOwn turn fs ∧ Sticks (exec turn fs) := by
  refine ⟨?_, same.symm ▸ sticks⟩
  exact
    { reads := fun _ _ reading => reading.own sticks
      writes := fun _ _ => by rw [same]
      refs := fun _ _ _ => by rw [same]
      gone := fun _ _ _ => by rw [same] }

/-- A turn of a read or write stays with its own file. -/
theorem staysOwn_of_sticks {turn : Turn} (sticks : Sticks fs) (sound : Sound False none fs)
    (transfer : turn.isTransfer) : StaysOwn turn fs ∧ Sticks (exec turn fs) := by
  cases turn with
  | read handle nbyte isPread offset =>
    cases fd_eq : fs.handleToFileDes handle with
    | none => exact staysOwn_of_same sticks (by simp only [exec, startRead, fd_eq])
    | some fdId =>
      cases obj_eq : fs.handleToObject handle with
      | none => exact staysOwn_of_same sticks (by simp only [exec, startRead, fd_eq, obj_eq])
      | some file =>
        by_cases refused : ¬(fs.fd fdId).reading ∨ maxRwSize < nbyte
        · exact staysOwn_of_same sticks (by
            simp only [exec, startRead, fd_eq, obj_eq, if_pos refused])
        · refine staysOwn_of_begin sticks sound ?_ ?_ ?_ (by
            simp only [exec, startRead, fd_eq, obj_eq, if_neg refused]
            rfl)
          · exact fd_eq
          · exact obj_eq
          · exact obj_eq
  | write handle buf isPwrite offset room =>
    cases fd_eq : fs.handleToFileDes handle with
    | none => exact staysOwn_of_same sticks (by simp only [exec, startWrite, fd_eq])
    | some fdId =>
      cases obj_eq : fs.handleToObject handle with
      | none => exact staysOwn_of_same sticks (by simp only [exec, startWrite, fd_eq, obj_eq])
      | some file =>
        by_cases refused : ¬(fs.fd fdId).writing ∨ (fs.devOf file).all fs.readOnly
        · exact staysOwn_of_same sticks (by
            simp only [exec, startWrite, fd_eq, obj_eq, if_pos refused])
        · refine staysOwn_of_begin sticks sound ?_ ?_ ?_ (by
            simp only [exec, startWrite, fd_eq, obj_eq, if_neg refused]
            rfl)
          · exact fd_eq
          · exact obj_eq
          · exact obj_eq
  | resume index room =>
    cases found : fs.flight[index]? with
    | none => exact staysOwn_of_same sticks (by simp only [exec, resume, found])
    | some tr =>
      obtain ⟨poised, flight_eq⟩ := sticks.pick found
      have picked_sound : Sound False none { fs with flight := fs.flight.eraseIdx index } :=
        sound.of_rest fun _ mounted => mounted
      have eq : exec (.resume index room) fs =
          ({ fs with flight := fs.flight.eraseIdx index } : Yaffsfs).advance room tr := by
        simp only [exec, resume, found]
      have advanced := advance_advanced poised picked_sound room
      rw [← eq] at advanced
      refine ⟨?_, advanced.sticks⟩
      refine
        { reads := fun _ _ reading => reading.own sticks
          writes := fun obj obj_ne => advanced.objs obj fun is_own => obj_ne ?_
          refs := fun h h_lt used => ?_
          gone := advanced.gone }
      · rw [ownFile, found, is_own]
        rfl
      · have kept := advanced.refs h h_lt used
        rw [flight_eq] at kept
        dsimp only at kept
        omega
  | _ => cases transfer

/-- A careful turn leaves the reads and writes in flight with their handles. -/
theorem exec_sticks {turn : Turn} (sticks : Sticks fs) (sound : Sound False none fs)
    (careful : Careful turn fs) : Sticks (exec turn fs) := by
  by_cases transfer : turn.isTransfer
  · exact (staysOwn_of_sticks sticks sound transfer).2
  · refine sticks.of_calm sound (exec_calm sticks sound careful ?_ ?_ ?_)
    · rintro handle nbyte isPread offset rfl
      exact transfer rfl
    · rintro handle buf isPwrite offset room rfl
      exact transfer rfl
    · rintro index room rfl
      exact transfer rfl

/-- Long reads and writes stay with their own files in careful runs: in every state that is reached
without taking a handle that a read or write in flight has begun with, and without closing a handle
whose references all belong to several reads and writes in flight, each piece of a read or write
keeps to the file and the reference of its own call. -/
theorem staysOwn_of_careful {turns : List Turn}
    (careful : Execution.Guarded exec Careful turns {}) {turn : Turn}
    (transfer : turn.isTransfer) : StaysOwn turn (Execution.run exec turns {}) := by
  have step : ∀ turn fs, Careful turn fs → Sound False none fs ∧ Sticks fs →
      Sound False none (exec turn fs) ∧ Sticks (exec turn fs) := by
    rintro turn fs careful ⟨sound, sticks⟩
    exact ⟨exec_sound turn sound fun absurd_clean => absurd_clean.elim,
      exec_sticks sticks sound careful⟩
  have initial : Sticks {} :=
    { own := fun _ absurd_mem => by cases absurd_mem
      counted := fun _ _ used => absurd used (lt_irrefl 0) }
  obtain ⟨sound, sticks⟩ := Execution.run_invariant step careful ⟨initial_sound, initial⟩
  exact (staysOwn_of_sticks sticks sound transfer).1

/-- The handle of a read in flight is closed, and the file is opened anew. -/
theorem staysOwn_of_closed :
    StaysOwn (.resume 0 rwSize) (Execution.run exec
      [.mount 0 false, .load 7 { myDev := 0, fileSize := 8200 },
        .openFile { obj := some 7 } 0 readFlags, .read 0 10 true 8190, .close 0,
        .openFile { obj := some 7 } 0 readFlags] {}) := by
  refine staysOwn_of_careful ?_ rfl
  refine ⟨trivial, trivial, fun _ _ => rfl, trivial, fun h _ h_eq => ?_, fun h h_new => ?_, trivial⟩
  · obtain rfl : h = 0 := by omega
    decide +kernel
  have new_eq : (Execution.run exec
      [.mount 0 false, .load 7 { myDev := 0, fileSize := 8200 },
        .openFile { obj := some 7 } 0 readFlags, .read 0 10 true 8190, .close 0]
      {}).newHandle.1 = some 1 := by decide +kernel
  obtain rfl := Option.some.inj (h_new.symm.trans new_eq)
  decide +kernel

/-- A write whose handle has been broken and taken again goes on in another file. -/
theorem not_staysOwn_of_reused :
    ¬StaysOwn (.resume 0 rwSize) (Execution.run exec
      [.mount 0 false, .load 7 { myDev := 0, fileSize := 8190 },
        .openFile { obj := some 7 } 0 writeFlags, .write 0 [1, 2, 3, 4] true 8190 rwSize,
        .unmount2 0 true, .mount 0 false, .load 8 { myDev := 0 },
        .openFile { obj := some 8 } 0 writeFlags] {}) := by
  intro stays
  have kept := congrArg (Option.map FsObj.fileSize) (stays.writes 8 (by decide +kernel))
  revert kept
  decide +kernel

end Yaffsfs

end Yaffs
