import Yaffs.Handles
import Yaffs.Library.Execution
import Mathlib.Logic.Function.Basic
import Mathlib.Data.List.Basic

/-!
# Directory listings

A program lists a directory through a file descriptor of the VxWorks driver, one entry for each
call.  The place in the directory is kept in a search context, and the descriptor has a pointer to
it.  The driver does not use that pointer in each call, though: the first call of a listing copies
it to a variable of the whole driver, which all calls then use until a listing comes to its end.
-/

namespace Yaffs

/-- Value held by a twenty-bit signed bit-field after storing `value` in it. -/
def signedField20 (value : Int) : Int := (value + 524288) % 1048576 - 524288

/-- The objects that directories are listed of.  Each child is in the list of its directory once. -/
structure Directories where
  isDirectory : Nat → Bool
  children : Nat → List Nat
  nodup : ∀ dir, (children dir).Nodup
  /-- Number of the object that a hard link stands for. -/
  equivalent : Nat → Nat
  name : Nat → List UInt8

/-- A directory entry. -/
structure Dirent where
  ino : Nat
  off : Int
  name : List UInt8
deriving DecidableEq, Repr

/-- A place in a directory. -/
structure DirSearchContext where
  inUse : Bool := false
  dirObj : Option Nat := none
  /-- The object that is returned next. -/
  nextReturn : Option Nat := none
  offset : Int := 0
deriving DecidableEq

/-- A file descriptor of the driver. -/
structure VxFileDesc where
  inUse : Bool := false
  obj : Option Nat := none
  /-- Index of the search context of a directory. -/
  ydir : Option Nat := none
deriving DecidableEq

/-- The driver. -/
structure VxLib where
  maxFiles : Nat
  pFdList : Nat → VxFileDesc := fun _ => {}
  dscs : Nat → DirSearchContext := fun _ => {}
  /-- The search context that all calls use while `dirflag` is set. -/
  oldydir : Option Nat := none
  dirflag : Bool := false
  /-- The objects that each descriptor has listed since it was opened. -/
  listed : Nat → List Nat := fun _ => []

/-- Commands that list a directory. -/
inductive ReaddirFunction
  | fioreaddir
  | fioreaddirplus
deriving DecidableEq

/-- What a call has found: an entry, with the object whose attributes come with it, or the end. -/
inductive ReaddirResult
  | ok (entry : Dirent) (stat : Option Nat)
  | eof
  | error
deriving DecidableEq

/-- The object behind another one in a list. -/
def nextSibling (obj : Nat) : List Nat → Option Nat
  | [] => none
  | child :: rest => if child = obj then rest.head? else nextSibling obj rest

/-- The entry of an object. -/
def Directories.dirent (dirs : Directories) (obj : Nat) (off : Int) : Dirent where
  ino := dirs.equivalent obj
  off := off
  name := if dirs.name obj = [] then [122, 122] else dirs.name obj

namespace VxLib

variable (dirs : Directories) (lib : VxLib)

/-! ## Search contexts -/

/-- Open a directory. -/
def opendir (obj : Nat) : Option Nat × VxLib :=
  match (List.range nDsc).find? fun index => !(lib.dscs index).inUse with
  | none => (none, lib)
  | some index =>
    let dsc : DirSearchContext :=
      { inUse := true, dirObj := some obj, nextReturn := (dirs.children obj).head? }
    (some index, { lib with dscs := Function.update lib.dscs index dsc })

/-- The next entry of an open directory, with its object. -/
def readdir (dirp : Option Nat) : Option (Nat × Dirent) × VxLib :=
  match dirp with
  | none => (none, lib)
  | some index =>
    let dsc := lib.dscs index
    if !dsc.inUse then (none, lib)
    else
      match dsc.nextReturn, dsc.dirObj with
      | some obj, some dir =>
        let after :=
          { dsc with
            offset := signedField20 (dsc.offset + 1)
            nextReturn := nextSibling obj (dirs.children dir) }
        (some (obj, dirs.dirent obj dsc.offset),
          { lib with dscs := Function.update lib.dscs index after })
      | _, _ => (none, lib)

/-- Close a directory. -/
def closedir (dirp : Option Nat) : VxLib :=
  match dirp with
  | none => lib
  | some index =>
    { lib with
      dscs := Function.update lib.dscs index { lib.dscs index with inUse := false } }

/-! ## Descriptors -/

/-- Find a free file descriptor. -/
def fdGet : Option Nat := (List.range lib.maxFiles).find? fun fd => !(lib.pFdList fd).inUse

/-- Free a file descriptor. -/
def fdFree (fd : Nat) : VxLib := { lib with pFdList := Function.update lib.pFdList fd {} }

/-- Open an object that exists, for reading. -/
def yaffsOpen (obj : Nat) : Option Nat × VxLib :=
  match lib.fdGet with
  | none => (none, lib)
  | some fd =>
    let lib := { lib with pFdList := Function.update lib.pFdList fd { inUse := true } }
    if dirs.isDirectory obj then
      let opened := lib.opendir dirs obj
      if opened.1.isNone then (none, opened.2.fdFree fd)
      else
        (some fd,
          { opened.2 with
            pFdList := Function.update opened.2.pFdList fd
              { inUse := true, obj := some obj, ydir := opened.1 }
            listed := Function.update opened.2.listed fd [] })
    else
      (some fd,
        { lib with pFdList := Function.update lib.pFdList fd { inUse := true, obj := some obj } })

/-- Close a file descriptor. -/
def yaffsClose (fd : Nat) : VxLib :=
  let pFd := lib.pFdList fd
  if !pFd.inUse then lib
  else if pFd.obj.any dirs.isDirectory then (lib.closedir pFd.ydir).fdFree fd
  else lib.fdFree fd

/-- List the next entry of a directory.  The argument is the place where it is stored, if any. -/
def yaffsIoctl (function : ReaddirFunction) (fd : Nat) (arg : Bool) : ReaddirResult × VxLib :=
  let pFd := lib.pFdList fd
  let lib := if lib.dirflag then lib else { lib with oldydir := pFd.ydir, dirflag := true }
  if !arg then (.error, { lib with dirflag := false })
  else if pFd.ydir.isNone || !pFd.obj.any dirs.isDirectory then
    (.error, { lib with dirflag := false })
  else
    let read := lib.readdir dirs lib.oldydir
    match read.1 with
    | some (obj, entry) =>
      let stat := match function with
        | .fioreaddir => none
        | .fioreaddirplus => pFd.obj
      (.ok entry stat,
        { read.2 with listed := Function.update read.2.listed fd (read.2.listed fd ++ [obj]) })
    | none => (.eof, { read.2 with dirflag := false })

end VxLib

/-- A call of the driver. -/
inductive VxStep
  | open (obj : Nat)
  | close (fd : Nat)
  | readdir (function : ReaddirFunction) (fd : Nat) (arg : Bool)

/-- Carry out a call. -/
def VxStep.exec (dirs : Directories) : VxStep → VxLib → VxLib
  | .open obj, lib => (lib.yaffsOpen dirs obj).2
  | .close fd, lib => lib.yaffsClose dirs fd
  | .readdir function fd arg, lib => (lib.yaffsIoctl dirs function fd arg).2

/-! ## Listings that do not mix -/

namespace VxLib

variable {dirs : Directories} {lib : VxLib}

/-- The descriptor is open on a directory. -/
def Lists (dirs : Directories) (lib : VxLib) (fd dir : Nat) : Prop :=
  (lib.pFdList fd).inUse = true ∧ (lib.pFdList fd).obj = some dir ∧ dirs.isDirectory dir = true

/-- A call on the descriptor uses the search context of the descriptor. -/
def UsesOwn (lib : VxLib) (fd : Nat) : Prop :=
  lib.dirflag = false ∨ lib.oldydir = (lib.pFdList fd).ydir

/-- The search context of a directory of which some objects have been listed. -/
def placeAfter (dirs : Directories) (dir : Nat) (listed : List Nat) : DirSearchContext where
  inUse := true
  dirObj := some dir
  nextReturn := (dirs.children dir)[listed.length]?
  offset := signedField20 listed.length

/-- Each listing has a search context of its own, at the place behind the objects listed. -/
structure Apart (dirs : Directories) (lib : VxLib) : Prop where
  inUse : ∀ fd, (lib.pFdList fd).obj.isSome → (lib.pFdList fd).inUse = true
  place : ∀ fd dir, Lists dirs lib fd dir → ∃ index, (lib.pFdList fd).ydir = some index ∧
    lib.dscs index = placeAfter dirs dir (lib.listed fd)
  listed : ∀ fd dir, Lists dirs lib fd dir → lib.listed fd <+: dirs.children dir
  single : ∀ fd other dir dir', Lists dirs lib fd dir → Lists dirs lib other dir' →
    (lib.pFdList fd).ydir = (lib.pFdList other).ydir → fd = other

/-- Each call on an open directory finds its next entry, and when it finds the end, all entries have
been listed. -/
structure Unmixed (dirs : Directories) (lib : VxLib) : Prop where
  listed : ∀ fd dir, Lists dirs lib fd dir → lib.listed fd <+: dirs.children dir
  next : ∀ function fd dir, Lists dirs lib fd dir → UsesOwn lib fd →
    (lib.yaffsIoctl dirs function fd true).1 =
      match (dirs.children dir)[(lib.listed fd).length]? with
      | some obj =>
        .ok (dirs.dirent obj (signedField20 (lib.listed fd).length))
          (match function with
            | .fioreaddir => none
            | .fioreaddirplus => some dir)
      | none => .eof
  whole : ∀ function fd dir, Lists dirs lib fd dir → UsesOwn lib fd →
    (lib.yaffsIoctl dirs function fd true).1 = .eof → lib.listed fd = dirs.children dir

theorem nextSibling_eq {children : List Nat} (nodup : children.Nodup) {obj n : Nat}
    (found : children[n]? = some obj) : nextSibling obj children = children[n + 1]? := by
  induction children generalizing n with
  | nil => simp at found
  | cons child rest ih =>
    obtain ⟨not_mem, nodup⟩ := List.nodup_cons.mp nodup
    cases n with
    | zero =>
      have same : child = obj := by simpa using found
      rw [nextSibling, if_pos same]
      simp [List.head?_eq_getElem?]
    | succ n =>
      have found : rest[n]? = some obj := by simpa using found
      have ne : child ≠ obj := by
        rintro rfl
        exact not_mem (List.mem_of_getElem? found)
      rw [nextSibling, if_neg ne, ih nodup found]
      simp

theorem signedField20_succ (n : Nat) :
    signedField20 (signedField20 n + 1) = signedField20 (n + 1 : Nat) := by
  unfold signedField20
  omega

theorem Apart.initial (dirs : Directories) (maxFiles : Nat) :
    Apart dirs { maxFiles } where
  inUse fd some := by simp at some
  place fd dir lists := by simp [Lists] at lists
  listed fd dir lists := by simp [Lists] at lists
  single fd other dir dir' lists := by simp [Lists] at lists

/-! ## One call -/

/-- What a call on an open directory does if it uses the search context of its own descriptor. -/
theorem yaffsIoctl_own (apart : Apart dirs lib) {fd dir : Nat} (lists : Lists dirs lib fd dir)
    (own : UsesOwn lib fd) (function : ReaddirFunction) :
    ∃ index, (lib.pFdList fd).ydir = some index ∧
      ((∃ obj, (dirs.children dir)[(lib.listed fd).length]? = some obj ∧
        lib.yaffsIoctl dirs function fd true =
          (.ok (dirs.dirent obj (signedField20 (lib.listed fd).length))
            (match function with
              | .fioreaddir => none
              | .fioreaddirplus => some dir),
            { lib with
              oldydir := some index
              dirflag := true
              dscs := Function.update lib.dscs index
                (placeAfter dirs dir (lib.listed fd ++ [obj]))
              listed := Function.update lib.listed fd (lib.listed fd ++ [obj]) })) ∨
      (dirs.children dir)[(lib.listed fd).length]? = none ∧
        lib.yaffsIoctl dirs function fd true =
          (.eof, { lib with oldydir := some index, dirflag := false })) := by
  obtain ⟨index, ydir, place⟩ := apart.place fd dir lists
  refine ⟨index, ydir, ?_⟩
  obtain ⟨-, obj_eq, is_dir⟩ := lists
  have used : (if lib.dirflag then lib else
      { lib with oldydir := (lib.pFdList fd).ydir, dirflag := true }) =
      { lib with oldydir := some index, dirflag := true } := by
    rw [ydir]
    rcases own with idle | own
    · simp [idle]
    · cases flag : lib.dirflag with
      | false => simp
      | true =>
        rw [if_pos rfl, ← ydir, ← own, ← flag]
  have checked : ((lib.pFdList fd).ydir.isNone || !(lib.pFdList fd).obj.any dirs.isDirectory) =
      false := by
    simp [ydir, obj_eq, is_dir]
  simp only [yaffsIoctl, used, Bool.not_true, Bool.false_eq_true, if_false, checked]
  cases next : (dirs.children dir)[(lib.listed fd).length]? with
  | none =>
    right
    have read : readdir dirs { lib with oldydir := some index, dirflag := true } (some index) =
        (none, { lib with oldydir := some index, dirflag := true }) := by
      simp only [readdir, place, placeAfter, next]
      rfl
    simp only [read, and_self]
  | some obj =>
    left
    have read : readdir dirs { lib with oldydir := some index, dirflag := true } (some index) =
        (some (obj, dirs.dirent obj (signedField20 (lib.listed fd).length)),
          { lib with
            oldydir := some index
            dirflag := true
            dscs := Function.update lib.dscs index
              (placeAfter dirs dir (lib.listed fd ++ [obj])) }) := by
      simp only [readdir, place, placeAfter, next, nextSibling_eq (dirs.nodup dir) next,
        signedField20_succ, List.length_append, List.length_singleton]
      rfl
    refine ⟨obj, rfl, ?_⟩
    simp only [read, obj_eq]

theorem Apart.unmixed (apart : Apart dirs lib) : Unmixed dirs lib where
  listed := apart.listed
  next function fd dir lists own := by
    obtain ⟨index, -, ⟨obj, next, result⟩ | ⟨next, result⟩⟩ :=
      yaffsIoctl_own apart lists own function
    · rw [result, next]
    · rw [result, next]
  whole function fd dir lists own eof := by
    obtain ⟨index, -, ⟨obj, next, result⟩ | ⟨next, result⟩⟩ :=
      yaffsIoctl_own apart lists own function
    · rw [result] at eof
      exact ReaddirResult.noConfusion eof
    · exact (apart.listed fd dir lists).eq_of_length_le (List.getElem?_eq_none_iff.mp next)

theorem Apart.setFlags (apart : Apart dirs lib) (oldydir : Option Nat) (dirflag : Bool) :
    Apart dirs { lib with oldydir, dirflag } :=
  ⟨apart.inUse, apart.place, apart.listed, apart.single⟩

/-- The next entry has been listed. -/
theorem Apart.advance (apart : Apart dirs lib) {fd dir index obj : Nat}
    (lists : Lists dirs lib fd dir) (ydir : (lib.pFdList fd).ydir = some index)
    (next : (dirs.children dir)[(lib.listed fd).length]? = some obj) :
    Apart dirs
      { lib with
        dscs := Function.update lib.dscs index (placeAfter dirs dir (lib.listed fd ++ [obj]))
        listed := Function.update lib.listed fd (lib.listed fd ++ [obj]) } where
  inUse := apart.inUse
  single := apart.single
  place other dir' lists' := by
    by_cases same : other = fd
    · subst same
      have dir_eq : dir' = dir := Option.some.inj (lists'.2.1.symm.trans lists.2.1)
      subst dir_eq
      exact ⟨index, ydir, by simp⟩
    · obtain ⟨index', ydir', place⟩ := apart.place other dir' lists'
      have ne : index' ≠ index := by
        rintro rfl
        exact same (apart.single other fd dir' dir lists' lists (ydir'.trans ydir.symm))
      refine ⟨index', ydir', ?_⟩
      simpa only [Function.update_of_ne ne, Function.update_of_ne same] using place
  listed other dir' lists' := by
    by_cases same : other = fd
    · subst same
      have dir_eq : dir' = dir := Option.some.inj (lists'.2.1.symm.trans lists.2.1)
      subst dir_eq
      obtain ⟨rest, eq⟩ := apart.listed other dir' lists
      rw [← eq, List.getElem?_append_right (Nat.le_refl _), Nat.sub_self] at next
      cases rest with
      | nil => simp at next
      | cons child rest =>
        have child_eq : child = obj := by simpa using next
        simp only [Function.update_self]
        exact ⟨rest, by rw [← eq, child_eq, List.append_assoc]; rfl⟩
    · simpa only [Function.update_of_ne same] using apart.listed other dir' lists'

/-- A descriptor is given another use than to list a directory, and its search context changed. -/
theorem Apart.replace (apart : Apart dirs lib) {fd : Nat} {desc : VxFileDesc} {lib' : VxLib}
    (fds : lib'.pFdList = Function.update lib.pFdList fd desc)
    (inUse : desc.obj.isSome → desc.inUse = true)
    (idle : desc.obj.any dirs.isDirectory = false) (listed : lib'.listed = lib.listed)
    (dscs : ∀ other dir index, other ≠ fd → Lists dirs lib other dir →
      (lib.pFdList other).ydir = some index → lib'.dscs index = lib.dscs index) :
    Apart dirs lib' := by
  have before {other dir : Nat} (lists : Lists dirs lib' other dir) :
      other ≠ fd ∧ lib'.pFdList other = lib.pFdList other ∧ Lists dirs lib other dir := by
    by_cases same : other = fd
    · subst same
      obtain ⟨-, obj_eq, is_dir⟩ := lists
      rw [fds, Function.update_self] at obj_eq
      simp [obj_eq, is_dir] at idle
    · have eq : lib'.pFdList other = lib.pFdList other := by
        rw [fds, Function.update_of_ne same]
      exact ⟨same, eq, by rwa [Lists, eq] at lists⟩
  constructor
  case inUse =>
    intro other some
    by_cases same : other = fd
    · subst same
      rw [fds, Function.update_self] at some ⊢
      exact inUse some
    · rw [fds, Function.update_of_ne same] at some ⊢
      exact apart.inUse other some
  case place =>
    intro other dir lists
    obtain ⟨ne, eq, lists⟩ := before lists
    obtain ⟨index, ydir, place⟩ := apart.place other dir lists
    exact ⟨index, eq ▸ ydir, by rw [dscs other dir index ne lists ydir, place, listed]⟩
  case listed =>
    intro other dir lists
    rw [listed]
    exact apart.listed other dir (before lists).2.2
  case single =>
    intro other other' dir dir' lists lists' same
    obtain ⟨-, eq, lists⟩ := before lists
    obtain ⟨-, eq', lists'⟩ := before lists'
    exact apart.single other other' dir dir' lists lists' (by rwa [eq, eq'] at same)

theorem Apart.close (apart : Apart dirs lib) (fd : Nat) : Apart dirs (lib.yaffsClose dirs fd) := by
  simp only [yaffsClose]
  split
  case isTrue => exact apart
  case isFalse used =>
    split
    case isFalse => exact apart.replace rfl nofun rfl rfl fun _ _ _ _ _ _ => rfl
    case isTrue is_dir =>
      obtain ⟨dir, obj_eq, is_dir⟩ := (Option.any_eq_true _ _).mp is_dir
      have lists : Lists dirs lib fd dir := ⟨by simpa using used, obj_eq, is_dir⟩
      obtain ⟨index, ydir, place⟩ := apart.place fd dir lists
      rw [ydir]
      refine apart.replace rfl nofun rfl rfl fun other dir' index' ne lists' ydir' => ?_
      have ne : index' ≠ index := by
        rintro rfl
        exact ne (apart.single other fd dir' dir lists' lists (ydir'.trans ydir.symm))
      exact Function.update_of_ne ne _ _

/-- A descriptor and a free search context are used to list a directory. -/
theorem Apart.enter (apart : Apart dirs lib) (fd obj : Nat) {index : Nat}
    (unused_dsc : (lib.dscs index).inUse = false) :
    Apart dirs
      { lib with
        pFdList := Function.update lib.pFdList fd
          { inUse := true, obj := some obj, ydir := some index }
        dscs := Function.update lib.dscs index (placeAfter dirs obj [])
        listed := Function.update lib.listed fd [] } := by
  generalize eq : ({ lib with
      pFdList := Function.update lib.pFdList fd
        { inUse := true, obj := some obj, ydir := some index }
      dscs := Function.update lib.dscs index (placeAfter dirs obj [])
      listed := Function.update lib.listed fd [] } : VxLib) = lib'
  have self : lib'.pFdList fd = { inUse := true, obj := some obj, ydir := some index } := by
    rw [← eq]
    exact Function.update_self ..
  have others {other : Nat} (ne : other ≠ fd) :
      lib'.pFdList other = lib.pFdList other ∧ lib'.listed other = lib.listed other := by
    rw [← eq]
    exact ⟨Function.update_of_ne ne .., Function.update_of_ne ne ..⟩
  have before {other dir : Nat} (ne : other ≠ fd) (lists : Lists dirs lib' other dir) :
      Lists dirs lib other dir := by
    rwa [Lists, (others ne).1] at lists
  have used {other dir place : Nat} (lists : Lists dirs lib other dir)
      (ydir : (lib.pFdList other).ydir = some place) : place ≠ index := by
    obtain ⟨place', ydir', place_eq⟩ := apart.place other dir lists
    rintro rfl
    rw [Option.some.inj (ydir.symm.trans ydir'), place_eq] at unused_dsc
    exact Bool.noConfusion unused_dsc
  constructor
  case inUse =>
    intro other some
    by_cases same : other = fd
    · rw [same, self]
    · rw [(others same).1] at some ⊢
      exact apart.inUse other some
  case place =>
    intro other dir lists
    by_cases same : other = fd
    · subst same
      have dir_eq : obj = dir := by simpa [self] using lists.2.1
      subst dir_eq
      refine ⟨index, by rw [self], ?_⟩
      rw [← eq]
      simp
    · obtain ⟨place, ydir, place_eq⟩ := apart.place other dir (before same lists)
      refine ⟨place, (others same).1 ▸ ydir, ?_⟩
      rw [(others same).2, ← place_eq, ← eq]
      exact Function.update_of_ne (used (before same lists) ydir) ..
  case listed =>
    intro other dir lists
    by_cases same : other = fd
    · subst same
      have none : lib'.listed other = [] := by
        rw [← eq]
        exact Function.update_self ..
      rw [none]
      exact List.nil_prefix
    · rw [(others same).2]
      exact apart.listed other dir (before same lists)
  case single =>
    intro first second dir dir' lists lists' same
    by_cases first_eq : first = fd <;> by_cases second_eq : second = fd
    · rw [first_eq, second_eq]
    · rw [first_eq, self, (others second_eq).1] at same
      exact absurd rfl (used (before second_eq lists') same.symm)
    · rw [second_eq, self, (others first_eq).1] at same
      exact absurd rfl (used (before first_eq lists) same)
    · rw [(others first_eq).1, (others second_eq).1] at same
      exact apart.single first second dir dir' (before first_eq lists) (before second_eq lists')
        same

theorem Apart.open (apart : Apart dirs lib) (obj : Nat) :
    Apart dirs (lib.yaffsOpen dirs obj).2 := by
  simp only [yaffsOpen]
  split
  case h_1 => exact apart
  case h_2 fd _ =>
    split
    case isFalse not_dir =>
      exact apart.replace (Function.update_idem ..) (fun _ => rfl) (by simpa using not_dir) rfl
        fun _ _ _ _ _ _ => rfl
    case isTrue is_dir =>
      cases found' : (List.range nDsc).find? fun index => !(lib.dscs index).inUse with
      | none =>
        simp only [opendir, found', Option.isNone_none, if_true, fdFree]
        exact apart.replace (Function.update_idem ..) nofun rfl rfl fun _ _ _ _ _ _ => rfl
      | some index =>
        have unused' : (lib.dscs index).inUse = false := by
          simpa using List.find?_some found'
        have entered := apart.enter fd obj unused'
        simp only [opendir, found', Option.isNone_some, Bool.false_eq_true, if_false,
          Function.update_idem]
        have place : placeAfter dirs obj [] =
            { inUse := true, dirObj := some obj, nextReturn := (dirs.children obj).head? } := by
          simp [placeAfter, List.head?_eq_getElem?, signedField20]
        rw [← place]
        exact entered

/-- A call on an open directory uses the search context of its own descriptor. -/
def OwnStep (dirs : Directories) : VxStep → VxLib → Prop
  | .readdir _ fd arg, lib =>
    arg = true → (lib.pFdList fd).obj.any dirs.isDirectory = true → lib.UsesOwn fd
  | _, _ => True

theorem Apart.step (apart : Apart dirs lib) {step : VxStep} (own : OwnStep dirs step lib) :
    Apart dirs (step.exec dirs lib) := by
  cases step with
  | «open» obj => exact apart.open obj
  | close fd => exact apart.close fd
  | readdir function fd arg =>
    by_cases lists : arg = true ∧ (lib.pFdList fd).obj.any dirs.isDirectory = true
    · obtain ⟨rfl, is_dir⟩ := lists
      have own := own rfl is_dir
      obtain ⟨dir, obj_eq, is_dir⟩ := (Option.any_eq_true _ _).mp is_dir
      have lists : Lists dirs lib fd dir := ⟨apart.inUse fd (by simp [obj_eq]), obj_eq, is_dir⟩
      obtain ⟨index, ydir, ⟨obj, next, result⟩ | ⟨next, result⟩⟩ :=
        yaffsIoctl_own apart lists own function
      · rw [VxStep.exec, result]
        exact (apart.advance lists ydir next).setFlags _ _
      · rw [VxStep.exec, result]
        exact apart.setFlags _ _
    · have failed : ((lib.pFdList fd).ydir.isNone || !(lib.pFdList fd).obj.any dirs.isDirectory) =
          true ∨ arg = false := by
        cases arg <;> simp_all
      have flags : Apart dirs (if lib.dirflag then lib else
          { lib with oldydir := (lib.pFdList fd).ydir, dirflag := true }) := by
        split
        · exact apart
        · exact apart.setFlags _ _
      simp only [VxStep.exec, yaffsIoctl]
      rcases failed with not_dir | rfl
      · rw [not_dir, if_pos rfl]
        split <;> exact flags.setFlags _ _
      · exact flags.setFlags _ _

/-- Listings do not mix if each call on an open directory uses the search context of its own
descriptor. -/
theorem unmixed_of_own (dirs : Directories) (maxFiles : Nat) (steps : List VxStep)
    (own : Execution.Guarded (VxStep.exec dirs) (OwnStep dirs) steps { maxFiles }) :
    Unmixed dirs (Execution.run (VxStep.exec dirs) steps { maxFiles }) := by
  have step (step : VxStep) (lib : VxLib) (own : OwnStep dirs step lib) (apart : Apart dirs lib) :
      Apart dirs (step.exec dirs lib) :=
    apart.step own
  exact (Execution.run_invariant step own (Apart.initial dirs maxFiles)).unmixed

/-- Two directories, with two objects and with one. -/
def twoDirectories : Directories where
  isDirectory obj := decide (obj < 2)
  children dir := if dir = 0 then [2, 3] else if dir = 1 then [4] else []
  nodup dir := by
    split
    · decide
    · split <;> decide
  equivalent obj := obj
  name obj := [UInt8.ofNat (95 + obj)]

/-- The second directory is listed after the first one. -/
theorem unmixed_of_turns :
    Unmixed twoDirectories
      (Execution.run (VxStep.exec twoDirectories)
        [.open 0, .open 1, .readdir .fioreaddir 0 true, .readdir .fioreaddir 0 true,
          .readdir .fioreaddir 0 true, .readdir .fioreaddirplus 1 true] { maxFiles := 20 }) := by
  refine unmixed_of_own twoDirectories 20 _ ⟨trivial, trivial, ?_, ?_, ?_, ?_, trivial⟩
  all_goals
    intro _ _
    unfold UsesOwn
    decide +kernel

/-- Once the first directory is being listed, a call for the second one lists the first one. -/
theorem not_unmixed_of_interleaving :
    ¬Unmixed twoDirectories
      (Execution.run (VxStep.exec twoDirectories)
        [.open 0, .open 1, .readdir .fioreaddir 0 true, .readdir .fioreaddir 1 true]
        { maxFiles := 20 }) := by
  intro unmixed
  have listed := unmixed.listed 1 1 (by unfold Lists; decide +kernel)
  revert listed
  decide +kernel

end VxLib

end Yaffs
