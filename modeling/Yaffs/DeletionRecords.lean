import Yaffs.Steady
import Yaffs.TreeRuns

/-!
# Deletion records

An object that is unlinked or deleted gets a new header among the unlinked or the deleted objects: with
the newer page format that header is what keeps a later mount from finding the object under its old
name.  Here the headers that have been written are remembered, and which of these records cannot be
written is laid down from outside.
-/

namespace Yaffs

/-- What a header says about its object. -/
structure HeaderEntry where
  number : Nat
  parent : Option Nat
  /-- The name, if it is a new one. -/
  name : Option (List Char)
  isShrink : Bool
  shadows : Nat
deriving DecidableEq, Repr

/-- The header puts its object among the unlinked or the deleted objects. -/
def HeaderEntry.isRecord (entry : HeaderEntry) : Bool :=
  entry.parent.any fun directory => decide (isTrash directory)

/-- The pages with the headers on them, newest first. -/
structure Recorder (Store : Type) where
  pages : Store
  headers : List HeaderEntry := []
  /-- How often an object was to get a header among the unlinked or the deleted objects. -/
  attempts : Nat → Nat := fun _ => 0

namespace Recorder

variable {Store : Type} {fails : Nat → Nat → Bool} {number : Nat} {first second third : Recorder Store}

/-- Write a header.  The writing of a record fails as laid down, that of another header as it may. -/
def write (fails : Nat → Nat → Bool) (recorder : Recorder Store) (written : Bool × Store)
    (entry : HeaderEntry) : Bool × Recorder Store :=
  let tried := { recorder with pages := written.2 }
  let done := { tried with headers := entry :: recorder.headers }
  if entry.isRecord then
    let attempts := Function.update recorder.attempts entry.number
      (recorder.attempts entry.number + 1)
    if fails entry.number (recorder.attempts entry.number) then (false, { tried with attempts })
    else (true, { done with attempts })
  else if written.1 then (true, done)
  else (false, tried)

/-- No record of an object is asked for, and all its new headers are of a kind. -/
def Writes (number : Nat) (kind : HeaderEntry → Prop) (first second : Recorder Store) : Prop :=
  second.attempts number = first.attempts number ∧ ∃ new, second.headers = new ++ first.headers ∧
    ∀ entry ∈ new, entry.number = number → kind entry

/-- No header of an object is written. -/
abbrev Silent (number : Nat) (first second : Recorder Store) : Prop :=
  Writes number (fun _ => False) first second

/-- No record of an object is written. -/
abbrev Quiet (number : Nat) (first second : Recorder Store) : Prop :=
  Writes number (fun entry => entry.isRecord = false) first second

/-- One record of an object is asked for: it is the newest header of the object, unless it could not be
written. -/
def Logged (fails : Nat → Nat → Bool) (number : Nat) (first second : Recorder Store) : Prop :=
  second.attempts number = first.attempts number + 1 ∧ ∃ new, second.headers = new ++ first.headers ∧
    (fails number (first.attempts number) = true →
      ∀ entry ∈ new, entry.number = number → entry.isRecord = false) ∧
    (fails number (first.attempts number) = false →
      ∃ entry, new.find? (·.number = number) = some entry ∧ entry.isRecord = true)

/-- The newest header of an object is a new one, and it puts the object among the unlinked or the
deleted objects. -/
def Recorded (number : Nat) (first second : Recorder Store) : Prop :=
  ∃ new entry, second.headers = new ++ first.headers ∧
    new.find? (·.number = number) = some entry ∧ entry.isRecord = true

/-- The newest header of an object is a new one, and it puts the object into a directory under a
name. -/
def PlacedAt (number : Nat) (directory : Option Nat) (name : List Char)
    (first second : Recorder Store) : Prop :=
  ∃ new entry, second.headers = new ++ first.headers ∧
    new.find? (·.number = number) = some entry ∧ entry.parent = directory ∧ entry.name = some name

variable {kind : HeaderEntry → Prop}

theorem Writes.refl (recorder : Recorder Store) : Writes number kind recorder recorder :=
  ⟨rfl, [], rfl, by simp⟩

theorem Writes.trans (before : Writes number kind first second)
    (later : Writes number kind second third) : Writes number kind first third := by
  obtain ⟨same, old, eq, olds⟩ := before
  obtain ⟨same', new, eq', news⟩ := later
  refine ⟨same'.trans same, new ++ old, by rw [eq', eq, List.append_assoc], ?_⟩
  intro entry entry_mem
  rcases List.mem_append.mp entry_mem with entry_mem | entry_mem
  · exact news entry entry_mem
  · exact olds entry entry_mem

theorem Writes.mono {other : HeaderEntry → Prop} (writes : Writes number kind first second)
    (sub : ∀ entry, kind entry → other entry) : Writes number other first second := by
  obtain ⟨same, new, eq, news⟩ := writes
  exact ⟨same, new, eq, fun entry entry_mem is_number => sub entry (news entry entry_mem is_number)⟩

theorem Silent.find_eq_none {new : List HeaderEntry}
    (others : ∀ entry ∈ new, entry.number = number → False) :
    new.find? (·.number = number) = none := by
  refine List.find?_eq_none.mpr fun entry entry_mem => ?_
  simpa using others entry entry_mem

theorem Logged.before (quiet : Quiet number first second) (logged : Logged fails number second third) :
    Logged fails number first third := by
  obtain ⟨same, old, eq, olds⟩ := quiet
  obtain ⟨more, new, eq', failed, written⟩ := logged
  rw [same] at more failed written
  refine ⟨more, new ++ old, by rw [eq', eq, List.append_assoc], ?_, ?_⟩
  · intro fails entry entry_mem
    rcases List.mem_append.mp entry_mem with entry_mem | entry_mem
    · exact failed fails entry entry_mem
    · exact olds entry entry_mem
  · intro fails
    obtain ⟨entry, found, isRecord⟩ := written fails
    exact ⟨entry, by rw [List.find?_append, found]; rfl, isRecord⟩

theorem Logged.after (logged : Logged fails number first second) (silent : Silent number second third) :
    Logged fails number first third := by
  obtain ⟨more, old, eq, failed, written⟩ := logged
  obtain ⟨same, new, eq', others⟩ := silent
  refine ⟨same.trans more, new ++ old, by rw [eq', eq, List.append_assoc], ?_, ?_⟩
  · intro fails entry entry_mem is_number
    rcases List.mem_append.mp entry_mem with entry_mem | entry_mem
    · exact (others entry entry_mem is_number).elim
    · exact failed fails entry entry_mem is_number
  · intro fails
    obtain ⟨entry, found, isRecord⟩ := written fails
    refine ⟨entry, ?_, isRecord⟩
    rw [List.find?_append, Silent.find_eq_none others, Option.none_or, found]

/-- The record is there exactly if it could be written. -/
theorem Logged.recorded_iff (logged : Logged fails number first second) :
    Recorded number first second ↔ fails number (first.attempts number) = false := by
  obtain ⟨-, new, eq, failed, written⟩ := logged
  constructor
  · rintro ⟨new', entry, eq', found, isRecord⟩
    obtain rfl := List.append_cancel_right (eq.symm.trans eq')
    cases fails : fails number (first.attempts number) with
    | false => rfl
    | true =>
      have is_number : entry.number = number := by simpa using List.find?_some found
      simp [failed fails entry (List.mem_of_find?_eq_some found) is_number] at isRecord
  · intro fails
    obtain ⟨entry, found, isRecord⟩ := written fails
    exact ⟨new, entry, eq, found, isRecord⟩

theorem PlacedAt.before {directory : Option Nat} {name : List Char}
    (headers : ∃ old, second.headers = old ++ first.headers)
    (placed : PlacedAt number directory name second third) :
    PlacedAt number directory name first third := by
  obtain ⟨old, eq⟩ := headers
  obtain ⟨new, entry, eq', found, rest⟩ := placed
  exact ⟨new ++ old, entry, by rw [eq', eq, List.append_assoc],
    by rw [List.find?_append, found]; rfl, rest⟩

theorem PlacedAt.after {directory : Option Nat} {name : List Char}
    (placed : PlacedAt number directory name first second) (silent : Silent number second third) :
    PlacedAt number directory name first third := by
  obtain ⟨old, entry, eq, found, rest⟩ := placed
  obtain ⟨-, new, eq', others⟩ := silent
  refine ⟨new ++ old, entry, by rw [eq', eq, List.append_assoc], ?_, rest⟩
  rw [List.find?_append, Silent.find_eq_none others, Option.none_or, found]

theorem write_other (recorder : Recorder Store) (written : Bool × Store) {entry : HeaderEntry}
    (ne : entry.number ≠ number) : Writes number kind recorder (recorder.write fails written entry).2 := by
  have one : ∀ other ∈ [entry], other.number = number → kind other := by
    intro other other_mem is_number
    rw [List.mem_singleton.mp other_mem] at is_number
    exact absurd is_number ne
  simp only [write]
  split
  · split
    · exact ⟨by simp [ne.symm], [], rfl, by simp⟩
    · exact ⟨by simp [ne.symm], [entry], rfl, one⟩
  · split
    · exact ⟨rfl, [entry], rfl, one⟩
    · exact ⟨rfl, [], rfl, by simp⟩

theorem write_quiet (recorder : Recorder Store) (written : Bool × Store) {entry : HeaderEntry}
    (kept : entry.isRecord = false) : Quiet number recorder (recorder.write fails written entry).2 := by
  have one : ∀ other ∈ [entry], other.number = number → other.isRecord = false := by
    intro other other_mem _
    rw [List.mem_singleton.mp other_mem]
    exact kept
  simp only [write, kept]
  split
  · contradiction
  · split
    · exact ⟨rfl, [entry], rfl, one⟩
    · exact ⟨rfl, [], rfl, by simp⟩

theorem write_record (fails : Nat → Nat → Bool) (recorder : Recorder Store) (written : Bool × Store) {entry : HeaderEntry}
    (isRecord : entry.isRecord = true) :
    (recorder.write fails written entry).1 = !fails entry.number (recorder.attempts entry.number) ∧
      Logged fails entry.number recorder (recorder.write fails written entry).2 := by
  simp only [write, isRecord, if_true]
  cases fails : fails entry.number (recorder.attempts entry.number) with
  | true => exact ⟨rfl, by simp, [], rfl, by simp, by simp [fails]⟩
  | false => exact ⟨rfl, by simp, [entry], rfl, by simp [fails], by simp [isRecord]⟩

/-- A header that has been written is the newest of its object. -/
theorem write_placed {recorder : Recorder Store} {written : Bool × Store} {entry : HeaderEntry}
    (name : List Char) (named : entry.name = some name)
    (done : (recorder.write fails written entry).1 = true) :
    PlacedAt entry.number entry.parent name recorder (recorder.write fails written entry).2 := by
  have found : [entry].find? (·.number = entry.number) = some entry := by simp
  simp only [write] at done ⊢
  split at done
  · split at done
    · contradiction
    · exact ⟨[entry], entry, by simp [*], found, rfl, named⟩
  · split at done
    · exact ⟨[entry], entry, by simp [*], found, rfl, named⟩
    · contradiction

end Recorder

/-- Pages that remember the headers written on them. -/
def Pages.recorded {Store : Type} (P : Pages Store) (fails : Nat → Nat → Bool) :
    Pages (Recorder Store) where
  kmalloc recorder :=
    ((P.kmalloc recorder.pages).1, { recorder with pages := (P.kmalloc recorder.pages).2 })
  getTnode recorder number :=
    let made := P.getTnode recorder.pages number
    (made.1, { recorder with pages := made.2 })
  freeTnodes recorder number := { recorder with pages := P.freeTnodes recorder.pages number }
  checkGc recorder :=
    ((P.checkGc recorder.pages).1, { recorder with pages := (P.checkGc recorder.pages).2 })
  writeHeader recorder number obj name isShrink shadows :=
    recorder.write fails (P.writeHeader recorder.pages number obj name isShrink shadows)
      { number, parent := obj.parent, name, isShrink, shadows }
  hdrChunk recorder := P.hdrChunk recorder.pages
  headerName recorder := P.headerName recorder.pages
  dropHeader recorder number := { recorder with pages := P.dropHeader recorder.pages number }
  objCacheDirty recorder := P.objCacheDirty recorder.pages
  flushFileCache recorder number discard :=
    let flushed := P.flushFileCache recorder.pages number discard
    (flushed.1, { recorder with pages := flushed.2 })
  invalidateWholeCache recorder number :=
    { recorder with pages := P.invalidateWholeCache recorder.pages number }
  fileSize recorder := P.fileSize recorder.pages
  nDataChunks recorder := P.nDataChunks recorder.pages
  resizeData recorder number newSize :=
    let resized := P.resizeData recorder.pages number newSize
    (resized.1, { recorder with pages := resized.2 })
  softDelWorker recorder number := { recorder with pages := P.softDelWorker recorder.pages number }

namespace Volume

open Recorder

variable {Store : Type} {P : Pages Store} {fails : Nat → Nat → Bool}
  {vol after : Volume (Recorder Store)} {number : Nat} {obj : Node} {kind : HeaderEntry → Prop}

/-- Nothing but the writing of its own header makes a header of an object. -/
theorem observes_writes (P : Pages Store) (fails : Nat → Nat → Bool) (number : Nat)
    (kind : HeaderEntry → Prop) : Observes (P.recorded fails) number (Writes number kind) where
  refl := Writes.refl
  trans := Writes.trans
  freeTnodes recorder _ := Writes.refl recorder
  checkGc recorder := Writes.refl recorder
  writeHeader recorder _ _ _ _ _ ne := write_other recorder _ ne
  dropHeader recorder _ := Writes.refl recorder
  flushFileCache recorder _ _ := Writes.refl recorder
  invalidateWholeCache recorder _ := Writes.refl recorder
  resizeData recorder _ _ := Writes.refl recorder
  softDelWorker recorder _ := Writes.refl recorder

theorem isRecord_of_hidden (number : Nat) (obj : Node) (name : Option (List Char)) (isShrink : Bool) (shadows : Nat) :
    ({ number, parent := obj.parent, name, isShrink, shadows } : HeaderEntry).isRecord = true ↔
      obj.Hidden := by
  cases up : obj.parent with
  | none => simp [HeaderEntry.isRecord, Node.Hidden, up]
  | some directory => simp [HeaderEntry.isRecord, Node.Hidden, up]

/-- The header of an object that is in use is no record. -/
theorem writeHeader_quiet (recorder : Recorder Store) (visible : ¬obj.Hidden)
    (name : Option (List Char)) (isShrink : Bool) (shadows : Nat) : Quiet number recorder
      ((P.recorded fails).writeHeader recorder number obj name isShrink shadows).2 := by
  refine write_quiet recorder _ (Bool.eq_false_iff.mpr fun isRecord => visible ?_)
  exact (isRecord_of_hidden _ _ _ _ _).mp isRecord

/-! ## Objects in use -/

/-- An object with a header of its own that is found under a name. -/
structure Listed (vol : Volume Store) (number : Nat) (obj : Node) : Prop where
  found : vol.objs number = some obj
  soft : obj.softDel = false
  fake : obj.fake = false
  unlinked : obj.unlinked = false
  up : ∃ directory, obj.parent = some directory ∧ ¬isTrash directory

theorem Listed.visible {vol : Volume Store} (listed : Listed vol number obj) : ¬obj.Hidden := by
  rintro ⟨trash, isTrash, up'⟩
  obtain ⟨directory, up, kept⟩ := listed.up
  obtain rfl := Option.some.inj (up.symm.trans up')
  exact kept isTrash

theorem Listed.firm {vol : Volume Store} (listed : Listed vol number obj) : vol.Firm number :=
  ⟨obj, listed.found, listed.soft⟩

/-- The directories of the unlinked and the deleted objects are there. -/
def HasTrash (vol : Volume Store) : Prop :=
  ∀ trash, isTrash trash → ∃ dirObj, vol.objs trash = some dirObj ∧
    dirObj.variantType = .directory ∧ dirObj.softDel = false ∧ dirObj.parent = none

theorem HasTrash.not_listed {vol : Volume Store} (trash : vol.HasTrash)
    (listed : vol.Listed number obj) : ¬isTrash number := by
  intro isTrash
  obtain ⟨dirObj, found, -, -, orphan⟩ := trash number isTrash
  obtain rfl := Option.some.inj (found.symm.trans listed.found)
  obtain ⟨directory, up, -⟩ := listed.up
  simp [orphan] at up

theorem HasTrash.isType {vol : Volume Store} (trash : vol.HasTrash) {directory : Nat}
    (isTrash : isTrash directory) : vol.isType directory .directory = true := by
  obtain ⟨dirObj, found, is_dir, -⟩ := trash directory isTrash
  simp [Volume.isType, found, is_dir]

variable {Pages' : Type} {seen : Pages' → Pages' → Prop} {touched : Nat → Prop}

theorem Listed.steady {vol after : Volume Pages'} (listed : Listed vol number obj)
    (steady : Steady seen touched vol after) (untouched : ¬touched number) :
    ∃ obj', Listed after number obj' ∧ obj'.lasting = obj.lasting := by
  obtain ⟨obj', found', eq⟩ := steady.kept number obj listed.found untouched listed.soft
  refine ⟨obj', ?_, eq⟩
  obtain ⟨children, dirty, rfl⟩ := Node.lasting_eq_iff.mp eq
  exact ⟨found', listed.soft, listed.fake, listed.unlinked, listed.up⟩

theorem HasTrash.steady {vol after : Volume Pages'} (trash : vol.HasTrash)
    (steady : Steady seen touched vol after) (untouched : ∀ number, isTrash number → ¬touched number) :
    after.HasTrash := by
  intro directory isTrash
  obtain ⟨dirObj, found, is_dir, soft, fixed⟩ := trash directory isTrash
  obtain ⟨dirObj', found', eq⟩ := steady.kept directory dirObj found (untouched directory isTrash) soft
  obtain ⟨children, dirty, rfl⟩ := Node.lasting_eq_iff.mp eq
  exact ⟨_, found', is_dir, soft, fixed⟩

/-! ## Giving an object up -/

theorem placed_store (vol : Volume (Recorder Store)) (number newDir : Nat) (newName : List Char) :
    (vol.placed number newDir newName).store = vol.store := by
  simp only [Volume.placed]
  split
  · exact addObjToDir_store _ newDir number
  · exact addObjToDir_store _ newDir number

/-- The object itself after it has been placed. -/
theorem placed_found (directory : Nat) (newName : List Char) (found : vol.objs number = some obj) :
    ∃ obj', (vol.placed number directory newName).objs number = some obj' ∧
      obj'.parent = some directory ∧ obj'.softDel = obj.softDel ∧ obj'.fake = obj.fake ∧
      obj'.myInode = obj.myInode ∧ obj'.variantType = obj.variantType ∧
      obj'.deleted = obj.deleted := by
  have renamed := modify_self (named number newName) found
  obtain ⟨obj', found', eq⟩ := addObjToDir_found directory renamed
  obtain ⟨children, dirty, rfl⟩ := Node.lasting_eq_iff.mp eq
  have fields : (named number newName obj).softDel = obj.softDel ∧
      (named number newName obj).fake = obj.fake ∧
      (named number newName obj).myInode = obj.myInode ∧
      (named number newName obj).variantType = obj.variantType ∧
      (named number newName obj).deleted = obj.deleted := by
    simp only [named, Node.setObjName]
    split <;> exact ⟨rfl, rfl, rfl, rfl, rfl⟩
  obtain ⟨soft, fake, inode, type, deleted⟩ := fields
  simp only [Volume.placed]
  split
  · exact ⟨_, modify_self _ found', if_pos rfl, soft, fake, inode, type, deleted⟩
  · exact ⟨_, found', if_pos rfl, soft, fake, inode, type, deleted⟩

/-- What remains of an object that has been given up. -/
structure GivenUp (fails : Nat → Nat → Bool) (number directory : Nat) (obj : Node)
    (before : Volume (Recorder Store)) (outcome : Bool × Volume (Recorder Store)) : Prop where
  reported : outcome.1 = !fails number (before.store.attempts number)
  logged : Logged fails number before.store outcome.2.store
  param : outcome.2.param = before.param
  found : ∃ obj', outcome.2.objs number = some obj' ∧ obj'.parent = some directory ∧
    obj'.softDel = obj.softDel ∧ obj'.myInode = obj.myInode ∧ obj'.deleted = obj.deleted

/-- An object that is given up is moved, and one record is asked for. -/
theorem changeObjName_givesUp (P : Pages Store) (fails : Nat → Nat → Bool) (trash : vol.HasTrash) (found : vol.objs number = some obj)
    (soft : obj.softDel = false) (fake : obj.fake = false) {directory : Nat}
    (isTrash : isTrash directory) (newName : List Char) :
    GivenUp fails number directory obj vol
      (vol.changeObjName (P.recorded fails) number (some directory) newName false 0) := by
  have minds := (observes_writes P fails number fun _ => False).minds
  obtain ⟨obj₁, found₁, up₁, soft₁, fake₁, inode₁, type₁, deleted₁⟩ :=
    placed_found directory newName found
  have store₁ := placed_store vol number directory newName
  have param₁ : (vol.placed number directory newName).param = vol.param :=
    (Steady.placed minds vol number directory newName).param
  rw [changeObjName, changeObjNameWith_accepted (trash.isType isTrash) (.inl isTrash)]
  generalize vol.placed number directory newName = middle at *
  have firm : middle.Firm number := ⟨obj₁, found₁, soft₁.trans soft⟩
  have collected := calm_checkGc minds middle firm
  obtain ⟨obj₂, found₂, eq₂⟩ := collected.kept number obj₁ found₁ id (soft₁.trans soft)
  obtain ⟨children, dirty, rfl⟩ := Node.lasting_eq_iff.mp eq₂
  have hidden : ({ obj₁ with children, dirty } : Node).Hidden := ⟨directory, isTrash, up₁⟩
  have real : ∀ obj, middle.objs number = some obj → obj.fake = false := by
    intro other other_found
    obtain rfl := Option.some.inj (found₁.symm.trans other_found)
    exact fake₁.trans fake
  obtain ⟨reported, store, param, objs⟩ := updateOhWith_written (P := P.recorded fails) real found₂
    (some newName) (decide (directory = objectIdDeleted)) 0
  obtain ⟨outcome, logged⟩ := write_record fails
    (middle.checkGc (P.recorded fails)).store
    (P.writeHeader (middle.checkGc (P.recorded fails)).store.pages number
      { obj₁ with children, dirty } (some newName) (decide (directory = objectIdDeleted)) 0)
    ((isRecord_of_hidden number _ (some newName)
      (decide (directory = objectIdDeleted)) 0).mpr hidden)
  have last := objs number
  rw [found₂, Option.map_some] at last
  obtain ⟨obj₃, found₃, eq₃⟩ := Option.map_eq_some_iff.mp last
  obtain ⟨children', dirty', rfl⟩ := Node.lasting_eq_iff.mp eq₃
  refine ⟨?_, ?_, ?_, _, found₃, up₁, soft₁, inode₁, deleted₁⟩
  · rw [reported, ← store₁, ← collected.store.1]
    exact outcome
  · rw [store, ← store₁]
    exact logged.before (collected.store.mono fun _ => False.elim)
  · exact (param.trans collected.param).trans param₁

/-! ## Deleting -/

/-- Deleting an object asks for one record, whatever comes of it. -/
theorem genericObjDel_logged (P : Pages Store) (fails : Nat → Nat → Bool) (trash : vol.HasTrash) (yaffs2 : vol.param.isYaffs2 = true)
    (found : vol.objs number = some obj) (soft : obj.softDel = false) (fake : obj.fake = false)
    (elsewhere : obj.parent ≠ some objectIdDeleted) :
    Logged fails number vol.store (vol.genericObjDel (P.recorded fails) number).2.store := by
  have minds := (observes_writes P fails number fun _ => False).minds
  have dropped : Steady (Silent number) (fun _ => False) vol
      { vol with store := (P.recorded fails).invalidateWholeCache vol.store number } :=
    Steady.setStore (minds.invalidateWholeCache _ number (.inr trivial))
  have up : vol.parentOf number = obj.parent := parentOf_eq found
  simp only [genericObjDel, genericObjDelWith]
  split
  case isFalse stays =>
    refine absurd ⟨yaffs2, ?_⟩ stays
    change vol.parentOf number ≠ _
    rwa [up]
  case isTrue =>
    have gives := changeObjName_givesUp P fails
      (trash.steady dropped fun _ _ => id) found soft fake (.inr rfl) "deleted".toList
    exact gives.logged.after (drop_steady minds (.inr trivial)).store

/-- No record is written for what is already among the deleted objects. -/
theorem genericObjDel_silent (up : vol.parentOf number = some objectIdDeleted) :
    Silent number vol.store (vol.genericObjDel (P.recorded fails) number).2.store := by
  have minds := (observes_writes P fails number fun _ => False).minds
  simp only [genericObjDel, genericObjDelWith]
  split
  case isTrue moves => exact absurd up moves.2
  case isFalse =>
    exact minds.trans (minds.invalidateWholeCache _ number (.inr trivial)) (drop_steady minds (.inr trivial)).store

/-- What no inode holds is freed at once. -/
theorem genericObjDel_gone (P : Pages Store) (fails : Nat → Nat → Bool) (found : vol.objs number = some obj)
    (up : obj.parent = some objectIdDeleted) (inode : obj.myInode = none) :
    (vol.genericObjDel (P.recorded fails) number).2.objs number = none := by
  have removed := removeObjFromDir_lasting
    { vol with store := (P.recorded fails).invalidateWholeCache vol.store number } number number
  rw [found, Option.map_some] at removed
  obtain ⟨obj', found', eq⟩ := Option.map_eq_some_iff.mp removed
  have inode' : obj'.myInode = none := (congrArg Node.myInode eq).trans inode
  have up' : vol.parentOf number = some objectIdDeleted := (parentOf_eq found).trans up
  simp only [genericObjDel, genericObjDelWith]
  split
  case isTrue moves => exact absurd up' moves.2
  case isFalse => simp [Volume.freeObj, found', inode']

/-- What becomes of a file that is deleted already. -/
theorem softDelFile_silent (P : Pages Store) (fails : Nat → Nat → Bool) (found : vol.objs number = some obj)
    (up : obj.parent = some objectIdDeleted) (deleted : obj.deleted = true)
    (inode : obj.myInode = none) :
    Silent number vol.store (vol.softDelFile (P.recorded fails) number).store ∧
      ∀ obj', (vol.softDelFile (P.recorded fails) number).objs number = some obj' →
        obj'.deleted = true := by
  have minds := (observes_writes P fails number fun _ => False).minds
  simp only [softDelFile, found]
  split
  case isTrue =>
    refine ⟨Writes.refl _, fun obj' found' => ?_⟩
    obtain rfl := Option.some.inj (found.symm.trans found')
    exact deleted
  case isFalse =>
    split
    case isTrue =>
      have up' : ({ vol with store := (P.recorded fails).freeTnodes vol.store number } :
          Volume (Recorder Store)).parentOf number = some objectIdDeleted :=
        (parentOf_eq found).trans up
      refine ⟨minds.trans (minds.freeTnodes _ number (.inr trivial)) (genericObjDel_silent up'), ?_⟩
      intro obj' found'
      have found'' : ({ vol with store := (P.recorded fails).freeTnodes vol.store number } :
          Volume (Recorder Store)).objs number = some obj := found
      have gone := genericObjDel_gone P fails found'' up inode
      exact absurd (found'.symm.trans gone) (by simp)
    case isFalse =>
      refine ⟨minds.softDelWorker _ number (.inr trivial), fun obj' found' => ?_⟩
      have found'' : ({ vol with store := (P.recorded fails).softDelWorker vol.store number } :
          Volume (Recorder Store)).objs number = some obj := found
      have marked := modify_self (fun obj => { obj with softDel := true }) found''
      obtain rfl := Option.some.inj (marked.symm.trans found')
      exact deleted

/-- A file that no inode holds is given up at once. -/
theorem unlinkFileIfNeeded_logged (P : Pages Store) (fails : Nat → Nat → Bool) (trash : vol.HasTrash) (found : vol.objs number = some obj)
    (soft : obj.softDel = false) (fake : obj.fake = false) (inode : obj.myInode = none) :
    Logged fails number vol.store (vol.unlinkFileIfNeeded (P.recorded fails) number).2.store ∧
      ∀ obj', (vol.unlinkFileIfNeeded (P.recorded fails) number).2.objs number = some obj' →
        obj'.deleted = true := by
  have minds := (observes_writes P fails number fun _ => False).minds
  have gives := changeObjName_givesUp P fails trash found soft fake (.inr rfl)
    "deleted".toList
  have free : ¬((vol.objs number).any fun obj => obj.myInode.isSome) = true := by
    simp [found, inode]
  simp only [unlinkFileIfNeeded, if_pos free]
  generalize vol.changeObjName (P.recorded fails) number (some objectIdDeleted) "deleted".toList false
    0 = moved at *
  obtain ⟨obj₁, found₁, up₁, soft₁, inode₁, -⟩ := gives.found
  have found₂ : (moved.2.markDeleted number).objs number = some { obj₁ with deleted := true } :=
    modify_self _ found₁
  have resized : ∃ obj', Silent number (moved.2.markDeleted number).store
        (if (moved.2.markDeleted number).resizesToDelete then
          ((moved.2.markDeleted number).resizeFile (P.recorded fails) number 0).2
          else moved.2.markDeleted number).store ∧
      (if (moved.2.markDeleted number).resizesToDelete then
          ((moved.2.markDeleted number).resizeFile (P.recorded fails) number 0).2
          else moved.2.markDeleted number).objs number = some obj' ∧
      obj'.lasting = ({ obj₁ with deleted := true } : Node).lasting := by
    split
    case isFalse => exact ⟨_, Writes.refl _, found₂, rfl⟩
    case isTrue =>
      have steady : Steady (Silent number) (fun _ => False) _ _ := resizeFile_steady minds
        ⟨_, found₂, soft₁.trans soft⟩ number 0 (.inr trivial) fun mid obj steady mid_found visible => by
          obtain ⟨obj', found', eq⟩ := steady.kept number _ found₂ id (soft₁.trans soft)
          obtain rfl := Option.some.inj (mid_found.symm.trans found')
          exact absurd ⟨_, .inr rfl, (Node.parent_of_lasting eq).trans up₁⟩ visible
      obtain ⟨obj', found', eq⟩ := steady.kept number _ found₂ id (soft₁.trans soft)
      exact ⟨obj', steady.store, found', eq⟩
  generalize (if (moved.2.markDeleted number).resizesToDelete then
    ((moved.2.markDeleted number).resizeFile (P.recorded fails) number 0).2
    else moved.2.markDeleted number) = vol₃ at *
  obtain ⟨obj₃, silent, found₃, eq₃⟩ := resized
  obtain ⟨children, dirty, rfl⟩ := Node.lasting_eq_iff.mp eq₃
  obtain ⟨silent', marked⟩ := softDelFile_silent P fails found₃ up₁ rfl
    (inode₁.trans inode)
  exact ⟨gives.logged.after (silent.trans silent'), marked⟩

/-- The header of an object in use, that may be written before the object is given up, is no
record. -/
theorem Listed.quiet {mid : Volume (Recorder Store)} (listed : vol.Listed number obj)
    (steady : Steady (Quiet number) (fun _ => False) vol mid) {midObj : Node}
    (mid_found : mid.objs number = some midObj) (name : Option (List Char)) (isShrink : Bool)
    (shadows : Nat) : Quiet number mid.store
      ((P.recorded fails).writeHeader mid.store number midObj name isShrink shadows).2 := by
  obtain ⟨obj', listed', -⟩ := listed.steady steady id
  obtain rfl := Option.some.inj (mid_found.symm.trans listed'.found)
  exact writeHeader_quiet mid.store listed'.visible name isShrink shadows

/-- Deleting a file asks for one record, whether or not the file has data. -/
theorem delFile_logged (trash : vol.HasTrash) (yaffs2 : vol.param.isYaffs2 = true)
    (listed : vol.Listed number obj) (inode : obj.myInode = none) :
    Logged fails number vol.store (vol.delFile (P.recorded fails) number).2.store := by
  have minds := (observes_writes P fails number fun entry => entry.isRecord = false).minds
  have resized : Steady (Quiet number) (fun _ => False) vol
      (if vol.resizesToDelete then (vol.resizeFile (P.recorded fails) number 0).2 else vol) := by
    split
    · exact resizeFile_steady minds listed.firm number 0 (.inr trivial) fun mid midObj steady mid_found _ =>
        listed.quiet steady mid_found none false 0
    · exact Steady.refl minds
  simp only [delFile]
  generalize (if vol.resizesToDelete then (vol.resizeFile (P.recorded fails) number 0).2 else vol) =
    mid at *
  obtain ⟨obj', listed', eq⟩ := listed.steady resized id
  obtain ⟨children, dirty, rfl⟩ := Node.lasting_eq_iff.mp eq
  have trash' := trash.steady resized fun _ _ => id
  split
  case isTrue =>
    have unlinked : ¬(mid.objs number).any Node.unlinked = true := by
      simp [listed'.found, listed.unlinked]
    obtain ⟨logged, marked⟩ := unlinkFileIfNeeded_logged P fails trash' listed'.found
      listed'.soft listed'.fake inode
    rw [if_pos unlinked]
    generalize mid.unlinkFileIfNeeded (P.recorded fails) number = needed at *
    cases found : needed.2.objs number with
    | none => exact logged.before resized.store
    | some obj' =>
      have deleted := marked obj' found
      simp only [deleted, not_true_eq_false, and_false, if_false]
      exact logged.before resized.store
  case isFalse =>
    have freed : Quiet number mid.store ((P.recorded fails).freeTnodes mid.store number) :=
      minds.freeTnodes _ number (.inr trivial)
    have trash₂ := trash'.steady (Steady.setStore freed : Steady _ (fun _ => False) _ _) fun _ _ => id
    have elsewhere : obj.parent ≠ some objectIdDeleted := by
      intro up
      exact listed.visible ⟨_, .inr rfl, up⟩
    have logged := genericObjDel_logged P fails trash₂ (resized.param ▸ yaffs2)
      listed'.found listed'.soft listed'.fake elsewhere
    exact logged.before (resized.store.trans freed)

/-! ## Unlinking -/

/-- An object that is moved has a new header there, if the header could be written. -/
theorem changeObjName_placedAt (P : Pages Store) (fails : Nat → Nat → Bool) (found : vol.objs number = some obj) (soft : obj.softDel = false)
    (fake : obj.fake = false) {directory : Nat} {newName : List Char}
    (done : (vol.changeObjName (P.recorded fails) number (some directory) newName false 0).1 = true) :
    PlacedAt number (some directory) newName vol.store
        (vol.changeObjName (P.recorded fails) number (some directory) newName false 0).2.store ∧
      (vol.changeObjName (P.recorded fails) number (some directory) newName false 0).2.Firm number := by
  have minds := (observes_writes P fails number fun _ => False).minds
  rw [changeObjName] at done ⊢
  rcases changeObjNameWith_cases (P.recorded fails) (checkGc (P.recorded fails)) vol
    number (some directory) newName false 0
    with refused | ⟨directory', target, -, accepted⟩
  · rw [refused] at done
    contradiction
  obtain rfl : directory = directory' := Option.some.inj target
  obtain ⟨obj₁, found₁, up₁, soft₁, fake₁, -⟩ :=
    placed_found directory newName found
  have store₁ := placed_store vol number directory newName
  rw [accepted] at done ⊢
  generalize vol.placed number directory newName = middle at *
  have firm : middle.Firm number := ⟨obj₁, found₁, soft₁.trans soft⟩
  have collected := calm_checkGc minds middle firm
  obtain ⟨obj₂, found₂, eq₂⟩ := collected.kept number obj₁ found₁ id (soft₁.trans soft)
  obtain ⟨children, dirty, rfl⟩ := Node.lasting_eq_iff.mp eq₂
  have real : ∀ obj, middle.objs number = some obj → obj.fake = false := by
    intro other other_found
    obtain rfl := Option.some.inj (found₁.symm.trans other_found)
    exact fake₁.trans fake
  obtain ⟨reported, store, -, objs⟩ := updateOhWith_written (P := P.recorded fails) real found₂
    (some newName) (decide (directory = objectIdDeleted)) 0
  have last := objs number
  rw [found₂, Option.map_some] at last
  obtain ⟨obj₃, found₃, eq₃⟩ := Option.map_eq_some_iff.mp last
  refine ⟨?_, obj₃, found₃, (congrArg Node.softDel eq₃).trans (soft₁.trans soft)⟩
  rw [reported] at done
  have written := write_placed newName rfl done
  rw [store, ← store₁, ← up₁]
  obtain ⟨-, new, eq, -⟩ := collected.store
  exact written.before ⟨new, eq⟩

/-- An object that takes the place of its newest hard link has a new header there, and one record of
the link is asked for. -/
theorem unlinkByHardLink_logged (trash : vol.HasTrash) (yaffs2 : vol.param.isYaffs2 = true)
    {link : Nat} {linkObj : Node} (listed : vol.Listed number obj)
    (link_listed : vol.Listed link linkObj) (ne : number ≠ link)
    (done : (vol.unlinkByHardLink (P.recorded fails) number link linkObj).1 = true) :
    Logged fails link vol.store
        (vol.unlinkByHardLink (P.recorded fails) number link linkObj).2.store ∧
      PlacedAt number linkObj.parent (vol.getObjName (P.recorded fails) link linkObj) vol.store
        (vol.unlinkByHardLink (P.recorded fails) number link linkObj).2.store := by
  have minds := (observes_writes P fails number fun _ => False).minds
  have link_minds := (observes_writes P fails link fun _ => False).minds
  obtain ⟨directory, up, kept⟩ := link_listed.up
  let erased := vol.modify number (eraseLink link)
  let free := erased.addObjToDir objectIdUnlinked link
  let name := vol.getObjName (P.recorded fails) link linkObj
  let moved := free.changeObjName (P.recorded fails) number linkObj.parent name false 0
  have eq : vol.unlinkByHardLink (P.recorded fails) number link linkObj =
      if moved.1 then moved.2.genericObjDel (P.recorded fails) link else moved := rfl
  have found₁ : erased.objs number = some (eraseLink link obj) := modify_self _ listed.found
  have link_found₁ : erased.objs link = some linkObj := by
    rw [modify_found _ link_listed.found, if_neg ne.symm]
  obtain ⟨obj₂, found₂, eq₂⟩ := (Steady.addObjToDir minds erased objectIdUnlinked
    link).kept number _ found₁ ne listed.soft
  obtain ⟨linkObj₂, link_found₂, link_eq₂⟩ :=
    addObjToDir_found objectIdUnlinked link_found₁
  have free_store : free.store = vol.store := addObjToDir_store erased objectIdUnlinked link
  have before : Steady (Silent link) (fun other => other = number ∨ other = link) vol free :=
    ((Steady.modify link_minds (eraseLink link)).mono fun _ => .inl).trans link_minds
      ((Steady.addObjToDir link_minds erased objectIdUnlinked link).mono fun _ => .inr)
  have apart : ∀ other, isTrash other → ¬(other = number ∨ other = link) := by
    rintro other isTrash (rfl | rfl)
    · exact trash.not_listed listed isTrash
    · exact trash.not_listed link_listed isTrash
  have trash₂ := trash.steady before apart
  have link_firm : free.Firm link :=
    ⟨linkObj₂, link_found₂, (congrArg Node.softDel link_eq₂).trans link_listed.soft⟩
  have moves : Steady (Silent link) (· = number) free moved.2 :=
    changeObjNameWith_other link_minds (calm_checkGc link_minds) link_firm ne linkObj.parent name
      false 0
  obtain ⟨linkObj₃, link_found₃, link_eq₃⟩ := moves.kept link linkObj₂ link_found₂ ne.symm
    ((congrArg Node.softDel link_eq₂).trans link_listed.soft)
  have link_eq := link_eq₃.trans link_eq₂
  have link_up : linkObj₃.parent = some objectIdUnlinked :=
    (Node.parent_of_lasting link_eq).trans (if_pos rfl)
  rw [eq] at done ⊢
  split at done
  case isFalse failed => exact absurd done failed
  case isTrue placed =>
    rw [if_pos placed]
    have found₂_soft : obj₂.softDel = false := (congrArg Node.softDel eq₂).trans listed.soft
    have found₂_fake : obj₂.fake = false := (congrArg Node.fake eq₂).trans listed.fake
    have moved_eq : moved = free.changeObjName (P.recorded fails) number (some directory) name false
        0 := by
      simp only [moved, up]
    rw [moved_eq] at placed
    obtain ⟨placedAt, firm⟩ := changeObjName_placedAt P fails found₂ found₂_soft
      found₂_fake placed
    rw [← moved_eq] at placedAt firm
    have silent := (genericObjDelWith_other minds (calm_checkGc minds) firm ne.symm).store
    have logged := genericObjDel_logged P fails
      (trash₂.steady moves fun other isTrash is_number => apart other isTrash (.inl is_number))
      ((moves.param.trans before.param) ▸ yaffs2) link_found₃
      ((congrArg Node.softDel link_eq).trans link_listed.soft)
      ((congrArg Node.fake link_eq).trans link_listed.fake) (by rw [link_up]; decide)
    rw [free_store] at placedAt
    have quiet : Quiet link vol.store moved.2.store :=
      (before.store.trans moves.store).mono fun _ => False.elim
    rw [up]
    exact ⟨logged.before quiet, placedAt.after silent⟩

/-- An object that can be unlinked by its name.  If it has hard links, the newest of them is in use
as well. -/
structure Unlinkable (vol : Volume (Recorder Store)) (number : Nat) (obj : Node) : Prop where
  listed : vol.Listed number obj
  trash : vol.HasTrash
  single : obj.variantType = .hardlink → obj.hardLinks = []
  newest : ∀ link, obj.hardLinks.head? = some link → ∃ linkObj, vol.Listed link linkObj ∧
    linkObj.variantType = .hardlink

theorem Tidy.hasTrash (tidy : vol.Tidy) : vol.HasTrash := by
  intro trash isTrash
  obtain ⟨dirObj, found, is_dir⟩ := trash_found tidy.toTidyBut isTrash
  have orphan := tidy.sound.orphan trash isTrash.isTop
  exact ⟨dirObj, found, is_dir, tidy.soft_of_type found (by simp [is_dir]),
    by simpa [forest, parentOf, found] using orphan⟩

theorem Tidy.listed (tidy : vol.Tidy) (found : vol.objs number = some obj) (visible : ¬obj.Hidden)
    (below : ¬isTop number) (fake : obj.fake = false) : vol.Listed number obj := by
  have node := tidy.node number obj found
  have unlinked : obj.unlinked = false :=
    Bool.eq_false_iff.mpr fun unlinked => visible (node.hidden_iff.mp unlinked)
  obtain ⟨directory, up⟩ := tidy.sound.has_parent number (by simp [forest, found]) below
  have up : obj.parent = some directory := by simpa [forest, parentOf, found] using up
  refine ⟨found, Bool.eq_false_iff.mpr fun soft => ?_, fake, unlinked, directory, up, fun isTrash => ?_⟩
  · simpa [unlinked] using node.softDel soft
  · exact visible ⟨directory, isTrash, up⟩

/-- Where the objects are in order, what is found under a name can be unlinked. -/
theorem Tidy.unlinkable (tidy : vol.Tidy) (found : vol.objs number = some obj)
    (visible : ¬obj.Hidden) (allowed : obj.unlinkAllowed = true)
    (real : ∀ other otherObj, vol.objs other = some otherObj →
      otherObj.unlinkAllowed = true ∨ otherObj.variantType = .hardlink → otherObj.fake = false) :
    vol.Unlinkable number obj where
  listed := tidy.listed found visible (tidy.movable found (.inr (.inr allowed))).1
    (real number obj found (.inl allowed))
  trash := tidy.hasTrash
  single is_link := ((tidy.node number obj found).hardlink is_link).1
  newest link newest := by
    obtain ⟨linkObj, link_found, is_link, -, link_visible⟩ :=
      (tidy.node number obj found).ring link (List.mem_of_mem_head? newest)
    exact ⟨linkObj, tidy.listed link_found link_visible
      (tidy.movable link_found (.inl (by simp [is_link]))).1 (real link linkObj link_found (.inr is_link)),
      is_link⟩

/-- The object that goes when an object is unlinked: its newest hard link, or the object itself. -/
def victim (number : Nat) (obj : Node) : Nat := obj.hardLinks.head?.getD number

/-- The pages say that an object has been unlinked.  If it survives under the name of its newest hard
link, which is read after the header of the directory has been written, they say that as well. -/
def OnFlash (P : Pages (Recorder Store)) (vol : Volume (Recorder Store)) (number : Nat) (obj : Node)
    (last : Recorder Store) : Prop :=
  Recorded (victim number obj) vol.store last ∧
    ∀ link linkObj, obj.hardLinks.head? = some link → vol.objs link = some linkObj →
      PlacedAt number linkObj.parent
        ((vol.updateParent P (vol.parentOf number)).getObjName P link linkObj) vol.store last

theorem Unlinkable.steady {seen : Recorder Store → Recorder Store → Prop}
    (can : vol.Unlinkable number obj) (steady : Steady seen (fun _ => False) vol after) :
    ∃ obj', after.Unlinkable number obj' ∧ obj'.lasting = obj.lasting := by
  obtain ⟨obj', listed', eq⟩ := can.listed.steady steady id
  obtain ⟨children, dirty, rfl⟩ := Node.lasting_eq_iff.mp eq
  refine ⟨_, ⟨listed', can.trash.steady steady fun _ _ => id, can.single, fun link newest => ?_⟩, eq⟩
  obtain ⟨linkObj, link_listed, is_link⟩ := can.newest link newest
  obtain ⟨linkObj', link_listed', link_eq⟩ := link_listed.steady steady id
  exact ⟨linkObj', link_listed', (congrArg Node.variantType link_eq).trans is_link⟩

theorem getObjName_lasting {P : Pages Store} {vol : Volume Store} {other : Node}
    (same : other.lasting = obj.lasting) : vol.getObjName P number other = vol.getObjName P number obj := by
  obtain ⟨children, dirty, rfl⟩ := Node.lasting_eq_iff.mp same
  rfl

/-- Deleting a hard link asks for one record of the link. -/
theorem delLink_logged (trash : vol.HasTrash) (yaffs2 : vol.param.isYaffs2 = true)
    (listed : vol.Listed number obj) :
    Logged fails number vol.store (vol.delLink (P.recorded fails) number).2.store := by
  obtain ⟨hardLinks, found⟩ := removeHardLink_found number listed.found
  obtain ⟨store, param⟩ := removeHardLink_same vol number
  have trash' : (vol.removeHardLink number).HasTrash := by
    intro directory isTrash
    obtain ⟨dirObj, dir_found, is_dir, soft, orphan⟩ := trash directory isTrash
    obtain ⟨hardLinks', dir_found'⟩ := removeHardLink_found number dir_found
    exact ⟨_, dir_found', is_dir, soft, orphan⟩
  have elsewhere : obj.parent ≠ some objectIdDeleted := fun up => listed.visible ⟨_, .inr rfl, up⟩
  have logged := genericObjDel_logged P fails trash' (param ▸ yaffs2) found
    listed.soft listed.fake elsewhere
  rwa [store] at logged

/-- Deleting an object according to its type asks for one record, if anything is deleted. -/
theorem delNow_logged (P : Pages Store) (fails : Nat → Nat → Bool) (trash : vol.HasTrash) (yaffs2 : vol.param.isYaffs2 = true)
    (listed : vol.Listed number obj) :
    ((vol.delDir (P.recorded fails) number).1 = true →
      Logged fails number vol.store (vol.delDir (P.recorded fails) number).2.store) ∧
    Logged fails number vol.store (vol.delSymlink (P.recorded fails) number).2.store ∧
    Logged fails number vol.store (vol.genericObjDel (P.recorded fails) number).2.store := by
  have elsewhere : obj.parent ≠ some objectIdDeleted := fun up => listed.visible ⟨_, .inr rfl, up⟩
  have logged := genericObjDel_logged P fails trash yaffs2 listed.found
    listed.soft listed.fake elsewhere
  refine ⟨fun done => ?_, ?_, logged⟩
  · simp only [delDir] at done ⊢
    split at done
    case isTrue => contradiction
    case isFalse empty =>
      rw [if_neg empty]
      exact logged
  · have found : (vol.modify number fun obj => { obj with aliasStr := [] }).objs number =
        some { obj with aliasStr := [] } :=
      modify_self _ listed.found
    have trash' : (vol.modify number fun obj => { obj with aliasStr := [] }).HasTrash :=
      trash.steady (Steady.modify (observes_writes P fails number fun _ => False).minds _)
        fun other isTrash is_number => trash.not_listed listed (is_number ▸ isTrash)
    exact genericObjDel_logged P fails trash' yaffs2 found listed.soft listed.fake
      elsewhere

/-- The header of a directory may be written before anything else is done. -/
theorem updateParent_listed (listed : vol.Listed number obj) (directory : Option Nat) :
    Steady (Quiet number) touched vol (vol.updateParent (P.recorded fails) directory) :=
  updateParent_steady (observes_writes P fails number _).minds listed.firm directory
    fun _ _ steady mid_found => listed.quiet steady mid_found none false 0

/-- Unlinking that succeeds asks for one record. -/
theorem unlinkWorker_logged (can : vol.Unlinkable number obj) (yaffs2 : vol.param.isYaffs2 = true)
    (done : (vol.unlinkWorker (P.recorded fails) number).1 = true) :
    Logged fails (victim number obj) vol.store
        (vol.unlinkWorker (P.recorded fails) number).2.store ∧
      ∀ link linkObj, obj.hardLinks.head? = some link → vol.objs link = some linkObj →
        PlacedAt number linkObj.parent
          ((vol.updateParent (P.recorded fails) (vol.parentOf number)).getObjName (P.recorded fails) link
            linkObj) vol.store (vol.unlinkWorker (P.recorded fails) number).2.store := by
  have own : Steady (Quiet number) (fun _ => False) vol
      (vol.updateParent (P.recorded fails) (vol.parentOf number)) :=
    updateParent_listed can.listed _
  have links : ∀ link linkObj, vol.Listed link linkObj → Steady (Quiet link) (fun _ => False) vol
      (vol.updateParent (P.recorded fails) (vol.parentOf number)) :=
    fun link linkObj listed => updateParent_listed listed _
  obtain ⟨obj', can', eq⟩ := can.steady own
  obtain ⟨children, dirty, rfl⟩ := Node.lasting_eq_iff.mp eq
  simp only [unlinkWorker] at done ⊢
  generalize vol.updateParent (P.recorded fails) (vol.parentOf number) = mid at *
  have yaffs2' : mid.param.isYaffs2 = true := own.param ▸ yaffs2
  simp only [can'.listed.found] at done ⊢
  by_cases type : obj.variantType = .hardlink
  · have no_links := can.single type
    simp only [if_pos type, victim, no_links, List.head?_nil, Option.getD_none, reduceCtorEq,
      false_implies, implies_true, and_true]
    exact (delLink_logged can'.trash yaffs2' can'.listed).before own.store
  simp only [if_neg type] at done ⊢
  cases newest : obj.hardLinks with
  | cons link older =>
    obtain ⟨linkObj, link_listed, is_link⟩ := can.newest link (by simp [newest])
    have link_own := links link linkObj link_listed
    obtain ⟨linkObj', link_listed', link_eq⟩ := link_listed.steady link_own id
    have ne : number ≠ link := by
      rintro rfl
      obtain rfl := Option.some.inj (can.listed.found.symm.trans link_listed.found)
      exact type is_link
    simp only [newest, link_listed'.found] at done
    simp only [link_listed'.found]
    obtain ⟨logged, placedAt⟩ := unlinkByHardLink_logged can'.trash yaffs2' can'.listed link_listed'
      ne done
    refine ⟨?_, fun link' linkObj₀ head link_found => ?_⟩
    · rw [show victim number obj = link by simp [victim, newest]]
      exact logged.before link_own.store
    · obtain rfl : link = link' := by simpa using head
      obtain rfl := Option.some.inj (link_listed.found.symm.trans link_found)
      rw [← getObjName_lasting link_eq, ← Node.parent_of_lasting link_eq]
      obtain ⟨-, new, headers, -⟩ := own.store
      exact placedAt.before ⟨new, headers⟩
  | nil =>
    have goes : victim number obj = number := by simp [victim, newest]
    simp only [newest] at done
    rw [goes]
    simp only [List.head?_nil, reduceCtorEq, false_implies, implies_true, and_true]
    refine Logged.before own.store ?_
    by_cases inode : obj.myInode = none
    · simp only [if_pos inode] at done ⊢
      obtain ⟨dir, symlink, special⟩ := delNow_logged P fails can'.trash yaffs2'
        can'.listed
      cases kind : obj.variantType with
      | file => exact delFile_logged can'.trash yaffs2' can'.listed inode
      | directory =>
        simp only [kind] at done
        exact dir done
      | symlink => exact symlink
      | special => exact special
      | hardlink => exact absurd kind type
      | unknown => simp [kind] at done
    · simp only [if_neg inode] at done ⊢
      split at done
      case isTrue => contradiction
      case isFalse empty =>
        rw [if_neg empty]
        exact (changeObjName_givesUp P fails can'.trash can'.listed.found can'.listed.soft can'.listed.fake
          (.inl rfl) "unlinked".toList).logged

/-- The way an object that goes is recorded decides about it alone: once unlinking has been reported
as done, the pages say so exactly if the record of the object that goes could be written. -/
theorem onFlash_iff (can : vol.Unlinkable number obj) (yaffs2 : vol.param.isYaffs2 = true)
    (reported : (vol.unlinkObj (P.recorded fails) (some number)).1 = true) :
    OnFlash (P.recorded fails) vol number obj
        (vol.unlinkObj (P.recorded fails) (some number)).2.store ↔
      fails (victim number obj) (vol.store.attempts (victim number obj)) = false := by
  simp only [unlinkObj] at reported ⊢
  split at reported
  case isFalse => contradiction
  case isTrue allowed =>
    rw [if_pos allowed]
    obtain ⟨logged, placedAt⟩ := unlinkWorker_logged can yaffs2 reported
    constructor
    · rintro ⟨recorded, -⟩
      exact logged.recorded_iff.mp recorded
    · intro written
      exact ⟨logged.recorded_iff.mpr written, placedAt⟩

/-- A device with an empty directory in its root directory. -/
def withDir (fails : Nat → Nat → Bool) : Volume (Recorder Unit) :=
  let P := Vfs.quietPages.recorded fails
  ((({ store := { pages := () } } : Volume (Recorder Unit)).createInitialDir P).2.createDir P
    objectIdRoot "d".toList 0o777).2

/-- The empty directory. -/
def withDirObj : Node where
  variantType := .directory
  shortName := "d".toList
  sum := 4
  ystMode := 0o777
  parent := some objectIdRoot
  renameAllowed := true
  unlinkAllowed := true

theorem unlinkable_withDir (found : (withDir fails).objs 257 = some withDirObj)
    (unlinked : (withDir fails).objs objectIdUnlinked =
      some { variantType := .directory, fake := true, ystMode := sIfDir })
    (deleted : (withDir fails).objs objectIdDeleted =
      some { variantType := .directory, fake := true, ystMode := sIfDir }) :
    (withDir fails).Unlinkable 257 withDirObj where
  listed := ⟨found, rfl, rfl, rfl, objectIdRoot, rfl, by decide⟩
  trash := by
    rintro trash (rfl | rfl)
    · exact ⟨_, unlinked, rfl, rfl, rfl⟩
    · exact ⟨_, deleted, rfl, rfl, rfl⟩
  single := nofun
  newest := nofun

/-- An empty directory is unlinked, and its record can be written. -/
theorem onFlash_of_written : OnFlash (Vfs.quietPages.recorded fun _ _ => false)
    (withDir fun _ _ => false) 257 withDirObj
    ((withDir fun _ _ => false).unlinkObj (Vfs.quietPages.recorded fun _ _ => false) (some 257)).2.store :=
  (onFlash_iff (unlinkable_withDir (by decide +kernel) (by decide +kernel) (by decide +kernel))
    (by decide +kernel) (by decide +kernel)).mpr rfl

/-- An empty directory is reported as unlinked although its record could not be written. -/
theorem not_onFlash_of_lost : ¬∀ (fails : Nat → Nat → Bool) (vol : Volume (Recorder Unit))
    (number : Nat) (obj : Node), vol.Unlinkable number obj → vol.param.isYaffs2 = true →
    (vol.unlinkObj (Vfs.quietPages.recorded fails) (some number)).1 = true →
      OnFlash (Vfs.quietPages.recorded fails) vol number obj
        (vol.unlinkObj (Vfs.quietPages.recorded fails) (some number)).2.store := by
  intro always
  obtain ⟨⟨new, entry, headers, found, -⟩, -⟩ := always (fun _ _ => true) (withDir fun _ _ => true) 257
    withDirObj (unlinkable_withDir (by decide +kernel) (by decide +kernel) (by decide +kernel))
    (by decide +kernel) (by decide +kernel)
  -- Only the root directory gets a new header.
  have root : ((withDir fun _ _ => true).unlinkObj (Vfs.quietPages.recorded fun _ _ => true)
      (some 257)).2.store.headers = [⟨objectIdRoot, none, none, false, 0⟩] ++
        (withDir fun _ _ => true).store.headers := by
    decide +kernel
  obtain rfl := List.append_cancel_right (root.symm.trans headers)
  simp [victim, withDirObj, objectIdRoot] at found

end Volume

end Yaffs
