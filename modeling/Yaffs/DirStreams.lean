import Yaffs.Listing
import Mathlib.Logic.Equiv.Basic

/-!
# Directory streams

A stream has the address of its directory and of the object that it returns next.  When an object
is taken out of its directory, the streams that were to return it next go on to the object behind
it.  Objects that are added come to the head of the list, before all streams.  Nothing is done for a
stream when its directory is freed, and an object that takes the place of a hard link comes to the
head too.
-/

namespace Yaffs

/-- An allocated object, as far as directories go. -/
structure DirObj where
  isDirectory : Bool
  /-- The number that an entry for the object gives. -/
  ino : Nat
  name : List UInt8
  parent : Option Nat := none
  children : List Nat := []

/-- The objects by their addresses, and the search contexts. -/
structure DirState where
  objs : Nat → Option DirObj
  rootDir : Nat
  lostNFound : Nat
  unlinkedDir : Nat
  dscs : Nat → DirSearchContext := fun _ => {}
  /-- The open search contexts, newest first. -/
  searchContexts : List Nat := []
  /-- The label of the directory entry that an object stands for.  An object that takes the place of
  a hard link takes over its label. -/
  label : Nat → Nat := id
  /-- The labels that a stream has returned since it was rewound. -/
  returned : Nat → List Nat := fun _ => []
  /-- The labels of the entries that were in its directory then and have been there since. -/
  stayed : Nat → List Nat := fun _ => []
  /-- For everything that was returned, was it a child of the directory of the stream? -/
  answers : List Bool := []

namespace DirState

variable (s : DirState)

/-- The children of a directory. -/
def kids (dir : Nat) : List Nat := (s.objs dir).elim [] DirObj.children

/-- The directory of an object. -/
def parentOf (obj : Nat) : Option Nat := (s.objs obj).bind DirObj.parent

/-- Is there a directory at the address? -/
def isDir (dir : Nat) : Bool := (s.objs dir).any DirObj.isDirectory

/-! ## Search contexts -/

/-- Set a search context to the beginning of its directory. -/
def setDirRewound (dsc : DirSearchContext) : DirSearchContext :=
  match dsc.dirObj with
  | none => dsc
  | some dir =>
    if s.isDir dir then { dsc with offset := 0, nextReturn := (s.kids dir).head? } else dsc

/-- Go on to the next object of the directory. -/
def dirAdvance (dsc : DirSearchContext) : DirSearchContext :=
  match dsc.dirObj with
  | none => dsc
  | some dir =>
    if s.isDir dir then
      { dsc with nextReturn := dsc.nextReturn.bind fun next => nextSibling next (s.kids dir) }
    else dsc

/-- Take care that no search context is to return an object next that is being removed. -/
def removeObjectCallback (obj : Nat) : DirState :=
  { s with
    dscs := fun index =>
      let dsc := s.dscs index
      if index ∈ s.searchContexts ∧ dsc.nextReturn = some obj then s.dirAdvance dsc else dsc }

/-! ## Directories -/

/-- Take an object out of its directory. -/
def removeObjFromDir (obj : Nat) : DirState :=
  { s.removeObjectCallback obj with
    objs := fun address => (s.objs address).map fun o =>
      { o with
        children := if s.parentOf obj = some address then o.children.erase obj else o.children
        parent := if address = obj then none else o.parent } }

/-- Put an object that is in no directory at the head of a directory. -/
def listAdd (directory obj : Nat) : DirState :=
  { s with
    objs := fun address => (s.objs address).map fun o =>
      { o with
        children := if address = directory then obj :: o.children else o.children
        parent := if address = obj then some directory else o.parent } }

/-- Put an object into a directory, out of the one where it is. -/
def addObjToDir (directory obj : Nat) : DirState := (s.removeObjFromDir obj).listAdd directory obj

/-- An object at a free address. -/
def allocRawObj (address : Nat) (isDirectory : Bool) (ino : Nat) (name : List UInt8) : DirState :=
  { s with objs := Function.update s.objs address (some { isDirectory, ino, name }) }

/-- Allocate an object.  It begins in the root directory and goes from there to lost+found. -/
def allocEmptyObj (address : Nat) (isDirectory : Bool) (ino : Nat) (name : List UInt8) : DirState :=
  ((s.allocRawObj address isDirectory ino name).listAdd s.rootDir address).addObjToDir s.lostNFound
    address

/-- Free an object. -/
def freeObj (obj : Nat) : DirState := { s with objs := Function.update s.objs obj none }

/-- Give an object a name. -/
def setObjName (obj : Nat) (name : List UInt8) : DirState :=
  { s with
    objs := fun address => (s.objs address).map fun o =>
      if address = obj then { o with name } else o }

/-- The entry of an object is removed. -/
def dropEntry (obj : Nat) : DirState :=
  { s with stayed := fun index => (s.stayed index).filter fun label => label ≠ s.label obj }

/-- Does an object already have a name in a directory? -/
def keepsPlace (obj dir : Nat) (name : List UInt8) : Bool :=
  decide (s.parentOf obj = some dir ∧ (s.objs obj).map DirObj.name = some name)

/-- Give an object a name in a directory. -/
def changeObjName (obj dir : Nat) (name : List UInt8) : DirState :=
  let kept := if s.keepsPlace obj dir name then s else s.dropEntry obj
  (kept.setObjName obj name).addObjToDir dir obj

/-- An object whose own entry is removed takes the place of one of its hard links. -/
def takeLink (obj link dir : Nat) : DirState :=
  let name := (s.objs link).elim [] DirObj.name
  let moved := (s.dropEntry obj).addObjToDir s.unlinkedDir link
  let placed := (moved.setObjName obj name).addObjToDir dir obj
  { placed with label := s.label ∘ Equiv.swap obj link }

/-! ## Calls on streams -/

/-- Open a directory. -/
def opendir (obj : Nat) : Option Nat × DirState :=
  match (List.range nDsc).find? fun index => !(s.dscs index).inUse with
  | none => (none, s)
  | some index =>
    let dsc := s.setDirRewound { inUse := true, dirObj := some obj }
    (some index,
      { s with
        dscs := Function.update s.dscs index dsc
        searchContexts := index :: s.searchContexts
        returned := Function.update s.returned index []
        stayed := Function.update s.stayed index ((s.kids obj).map s.label) })

/-- The entry for an object. -/
def dirent (obj : Nat) (off : Int) : Dirent :=
  let name := (s.objs obj).elim [] DirObj.name
  { ino := (s.objs obj).elim 0 DirObj.ino
    off
    name := if name = [] then [122, 122] else name }

/-- The next entry of a stream. -/
def readdir (index : Nat) : Option Dirent × DirState :=
  let dsc := s.dscs index
  if dsc.inUse then
    match dsc.nextReturn with
    | none => (none, s)
    | some obj =>
      let after := s.dirAdvance { dsc with offset := signedField20 (dsc.offset + 1) }
      (some (s.dirent obj dsc.offset),
        { s with
          dscs := Function.update s.dscs index after
          returned := Function.update s.returned index (s.returned index ++ [s.label obj])
          answers :=
            s.answers ++ [decide (obj ∈ dsc.dirObj.elim [] s.kids)] })
  else (none, s)

/-- Start a stream again. -/
def rewinddir (index : Nat) : DirState :=
  { s with
    dscs := Function.update s.dscs index (s.setDirRewound (s.dscs index))
    returned := Function.update s.returned index []
    stayed := Function.update s.stayed index
      (((s.dscs index).dirObj.elim [] s.kids).map s.label) }

/-- Close a stream. -/
def closedir (index : Nat) : DirState :=
  { s with
    dscs := Function.update s.dscs index { s.dscs index with inUse := false }
    searchContexts := s.searchContexts.erase index }

end DirState

/-! ## Runs -/

/-- What happens to the directories of a device and to the streams. -/
inductive DirEvent
  | create (address : Nat) (isDirectory : Bool) (ino : Nat) (name : List UInt8) (dir : Nat)
  | changeName (obj dir : Nat) (name : List UInt8)
  | remove (obj : Nat)
  | free (obj : Nat)
  | takeLink (obj link : Nat)
  | opendir (obj : Nat)
  | readdir (index : Nat)
  | rewinddir (index : Nat)
  | closedir (index : Nat)

namespace DirState

/-- An object is freed when it is in no directory and nothing is in it. -/
def freeable (s : DirState) (obj : Nat) : Bool :=
  (s.parentOf obj).isNone && (s.kids obj).isEmpty &&
    decide (obj ≠ s.rootDir ∧ obj ≠ s.lostNFound ∧ obj ≠ s.unlinkedDir)

/-- The state after an event.  Nothing happens where the event is not possible. -/
def after : DirEvent → DirState → DirState
  | .create address isDirectory ino name dir, s =>
    if (s.objs address).isNone && s.isDir dir then
      (s.allocEmptyObj address isDirectory ino name).addObjToDir dir address
    else s
  | .changeName obj dir name, s =>
    if (s.objs obj).isSome && s.isDir dir then s.changeObjName obj dir name else s
  | .remove obj, s => (s.dropEntry obj).removeObjFromDir obj
  | .free obj, s => if s.freeable obj then s.freeObj obj else s
  | .takeLink obj link, s =>
    match s.parentOf link with
    | none => s
    | some dir => if (s.objs obj).isSome && obj ≠ link then s.takeLink obj link dir else s
  | .opendir obj, s => if s.isDir obj then (s.opendir obj).2 else s
  | .readdir index, s => (s.readdir index).2
  | .rewinddir index, s => if index ∈ s.searchContexts then s.rewinddir index else s
  | .closedir index, s => if index ∈ s.searchContexts then s.closedir index else s

/-- What is still to be returned from a list of children. -/
def remainder (next : Option Nat) (children : List Nat) : List Nat :=
  next.elim [] fun obj => children.dropWhile fun child => child ≠ obj

/-- What a stream has still to return. -/
def rest (s : DirState) (index : Nat) : List Nat :=
  remainder (s.dscs index).nextReturn ((s.dscs index).dirObj.elim [] s.kids)

/-- No stream loses its directory, and no entry that stays is moved before a stream has returned
it. -/
def Spares : DirEvent → DirState → Prop
  | .free obj, s => ∀ index ∈ s.searchContexts, (s.dscs index).dirObj ≠ some obj
  | .changeName obj dir name, s =>
    s.keepsPlace obj dir name = true → ∀ index ∈ s.searchContexts, obj ∉ s.rest index
  | .takeLink _ link, s => ∀ index ∈ s.searchContexts, link ∉ s.rest index
  | _, _ => True

/-- The streams are sound: everything returned was in the directory, what stayed there is returned
once, and no stream refers to an object that has been freed. -/
structure StreamsSound (s : DirState) : Prop where
  answered : ∀ answer ∈ s.answers, answer = true
  atMostOnce : ∀ index ∈ s.searchContexts, ∀ label ∈ s.stayed index,
    (s.returned index).count label ≤ 1
  onceAtEnd : ∀ index ∈ s.searchContexts, (s.dscs index).nextReturn = none →
    ∀ label ∈ s.stayed index, (s.returned index).count label = 1
  allocated : ∀ index ∈ s.searchContexts, ∀ obj,
    (s.dscs index).dirObj = some obj ∨ (s.dscs index).nextReturn = some obj →
      (s.objs obj).isSome = true

/-! ## What is left of a list -/

@[simp] theorem remainder_none (children : List Nat) : remainder none children = [] := rfl

theorem remainder_sublist (next : Option Nat) (children : List Nat) :
    (remainder next children).Sublist children := by
  cases next with
  | none => exact List.nil_sublist children
  | some obj => exact List.dropWhile_sublist _

theorem remainder_head (children : List Nat) : remainder children.head? children = children := by
  cases children <;> simp [remainder]

theorem remainder_cons {next : Option Nat} {obj : Nat} (ne : next ≠ some obj)
    (children : List Nat) : remainder next (obj :: children) = remainder next children := by
  cases next with
  | none => rfl
  | some other =>
    have apart : obj ≠ other := fun same => ne (congrArg some same.symm)
    simp [remainder, List.dropWhile_cons, apart]

theorem mem_of_nextSibling {obj next : Nat} {children : List Nat}
    (behind : nextSibling obj children = some next) : next ∈ children := by
  induction children with
  | nil => cases behind
  | cons child rest induction =>
    rw [nextSibling] at behind
    split at behind
    · exact List.mem_cons_of_mem _ (List.mem_of_mem_head? behind)
    · exact List.mem_cons_of_mem _ (induction behind)

theorem nextSibling_ne {obj : Nat} {children : List Nat} (nodup : children.Nodup) :
    nextSibling obj children ≠ some obj := by
  induction children with
  | nil => simp [nextSibling]
  | cons child rest induction =>
    obtain ⟨not_mem, nodup⟩ := List.nodup_cons.1 nodup
    rw [nextSibling]
    split
    case isTrue same => exact fun behind => not_mem (same ▸ List.mem_of_mem_head? behind)
    case isFalse => exact induction nodup

/-- The next object comes first, and what is behind it is left after it. -/
theorem remainder_some {obj : Nat} {children : List Nat} (nodup : children.Nodup)
    (member : obj ∈ children) :
    remainder (some obj) children = obj :: remainder (nextSibling obj children) children := by
  induction children with
  | nil => cases member
  | cons child rest induction =>
    obtain ⟨not_mem, nodup⟩ := List.nodup_cons.1 nodup
    by_cases same : child = obj
    · subst same
      have apart : rest.head? ≠ some child := fun head => not_mem (List.mem_of_mem_head? head)
      rw [nextSibling, if_pos rfl, remainder_cons apart, remainder_head]
      simp [remainder]
    · have behind : nextSibling obj rest ≠ some child := fun next =>
        not_mem (mem_of_nextSibling next)
      rw [nextSibling, if_neg same, remainder_cons (fun next => same (Option.some.inj next).symm),
        remainder_cons behind]
      exact induction nodup (List.mem_of_ne_of_mem (Ne.symm same) member)

/-- An object that does not come next is removed from what is left. -/
theorem remainder_erase {next : Option Nat} {obj : Nat} {children : List Nat}
    (nodup : children.Nodup) (ne : next ≠ some obj) :
    remainder next (children.erase obj) = (remainder next children).erase obj := by
  induction children with
  | nil => cases next <;> rfl
  | cons child rest induction =>
    obtain ⟨not_mem, nodup⟩ := List.nodup_cons.1 nodup
    by_cases same : child = obj
    · subst same
      have absent : child ∉ remainder next rest := fun left =>
        not_mem ((remainder_sublist next rest).subset left)
      rw [List.erase_cons_head, remainder_cons ne, List.erase_of_not_mem absent]
    · rw [List.erase_cons_tail (by simpa using same)]
      by_cases first : next = some child
      · subst first
        simp [remainder, List.erase_cons_tail, same]
      · rw [remainder_cons first, remainder_cons first]
        exact induction nodup

/-- A stream that is to return an object next goes on when the object is removed. -/
theorem remainder_removed {next : Option Nat} {obj : Nat} {children : List Nat}
    (nodup : children.Nodup) (there : ∀ other, next = some other → other ∈ children) :
    remainder (if next = some obj then nextSibling obj children else next)
      (children.erase obj) = (remainder next children).erase obj := by
  split
  case isTrue first =>
    have behind := remainder_some nodup (there obj first)
    have absent : obj ∉ remainder (nextSibling obj children) children := by
      have left := (remainder_sublist (some obj) children).nodup nodup
      rw [behind] at left
      exact (List.nodup_cons.1 left).1
    rw [first, behind, List.erase_cons_head, remainder_erase nodup (nextSibling_ne nodup),
      List.erase_of_not_mem absent]
  case isFalse ne => exact remainder_erase nodup ne

/-! ## The invariant -/

/-- Every object is once in the list of its parent, which is a directory. -/
structure Hierarchy (s : DirState) : Prop where
  nodup : ∀ dir, (s.kids dir).Nodup
  parented : ∀ dir obj, obj ∈ s.kids dir ↔ s.parentOf obj = some dir
  isDir : ∀ obj dir, s.parentOf obj = some dir → s.isDir dir = true
  fixed : s.isDir s.rootDir = true ∧ s.isDir s.lostNFound = true ∧ s.isDir s.unlinkedDir = true
  labels : Function.Injective s.label

/-- The books of the directories and of the streams. -/
structure Books (s : DirState) : Prop extends Hierarchy s where
  contexts : s.searchContexts.Nodup
  opened : ∀ index, index ∈ s.searchContexts ↔ (s.dscs index).inUse = true
  place : ∀ index ∈ s.searchContexts, ∃ dir, (s.dscs index).dirObj = some dir ∧
    s.isDir dir = true ∧ ∀ next, (s.dscs index).nextReturn = some next → next ∈ s.kids dir
  once : ∀ index ∈ s.searchContexts, ∀ label ∈ s.stayed index,
    (s.returned index).count label + ((s.rest index).map s.label).count label = 1
  answered : ∀ answer ∈ s.answers, answer = true

/-- No stream has been opened yet. -/
structure NoStreams (s : DirState) : Prop extends Hierarchy s where
  idle : s.searchContexts = [] ∧ (∀ index, (s.dscs index).inUse = false) ∧ s.answers = []

variable {s : DirState}

theorem isSome_of_isDir {dir : Nat} (is_dir : s.isDir dir = true) : (s.objs dir).isSome = true := by
  cases held : s.objs dir with
  | none => simp [DirState.isDir, held] at is_dir
  | some o => rfl

theorem isSome_of_parentOf {obj dir : Nat} (parent : s.parentOf obj = some dir) :
    (s.objs obj).isSome = true := by
  cases held : s.objs obj with
  | none => simp [parentOf, held] at parent
  | some o => rfl

theorem NoStreams.books (none_open : NoStreams s) : Books s where
  toHierarchy := none_open.toHierarchy
  contexts := none_open.idle.1 ▸ List.nodup_nil
  opened index := by simp [none_open.idle.1, none_open.idle.2.1 index]
  place index member := by simp [none_open.idle.1] at member
  once index member := by simp [none_open.idle.1] at member
  answered answer member := by simp [none_open.idle.2.2] at member

theorem rest_eq {index dir : Nat} (dir_eq : (s.dscs index).dirObj = some dir) :
    s.rest index = remainder (s.dscs index).nextReturn (s.kids dir) := by
  rw [rest, dir_eq]
  rfl

theorem Books.rest_nodup (books : Books s) {index : Nat} (member : index ∈ s.searchContexts) :
    (s.rest index).Nodup := by
  obtain ⟨dir, dir_eq, -, -⟩ := books.place index member
  rw [rest_eq dir_eq]
  exact (remainder_sublist _ _).nodup (books.nodup dir)

/-- What a stream has still to return is in its directory. -/
theorem Books.parentOf_rest (books : Books s) {index obj : Nat}
    (member : index ∈ s.searchContexts) (left : obj ∈ s.rest index) :
    (s.parentOf obj).isSome = true := by
  obtain ⟨dir, dir_eq, -, -⟩ := books.place index member
  rw [rest_eq dir_eq] at left
  rw [(books.parented dir obj).1 ((remainder_sublist _ _).subset left)]
  rfl

/-- What was returned of the entries that stayed. -/
theorem Books.sound (books : Books s) : StreamsSound s where
  answered := books.answered
  atMostOnce index member label stays := by
    have once := books.once index member label stays
    omega
  onceAtEnd index member ended label stays := by
    have once := books.once index member label stays
    simpa [rest, ended] using once
  allocated index member obj refers := by
    obtain ⟨dir, dir_eq, is_dir, there⟩ := books.place index member
    rcases refers with at_dir | at_next
    · rw [dir_eq] at at_dir
      exact Option.some.inj at_dir ▸ isSome_of_isDir is_dir
    · exact isSome_of_parentOf ((books.parented dir obj).1 (there obj at_next))

/-! ## Changes of the tree -/

theorem kids_removeObjFromDir (tree : Hierarchy s) (obj dir : Nat) :
    (s.removeObjFromDir obj).kids dir = (s.kids dir).erase obj := by
  have absent : s.parentOf obj ≠ some dir → (s.kids dir).erase obj = s.kids dir := fun ne =>
    List.erase_of_not_mem (mt (tree.parented dir obj).1 ne)
  cases held : s.objs dir with
  | none => simp [removeObjFromDir, removeObjectCallback, kids, held]
  | some o =>
    by_cases inside : s.parentOf obj = some dir
    · simp [removeObjFromDir, removeObjectCallback, kids, held, inside]
    · rw [absent inside]
      simp [removeObjFromDir, removeObjectCallback, kids, held, inside]

theorem parentOf_removeObjFromDir (obj other : Nat) :
    (s.removeObjFromDir obj).parentOf other =
      if other = obj then none else s.parentOf other := by
  cases held : s.objs other <;>
    simp [removeObjFromDir, removeObjectCallback, parentOf, held]

@[simp] theorem isDir_removeObjFromDir (obj dir : Nat) :
    (s.removeObjFromDir obj).isDir dir = s.isDir dir := by
  cases held : s.objs dir <;> simp [removeObjFromDir, removeObjectCallback, isDir, held]

theorem kids_listAdd {directory : Nat} (is_dir : s.isDir directory = true) (obj dir : Nat) :
    (s.listAdd directory obj).kids dir =
      if dir = directory then obj :: s.kids dir else s.kids dir := by
  cases held : s.objs dir with
  | none =>
    have ne : dir ≠ directory := by
      rintro rfl
      simp [isDir, held] at is_dir
    simp [listAdd, kids, held, ne]
  | some o =>
    by_cases same : dir = directory
    · subst same
      simp [listAdd, kids, held]
    · simp [listAdd, kids, held, same]

theorem parentOf_listAdd {obj : Nat} (allocated : (s.objs obj).isSome = true)
    (directory other : Nat) :
    (s.listAdd directory obj).parentOf other =
      if other = obj then some directory else s.parentOf other := by
  cases held : s.objs other with
  | none =>
    have ne : other ≠ obj := by
      rintro rfl
      simp [held] at allocated
    simp [listAdd, parentOf, held, ne]
  | some o => simp [listAdd, parentOf, held]

@[simp] theorem isDir_listAdd (directory obj dir : Nat) :
    (s.listAdd directory obj).isDir dir = s.isDir dir := by
  cases held : s.objs dir <;> simp [listAdd, isDir, held]

/-! ## Removing and adding -/

theorem dscs_removeObjFromDir {index dir : Nat} (member : index ∈ s.searchContexts)
    (dir_eq : (s.dscs index).dirObj = some dir) (is_dir : s.isDir dir = true) (obj : Nat) :
    (s.removeObjFromDir obj).dscs index =
      { s.dscs index with
        nextReturn :=
          if (s.dscs index).nextReturn = some obj then nextSibling obj (s.kids dir)
          else (s.dscs index).nextReturn } := by
  by_cases first : (s.dscs index).nextReturn = some obj
  · simp [removeObjFromDir, removeObjectCallback, dirAdvance, member, first, dir_eq, is_dir]
  · simp [removeObjFromDir, removeObjectCallback, first]

theorem Books.next_removed (books : Books s) {index dir : Nat}
    (there : ∀ next, (s.dscs index).nextReturn = some next → next ∈ s.kids dir) {obj next : Nat}
    (next_eq : (if (s.dscs index).nextReturn = some obj then nextSibling obj (s.kids dir)
      else (s.dscs index).nextReturn) = some next) : next ∈ (s.kids dir).erase obj := by
  split at next_eq
  case isTrue first =>
    have ne : next ≠ obj := fun same => nextSibling_ne (books.nodup dir) (same ▸ next_eq)
    exact (List.mem_erase_of_ne ne).2 (mem_of_nextSibling next_eq)
  case isFalse other =>
    have ne : next ≠ obj := fun same => other (same ▸ next_eq)
    exact (List.mem_erase_of_ne ne).2 (there next next_eq)

/-- The removed object is taken out of what the streams have still to return. -/
theorem Books.rest_removeObjFromDir (books : Books s) {index : Nat}
    (member : index ∈ s.searchContexts) (obj : Nat) :
    (s.removeObjFromDir obj).rest index = (s.rest index).erase obj := by
  obtain ⟨dir, dir_eq, is_dir, there⟩ := books.place index member
  have dsc_eq := dscs_removeObjFromDir member dir_eq is_dir obj
  have dir_eq' : ((s.removeObjFromDir obj).dscs index).dirObj = some dir := by
    rw [dsc_eq]
    exact dir_eq
  rw [rest_eq dir_eq', dsc_eq, kids_removeObjFromDir books.toHierarchy, rest_eq dir_eq]
  exact remainder_removed (books.nodup dir) there

theorem Hierarchy.removeObjFromDir (tree : Hierarchy s) (obj : Nat) :
    Hierarchy (s.removeObjFromDir obj) where
  nodup dir := by
    rw [kids_removeObjFromDir tree]
    exact (tree.nodup dir).erase obj
  parented dir other := by
    rw [kids_removeObjFromDir tree, parentOf_removeObjFromDir, (tree.nodup dir).mem_erase_iff,
      tree.parented]
    by_cases same : other = obj <;> simp [same]
  isDir other dir parent := by
    rw [parentOf_removeObjFromDir] at parent
    split at parent
    · cases parent
    · rw [isDir_removeObjFromDir]
      exact tree.isDir other dir parent
  fixed := by
    simp only [isDir_removeObjFromDir]
    exact tree.fixed
  labels := tree.labels

/-- Taking an object out of a list does not change how often another label is in it. -/
theorem count_label_erase {label obj : Nat} {left : List Nat}
    (spared : label ≠ s.label obj ∨ obj ∉ left) :
    ((left.erase obj).map s.label).count label = (left.map s.label).count label := by
  by_cases member : obj ∈ left
  · have ne : s.label obj ≠ label := (spared.resolve_right (not_not_intro member)).symm
    have perm := ((List.perm_cons_erase member).map s.label).count_eq label
    rw [perm, List.map_cons, List.count_cons_of_ne ne]
  · rw [List.erase_of_not_mem member]

theorem Books.removeObjFromDir (books : Books s) {obj : Nat}
    (spared : ∀ index ∈ s.searchContexts, ∀ label ∈ s.stayed index,
      label ≠ s.label obj ∨ obj ∉ s.rest index) : Books (s.removeObjFromDir obj) where
  toHierarchy := books.toHierarchy.removeObjFromDir obj
  contexts := books.contexts
  opened index := by
    rw [show index ∈ (s.removeObjFromDir obj).searchContexts ↔ (s.dscs index).inUse = true from
      books.opened index]
    by_cases member : index ∈ s.searchContexts
    · obtain ⟨dir, dir_eq, is_dir, -⟩ := books.place index member
      rw [dscs_removeObjFromDir member dir_eq is_dir]
    · simp [DirState.removeObjFromDir, removeObjectCallback, member]
  place index member := by
    have member : index ∈ s.searchContexts := member
    obtain ⟨dir, dir_eq, is_dir, there⟩ := books.place index member
    rw [dscs_removeObjFromDir member dir_eq is_dir]
    refine ⟨dir, dir_eq, (isDir_removeObjFromDir obj dir).trans is_dir, fun next next_eq => ?_⟩
    rw [kids_removeObjFromDir books.toHierarchy]
    exact books.next_removed there next_eq
  once index member label stays := by
    rw [books.rest_removeObjFromDir member]
    refine Eq.trans (congrArg _ ?_) (books.once index member label stays)
    exact count_label_erase (spared index member label stays)
  answered := books.answered

/-- An object that is in no directory does not come after a stream when it is added. -/
theorem Books.rest_listAdd (books : Books s) {index : Nat} (member : index ∈ s.searchContexts)
    {obj directory : Nat} (loose : s.parentOf obj = none)
    (is_dir : s.isDir directory = true) :
    (s.listAdd directory obj).rest index = s.rest index := by
  obtain ⟨dir, dir_eq, -, there⟩ := books.place index member
  have dir_eq' : ((s.listAdd directory obj).dscs index).dirObj = some dir := dir_eq
  rw [rest_eq dir_eq', rest_eq dir_eq, kids_listAdd is_dir]
  split
  · refine remainder_cons (fun next => ?_) _
    have parent := (books.parented dir obj).1 (there obj next)
    exact absurd (loose.symm.trans parent) nofun
  · rfl

theorem Hierarchy.listAdd (tree : Hierarchy s) {obj directory : Nat}
    (loose : s.parentOf obj = none) (allocated : (s.objs obj).isSome = true)
    (is_dir : s.isDir directory = true) : Hierarchy (s.listAdd directory obj) where
  nodup dir := by
    rw [kids_listAdd is_dir]
    split
    · refine List.nodup_cons.2 ⟨fun member => ?_, tree.nodup dir⟩
      exact absurd (loose.symm.trans ((tree.parented dir obj).1 member)) nofun
    · exact tree.nodup dir
  parented dir other := by
    have old := tree.parented dir other
    rw [kids_listAdd is_dir, parentOf_listAdd allocated]
    by_cases same : other = obj
    · subst same
      rw [loose] at old
      by_cases at_dir : dir = directory
      · simp [at_dir]
      · simp [at_dir, Ne.symm at_dir, old]
    · rw [if_neg same, ← old]
      by_cases at_dir : dir = directory <;> simp [at_dir, same]
  isDir other dir parent := by
    rw [parentOf_listAdd allocated] at parent
    rw [isDir_listAdd]
    split at parent
    · exact Option.some.inj parent ▸ is_dir
    · exact tree.isDir other dir parent
  fixed := by
    simp only [isDir_listAdd]
    exact tree.fixed
  labels := tree.labels

theorem Books.listAdd (books : Books s) {obj directory : Nat} (loose : s.parentOf obj = none)
    (allocated : (s.objs obj).isSome = true) (is_dir : s.isDir directory = true) :
    Books (s.listAdd directory obj) where
  toHierarchy := books.toHierarchy.listAdd loose allocated is_dir
  contexts := books.contexts
  opened := books.opened
  place index member := by
    obtain ⟨dir, dir_eq, at_dir, there⟩ := books.place index member
    refine ⟨dir, dir_eq, (isDir_listAdd directory obj dir).trans at_dir, fun next next_eq => ?_⟩
    rw [kids_listAdd is_dir]
    split
    · exact List.mem_cons_of_mem _ (there next next_eq)
    · exact there next next_eq
  once index member label stays := by
    rw [books.rest_listAdd member loose is_dir]
    exact books.once index member label stays
  answered := books.answered

theorem isSome_objs_removeObjFromDir (obj other : Nat) :
    ((s.removeObjFromDir obj).objs other).isSome = (s.objs other).isSome := Option.isSome_map

theorem isSome_objs_addObjToDir (directory obj other : Nat) :
    ((s.addObjToDir directory obj).objs other).isSome = (s.objs other).isSome :=
  Option.isSome_map.trans Option.isSome_map

theorem isDir_addObjToDir (directory obj dir : Nat) :
    (s.addObjToDir directory obj).isDir dir = s.isDir dir :=
  (isDir_listAdd directory obj dir).trans (isDir_removeObjFromDir obj dir)

theorem Books.addObjToDir (books : Books s) {obj directory : Nat}
    (spared : ∀ index ∈ s.searchContexts, ∀ label ∈ s.stayed index,
      label ≠ s.label obj ∨ obj ∉ s.rest index)
    (allocated : (s.objs obj).isSome = true) (is_dir : s.isDir directory = true) :
    Books (s.addObjToDir directory obj) := by
  refine (books.removeObjFromDir spared).listAdd ?_ ?_ ?_
  · rw [parentOf_removeObjFromDir, if_pos rfl]
  · rwa [isSome_objs_removeObjFromDir]
  · rwa [isDir_removeObjFromDir]

/-- What the streams have still to return once an object has been put into a directory. -/
theorem Books.rest_addObjToDir (books : Books s) {obj directory : Nat}
    (spared : ∀ index ∈ s.searchContexts, ∀ label ∈ s.stayed index,
      label ≠ s.label obj ∨ obj ∉ s.rest index)
    (is_dir : s.isDir directory = true) {index : Nat} (member : index ∈ s.searchContexts) :
    (s.addObjToDir directory obj).rest index = (s.rest index).erase obj := by
  have removed := books.removeObjFromDir spared
  rw [DirState.addObjToDir, @Books.rest_listAdd _ removed index member _ _ ?_ ?_,
    books.rest_removeObjFromDir member]
  · rw [parentOf_removeObjFromDir, if_pos rfl]
  · rwa [isDir_removeObjFromDir]

/-- The books do not mind what the objects are called, nor objects that are alone. -/
theorem Books.of_objs (books : Books s) {objs : Nat → Option DirObj}
    (kids_eq : ∀ dir, { s with objs }.kids dir = s.kids dir)
    (parent_eq : ∀ obj, { s with objs }.parentOf obj = s.parentOf obj)
    (dirs : ∀ dir, s.isDir dir = true →
      s.kids dir ≠ [] ∨ (dir = s.rootDir ∨ dir = s.lostNFound ∨ dir = s.unlinkedDir) ∨
        (∃ index ∈ s.searchContexts, (s.dscs index).dirObj = some dir) →
      { s with objs }.isDir dir = true) : Books { s with objs } where
  nodup dir := kids_eq dir ▸ books.nodup dir
  parented dir obj := by
    rw [kids_eq, parent_eq]
    exact books.parented dir obj
  isDir obj dir parent := by
    rw [parent_eq] at parent
    have member := (books.parented dir obj).2 parent
    exact dirs dir (books.isDir obj dir parent) (.inl (List.ne_nil_of_mem member))
  fixed := by
    obtain ⟨root, lost, unlinked⟩ := books.fixed
    exact ⟨dirs _ root (.inr (.inl (.inl rfl))), dirs _ lost (.inr (.inl (.inr (.inl rfl)))),
      dirs _ unlinked (.inr (.inl (.inr (.inr rfl))))⟩
  labels := books.labels
  contexts := books.contexts
  opened := books.opened
  place index member := by
    obtain ⟨dir, dir_eq, is_dir, there⟩ := books.place index member
    refine ⟨dir, dir_eq, dirs dir is_dir (.inr (.inr ⟨index, member, dir_eq⟩)), ?_⟩
    rw [kids_eq]
    exact there
  once index member label stays := by
    obtain ⟨dir, dir_eq, -, -⟩ := books.place index member
    have once := books.once index member label stays
    rw [rest_eq dir_eq] at once
    rw [rest_eq (s := { s with objs }) dir_eq, kids_eq]
    exact once
  answered := books.answered

theorem Books.dropEntry (books : Books s) (obj : Nat) : Books (s.dropEntry obj) where
  toHierarchy := ⟨books.nodup, books.parented, books.isDir, books.fixed, books.labels⟩
  contexts := books.contexts
  opened := books.opened
  place := books.place
  once index member label stays := books.once index member label (List.mem_of_mem_filter stays)
  answered := books.answered

theorem ne_of_dropEntry {obj index label : Nat} (stays : label ∈ (s.dropEntry obj).stayed index) :
    label ≠ s.label obj := by
  simpa using (List.mem_filter.1 stays).2

/-- A new name changes nothing about where an object is. -/
theorem setObjName_kept (obj : Nat) (name : List UInt8) (address : Nat) :
    (s.setObjName obj name).kids address = s.kids address ∧
      (s.setObjName obj name).parentOf address = s.parentOf address ∧
      (s.setObjName obj name).isDir address = s.isDir address := by
  cases held : s.objs address with
  | none => simp [DirState.setObjName, kids, parentOf, DirState.isDir, held]
  | some o =>
    refine ⟨?_, ?_, ?_⟩ <;>
      simp only [DirState.setObjName, kids, parentOf, DirState.isDir, held, Option.map_some] <;>
      split <;> rfl

theorem Books.setObjName (books : Books s) (obj : Nat) (name : List UInt8) :
    Books (s.setObjName obj name) :=
  books.of_objs (fun dir => (setObjName_kept obj name dir).1)
    (fun other => (setObjName_kept obj name other).2.1)
    fun dir is_dir _ => (setObjName_kept obj name dir).2.2.trans is_dir

theorem isSome_objs_setObjName (obj : Nat) (name : List UInt8) (other : Nat) :
    ((s.setObjName obj name).objs other).isSome = (s.objs other).isSome := Option.isSome_map

theorem rest_setObjName (obj : Nat) (name : List UInt8) (index : Nat) :
    (s.setObjName obj name).rest index = s.rest index := by
  have kids_eq : (s.setObjName obj name).kids = s.kids :=
    funext fun dir => (setObjName_kept obj name dir).1
  rw [rest, rest, kids_eq]
  rfl

/-! ## Events -/

theorem Books.changeObjName (books : Books s) {obj dir : Nat} {name : List UInt8}
    (allocated : (s.objs obj).isSome = true) (is_dir : s.isDir dir = true)
    (spares : Spares (.changeName obj dir name) s) : Books (s.changeObjName obj dir name) := by
  rw [DirState.changeObjName]
  split
  case isTrue keeps =>
    refine (books.setObjName obj name).addObjToDir (fun index member label stays => .inr ?_) ?_ ?_
    · rw [rest_setObjName]
      exact spares keeps index member
    · rwa [isSome_objs_setObjName]
    · rwa [(setObjName_kept obj name dir).2.2]
  case isFalse =>
    refine ((books.dropEntry obj).setObjName obj name).addObjToDir
      (fun index member label stays => .inl (ne_of_dropEntry (s := s) stays)) ?_ ?_
    · rwa [isSome_objs_setObjName]
    · rwa [(setObjName_kept obj name dir).2.2]

theorem Books.removeEntry (books : Books s) (obj : Nat) :
    Books ((s.dropEntry obj).removeObjFromDir obj) :=
  (books.dropEntry obj).removeObjFromDir fun _ _ _ stays =>
    .inl (ne_of_dropEntry (s := s) stays)

theorem Books.freeObj (books : Books s) {obj : Nat} (freeable : s.freeable obj = true)
    (spares : Spares (.free obj) s) : Books (s.freeObj obj) := by
  simp only [DirState.freeable, Bool.and_eq_true, Option.isNone_iff_eq_none, List.isEmpty_iff,
    decide_eq_true_eq] at freeable
  obtain ⟨⟨loose, empty⟩, not_root, not_lost, not_unlinked⟩ := freeable
  refine books.of_objs (fun dir => ?_) (fun other => ?_) fun dir is_dir used => ?_
  · by_cases same : dir = obj
    · subst same
      rw [empty]
      simp [kids]
    · simp [kids, same]
  · by_cases same : other = obj
    · subst same
      rw [loose]
      simp [parentOf]
    · simp [parentOf, same]
  · have ne : dir ≠ obj := by
      rintro rfl
      rcases used with full | (fixed | fixed | fixed) | ⟨index, member, at_dir⟩
      · exact full empty
      · exact not_root fixed
      · exact not_lost fixed
      · exact not_unlinked fixed
      · exact spares index member at_dir
    refine Eq.trans (congrArg (Option.any DirObj.isDirectory) ?_) is_dir
    exact Function.update_of_ne ne _ _

/-- The label of an object goes to another one, where no stream has still to return either. -/
theorem Books.swapLabels (books : Books s) {obj link : Nat}
    (apart : ∀ index ∈ s.searchContexts, obj ∉ s.rest index ∧ link ∉ s.rest index) :
    Books { s with label := s.label ∘ Equiv.swap obj link } where
  toHierarchy := ⟨books.nodup, books.parented, books.isDir, books.fixed,
    books.labels.comp (Equiv.swap obj link).injective⟩
  contexts := books.contexts
  opened := books.opened
  place := books.place
  once index member label stays := by
    have kept : ∀ other ∈ s.rest index, (s.label ∘ Equiv.swap obj link) other = s.label other :=
      fun other left => congrArg s.label (Equiv.swap_apply_of_ne_of_ne
        (fun same => (apart index member).1 (same ▸ left))
        (fun same => (apart index member).2 (same ▸ left)))
    refine Eq.trans (congrArg _ ?_) (books.once index member label stays)
    exact congrArg _ (List.map_congr_left kept)
  answered := books.answered

theorem Books.takeLink (books : Books s) {obj link dir : Nat} (parent : s.parentOf link = some dir)
    (allocated : (s.objs obj).isSome = true) (spares : Spares (.takeLink obj link) s) :
    Books (s.takeLink obj link dir) := by
  have dropped := books.dropEntry obj
  have link_spared : ∀ index ∈ s.searchContexts, ∀ label ∈ (s.dropEntry obj).stayed index,
      label ≠ s.label link ∨ link ∉ s.rest index :=
    fun index member _ _ => .inr (spares index member)
  have moved := dropped.addObjToDir link_spared (isSome_of_parentOf parent) books.fixed.2.2
  have named := moved.setObjName obj ((s.objs link).elim [] DirObj.name)
  have obj_spared : ∀ index ∈ s.searchContexts, ∀ label ∈ (s.dropEntry obj).stayed index,
      label ≠ s.label obj ∨ obj ∉
        (((s.dropEntry obj).addObjToDir s.unlinkedDir link).setObjName obj
          ((s.objs link).elim [] DirObj.name)).rest index :=
    fun index _ _ stays => .inl (ne_of_dropEntry (s := s) stays)
  have is_dir : (((s.dropEntry obj).addObjToDir s.unlinkedDir link).setObjName obj
      ((s.objs link).elim [] DirObj.name)).isDir dir = true := by
    rw [(setObjName_kept _ _ dir).2.2, isDir_addObjToDir]
    exact books.isDir link dir parent
  have placed := named.addObjToDir obj_spared ?_ is_dir
  · refine placed.swapLabels fun index member => ?_
    rw [named.rest_addObjToDir obj_spared is_dir member, rest_setObjName,
      dropped.rest_addObjToDir link_spared books.fixed.2.2 member]
    have nodup := (dropped.rest_nodup member).erase link
    exact ⟨nodup.not_mem_erase, fun left =>
      spares index member (List.mem_of_mem_erase (List.mem_of_mem_erase left))⟩
  · rw [isSome_objs_setObjName, isSome_objs_addObjToDir]
    exact allocated

theorem parentOf_allocRawObj (address : Nat) (isDirectory : Bool) (ino : Nat)
    (name : List UInt8) : (s.allocRawObj address isDirectory ino name).parentOf address = none := by
  simp [allocRawObj, parentOf]

theorem isDir_allocRawObj {address dir : Nat} (free : (s.objs address).isNone = true)
    (is_dir : s.isDir dir = true) (isDirectory : Bool) (ino : Nat) (name : List UInt8) :
    (s.allocRawObj address isDirectory ino name).isDir dir = true := by
  have ne : dir ≠ address := by
    rintro rfl
    have some := isSome_of_isDir is_dir
    simp [Option.isNone_iff_eq_none.1 free] at some
  refine Eq.trans (congrArg (Option.any DirObj.isDirectory) ?_) is_dir
  exact Function.update_of_ne ne _ _

theorem Books.allocRawObj (books : Books s) {address : Nat} (free : (s.objs address).isNone = true)
    (isDirectory : Bool) (ino : Nat) (name : List UInt8) :
    Books (s.allocRawObj address isDirectory ino name) := by
  have absent : s.objs address = none := Option.isNone_iff_eq_none.1 free
  refine books.of_objs (fun dir => ?_) (fun other => ?_)
    fun dir is_dir _ => isDir_allocRawObj free is_dir isDirectory ino name
  · by_cases same : dir = address
    · subst same
      simp [kids, absent]
    · simp [kids, same]
  · by_cases same : other = address
    · subst same
      simp [parentOf, absent]
    · simp [parentOf, same]

/-- An allocated object goes through the root directory and lost+found to its own directory. -/
theorem Books.enter (books : Books s) {obj dir : Nat} (loose : s.parentOf obj = none)
    (allocated : (s.objs obj).isSome = true) (is_dir : s.isDir dir = true) :
    Books (((s.listAdd s.rootDir obj).addObjToDir s.lostNFound obj).addObjToDir dir obj) := by
  have rooted := books.listAdd loose allocated books.fixed.1
  have behind : ∀ index ∈ s.searchContexts, ∀ label ∈ s.stayed index,
      label ≠ s.label obj ∨ obj ∉ (s.listAdd s.rootDir obj).rest index := by
    refine fun index member _ _ => .inr fun left => ?_
    rw [books.rest_listAdd member loose books.fixed.1] at left
    have parented := books.parentOf_rest member left
    simp [loose] at parented
  have lost := rooted.addObjToDir behind (Option.isSome_map.trans allocated) rooted.fixed.2.1
  refine lost.addObjToDir (fun index member label stays => ?_) ?_ ?_
  · rw [rooted.rest_addObjToDir behind rooted.fixed.2.1 member]
    exact (behind index member label stays).imp_right (mt List.mem_of_mem_erase)
  · exact (isSome_objs_addObjToDir _ _ _).trans (Option.isSome_map.trans allocated)
  · exact (isDir_addObjToDir _ _ _).trans ((isDir_listAdd _ _ _).trans is_dir)

theorem Books.createObj (books : Books s) {address dir : Nat}
    (free : (s.objs address).isNone = true) (is_dir : s.isDir dir = true) (isDirectory : Bool)
    (ino : Nat) (name : List UInt8) :
    Books ((s.allocEmptyObj address isDirectory ino name).addObjToDir dir address) :=
  (books.allocRawObj free isDirectory ino name).enter
    (parentOf_allocRawObj address isDirectory ino name) (by simp [DirState.allocRawObj])
    (isDir_allocRawObj free is_dir isDirectory ino name)

/-! ## Streams -/

theorem setDirRewound_eq {dsc : DirSearchContext} {dir : Nat} (dir_eq : dsc.dirObj = some dir)
    (is_dir : s.isDir dir = true) :
    s.setDirRewound dsc = { dsc with offset := 0, nextReturn := (s.kids dir).head? } := by
  rw [setDirRewound, dir_eq]
  exact if_pos is_dir

theorem dirAdvance_eq {dsc : DirSearchContext} {dir obj : Nat} (dir_eq : dsc.dirObj = some dir)
    (is_dir : s.isDir dir = true) (next : dsc.nextReturn = some obj) :
    s.dirAdvance dsc = { dsc with nextReturn := nextSibling obj (s.kids dir) } := by
  simp [dirAdvance, dir_eq, is_dir, next]

/-- Every label of a directory is there once. -/
theorem Hierarchy.count_labels (tree : Hierarchy s) (dir : Nat) {label : Nat}
    (member : label ∈ (s.kids dir).map s.label) : ((s.kids dir).map s.label).count label = 1 :=
  List.count_eq_one_of_mem ((tree.nodup dir).map tree.labels) member

/-- The books after a change to one search context that is, or comes to be, in use. -/
theorem Books.with_dsc (books : Books s) {index dir : Nat} {dsc : DirSearchContext}
    {contexts returned stayed : List Nat} {answers : List Bool}
    (nodup : contexts.Nodup)
    (contexts_iff : ∀ other, other ∈ contexts ↔ other = index ∨ other ∈ s.searchContexts)
    (inUse : dsc.inUse = true) (dir_eq : dsc.dirObj = some dir) (is_dir : s.isDir dir = true)
    (there : ∀ next, dsc.nextReturn = some next → next ∈ s.kids dir)
    (once : ∀ label ∈ stayed, returned.count label +
      ((remainder dsc.nextReturn (s.kids dir)).map s.label).count label = 1)
    (answered : ∀ answer ∈ answers, answer = true) :
    Books { s with
      dscs := Function.update s.dscs index dsc
      searchContexts := contexts
      returned := Function.update s.returned index returned
      stayed := Function.update s.stayed index stayed
      answers } where
  toHierarchy := ⟨books.nodup, books.parented, books.isDir, books.fixed, books.labels⟩
  contexts := nodup
  opened other := by
    refine (contexts_iff other).trans ?_
    by_cases same : other = index
    · subst same
      simp [inUse]
    · simp [same, books.opened]
  place other member := by
    by_cases same : other = index
    · subst same
      simp only [Function.update_self]
      exact ⟨dir, dir_eq, is_dir, there⟩
    · simp only [Function.update_of_ne same]
      exact books.place other (((contexts_iff other).1 member).resolve_left same)
  once other member label stays := by
    by_cases same : other = index
    · subst same
      simp only [Function.update_self] at stays
      rw [@rest_eq _ _ dir (by simpa using dir_eq)]
      simp only [Function.update_self]
      exact once label stays
    · have member := ((contexts_iff other).1 member).resolve_left same
      obtain ⟨there, there_eq, -, -⟩ := books.place other member
      simp only [Function.update_of_ne same] at stays
      have once := books.once other member label stays
      rw [rest_eq there_eq] at once
      rw [@rest_eq _ _ there (by simpa [same] using there_eq)]
      simp only [Function.update_of_ne same]
      exact once
  answered := answered

theorem Books.opendir (books : Books s) {obj : Nat} (is_dir : s.isDir obj = true) :
    Books (s.opendir obj).2 := by
  rw [DirState.opendir]
  cases found : (List.range nDsc).find? fun index => !(s.dscs index).inUse with
  | none => exact books
  | some index =>
    have unused : (s.dscs index).inUse = false := by simpa using List.find?_some found
    have closed : index ∉ s.searchContexts := fun member => by
      simp [(books.opened index).1 member] at unused
    dsimp only
    rw [setDirRewound_eq rfl is_dir]
    refine books.with_dsc (List.nodup_cons.2 ⟨closed, books.contexts⟩)
      (fun other => List.mem_cons) rfl rfl is_dir
      (fun next next_eq => List.mem_of_mem_head? next_eq) (fun label stays => ?_) books.answered
    rw [remainder_head, books.count_labels obj stays]
    rfl

theorem Books.rewinddir (books : Books s) {index : Nat} (member : index ∈ s.searchContexts) :
    Books (s.rewinddir index) := by
  obtain ⟨dir, dir_eq, is_dir, -⟩ := books.place index member
  have kids_eq : (s.dscs index).dirObj.elim [] s.kids = s.kids dir := by
    rw [dir_eq]
    rfl
  rw [DirState.rewinddir, setDirRewound_eq dir_eq is_dir, kids_eq]
  refine books.with_dsc books.contexts (fun other => ?_) ((books.opened index).1 member) dir_eq
    is_dir (fun next next_eq => List.mem_of_mem_head? next_eq) (fun label stays => ?_)
    books.answered
  · exact ⟨.inr, fun either => either.elim (fun same => same ▸ member) id⟩
  · rw [remainder_head]
    exact (congrArg _ (books.count_labels dir stays)).trans rfl

theorem Books.readdir (books : Books s) (index : Nat) : Books (s.readdir index).2 := by
  rw [DirState.readdir]
  dsimp only
  split
  case isFalse => exact books
  case isTrue inUse =>
    have member := (books.opened index).2 inUse
    obtain ⟨dir, dir_eq, is_dir, there⟩ := books.place index member
    cases next_eq : (s.dscs index).nextReturn with
    | none => exact books
    | some obj =>
      have in_dir := there obj next_eq
      have kids_eq : (s.dscs index).dirObj.elim [] s.kids = s.kids dir := by
        rw [dir_eq]
        rfl
      have left := remainder_some (books.nodup dir) in_dir
      dsimp only
      rw [@dirAdvance_eq s _ dir obj ?_ is_dir ?_, kids_eq]
      rotate_left
      · exact dir_eq
      · rfl
      have advanced := @Books.with_dsc s books index dir
        { s.dscs index with
          offset := signedField20 ((s.dscs index).offset + 1)
          nextReturn := nextSibling obj (s.kids dir) }
        s.searchContexts (s.returned index ++ [s.label obj]) (s.stayed index)
        (s.answers ++ [decide (obj ∈ s.kids dir)]) books.contexts
        (fun other => ⟨.inr, fun either => either.elim (fun same => same ▸ member) id⟩) inUse
        dir_eq is_dir (fun next behind => mem_of_nextSibling behind) (fun label stays => ?_) ?_
      · rwa [Function.update_eq_self] at advanced
      · have once := books.once index member label stays
        rw [rest_eq dir_eq, next_eq, left, List.map_cons, List.count_cons] at once
        dsimp only
        rw [List.count_append, List.count_singleton]
        omega
      · intro answer returned
        rcases List.mem_append.1 returned with old | new
        · exact books.answered answer old
        · rw [List.mem_singleton.1 new]
          exact decide_eq_true in_dir

theorem Books.closedir (books : Books s) (index : Nat) : Books (s.closedir index) where
  toHierarchy := ⟨books.nodup, books.parented, books.isDir, books.fixed, books.labels⟩
  contexts := books.contexts.erase index
  opened other := by
    refine books.contexts.mem_erase_iff.trans ?_
    by_cases same : other = index
    · subst same
      simp [DirState.closedir]
    · simp [DirState.closedir, same, books.opened]
  place other member := by
    obtain ⟨ne, member⟩ := books.contexts.mem_erase_iff.1 member
    obtain ⟨dir, place⟩ := books.place other member
    have same : (s.closedir index).dscs other = s.dscs other := Function.update_of_ne ne _ _
    rw [same]
    exact ⟨dir, place⟩
  once other member label stays := by
    obtain ⟨ne, member⟩ := books.contexts.mem_erase_iff.1 member
    have same : (s.closedir index).dscs other = s.dscs other := Function.update_of_ne ne _ _
    rw [rest, same]
    exact books.once other member label stays
  answered := books.answered

/-! ## Runs -/

theorem Books.after (books : Books s) (event : DirEvent) (spares : Spares event s) :
    Books (after event s) := by
  cases event with
  | create address isDirectory ino name dir =>
    rw [DirState.after]
    split
    case isTrue possible =>
      rw [Bool.and_eq_true] at possible
      exact books.createObj possible.1 possible.2 isDirectory ino name
    case isFalse => exact books
  | changeName obj dir name =>
    rw [DirState.after]
    split
    case isTrue possible =>
      rw [Bool.and_eq_true] at possible
      exact books.changeObjName possible.1 possible.2 spares
    case isFalse => exact books
  | remove obj => exact books.removeEntry obj
  | free obj =>
    rw [DirState.after]
    split
    case isTrue freeable => exact books.freeObj freeable spares
    case isFalse => exact books
  | takeLink obj link =>
    rw [DirState.after]
    cases parent : s.parentOf link with
    | none => exact books
    | some dir =>
      dsimp only
      split
      case isTrue possible =>
        rw [Bool.and_eq_true] at possible
        exact books.takeLink parent possible.1 spares
      case isFalse => exact books
  | opendir obj =>
    rw [DirState.after]
    split
    case isTrue is_dir => exact books.opendir is_dir
    case isFalse => exact books
  | readdir index => exact books.readdir index
  | rewinddir index =>
    rw [DirState.after]
    split
    case isTrue member => exact books.rewinddir member
    case isFalse => exact books
  | closedir index =>
    rw [DirState.after]
    split
    case isTrue => exact books.closedir index
    case isFalse => exact books

end DirState

open DirState in
/-- In a run that takes no directory from a stream and moves no entry that stays, the streams are
sound. -/
theorem streams_sound {start : DirState} (none_open : NoStreams start) {events : List DirEvent}
    (spared : Execution.Guarded after Spares events start) :
    StreamsSound (Execution.run after events start) := by
  have step : ∀ event s, Spares event s → DirState.Books s → DirState.Books (after event s) :=
    fun event _ spares books => books.after event spares
  exact (Execution.run_invariant step spared none_open.books).sound

namespace DirState

/-- The characters of "lost+found". -/
def lostName : List UInt8 := [108, 111, 115, 116, 43, 102, 111, 117, 110, 100]

/-- A device that has just been mounted, with the directories for unlinked and for deleted objects
at the addresses two and three. -/
def justMounted : DirState where
  objs
    | 0 => some { isDirectory := true, ino := 1, name := [47], children := [1] }
    | 1 => some { isDirectory := true, ino := 2, name := lostName, parent := some 0 }
    | 2 => some { isDirectory := true, ino := 3, name := [] }
    | 3 => some { isDirectory := true, ino := 4, name := [] }
    | _ => none
  rootDir := 0
  lostNFound := 1
  unlinkedDir := 2

theorem kids_justMounted : ∀ dir, justMounted.kids dir = if dir = 0 then [1] else []
  | 0 | 1 | 2 | 3 => rfl
  | _ + 4 => rfl

theorem parentOf_justMounted : ∀ obj, justMounted.parentOf obj = if obj = 1 then some 0 else none
  | 0 | 1 | 2 | 3 => rfl
  | _ + 4 => rfl

theorem noStreams_justMounted : NoStreams justMounted where
  nodup dir := by
    rw [kids_justMounted]
    split <;> simp
  parented dir obj := by
    rw [kids_justMounted, parentOf_justMounted]
    by_cases root : dir = 0 <;> by_cases lost : obj = 1 <;> simp [root, lost, eq_comm]
  isDir obj dir parent := by
    rw [parentOf_justMounted] at parent
    split at parent
    · exact Option.some.inj parent ▸ rfl
    · cases parent
  fixed := ⟨rfl, rfl, rfl⟩
  labels := Function.injective_id
  idle := ⟨rfl, fun _ => rfl, rfl⟩

/-- A directory is listed while a file in it is renamed and another one is created. -/
def listing : List DirEvent :=
  [.create 5 false 300 [97] 0, .opendir 0, .readdir 0, .changeName 5 0 [98],
    .create 6 false 301 [99] 0, .readdir 0, .readdir 0]

theorem streams_sound_listing : StreamsSound (Execution.run after listing justMounted) :=
  streams_sound noStreams_justMounted
    ⟨trivial, trivial, trivial, fun keeps => absurd keeps (by decide), trivial, trivial, trivial,
      trivial⟩

/-- A directory is removed while a stream is open on it. -/
def removedDirectory : List DirEvent :=
  [.create 5 true 300 [100] 0, .opendir 5, .changeName 5 3 [100], .remove 5, .free 5]

theorem not_streams_sound :
    ¬∀ start events, NoStreams start → StreamsSound (Execution.run after events start) := by
  intro all
  have sound := all justMounted removedDirectory noStreams_justMounted
  exact absurd (sound.allocated 0 (by decide) 5 (.inl (by decide))) (by decide)

end DirState

end Yaffs
