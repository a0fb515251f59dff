import Yaffs.Outcomes
import Yaffs.DeletionRecords

/-!
# Renames that fail

A rename changes the name and the directory of an object in memory before the header is written that
says so, and what is in the way is unlinked before that.  Here it is laid down from outside which headers
with a new name cannot be written, and the names in the headers that have been written are kept, as well
as how often data was taken from an object.
-/

namespace Yaffs

/-- The pages with the names in the newest headers. -/
structure Labels (Store : Type) where
  pages : Store
  /-- The name in the header of an object, if there is a header. -/
  header : Nat → Option (List Char) := fun _ => none
  /-- How often an object was to get a header with a new name. -/
  attempts : Nat → Nat := fun _ => 0
  /-- How often data was taken from an object. -/
  taken : Nat → Nat := fun _ => 0

namespace Labels

variable {Store : Type} {fails : Nat → Nat → Bool} {number watched : Nat}

/-- The name in a new header.  Without a new name the old one is written again. -/
def label (old name : Option (List Char)) : List Char :=
  match name with
  | some (ch :: chs) => (ch :: chs).take maxNameLength
  | _ => old.getD []

/-- Write a header.  With a new name the writing fails as laid down, without it fails as it may. -/
def write (fails : Nat → Nat → Bool) (labels : Labels Store) (written : Bool × Store) (number : Nat)
    (name : Option (List Char)) : Bool × Labels Store :=
  let tried := { labels with
    pages := written.2
    attempts := if name.isSome then
      Function.update labels.attempts number (labels.attempts number + 1) else labels.attempts }
  if name.isSome ∧ fails number (labels.attempts number) ∨ name = none ∧ ¬written.1 then
    (false, tried)
  else
    (true, { tried with
      header := Function.update labels.header number (some (label (labels.header number) name)) })

/-- Take data from an object. -/
def take (labels : Labels Store) (pages : Store) (number : Nat) : Labels Store :=
  { labels with pages, taken := Function.update labels.taken number (labels.taken number + 1) }

/-- The name in the header of an object and its data are the same, and no header with a new name was
asked for. -/
structure Same (number : Nat) (first second : Labels Store) : Prop where
  name : (second.header number).getD [] = (first.header number).getD []
  header : (first.header number).isSome = true → (second.header number).isSome = true
  attempts : second.attempts number = first.attempts number
  taken : second.taken number = first.taken number

theorem Same.refl (labels : Labels Store) : Same number labels labels := ⟨rfl, id, rfl, rfl⟩

theorem Same.trans {first second third : Labels Store} (before : Same number first second)
    (later : Same number second third) : Same number first third :=
  ⟨later.name.trans before.name, fun header => later.header (before.header header),
    later.attempts.trans before.attempts, later.taken.trans before.taken⟩

theorem take_other (labels : Labels Store) (pages : Store) (ne : number ≠ watched) :
    Same watched labels (labels.take pages number) :=
  ⟨rfl, id, rfl, Function.update_of_ne ne.symm _ _⟩

theorem write_other (fails : Nat → Nat → Bool) (labels : Labels Store) (written : Bool × Store)
    (name : Option (List Char)) (ne : number ≠ watched) :
    Same watched labels (labels.write fails written number name).2 := by
  have attempts : (if name.isSome then Function.update labels.attempts number
      (labels.attempts number + 1) else labels.attempts) watched = labels.attempts watched := by
    split
    · exact Function.update_of_ne ne.symm _ _
    · rfl
  simp only [write]
  split
  · exact ⟨rfl, id, attempts, rfl⟩
  · refine ⟨?_, ?_, attempts, rfl⟩
    · simp only [Function.update_of_ne ne.symm]
    · simp only [Function.update_of_ne ne.symm]
      exact id

/-- A header without a new name has the old one. -/
theorem write_unnamed (fails : Nat → Nat → Bool) (labels : Labels Store) (written : Bool × Store)
    (number : Nat) : Same number labels (labels.write fails written number none).2 := by
  simp only [write, Option.isSome_none, Bool.false_eq_true, false_and, true_and, false_or, if_false]
  split
  · exact ⟨rfl, id, rfl, rfl⟩
  · exact ⟨by simp [label], by simp, rfl, rfl⟩

/-- What comes of a header with a new name. -/
theorem write_named (fails : Nat → Nat → Bool) (labels : Labels Store) (written : Bool × Store)
    (number : Nat) {name : List Char} (some_name : name ≠ []) :
    let outcome := labels.write fails written number (some name)
    outcome.1 = !fails number (labels.attempts number) ∧
      outcome.2.attempts number = labels.attempts number + 1 ∧
      outcome.2.taken = labels.taken ∧
      outcome.2.header number = if fails number (labels.attempts number) then labels.header number
        else some (name.take maxNameLength) := by
  obtain ⟨ch, chs, rfl⟩ := List.exists_cons_of_ne_nil some_name
  cases failed : fails number (labels.attempts number) with
  | true => simp [write, failed]
  | false => simp [write, failed, label]

end Labels

/-- Pages that keep the names in the headers. -/
def Pages.labelled {Store : Type} (P : Pages Store) (fails : Nat → Nat → Bool) :
    Pages (Labels Store) where
  kmalloc labels := ((P.kmalloc labels.pages).1, { labels with pages := (P.kmalloc labels.pages).2 })
  getTnode labels number :=
    let made := P.getTnode labels.pages number
    (made.1, { labels with pages := made.2 })
  freeTnodes labels number := labels.take (P.freeTnodes labels.pages number) number
  checkGc labels := ((P.checkGc labels.pages).1, { labels with pages := (P.checkGc labels.pages).2 })
  writeHeader labels number obj name isShrink shadows :=
    labels.write fails (P.writeHeader labels.pages number obj name isShrink shadows) number name
  hdrChunk labels number := if (labels.header number).isSome then 1 else 0
  headerName labels number := (labels.header number).getD []
  dropHeader labels number := { labels with
    pages := P.dropHeader labels.pages number
    header := Function.update labels.header number none }
  objCacheDirty labels := P.objCacheDirty labels.pages
  flushFileCache labels number discard :=
    let flushed := P.flushFileCache labels.pages number discard
    (flushed.1, { labels with pages := flushed.2 })
  invalidateWholeCache labels number :=
    labels.take (P.invalidateWholeCache labels.pages number) number
  fileSize labels := P.fileSize labels.pages
  nDataChunks labels := P.nDataChunks labels.pages
  resizeData labels number newSize :=
    let resized := P.resizeData labels.pages number newSize
    (resized.1, labels.take resized.2 number)
  softDelWorker labels number := labels.take (P.softDelWorker labels.pages number) number

namespace Volume

open Labels

variable {Store : Type} {P : Pages Store} {fails : Nat → Nat → Bool}
  {vol after : Volume (Labels Store)} {number watched newDir : Nat} {obj : Node}
  {newName : List Char}

/-- What is done to other objects leaves the name and the data of an object alone. -/
theorem minds_labels (P : Pages Store) (fails : Nat → Nat → Bool) (watched : Nat) :
    Minds (P.labelled fails) watched False (Labels.Same watched) where
  refl := Labels.Same.refl
  trans := Labels.Same.trans
  freeTnodes labels _ ne := take_other labels _ (ne.resolve_right id)
  checkGc labels := ⟨rfl, id, rfl, rfl⟩
  writeHeader labels _ _ name _ _ ne := write_other fails labels _ name ne
  dropHeader labels _ ne := by
    have other := (ne.resolve_right id).symm
    refine ⟨?_, ?_, rfl, rfl⟩
    · simp only [Pages.labelled, Function.update_of_ne other]
    · simp only [Pages.labelled, Function.update_of_ne other]
      exact id
  flushFileCache labels _ _ := ⟨rfl, id, rfl, rfl⟩
  invalidateWholeCache labels _ ne := take_other labels _ (ne.resolve_right id)
  resizeData labels _ _ ne := take_other labels _ (ne.resolve_right id)
  softDelWorker labels _ ne := take_other labels _ (ne.resolve_right id)

end Volume

end Yaffs
