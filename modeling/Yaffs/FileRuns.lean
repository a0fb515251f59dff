import Yaffs.FileMarks
import Yaffs.FileTreeRuns

/-!
# Runs of file calls

Files are created, read, written, resized and flushed, and garbage is collected, with whatever the
layers below have in store.  As long as files that are to be created are, pages keep their owners,
and unwritten data is marked, whatever fails.
-/

namespace Yaffs

namespace Files

variable {fs fs' : Files} {number : Nat}

/-! ## New files -/

/-- An object has come to the files, without pages and not cached. -/
structure Adopted (fs fs' : Files) (number : Nat) (obj : FileObj) : Prop where
  param : fs'.param = fs.param
  cache : fs'.cache = fs.cache
  pages : fs'.pages = fs.pages
  programs : fs'.programs = fs.programs
  allocAvailable : fs'.allocAvailable = fs.allocAvailable
  memory : fs.memory.Plenty → fs'.memory.Plenty
  objs : fs'.objs = Function.update fs.objs number (some obj)
  fileSize : obj.fileSize = 0
  hdrChunk : obj.hdrChunk = 0
  live : obj.Live
  blank : ∀ inodeChunk, obj.tree.entry inodeChunk = 0

variable {obj : FileObj}

theorem Adopted.spends (adopted : Adopted fs fs' number obj) : Spends fs fs' :=
  .of_pages (adopted.programs ▸ List.suffix_refl _) adopted.memory adopted.allocAvailable
    fun _ _ free _ => adopted.pages ▸ free

theorem Adopted.proper (adopted : Adopted fs fs' number obj) (proper : fs.Proper)
    (fresh : fs.objs number = none) : fs'.Proper := by
  have owned := proper.owned
  have entries (n k : Nat) : fs'.entry n k = fs.entry n k := by
    rw [entry_update adopted.objs]
    split
    case isTrue here => rw [adopted.blank, here, entry, fresh]
    case isFalse => rfl
  have holds (n k c : Nat) : fs'.Holds n k c ↔ fs.Holds n k c := by
    rw [Holds, Holds, adopted.pages]
  have objs {n : Nat} {o : FileObj} (found : fs'.objs n = some o) :
      n = number ∧ o = obj ∨ fs.objs n = some o := by
    rw [adopted.objs, Function.update_apply] at found
    split at found
    case isTrue here => exact Or.inl ⟨here, (Option.some.inj found).symm⟩
    case isFalse => exact Or.inr found
  refine ⟨⟨adopted.param ▸ owned.fit, fun c given => ?_, fun {c page} there => ?_,
    fun {n k c} data held => ?_, fun {n k c c'} data held held' => ?_, fun {n k} stored => ?_,
    fun {n c} => ?_, fun {n o} found => ?_⟩, fun i i_lt held => ?_⟩
  · rw [adopted.param]
    exact owned.programs c (adopted.programs ▸ given)
  · rw [adopted.param]
    exact owned.inside (adopted.pages ▸ there)
  · rw [entries, adopted.param]
    exact owned.entry_of_page data ((holds _ _ _).mp held)
  · exact owned.unique data ((holds _ _ _).mp held) ((holds _ _ _).mp held')
  · rw [entries] at stored
    simp only [holds]
    exact owned.page_of_entry stored
  · rw [holds, owned.header, adopted.objs, Function.update_apply]
    split
    case isTrue here =>
      rw [here, fresh]
      refine iff_of_false (by simp) ?_
      rintro ⟨o, same, hdr, nonzero⟩
      obtain rfl := Option.some.inj same
      exact nonzero (hdr.symm.trans adopted.hdrChunk)
    case isFalse => exact Iff.rfl
  · rcases objs found with ⟨-, rfl⟩ | before
    · exact adopted.live
    · exact owned.live before
  · rw [adopted.param] at i_lt
    rw [adopted.cache] at held ⊢
    exact proper.slots i i_lt held

/-- The files with a new one in a directory. -/
def adoptFile (fs : Files) (number parent tnode : Nat) : Files :=
  ({ fs with
      memory := fs.memory.getTnode.2
      objMemory := fs.objMemory.tail
      objs := Function.update fs.objs number
        (some { tree := { topLevel := 0, top := .blank 0 (some tnode) } })
      numbers := insert number fs.numbers } : Files).modifyObj number fun obj =>
    { obj with parent := some parent, dirty := true }

theorem adoptFile_adopted (fs : Files) (number parent tnode : Nat) :
    Adopted fs (fs.adoptFile number parent tnode) number
      { tree := { topLevel := 0, top := .leaf tnode fun _ => 0 }
        parent := some parent
        dirty := true } := by
  have blank (k : Nat) :
      FileTree.entry { topLevel := 0, top := .leaf tnode fun _ => 0 } k = 0 := by
    rw [FileTree.entry_eq (Nat.zero_le _)]
    split <;> rfl
  refine ⟨rfl, rfl, rfl, rfl, rfl, fun plenty => plenty.getTnode.2, ?_, rfl, rfl,
    ⟨⟨Nat.zero_le _, trivial⟩, rfl, ?_⟩, blank⟩
  · simp only [adoptFile, modifyObj, Function.update_self, Function.update_idem, Option.map_some]
    rfl
  · have nothing : FileTree.chunks { topLevel := 0, top := .leaf tnode fun _ => 0 } = ∅ :=
      Set.eq_empty_of_forall_notMem fun k stored => stored (blank k)
    rw [nothing, Set.ncard_empty]
    rfl

/-- A file that is created has been adopted before its header is written. -/
theorem createFile_made {parent : Nat} (made : (fs.createFile number parent).1 = true) :
    ∃ tnode, (fs.createFile number parent).2 =
      ((fs.adoptFile number parent tnode).updateOh number).2 := by
  simp only [createFile, newObj] at made ⊢
  cases got : fs.memory.getTnode.1 with
  | none => simp [got] at made
  | some tnode =>
    refine ⟨tnode, ?_⟩
    simp only [got] at made ⊢
    by_cases room : fs.objMemory.headD true = true
    · rw [if_pos room] at made ⊢
      rw [if_neg (not_not.mpr rfl)] at made ⊢
      change (if ((fs.adoptFile number parent tnode).updateOh number).1 < 0 then
          (false, ((fs.adoptFile number parent tnode).updateOh number).2.delFile number)
        else (true, ((fs.adoptFile number parent tnode).updateOh number).2) : Bool × Files).1 =
          true at made
      change (if ((fs.adoptFile number parent tnode).updateOh number).1 < 0 then
          (false, ((fs.adoptFile number parent tnode).updateOh number).2.delFile number)
        else (true, ((fs.adoptFile number parent tnode).updateOh number).2) : Bool × Files).2 = _
      split at made
      case isTrue => cases made
      case isFalse written => rw [if_neg written]
    · rw [if_neg room] at made
      cases made

end Files

/-! ## Runs -/

/-- What the layers below have in store for a call. -/
structure Supply where
  programs : List (Option Nat) := []
  collections : List (List Collected) := []
  allocAvailable : List Bool := []
  kmallocs : List Bool := []
  objMemory : List Bool := []

/-- A call that works with a file. -/
inductive FileCall
  | create (number parent : Nat)
  | read (number offset n : Nat)
  | write (number offset : Nat) (buffer : List UInt8) (writeThrough : Bool)
  | resize (number newSize : Nat)
  | flush (number : Nat) (dataSync discardCache : Bool)
  | updateHeader (number : Nat)
  | collect

/-- A call, with what there is in store for it. -/
structure FileStep where
  call : FileCall
  supply : Supply

namespace Files

/-- The files with something else in store. -/
def restock (fs : Files) (supply : Supply) : Files :=
  { fs with
    programs := supply.programs
    collections := supply.collections
    allocAvailable := supply.allocAvailable
    memory := { fs.memory with kmallocs := supply.kmallocs }
    objMemory := supply.objMemory }

/-- Is there an object with the number? -/
def HasFile (fs : Files) (number : Nat) : Bool := (fs.objs number).isSome

end Files

namespace FileCall

open Files

/-- Carry out a call.  Only files that do not exist are created, and the other calls are for files
that do. -/
def exec : FileCall → Files → Files
  | create number parent, fs =>
    if fs.HasFile number then fs else (fs.createFile number parent).2
  | read number offset n, fs => if fs.HasFile number then (fileRd number n offset n fs).2 else fs
  | write number offset buffer writeThrough, fs =>
    if fs.HasFile number then (fs.wrFile number offset buffer writeThrough).2 else fs
  | resize number newSize, fs =>
    if fs.HasFile number then fs.resizeFile number newSize else fs
  | flush number dataSync discardCache, fs =>
    if fs.HasFile number then (fs.flushFile number dataSync discardCache).2 else fs
  | updateHeader number, fs => if fs.HasFile number then (fs.updateOh number).2 else fs
  | collect, fs => fs.checkGc

/-- A file that is created gets its tnode, its object and its header. -/
def Creates : FileCall → Files → Prop
  | create number parent, fs => fs.HasFile number = false → (fs.createFile number parent).1 = true
  | _, _ => True

end FileCall

namespace FileStep

open Files

def exec (step : FileStep) (fs : Files) : Files := step.call.exec (fs.restock step.supply)

/-- What is written goes to pages of the device, and files that are to be created are.  Anything
else may fail. -/
structure Sound (step : FileStep) (fs : Files) : Prop where
  pages : ∀ chunk, some chunk ∈ step.supply.programs → fs.param.HasPage chunk
  creates : step.call.Creates (fs.restock step.supply)

instance (call : FileCall) (fs : Files) : Decidable (call.Creates fs) :=
  match call with
  | .create number parent => inferInstanceAs (Decidable
      (fs.HasFile number = false → (fs.createFile number parent).1 = true))
  | .read .. | .write .. | .resize .. | .flush .. | .updateHeader _ | .collect => .isTrue trivial

instance (param : FileParam) (chunk : Nat) : Decidable (param.HasPage chunk) :=
  inferInstanceAs (Decidable (param.firstChunk ≤ chunk ∧ chunk < param.endChunk))

instance (step : FileStep) (fs : Files) : Decidable (step.Sound fs) :=
  decidable_of_iff ((∀ given ∈ step.supply.programs, ∀ chunk ∈ given, fs.param.HasPage chunk) ∧
      step.call.Creates (fs.restock step.supply))
    ⟨fun sound => ⟨fun chunk inside => sound.1 _ inside chunk rfl, sound.2⟩,
      fun sound => ⟨fun _ inside chunk same => sound.pages chunk (same ▸ inside), sound.creates⟩⟩

instance (fs : Files) : Decidable fs.Supplied :=
  decidable_of_iff ((∀ given ∈ fs.programs, given.any (fun chunk => (fs.pages chunk).isNone)) ∧
      fs.programs.Nodup ∧ (∀ answer ∈ fs.memory.kmallocs, answer = true) ∧
      ∀ answer ∈ fs.allocAvailable, answer = true)
    ⟨fun ⟨pages, apart, memory, room⟩ => ⟨fun given inside => by
        obtain ⟨chunk, same, free⟩ := (Option.any_eq_true ..).mp (pages given inside)
        exact ⟨chunk, same, Option.isNone_iff_eq_none.mp free⟩, apart, memory, room⟩,
      fun supplied => ⟨fun given inside => by
        obtain ⟨chunk, same, free⟩ := supplied.pages given inside
        exact (Option.any_eq_true ..).mpr ⟨chunk, same, Option.isNone_iff_eq_none.mpr free⟩,
        supplied.apart, supplied.memory, supplied.room⟩⟩

end FileStep

namespace Files

/-- A device without files. -/
structure Blank (fs : Files) : Prop where
  objs : ∀ number, fs.objs number = none
  pages : ∀ chunk, fs.pages chunk = none
  cache : ∀ i, (fs.cache i).object = none
  programs : fs.programs = []

variable {fs : Files} {limit : Nat}

theorem Blank.proper (blank : fs.Blank) (fit : fs.param.EntriesFit) : fs.Proper := by
  have free {n k c : Nat} : ¬fs.Holds n k c := by
    rintro ⟨page, there, _⟩
    rw [blank.pages] at there
    cases there
  have zero (n k : Nat) : fs.entry n k = 0 := by rw [entry, blank.objs]
  have gone {n : Nat} {obj : FileObj} : fs.objs n ≠ some obj := by
    rw [blank.objs]
    exact (Option.some_ne_none obj).symm
  have header {n c : Nat} :
      ¬∃ obj, fs.objs n = some obj ∧ obj.hdrChunk = c ∧ c ≠ 0 := by
    rintro ⟨obj, found, _⟩
    exact gone found
  refine ⟨⟨fit, fun c given => ?_, fun {c page} there => ?_, fun _ holds => absurd holds free,
    fun _ holds => absurd holds free, fun {n k} stored => absurd (zero n k) stored,
    iff_of_false free header, fun found => absurd found gone⟩, fun i _ held => ?_⟩
  · rw [blank.programs] at given
    cases given
  · rw [blank.pages] at there
    cases there
  · rw [blank.cache] at held
    cases held

theorem Proper.restock (proper : fs.Proper) {supply : Supply}
    (pages : ∀ chunk, some chunk ∈ supply.programs → fs.param.HasPage chunk) :
    (fs.restock supply).Proper :=
  ⟨{ proper.owned with programs := pages }, proper.slots⟩

/-- Pages have their owners, and files with unwritten data are marked. -/
structure Tended (fs : Files) : Prop extends fs.Proper where
  marked : ∀ number, fs.MarkedAt number

theorem Blank.tended (blank : fs.Blank) (fit : fs.param.EntriesFit) : fs.Tended := by
  refine ⟨blank.proper fit, fun number ⟨i, _, object, _⟩ => ?_⟩
  rw [blank.cache] at object
  cases object

theorem Tended.restock (tended : fs.Tended) {supply : Supply}
    (pages : ∀ chunk, some chunk ∈ supply.programs → fs.param.HasPage chunk) :
    (fs.restock supply).Tended :=
  ⟨tended.toProper.restock pages, tended.marked⟩

theorem Tended.of_marks (tended : fs.Tended) (marks : Marks ∅ fs fs') : fs'.Tended :=
  ⟨marks.proper tended.toProper, fun number =>
    marks.marks tended.toProper number (Set.notMem_empty number) (tended.marked number)⟩

/-- A new file is marked. -/
theorem createFile_tended {number parent : Nat} (tended : fs.Tended)
    (fresh : fs.objs number = none) (made : (fs.createFile number parent).1 = true) :
    (fs.createFile number parent).2.Tended ∧ (fs.createFile number parent).2.param = fs.param := by
  obtain ⟨tnode, created⟩ := createFile_made made
  have adopted := adoptFile_adopted fs number parent tnode
  have adopted_tended : (fs.adoptFile number parent tnode).Tended := by
    refine ⟨adopted.proper tended.toProper fresh, fun n unwritten => ?_⟩
    simp only [Unwritten, adopted.param, adopted.cache] at unwritten
    rw [adopted.objs]
    by_cases here : n = number
    · rw [here, Function.update_self, Option.any_some]
    · rw [Function.update_of_ne here]
      exact tended.marked n unwritten
  have marks := @updateOh_marks ∅ (fs.adoptFile number parent tnode) number
  rw [created]
  exact ⟨adopted_tended.of_marks marks,
    (marks.param adopted_tended.toProper).trans adopted.param⟩

end Files

namespace FileStep

open Files

variable {fs : Files} {limit : Nat}

/-- Pages keep their owners and files their marks in every step. -/
theorem exec_tended (step : FileStep) (sound : step.Sound fs) (tended : fs.Tended) :
    (step.exec fs).Tended ∧ (step.exec fs).param = fs.param := by
  obtain ⟨call, supply⟩ := step
  have stocked := tended.restock sound.pages
  have creates := sound.creates
  simp only [exec] at creates ⊢
  have param : (fs.restock supply).param = fs.param := rfl
  rw [← param]
  generalize fs.restock supply = start at stocked creates ⊢
  have of_marks {last : Files} (marks : Marks ∅ start last) :
      last.Tended ∧ last.param = start.param :=
    ⟨stocked.of_marks marks, marks.param stocked.toProper⟩
  have only_if {last : Files} {number : Nat}
      (marks : (start.objs number).isSome → Marks ∅ start last) :
      Marks ∅ start (if start.HasFile number then last else start) := by
    split
    case isTrue there => exact marks there
    case isFalse => exact Marks.refl ∅ start
  cases call with
  | create number parent =>
    simp only [FileCall.exec]
    split
    case isTrue => exact ⟨stocked, rfl⟩
    case isFalse fresh =>
      have fresh' := Bool.eq_false_of_not_eq_true fresh
      refine createFile_tended stocked ?_ (creates fresh')
      rw [← Option.isNone_iff_eq_none, ← Option.not_isSome, Bool.not_eq_true']
      exact fresh'
  | read number offset n => exact of_marks (only_if fun _ => fileRd_marks number n offset n start)
  | write number offset buffer writeThrough =>
    exact of_marks (only_if fun there => wrFile_marks there offset buffer writeThrough)
  | resize number newSize => exact of_marks (only_if fun there => resizeFile_marks there newSize)
  | flush number dataSync discardCache =>
    exact of_marks (only_if fun _ => flushFile_marks start number dataSync discardCache)
  | updateHeader number => exact of_marks (only_if fun _ => updateOh_marks start number)
  | collect => exact of_marks (checkGc_marks start)

theorem run_tended (blank : fs.Blank) (fit : fs.param.EntriesFit) {steps : List FileStep}
    (guarded : Execution.Guarded exec Sound steps fs) : (Execution.run exec steps fs).Tended := by
  have keeps (step : FileStep) (state : Files) (sound : step.Sound state) (tended : state.Tended) :
      (step.exec state).Tended := (exec_tended step sound tended).1
  exact Execution.run_invariant keeps guarded (blank.tended fit)

/-- What is still to be written of a file is so no longer after a flush. -/
theorem flushed_of_run (blank : fs.Blank) (fit : fs.param.EntriesFit) {steps : List FileStep}
    {number : Nat} {dataSync discardCache : Bool} {supply : Supply}
    (guarded : Execution.Guarded exec Sound
      (steps ++ [⟨.flush number dataSync discardCache, supply⟩]) fs) :
    ¬∃ i, (Execution.run exec
      (steps ++ [⟨.flush number dataSync discardCache, supply⟩]) fs).Unwritten i number := by
  obtain ⟨before, sound⟩ := Execution.guarded_at guarded
  have tended := run_tended blank fit before
  rw [Execution.run_append, Execution.run_cons, Execution.run_nil]
  generalize Execution.run exec steps fs = last at tended sound ⊢
  have stocked := tended.restock sound.pages
  rintro ⟨i, unwritten⟩
  simp only [exec, FileCall.exec] at unwritten
  split at unwritten
  case isTrue =>
    exact flushFile_written stocked.toProper (stocked.marked number) dataSync discardCache i unwritten
  case isFalse missing =>
    obtain ⟨obj, found, -⟩ := (Option.any_eq_true ..).mp (stocked.marked number ⟨i, unwritten⟩)
    exact missing (Option.isSome_iff_exists.mpr ⟨obj, found⟩)

/-! ## A small device -/

/-- A device of 60 pages with two entries in the cache and two pages to a tnode entry. -/
def tinyDevice : Files where
  param :=
    { dataBytesPerChunk := 4
      nCaches := 2
      chunkGrpBits := 1
      firstChunk := 4
      endChunk := 64 }

theorem blank_tinyDevice : tinyDevice.Blank := ⟨fun _ => rfl, fun _ => rfl, fun _ => rfl, rfl⟩

theorem fit_tinyDevice : tinyDevice.param.EntriesFit := by
  constructor <;> decide

/-- Some of the pages that are asked for are not to be had. -/
def failingSteps : List FileStep :=
  [⟨.create 256 objectIdRoot, { programs := [some 4] }⟩,
    ⟨.write 256 0 [1, 2, 3, 4, 5] true, { programs := [some 6] }⟩,
    ⟨.write 256 6 [6] false, { programs := [none] }⟩,
    ⟨.flush 256 false true, { programs := [none, some 8], kmallocs := [false] }⟩]

theorem sound_failingSteps : Execution.Guarded exec Sound failingSteps tinyDevice := by
  refine ⟨?_, ?_, ?_, ?_, trivial⟩ <;> decide +kernel

/-! ## Results -/

/-- Whatever fails in a run and in the flush at its end, the flush leaves nothing of its file in the
cache that it would still have to write. -/
theorem flush_leaves_nothing_of_run (blank : fs.Blank) (fit : fs.param.EntriesFit)
    {steps : List FileStep} {number : Nat} {dataSync discardCache : Bool} {supply : Supply}
    (guarded : Execution.Guarded exec Sound
      (steps ++ [⟨.flush number dataSync discardCache, supply⟩]) fs) :
    (Execution.run exec (steps ++ [⟨.flush number dataSync discardCache, supply⟩]) fs).objCacheDirty
      number = false := by
  rw [← Bool.not_eq_true, objCacheDirty_iff]
  exact flushed_of_run blank fit guarded

/-- Neither the data nor the header has been written in the end, and no entry is dirty. -/
theorem flush_leaves_nothing_of_failingSteps :
    (Execution.run exec failingSteps tinyDevice).objCacheDirty 256 = false :=
  @flush_leaves_nothing_of_run tinyDevice blank_tinyDevice fit_tinyDevice
    [⟨.create 256 objectIdRoot, { programs := [some 4] }⟩,
      ⟨.write 256 0 [1, 2, 3, 4, 5] true, { programs := [some 6] }⟩,
      ⟨.write 256 6 [6] false, { programs := [none] }⟩]
    256 false true { programs := [none, some 8], kmallocs := [false] } sound_failingSteps

end FileStep

end Yaffs
