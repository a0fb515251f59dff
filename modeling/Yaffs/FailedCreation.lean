import Yaffs.Steady
import Yaffs.TreeCreate
import Yaffs.TreeRuns

/-!
# Creations that fail

An object is entered into its directory, and into the links of the object it stands for, before its
header is written.  If the header cannot be written the object is deleted again, in the same way as an
object that has been in use.  Here the tnodes are counted, and a file that was created and never written
is known to be empty; all else about the pages is as before.
-/

namespace Yaffs

/-- The pages with a count of tnodes. -/
structure Census (Store : Type) where
  pages : Store
  nTnodes : Int := 0
  /-- Files without data: they were created and nothing has been written to them. -/
  empty : Nat → Bool := fun _ => false

/-- Pages that count tnodes.  How many tnodes come and go with the data of a file is laid down from
outside. -/
def Pages.counted {Store : Type} (P : Pages Store) (grows : Store → Nat → Int) :
    Pages (Census Store) where
  kmalloc census := ((P.kmalloc census.pages).1, { census with pages := (P.kmalloc census.pages).2 })
  getTnode census number :=
    let made := P.getTnode census.pages number
    let census := { census with pages := made.2 }
    if made.1 then
      (true, { census with
        nTnodes := census.nTnodes + 1, empty := Function.update census.empty number true })
    else (false, census)
  freeTnodes census number :=
    { census with pages := P.freeTnodes census.pages number, nTnodes := census.nTnodes - 1 }
  checkGc census := ((P.checkGc census.pages).1, { census with pages := (P.checkGc census.pages).2 })
  writeHeader census number obj name isShrink shadows :=
    let written := P.writeHeader census.pages number obj name isShrink shadows
    (written.1, { census with pages := written.2 })
  hdrChunk census := P.hdrChunk census.pages
  headerName census := P.headerName census.pages
  dropHeader census number := { census with pages := P.dropHeader census.pages number }
  objCacheDirty census := P.objCacheDirty census.pages
  flushFileCache census number discard :=
    let flushed := P.flushFileCache census.pages number discard
    let census' := { census with pages := flushed.2 }
    (flushed.1,
      if census.empty number then census'
      else { census' with nTnodes := census.nTnodes + grows census.pages number })
  invalidateWholeCache census number :=
    { census with pages := P.invalidateWholeCache census.pages number }
  fileSize census number := if census.empty number then 0 else P.fileSize census.pages number
  nDataChunks census number := if census.empty number then 0 else P.nDataChunks census.pages number
  resizeData census number newSize :=
    let resized := P.resizeData census.pages number newSize
    (resized.1,
      { pages := resized.2
        nTnodes := census.nTnodes + grows census.pages number
        empty := Function.update census.empty number false })
  softDelWorker census number := { census with pages := P.softDelWorker census.pages number }

namespace Volume

variable {Store : Type} {P : Pages Store} {vol after last : Volume Store} {number : Nat}

/-! ## What must be left as it was -/

/-- The directories, the objects, the counts and the links are the same. -/
structure Untouched {Store : Type} (before after : Volume (Census Store)) : Prop where
  objects : ∀ number, (after.objs number).isSome = (before.objs number).isSome
  children : ∀ number, (after.objs number).map Node.children = (before.objs number).map Node.children
  hardLinks : ∀ number,
    (after.objs number).map Node.hardLinks = (before.objs number).map Node.hardLinks
  nObj : after.nObj = before.nObj
  nTnodes : after.store.nTnodes = before.store.nTnodes
  nUnlinkedFiles : after.nUnlinkedFiles = before.nUnlinkedFiles

/-- There is memory for all that a new object needs: the target of a symbolic link, the first tnode of a
file and the object itself. -/
def hasMemory (P : Pages Store) (vol : Volume Store) (type : ObjType) : Bool :=
  let cloned : Bool × Store := if type = .symlink then P.kmalloc vol.store else (true, vol.store)
  let tnode : Bool × Store :=
    if type = .file then P.getTnode cloned.2 vol.newObjId.1 else (true, cloned.2)
  cloned.1 && tnode.1 && (P.kmalloc tnode.2).1

/-- The header of a new object is asked for: the name is free and there is memory. -/
def reachesHeader (P : Pages Store) (vol : Volume Store) (type : ObjType) (parent : Nat)
    (name : List Char) : Bool :=
  (vol.findByName P parent name).isNone && vol.hasMemory P type

/-- Whatever garbage is collected, it is not the last page of a soft deleted file. -/
def Spares (P : Pages Store) (vol : Volume Store) : Prop :=
  ∀ store number obj, vol.objs number = some obj → obj.softDel = true →
    number ∉ (P.checkGc store).1 ∧
      ∀ other discard, number ∉ (P.flushFileCache store other discard).1

/-! ## One object apart -/

namespace Apart

/-- An object without what another object has to do with it. -/
def without (number : Nat) (obj : Node) : Node :=
  { obj with
    children := obj.children.filter (· ≠ number)
    hardLinks := obj.hardLinks.filter (· ≠ number)
    dirty := false }

end Apart

/-- All objects but one are the same, as long as that one is left out of their lists. -/
def Apart (number : Nat) (before after : Volume Store) : Prop :=
  ∀ other, other ≠ number → (after.objs other).map (Apart.without number) =
    (before.objs other).map (Apart.without number)

theorem Apart.refl : Apart number vol vol := fun _ _ => rfl

theorem Apart.trans (first : Apart number vol after) (second : Apart number after last) :
    Apart number vol last :=
  fun other ne => (second other ne).trans (first other ne)

theorem Apart.of_objs (same : after.objs = vol.objs) : Apart number vol after :=
  fun _ _ => by rw [same]

theorem Apart.modify (change : Node → Node) : Apart number vol (vol.modify number change) := by
  intro other ne
  rw [modify_objs]
  simp [ne]

theorem Apart.modify_other (other : Nat) {change : Node → Node}
    (keeps : ∀ obj, Apart.without number (change obj) = Apart.without number obj) :
    Apart number vol (vol.modify other change) := by
  intro third _
  rw [modify_objs, Option.map_map]
  refine Option.map_congr fun obj _ => ?_
  simp only [Function.comp_apply]
  split
  · exact keeps obj
  · rfl

theorem without_erase (obj : Node) :
    Apart.without number { obj with children := obj.children.erase number } =
      Apart.without number obj := by
  have eq : (obj.children.erase number).filter (· ≠ number) = obj.children.filter (· ≠ number) := by
    rw [← List.erase_filter]
    exact List.erase_of_not_mem (by simp)
  simp only [Apart.without, eq]

theorem without_cons (obj : Node) :
    Apart.without number { obj with children := number :: obj.children } =
      Apart.without number obj := by
  simp [Apart.without]

theorem without_addLink (obj : Node) :
    Apart.without number (addLink number obj) = Apart.without number obj := by
  simp [Apart.without, addLink]

theorem Apart.removeObjFromDir : Apart number vol (vol.removeObjFromDir number) := by
  simp only [Volume.removeObjFromDir]
  refine Apart.trans ?_ (Apart.modify _)
  split
  · exact Apart.modify_other _ without_erase
  · exact Apart.refl

theorem Apart.addObjToDir (directory : Nat) : Apart number vol (vol.addObjToDir directory number) := by
  have removed : Apart number vol (vol.removeObjFromDir number) := Apart.removeObjFromDir
  have entered := (removed.trans (Apart.modify_other directory without_cons)).trans
    (Apart.modify fun obj => { obj with parent := some directory })
  simp only [Volume.addObjToDir]
  split
  · exact entered.trans (Apart.modify _)
  · exact entered

theorem Apart.freeObj : Apart number vol (vol.freeObj number) := by
  rw [Volume.freeObj]
  split
  · exact Apart.modify _
  · intro other ne
    simp [ne]

/-- The counts and the pages stay the same while objects are moved. -/
structure SameCounts (before after : Volume Store) : Prop where
  nObj : after.nObj = before.nObj
  nUnlinkedFiles : after.nUnlinkedFiles = before.nUnlinkedFiles
  store : after.store = before.store
  param : after.param = before.param

theorem SameCounts.trans (first : SameCounts vol after) (second : SameCounts after last) :
    SameCounts vol last :=
  ⟨second.nObj.trans first.nObj, second.nUnlinkedFiles.trans first.nUnlinkedFiles,
    second.store.trans first.store, second.param.trans first.param⟩

theorem sameCounts_modify (change : Node → Node) : SameCounts vol (vol.modify number change) :=
  ⟨rfl, rfl, rfl, rfl⟩

theorem sameCounts_removeObjFromDir (vol : Volume Store) (number : Nat) :
    SameCounts vol (vol.removeObjFromDir number) := by
  refine ⟨?_, removeObjFromDir_nUnlinkedFiles vol number, removeObjFromDir_store vol number,
    removeObjFromDir_param vol number⟩
  rw [Volume.removeObjFromDir]
  split <;> rfl

theorem sameCounts_addObjToDir (vol : Volume Store) {directory : Nat} (used : ¬isTrash directory)
    (number : Nat) : SameCounts vol (vol.addObjToDir directory number) := by
  refine ⟨?_, ?_, addObjToDir_store vol directory number, addObjToDir_param vol directory number⟩
  · have removed := (sameCounts_removeObjFromDir vol number).nObj
    rw [Volume.addObjToDir]
    split <;> exact removed
  · rw [addObjToDir_nUnlinkedFiles, if_neg used]

/-! ## A new object -/

/-- A new object is there, and nothing else has changed but for the lists it is in. -/
structure Adds (number : Nat) (before after : Volume Store) : Prop where
  apart : Apart number before after
  nObj : after.nObj = before.nObj + 1
  nUnlinkedFiles : after.nUnlinkedFiles = before.nUnlinkedFiles
  param : after.param = before.param

theorem allocEmptyObj_cases (P : Pages Store) (vol : Volume Store) (number : Nat) :
    vol.allocEmptyObj P number = (false, { vol with store := (P.kmalloc vol.store).2 }) ∧
        (P.kmalloc vol.store).1 = false ∨
      (vol.allocEmptyObj P number).1 = true ∧ (P.kmalloc vol.store).1 = true ∧
        Adds number vol (vol.allocEmptyObj P number).2 ∧
        (vol.allocEmptyObj P number).2.store = (P.kmalloc vol.store).2 := by
  cases memory : (P.kmalloc vol.store).1 with
  | false => exact .inl ⟨by simp [allocEmptyObj, memory], rfl⟩
  | true =>
    right
    let taken : Volume Store :=
      { vol with
        store := (P.kmalloc vol.store).2
        nObj := vol.nObj + 1
        objs := Function.update vol.objs number
          (some { parent := (vol.objs objectIdRoot).map fun _ => objectIdRoot }) }
    let born := taken.modify objectIdRoot fun root =>
      if number = objectIdRoot then root else { root with children := number :: root.children }
    have eq : vol.allocEmptyObj P number =
        if (born.objs objectIdLostNFound).isSome ∧ number ≠ objectIdLostNFound then
          (true, born.addObjToDir objectIdLostNFound number)
        else (true, born) := by
      simp only [allocEmptyObj, memory]
      rfl
    have apart : Apart number vol born := by
      refine Apart.trans (fun other ne => ?_) (Apart.modify_other objectIdRoot fun obj => ?_)
      · simp [taken, ne]
      · split
        · rfl
        · exact without_cons obj
    have counts : born.nObj = vol.nObj + 1 ∧ born.nUnlinkedFiles = vol.nUnlinkedFiles ∧
        born.param = vol.param ∧ born.store = (P.kmalloc vol.store).2 := ⟨rfl, rfl, rfl, rfl⟩
    clear_value born
    obtain ⟨nObj, nUnlinkedFiles, param, store⟩ := counts
    rw [eq]
    split
    case isTrue =>
      have entered := sameCounts_addObjToDir born not_isTrash_lostNFound number
      have moved : Apart number born (born.addObjToDir objectIdLostNFound number) :=
        Apart.addObjToDir _
      exact ⟨rfl, rfl, ⟨apart.trans moved, entered.nObj.trans nObj,
        entered.nUnlinkedFiles.trans nUnlinkedFiles, entered.param.trans param⟩,
        entered.store.trans store⟩
    case isFalse => exact ⟨rfl, rfl, ⟨apart, nObj, nUnlinkedFiles, param⟩, store⟩

/-- The first tnode of a new file. -/
def firstTnode (P : Pages Store) (vol : Volume Store) (type : ObjType) : Bool × Store :=
  if type = .file then P.getTnode vol.store vol.newObjId.1 else (true, vol.store)

theorem newObj_eq (P : Pages Store) (vol : Volume Store) (type : ObjType) :
    vol.newObj P none type =
      let tnode := vol.firstTnode P type
      let number := vol.newObjId.1
      let vol : Volume Store := { vol.newObjId.2 with store := tnode.2 }
      if ¬tnode.1 then (none, vol)
      else
        let made : Bool × Volume Store := vol.allocEmptyObj P number
        let vol := made.2
        if ¬made.1 then
          (none,
            if type = .file then { vol with store := P.freeTnodes vol.store number } else vol)
        else
          let vol := vol.modify number (typed type)
          (some number,
            { vol with
              objBucket := Function.update vol.objBucket (hashFn number)
                (number :: vol.objBucket (hashFn number)) }) :=
  rfl

/-- Either there is no memory for an object, which then leaves nothing but what the pages keep of it,
or the object is made. -/
theorem newObj_cases (P : Pages Store) (vol : Volume Store) (type : ObjType) :
    let tnode := vol.firstTnode P type
    (tnode.1 = true ∧ (P.kmalloc tnode.2).1 = true ∧
        (vol.newObj P none type).1 = some vol.newObjId.1 ∧
        Adds vol.newObjId.1 vol (vol.newObj P none type).2 ∧
        (vol.newObj P none type).2.store = (P.kmalloc tnode.2).2) ∨
      (¬(tnode.1 = true ∧ (P.kmalloc tnode.2).1 = true) ∧
        vol.newObj P none type = (none, { vol.newObjId.2 with
          store :=
            if tnode.1 = true then
              if type = .file then P.freeTnodes (P.kmalloc tnode.2).2 vol.newObjId.1
              else (P.kmalloc tnode.2).2
            else tnode.2 })) := by
  rw [newObj_eq]
  dsimp only
  generalize vol.firstTnode P type = tnode
  cases memory : tnode.1 with
  | false => exact .inr ⟨by simp, by simp⟩
  | true =>
    rcases allocEmptyObj_cases P ({ vol.newObjId.2 with store := tnode.2 } : Volume Store)
      vol.newObjId.1 with ⟨failed, full⟩ | ⟨done, free, adds, store⟩
    · right
      refine ⟨by simp [show (P.kmalloc tnode.2).1 = false from full], ?_⟩
      simp only [not_true_eq_false, if_false, failed]
      by_cases file : type = .file <;> simp [file]
    · left
      simp only [not_true_eq_false, if_false, done]
      refine ⟨trivial, free, trivial, ⟨?_, adds.nObj, adds.nUnlinkedFiles, adds.param⟩, store⟩
      exact adds.apart.trans (Apart.modify _)

/-! ## The object in its directory -/

theorem entered_apart (vol : Volume Store) (number : Nat) (type : ObjType) {parent : Nat}
    (used : ¬isTrash parent) (name : List Char) (mode : Nat) (equivObj : Option Nat)
    (aliasStr : List Char) :
    Apart number vol (vol.entered number type parent name mode equivObj aliasStr) ∧
      SameCounts vol (vol.entered number type parent name mode equivObj aliasStr) := by
  let named := vol.modify number fun obj =>
    { obj.setObjName number name with ystMode := mode, dirty := true }
  have renamed : Apart number vol named := Apart.modify _
  have placed : Apart number vol (named.addObjToDir parent number) :=
    renamed.trans (Apart.addObjToDir parent)
  have counts : SameCounts vol (named.addObjToDir parent number) :=
    (sameCounts_modify _).trans (sameCounts_addObjToDir named used number)
  have linked (free : Volume Store) (equiv : Nat) : Apart number free
      ((free.modify number (linkTo equiv)).modify equiv (addLink number)) :=
    (Apart.modify (linkTo equiv)).trans (Apart.modify_other equiv without_addLink)
  simp only [Volume.entered]
  split
  · exact ⟨placed.trans (Apart.modify _), counts.trans (sameCounts_modify _)⟩
  · exact ⟨placed.trans (linked _ _),
      (counts.trans (sameCounts_modify _)).trans (sameCounts_modify _)⟩
  · exact ⟨placed, counts⟩

/-! ## Collecting nothing -/

theorem gcCleanUp_spared (spared : ∀ obj, vol.objs number = some obj → obj.softDel = false) :
    gcCleanUp P vol number = vol := by
  simp only [gcCleanUp]
  split
  case h_1 => rfl
  case h_2 obj found =>
    split
    case isTrue deleted => simp [spared obj found] at deleted
    case isFalse => rfl

theorem sweep_spared (collected : List Nat × Store)
    (spared : ∀ number ∈ collected.1, ∀ obj, vol.objs number = some obj → obj.softDel = false) :
    vol.sweep P collected = { vol with store := collected.2 } := by
  have none_cleaned (numbers : List Nat) (sub : ∀ number ∈ numbers, number ∈ collected.1) :
      numbers.foldl (gcCleanUp P) ({ vol with store := collected.2 } : Volume Store) =
        { vol with store := collected.2 } := by
    induction numbers with
    | nil => rfl
    | cons number numbers ih =>
      have first : gcCleanUp P ({ vol with store := collected.2 } : Volume Store) number =
          { vol with store := collected.2 } :=
        gcCleanUp_spared (spared number (sub number List.mem_cons_self))
      rw [List.foldl_cons, first]
      exact ih fun other other_mem => sub other (List.mem_cons_of_mem number other_mem)
  simp only [sweep]
  split
  · rfl
  · exact none_cleaned collected.1 fun _ => id

theorem Spares.of_objs (spares : Spares P vol) {store : Store} (collected : List Nat)
    (from_pages : collected = (P.checkGc store).1 ∨
      ∃ other discard, collected = (P.flushFileCache store other discard).1) :
    ∀ number ∈ collected, ∀ obj, vol.objs number = some obj → obj.softDel = false := by
  intro number number_mem obj found
  refine Bool.eq_false_iff.mpr fun soft => ?_
  obtain ⟨collects, flushes⟩ := spares store number obj found soft
  rcases from_pages with rfl | ⟨other, discard, rfl⟩
  · exact collects number_mem
  · exact flushes other discard number_mem

/-- Where no soft deleted file comes to its end, collecting garbage changes the pages only. -/
theorem Spares.checkGc (spares : Spares P vol) :
    vol.checkGc P = vol ∨ vol.checkGc P = { vol with store := (P.checkGc vol.store).2 } := by
  rw [Volume.checkGc]
  split
  · exact .inl rfl
  · exact .inr (sweep_spared _ (spares.of_objs _ (.inl rfl)))

/-- The soft deleted files are spared as long as there are no others. -/
theorem Spares.apart (spares : Spares P vol) (apart : Apart number vol after)
    (firm : ∀ obj, after.objs number = some obj → obj.softDel = false) : Spares P after := by
  intro store other obj found soft
  have ne : other ≠ number := by
    rintro rfl
    simp [firm obj found] at soft
  have eq := apart other ne
  rw [found, Option.map_some] at eq
  obtain ⟨old, old_found, same⟩ := Option.map_eq_some_iff.mp eq.symm
  have old_soft : old.softDel = true := (congrArg Node.softDel same).trans soft
  exact spares store other old old_found old_soft

/-! ## Taking the new object back -/

/-- An object is gone, and nothing else has changed but for the lists it was in. -/
structure Removes (number : Nat) (before after : Volume Store) : Prop where
  apart : Apart number before after
  nObj : after.nObj = before.nObj - 1
  nUnlinkedFiles : after.nUnlinkedFiles = before.nUnlinkedFiles
  gone : after.objs number = none

theorem Removes.of_same (removes : Removes number after last) (apart : Apart number vol after)
    (counts : after.nObj = vol.nObj) (unlinked : after.nUnlinkedFiles = vol.nUnlinkedFiles) :
    Removes number vol last :=
  ⟨apart.trans removes.apart, by rw [removes.nObj, counts], removes.nUnlinkedFiles.trans unlinked,
    removes.gone⟩

theorem removeHardLink_apart (vol : Volume Store) (number : Nat) :
    Apart number vol (vol.removeHardLink number) ∧ SameCounts vol (vol.removeHardLink number) := by
  simp only [Volume.removeHardLink]
  split
  · exact ⟨Apart.refl, rfl, rfl, rfl, rfl⟩
  · refine ⟨Apart.modify_other _ fun obj => ?_, sameCounts_modify _⟩
    have eq : (obj.hardLinks.erase number).filter (· ≠ number) = obj.hardLinks.filter (· ≠ number) := by
      rw [← List.erase_filter]
      exact List.erase_of_not_mem (by simp)
    simp only [Apart.without, eq]

/-- With the older page format no record of a deletion is left. -/
theorem genericObjDel_yaffs1 (P : Pages Store) (vol : Volume Store) (old : vol.param.isYaffs2 = false) {obj : Node}
    (found : vol.objs number = some obj) (inode : obj.myInode = none) :
    Removes number vol (vol.genericObjDel P number).2 ∧ (vol.genericObjDel P number).2.store =
      P.dropHeader (P.invalidateWholeCache vol.store number) number := by
  let free := ({ vol with store := P.invalidateWholeCache vol.store number } :
    Volume Store).removeObjFromDir number
  have counts := sameCounts_removeObjFromDir
    { vol with store := P.invalidateWholeCache vol.store number } number
  have apart : Apart number vol free := Apart.removeObjFromDir
  have removed := removeObjFromDir_lasting
    { vol with store := P.invalidateWholeCache vol.store number } number number
  rw [found, Option.map_some] at removed
  obtain ⟨obj', found', eq⟩ := Option.map_eq_some_iff.mp removed
  have inode' : obj'.myInode = none := (congrArg Node.myInode eq).trans inode
  have eq : (vol.genericObjDel P number).2 =
      ({ free with store := P.dropHeader free.store number } : Volume Store).freeObj number := by
    simp only [genericObjDel, genericObjDelWith]
    rw [if_neg (by simp [old])]
  have held : ¬(free.objs number).any (fun obj => obj.myInode.isSome) = true := by
    simp [free, found', inode']
  rw [eq, Volume.freeObj, if_neg held]
  refine ⟨⟨fun other ne => ?_, ?_, counts.nUnlinkedFiles, by simp⟩, ?_⟩
  · simpa [ne] using apart other ne
  · exact congrArg (· - 1) counts.nObj
  · exact congrArg (fun store => P.dropHeader store number) counts.store

variable {grows : Store → Nat → Int} {vol after : Volume (Census Store)}

/-- Cutting off a file that is empty changes the pages only. -/
theorem resizeFile_empty (spares : Spares (P.counted grows) vol)
    (empty : vol.store.empty number = true) :
    ∃ pages, (vol.resizeFile (P.counted grows) number 0).2 =
      { vol with store := { vol.store with pages } } := by
  have flushed : vol.sweep (P.counted grows)
      ((P.counted grows).flushFileCache vol.store number true) =
      { vol with store := { vol.store with
        pages := (P.flushFileCache vol.store.pages number true).2 } } := by
    rw [sweep_spared _ (spares.of_objs _ (.inr ⟨number, true, rfl⟩))]
    simp only [Pages.counted, empty, if_true]
  let dropped : Volume (Census Store) := { vol with store := { vol.store with
    pages := P.invalidateWholeCache (P.flushFileCache vol.store.pages number true).2 number } }
  have dropped_spares : Spares (P.counted grows) dropped := spares
  have collected : ∃ pages, dropped.checkGc (P.counted grows) =
      { vol with store := { vol.store with pages } } := by
    rcases dropped_spares.checkGc with eq | eq
    · exact ⟨_, eq⟩
    · exact ⟨_, eq⟩
  obtain ⟨pages, eq⟩ := collected
  refine ⟨pages, ?_⟩
  have sized : (P.counted grows).fileSize vol.store number = 0 := by
    simp [Pages.counted, empty]
  simp only [resizeFile, flushed, sized]
  change (if _ then (false, dropped.checkGc (P.counted grows)) else
    if _ then (true, dropped.checkGc (P.counted grows)) else _).2 = _
  rw [eq]
  split
  · rfl
  · rfl

/-- An empty file is taken back with its tnode. -/
theorem delFile_yaffs1 (old : vol.param.isYaffs2 = false) {obj : Node}
    (found : vol.objs number = some obj) (inode : obj.myInode = none)
    (spares : Spares (P.counted grows) vol) (empty : vol.store.empty number = true) :
    Removes number vol (vol.delFile (P.counted grows) number).2 ∧
      (vol.delFile (P.counted grows) number).2.store.nTnodes = vol.store.nTnodes - 1 := by
  have resized : ∃ pages, (if vol.resizesToDelete then
        (vol.resizeFile (P.counted grows) number 0).2 else vol) =
      { vol with store := { vol.store with pages } } := by
    split
    · exact resizeFile_empty spares empty
    · exact ⟨vol.store.pages, rfl⟩
  obtain ⟨pages, eq⟩ := resized
  simp only [delFile, eq]
  have none_left : ¬0 < (P.counted grows).nDataChunks { vol.store with pages } number := by
    simp [Pages.counted, empty]
  rw [if_neg none_left]
  let freed : Volume (Census Store) :=
    { vol with store := (P.counted grows).freeTnodes { vol.store with pages } number }
  obtain ⟨removes, store⟩ := genericObjDel_yaffs1 (P.counted grows) freed old found inode
  refine ⟨removes.of_same (fun _ _ => rfl) rfl rfl, ?_⟩
  rw [store]
  rfl

/-- With the older page format an object that was just created is taken back as if it had never
been. -/
theorem delObj_yaffs1 (vol : Volume (Census Store)) (old : vol.param.isYaffs2 = false) {obj : Node}
    (found : vol.objs number = some obj) (inode : obj.myInode = none) (leaf : obj.children = [])
    (known : obj.variantType ≠ .unknown) (spares : Spares (P.counted grows) vol)
    (empty : obj.variantType = .file → vol.store.empty number = true) :
    Removes number vol (vol.delObj (P.counted grows) number).2 ∧
      (vol.delObj (P.counted grows) number).2.store.nTnodes =
        vol.store.nTnodes - if obj.variantType = .file then 1 else 0 := by
  obtain ⟨removes, store⟩ := genericObjDel_yaffs1 (P.counted grows) vol old found inode
  have generic : Removes number vol (vol.genericObjDel (P.counted grows) number).2 ∧
      (vol.genericObjDel (P.counted grows) number).2.store.nTnodes = vol.store.nTnodes - 0 := by
    refine ⟨removes, ?_⟩
    rw [store, sub_zero]
    rfl
  simp only [delObj, found, Option.map_some]
  cases type : obj.variantType with
  | unknown => exact absurd type known
  | file => exact delFile_yaffs1 old found inode spares (empty type)
  | special => exact generic
  | directory =>
    have childless : ¬vol.isNonEmptyDir number = true := by simp [isNonEmptyDir, found, leaf]
    simp only [delDir, if_neg childless]
    exact generic
  | symlink =>
    let freed := vol.modify number fun obj => { obj with aliasStr := [] }
    have found' : freed.objs number = some { obj with aliasStr := [] } := modify_self _ found
    obtain ⟨removes', store'⟩ := genericObjDel_yaffs1 (P.counted grows) freed old found' inode
    refine ⟨removes'.of_same (Apart.modify _) rfl rfl, ?_⟩
    simp only [delSymlink, reduceCtorEq, if_false, sub_zero]
    rw [store']
    rfl
  | hardlink =>
    obtain ⟨hardLinks, found'⟩ := removeHardLink_found number found
    obtain ⟨apart, counts⟩ := removeHardLink_apart vol number
    obtain ⟨removes', store'⟩ := genericObjDel_yaffs1 (P.counted grows) _ (counts.param ▸ old) found'
      inode
    refine ⟨removes'.of_same apart counts.nObj counts.nUnlinkedFiles, ?_⟩
    simp only [delLink, store', reduceCtorEq, if_false, sub_zero]
    change (vol.removeHardLink number).store.nTnodes = vol.store.nTnodes
    rw [counts.store]

/-! ## The count of unlinked files -/

section Counts

variable {Store : Type} {vol after : Volume Store}

theorem observes_all (P : Pages Store) (watched : Nat) : Observes P watched fun _ _ => True where
  refl _ := trivial
  trans _ _ := trivial
  freeTnodes _ _ := trivial
  checkGc _ := trivial
  writeHeader _ _ _ _ _ _ _ := trivial
  dropHeader _ _ := trivial
  flushFileCache _ _ _ := trivial
  invalidateWholeCache _ _ := trivial
  resizeData _ _ _ := trivial
  softDelWorker _ _ := trivial

/-- The directories of the unlinked and the deleted objects are there, and no garbage collection takes
them away. -/
structure TrashStands (vol : Volume Store) : Prop where
  firm : vol.Firm objectIdDeleted
  isType : ∀ trash, isTrash trash → ∃ dirObj, vol.objs trash = some dirObj ∧
    dirObj.variantType = .directory ∧ dirObj.softDel = false

theorem TidyBut.trashStands {loose : Option Nat} (tidy : vol.TidyBut loose) : vol.TrashStands := by
  have stands : ∀ trash, isTrash trash → ∃ dirObj, vol.objs trash = some dirObj ∧
      dirObj.variantType = .directory ∧ dirObj.softDel = false := by
    intro trash isTrash
    obtain ⟨dirObj, found, is_dir⟩ := trash_found tidy isTrash
    exact ⟨dirObj, found, is_dir, tidy.soft_of_type found (by simp [is_dir])⟩
  obtain ⟨dirObj, found, -, soft⟩ := stands objectIdDeleted (.inr rfl)
  exact ⟨⟨dirObj, found, soft⟩, stands⟩

theorem TrashStands.steady {seen : Store → Store → Prop} {touched : Nat → Prop}
    (stands : vol.TrashStands) (steady : Steady seen touched vol after)
    (untouched : ∀ trash, isTrash trash → ¬touched trash) : after.TrashStands where
  firm := stands.firm.steady steady (untouched _ (.inr rfl))
  isType trash isTrash := by
    obtain ⟨dirObj, found, is_dir, soft⟩ := stands.isType trash isTrash
    obtain ⟨dirObj', found', eq⟩ := steady.kept trash dirObj found (untouched trash isTrash) soft
    obtain ⟨children, dirty, rfl⟩ := Node.lasting_eq_iff.mp eq
    exact ⟨_, found', is_dir, soft⟩

/-- What is given up counts as unlinked. -/
theorem changeObjName_counts (P : Pages Store) (stands : vol.TrashStands) (ne : ¬isTrash number)
    {directory : Nat} (isTrash : isTrash directory) (newName : List Char) :
    vol.nUnlinkedFiles <
      (vol.changeObjName P number (some directory) newName false 0).2.nUnlinkedFiles := by
  have minds := (observes_all P objectIdDeleted).minds
  obtain ⟨dirObj, found, is_dir, -⟩ := stands.isType directory isTrash
  have placed : (vol.placed number directory newName).nUnlinkedFiles = vol.nUnlinkedFiles + 1 := by
    have moved := addObjToDir_nUnlinkedFiles (vol.modify number (named number newName)) directory
      number
    rw [if_pos isTrash] at moved
    simp only [Volume.placed]
    split <;> exact moved
  have apart : number ≠ objectIdDeleted := fun same => ne (.inr same)
  have firm := stands.firm.steady (Steady.placed minds vol number directory newName) apart.symm
  have written : Steady (fun _ _ => True) (fun _ => False) _ _ :=
    updateOhWith_other minds (calm_checkGc minds) firm apart (some newName)
      (decide (directory = objectIdDeleted)) 0
  rw [changeObjName, changeObjNameWith_accepted (by simp [Volume.isType, found, is_dir]) (.inl isTrash)]
  have counted := written.unlinkedFiles
  omega

theorem genericObjDel_steady (P : Pages Store) (stands : vol.TrashStands) (ne : ¬isTrash number) :
    Steady (fun _ _ => True) (· = number) vol (vol.genericObjDel P number).2 :=
  genericObjDelWith_other (observes_all P objectIdDeleted).minds (calm_checkGc (observes_all P _).minds)
    stands.firm fun same => ne (.inr same)

/-- With the newer page format deleting an object counts as unlinking it. -/
theorem genericObjDel_counts (P : Pages Store) (stands : vol.TrashStands) (ne : ¬isTrash number)
    (new : vol.param.isYaffs2 = true) (elsewhere : vol.parentOf number ≠ some objectIdDeleted) :
    vol.nUnlinkedFiles < (vol.genericObjDel P number).2.nUnlinkedFiles := by
  have minds := (observes_all P objectIdDeleted).minds
  have stands' : TrashStands { vol with store := P.invalidateWholeCache vol.store number } :=
    ⟨stands.firm, stands.isType⟩
  have counted := changeObjName_counts P stands' ne (.inr rfl) "deleted".toList
  simp only [genericObjDel, genericObjDelWith]
  split
  case isFalse stays => exact absurd ⟨new, elsewhere⟩ stays
  case isTrue => exact counted.trans_le (drop_steady minds (.inr trivial)).unlinkedFiles

theorem changeObjName_steady (P : Pages Store) (stands : vol.TrashStands) (ne : ¬isTrash number)
    (newDir : Option Nat) (newName : List Char) (force : Bool) (shadows : Nat) :
    Steady (fun _ _ => True) (· = number) vol
      (vol.changeObjName P number newDir newName force shadows).2 :=
  changeObjNameWith_other (observes_all P objectIdDeleted).minds (calm_checkGc (observes_all P _).minds)
    stands.firm (fun same => ne (.inr same)) newDir newName force shadows

theorem softDelFile_steady (P : Pages Store) (stands : vol.TrashStands) (ne : ¬isTrash number) :
    Steady (fun _ _ => True) (· = number) vol (vol.softDelFile P number) := by
  have minds := (observes_all P objectIdDeleted).minds
  simp only [softDelFile]
  split
  · exact Steady.refl minds
  · split
    · exact Steady.refl minds
    · split
      · have freed : Steady (fun _ _ => True) (· = number) vol
            { vol with store := P.freeTnodes vol.store number } := Steady.setStore trivial
        have stands' : TrashStands { vol with store := P.freeTnodes vol.store number } :=
          ⟨stands.firm, stands.isType⟩
        exact freed.trans minds (genericObjDel_steady P stands' ne)
      · have worked : Steady (fun _ _ => True) (· = number) vol
            { vol with store := P.softDelWorker vol.store number } := Steady.setStore trivial
        exact worked.trans minds (Steady.modify minds _)

theorem resizeFile_any (P : Pages Store) (stands : vol.TrashStands) (newSize : Nat) :
    Steady (fun _ _ => True) (fun _ => False) vol (vol.resizeFile P number newSize).2 :=
  resizeFile_steady (observes_all P objectIdDeleted).minds stands.firm number newSize (.inr trivial)
    fun _ _ _ _ _ => trivial

/-- The mark of a deleted file. -/
theorem markDeleted_steady (P : Pages Store) (vol : Volume Store) (number : Nat) :
    Steady (fun _ _ => True) (· = number) vol (vol.markDeleted number) :=
  have modified : Steady (fun _ _ => True) (· = number) vol
      (vol.modify number fun obj => { obj with deleted := true }) :=
    Steady.modify (observes_all P objectIdDeleted).minds _
  ⟨modified.kept, trivial, rfl, le_rfl⟩

/-- A file that still has data counts as unlinked, whether or not an inode holds it. -/
theorem unlinkFileIfNeeded_counts (P : Pages Store) (stands : vol.TrashStands)
    (ne : ¬isTrash number) :
    vol.nUnlinkedFiles < (vol.unlinkFileIfNeeded P number).2.nUnlinkedFiles ∧
      Steady (fun _ _ => True) (· = number) vol (vol.unlinkFileIfNeeded P number).2 := by
  have minds := (observes_all P objectIdDeleted).minds
  have apart : ∀ trash, isTrash trash → trash ≠ number := by
    rintro trash isTrash rfl
    exact ne isTrash
  simp only [unlinkFileIfNeeded]
  split
  case isFalse =>
    exact ⟨changeObjName_counts P stands ne (.inl rfl) "unlinked".toList,
      changeObjName_steady P stands ne _ _ _ _⟩
  case isTrue =>
    have counted := changeObjName_counts P stands ne (.inr rfl) "deleted".toList
    have moves := (changeObjName_steady P stands ne (some objectIdDeleted) "deleted".toList false
      0).trans minds (markDeleted_steady P _ number)
    have marked : vol.nUnlinkedFiles < ((vol.changeObjName P number (some objectIdDeleted)
      "deleted".toList false 0).2.markDeleted number).nUnlinkedFiles := counted
    generalize (vol.changeObjName P number (some objectIdDeleted) "deleted".toList false
      0).2.markDeleted number = mid at *
    have stands' := stands.steady moves apart
    have resized : Steady (fun _ _ => True) (· = number) mid
        (if mid.resizesToDelete then (mid.resizeFile P number 0).2 else mid) := by
      split
      · exact (resizeFile_any P stands' 0).any
      · exact Steady.refl minds
    have stands'' := stands'.steady resized apart
    have rest := resized.trans minds (softDelFile_steady P stands'' ne)
    exact ⟨marked.trans_le rest.unlinkedFiles, moves.trans minds rest⟩

/-- With the newer page format a file that is deleted counts as unlinked. -/
theorem delFile_counts (P : Pages Store) (stands : vol.TrashStands) (ne : ¬isTrash number)
    (new : vol.param.isYaffs2 = true) {obj : Node} (found : vol.objs number = some obj)
    (soft : obj.softDel = false) (unlinked : obj.unlinked = false) (visible : ¬obj.Hidden) :
    vol.nUnlinkedFiles < (vol.delFile P number).2.nUnlinkedFiles := by
  have minds := (observes_all P objectIdDeleted).minds
  have resized : Steady (fun _ _ => True) (fun _ => False) vol
      (if vol.resizesToDelete then (vol.resizeFile P number 0).2 else vol) := by
    split
    · exact resizeFile_any P stands 0
    · exact Steady.refl minds
  simp only [delFile]
  generalize (if vol.resizesToDelete then (vol.resizeFile P number 0).2 else vol) = mid at *
  obtain ⟨obj', found', eq⟩ := resized.kept number obj found id soft
  obtain ⟨children, dirty, rfl⟩ := Node.lasting_eq_iff.mp eq
  have stands' := stands.steady resized fun _ _ => id
  refine resized.unlinkedFiles.trans_lt ?_
  split
  case isTrue =>
    have not_unlinked : ¬(mid.objs number).any Node.unlinked = true := by
      simp [found', unlinked]
    obtain ⟨counted, steady⟩ := unlinkFileIfNeeded_counts P stands' ne
    rw [if_pos not_unlinked]
    generalize mid.unlinkFileIfNeeded P number = needed at *
    have apart : ∀ trash, isTrash trash → trash ≠ number := by
      rintro trash isTrash rfl
      exact ne isTrash
    split
    · exact counted
    · split
      · have marked := steady.trans minds (markDeleted_steady P needed.2 number)
        exact counted.trans_le (softDelFile_steady P (stands'.steady marked apart) ne).unlinkedFiles
      · exact counted
  case isFalse =>
    let freed : Volume Store := { mid with store := P.freeTnodes mid.store number }
    have stands'' : freed.TrashStands := ⟨stands'.firm, stands'.isType⟩
    have new' : freed.param.isYaffs2 = true := resized.param ▸ new
    have elsewhere : freed.parentOf number ≠ some objectIdDeleted := by
      rw [show freed.parentOf number = _ from parentOf_eq found']
      exact fun up => visible ⟨_, .inr rfl, up⟩
    have counted := genericObjDel_counts P stands'' ne new' elsewhere
    exact counted

/-- With the newer page format an object that is deleted counts as unlinked. -/
theorem delObj_counts (P : Pages Store) (stands : vol.TrashStands) (ne : ¬isTrash number)
    (new : vol.param.isYaffs2 = true) {obj : Node} (found : vol.objs number = some obj)
    (soft : obj.softDel = false) (unlinked : obj.unlinked = false) (visible : ¬obj.Hidden)
    (leaf : obj.children = []) (known : obj.variantType ≠ .unknown) :
    vol.nUnlinkedFiles < (vol.delObj P number).2.nUnlinkedFiles := by
  have minds := (observes_all P objectIdDeleted).minds
  have elsewhere : vol.parentOf number ≠ some objectIdDeleted := by
    rw [parentOf_eq found]
    exact fun up => visible ⟨_, .inr rfl, up⟩
  have generic := genericObjDel_counts P stands ne new elsewhere
  simp only [delObj, found, Option.map_some]
  cases type : obj.variantType with
  | unknown => exact absurd type known
  | file => exact delFile_counts P stands ne new found soft unlinked visible
  | special => exact generic
  | directory =>
    have childless : ¬vol.isNonEmptyDir number = true := by simp [isNonEmptyDir, found, leaf]
    simp only [delDir, if_neg childless]
    exact generic
  | symlink =>
    let freed := vol.modify number fun obj => { obj with aliasStr := [] }
    have steady : Steady (fun _ _ => True) (· = number) vol freed := Steady.modify minds _
    have stands' : freed.TrashStands := stands.steady steady fun trash isTrash same =>
      ne (same ▸ isTrash)
    have elsewhere' : freed.parentOf number ≠ some objectIdDeleted := by
      rw [parentOf_eq (modify_self _ found)]
      exact fun up => visible ⟨_, .inr rfl, up⟩
    have new' : freed.param.isYaffs2 = true := new
    have counted := genericObjDel_counts P stands' ne new' elsewhere'
    exact counted
  | hardlink =>
    obtain ⟨-, counts⟩ := removeHardLink_apart vol number
    obtain ⟨hardLinks, found'⟩ := removeHardLink_found number found
    have stands_at : ∀ trash, isTrash trash → ∃ dirObj,
        (vol.removeHardLink number).objs trash = some dirObj ∧
        dirObj.variantType = .directory ∧ dirObj.softDel = false := by
      intro trash isTrash
      obtain ⟨dirObj, dir_found, is_dir, dir_soft⟩ := stands.isType trash isTrash
      obtain ⟨links, dir_found'⟩ := removeHardLink_found number dir_found
      exact ⟨_, dir_found', is_dir, dir_soft⟩
    obtain ⟨dirObj, dir_found, -, dir_soft⟩ := stands_at objectIdDeleted (.inr rfl)
    have elsewhere' : (vol.removeHardLink number).parentOf number ≠ some objectIdDeleted := by
      rw [parentOf_eq found']
      exact fun up => visible ⟨_, .inr rfl, up⟩
    have counted := genericObjDel_counts P ⟨⟨dirObj, dir_found, dir_soft⟩, stands_at⟩ ne
      (counts.param ▸ new) elsewhere'
    rw [counts.nUnlinkedFiles] at counted
    exact counted

end Counts

/-! ## Creations that fail -/

theorem Untouched.refl : Untouched vol vol :=
  ⟨fun _ => rfl, fun _ => rfl, fun _ => rfl, rfl, rfl, rfl⟩

theorem Untouched.trans {last : Volume (Census Store)} (first : Untouched vol after)
    (second : Untouched after last) : Untouched vol last :=
  ⟨fun number => (second.objects number).trans (first.objects number),
    fun number => (second.children number).trans (first.children number),
    fun number => (second.hardLinks number).trans (first.hardLinks number),
    second.nObj.trans first.nObj, second.nTnodes.trans first.nTnodes,
    second.nUnlinkedFiles.trans first.nUnlinkedFiles⟩

theorem Untouched.of_objs (objs : after.objs = vol.objs) (nObj : after.nObj = vol.nObj)
    (nUnlinkedFiles : after.nUnlinkedFiles = vol.nUnlinkedFiles)
    (nTnodes : after.store.nTnodes = vol.store.nTnodes) : Untouched vol after :=
  ⟨fun _ => by rw [objs], fun _ => by rw [objs], fun _ => by rw [objs], nObj, nTnodes, nUnlinkedFiles⟩

/-- An object that is gone again is in no list. -/
theorem Untouched.of_apart (tidy : vol.Tidy) (fresh : vol.objs number = none) (tidy' : after.Tidy)
    (gone : after.objs number = none) (apart : Apart number vol after) (nObj : after.nObj = vol.nObj)
    (nUnlinkedFiles : after.nUnlinkedFiles = vol.nUnlinkedFiles)
    (nTnodes : after.store.nTnodes = vol.store.nTnodes) : Untouched vol after := by
  have unlisted {vol : Volume (Census Store)} (tidy : vol.Tidy) (absent : vol.objs number = none)
      (other : Nat) : (vol.objs other).map (Apart.without number) =
        (vol.objs other).map fun obj => { obj with dirty := false } := by
    refine Option.map_congr fun obj found => ?_
    have no_child : number ∉ obj.children := by
      intro listed
      have up : vol.parentOf number = some other :=
        (tidy.sound.listed number other).mpr (by simpa [forest, found] using listed)
      simp [parentOf, absent] at up
    have no_link : number ∉ obj.hardLinks := by
      intro listed
      obtain ⟨linkObj, link_found, -⟩ := (tidy.node other obj found).ring number listed
      simp [absent] at link_found
    have children : obj.children.filter (· ≠ number) = obj.children :=
      List.filter_eq_self.mpr fun child child_mem => by
        simpa using ne_of_mem_of_not_mem child_mem no_child
    have hardLinks : obj.hardLinks.filter (· ≠ number) = obj.hardLinks :=
      List.filter_eq_self.mpr fun link link_mem => by
        simpa using ne_of_mem_of_not_mem link_mem no_link
    simp only [Apart.without, children, hardLinks]
  have same (other : Nat) : (after.objs other).map (fun obj : Node => { obj with dirty := false }) =
      (vol.objs other).map fun obj : Node => { obj with dirty := false } := by
    by_cases ne : other = number
    · subst ne
      simp [gone, fresh]
    · rw [← unlisted tidy' gone other, ← unlisted tidy fresh other]
      exact apart other ne
  refine ⟨fun other => ?_, fun other => ?_, fun other => ?_, nObj, nTnodes, nUnlinkedFiles⟩
  · simpa using congrArg Option.isSome (same other)
  · simpa [Option.map_map, Function.comp_def] using congrArg (Option.map Node.children) (same other)
  · simpa [Option.map_map, Function.comp_def] using congrArg (Option.map Node.hardLinks) (same other)

/-- The volume once the target of a symbolic link has been copied. -/
def afterAlias (P : Pages Store) (vol : Volume Store) (type : ObjType) : Volume Store :=
  { vol with store := (vol.clonedAlias P type).2 }

theorem newObjId_afterAlias (P : Pages Store) (vol : Volume Store) (type : ObjType) :
    (vol.afterAlias P type).newObjId.1 = vol.newObjId.1 := by
  have bucket : (vol.afterAlias P type).objBucket = vol.objBucket := rfl
  have finder : (vol.afterAlias P type).bucketFinder = vol.bucketFinder := rfl
  have same := findNiceBucket_congr bucket 10 (999, 999999, vol.bucketFinder)
  simp only [newObjId, bucket, finder, same]

theorem reachesHeader_iff (P : Pages Store) (vol : Volume Store) (type : ObjType) (parent : Nat)
    (name : List Char) : reachesHeader P vol type parent name = true ↔
      (vol.findByName P parent name).isNone = true ∧ (vol.clonedAlias P type).1 = true ∧
        ((vol.afterAlias P type).firstTnode P type).1 = true ∧
          (P.kmalloc ((vol.afterAlias P type).firstTnode P type).2).1 = true := by
  have number := newObjId_afterAlias P vol type
  simp only [reachesHeader, hasMemory, firstTnode, number, Bool.and_eq_true, and_assoc]
  rfl

theorem firstTnode_counted (P : Pages Store) (grows : Store → Nat → Int)
    (vol : Volume (Census Store)) (type : ObjType) :
    (((vol.firstTnode (P.counted grows) type).1 = true → type = .file →
        (vol.firstTnode (P.counted grows) type).2.nTnodes = vol.store.nTnodes + 1 ∧
          (vol.firstTnode (P.counted grows) type).2.empty vol.newObjId.1 = true)) ∧
      ((vol.firstTnode (P.counted grows) type).1 = false ∨ type ≠ .file →
        (vol.firstTnode (P.counted grows) type).2.nTnodes = vol.store.nTnodes) := by
  simp only [firstTnode]
  split
  case isTrue file =>
    simp only [Pages.counted]
    split
    · exact ⟨fun _ _ => ⟨rfl, by simp⟩, fun failed => by simp [file] at failed⟩
    · exact ⟨fun made => by simp at made, fun _ => rfl⟩
  case isFalse other => exact ⟨fun _ file => absurd file other, fun _ => rfl⟩

/-- A new object that cannot be made leaves the tnodes as they were. -/
theorem newObj_failed (P : Pages Store) (grows : Store → Nat → Int) (vol : Volume (Census Store))
    (type : ObjType) (full : ¬((vol.firstTnode (P.counted grows) type).1 = true ∧
      ((P.counted grows).kmalloc (vol.firstTnode (P.counted grows) type).2).1 = true)) :
    (vol.newObj (P.counted grows) none type).1 = none ∧
      Untouched vol (vol.newObj (P.counted grows) none type).2 := by
  rcases newObj_cases (P.counted grows) vol type with made | ⟨-, failed⟩
  · exact absurd ⟨made.1, made.2.1⟩ full
  obtain ⟨more, same⟩ := firstTnode_counted P grows vol type
  rw [failed]
  refine ⟨rfl, .of_objs rfl rfl rfl ?_⟩
  dsimp only
  split
  case isTrue made =>
    split
    case isTrue file =>
      obtain ⟨tnodes, -⟩ := more made file
      simp only [Pages.counted] at tnodes ⊢
      omega
    case isFalse other => exact same (.inr other)
  case isFalse failed => exact same (.inl (Bool.eq_false_iff.mpr failed))

/-- A creation that fails before the header is asked for leaves nothing behind. -/
theorem createObj_unreached (P : Pages Store) (grows : Store → Nat → Int) {type : ObjType}
    {parent : Nat} {name : List Char}
    (unreached : reachesHeader (P.counted grows) vol type parent name = false) (mode : Nat)
    (equivObj : Option Nat) (aliasStr : List Char) : Untouched vol
      (vol.createObj (P.counted grows) type parent name mode equivObj aliasStr).2 := by
  have not_all := mt (reachesHeader_iff (P.counted grows) vol type parent name).mpr
    (by simp [unreached])
  have copied : Untouched vol (vol.afterAlias (P.counted grows) type) := by
    refine .of_objs rfl rfl rfl ?_
    simp only [afterAlias, clonedAlias]
    split <;> rfl
  rw [createObj_eq]
  change Untouched vol (if _ then (none, vol) else
    if _ then (none, vol.afterAlias (P.counted grows) type) else _).2
  split
  case isTrue => exact .refl
  case isFalse free =>
    split
    case isTrue => exact copied
    case isFalse cloned =>
      have full : ¬(((vol.afterAlias (P.counted grows) type).firstTnode (P.counted grows) type).1 =
          true ∧ ((P.counted grows).kmalloc ((vol.afterAlias (P.counted grows) type).firstTnode
            (P.counted grows) type).2).1 = true) := by
        intro room
        refine not_all ⟨by simpa using free, ?_, room⟩
        exact not_not.mp cloned
      obtain ⟨failed, left⟩ := newObj_failed P grows _ type full
      split
      case h_1 => exact copied.trans left
      case h_2 number made => exact absurd (failed.symm.trans made) (by simp)

/-- The header of a new object is asked for: the object is there and ready, and what is left to do is to
write the header, or to delete the object again. -/
structure Reaches (P : Pages Store) (vol : Volume Store) (type : ObjType) (parent : Nat)
    (name : List Char) (outcome : Option Nat × Volume Store) (number : Nat) (ready : Volume Store) :
    Prop where
  fresh : vol.objs number = none
  number_eq : number = vol.newObjId.1
  finished : Finished number type (vol.afterAlias P type) ready
  adds : Adds number vol ready
  store : ready.store = (P.kmalloc ((vol.afterAlias P type).firstTnode P type).2).2
  outcome_eq : outcome =
    if (ready.updateOh P number (some name) false 0).1 then
      (some number, (ready.updateOh P number (some name) false 0).2.updateParent P (some parent))
    else (none, ((ready.updateOh P number (some name) false 0).2.delObj P number).2)

theorem createObj_reached (P : Pages Store) {vol : Volume Store} (tidy : vol.Tidy)
    (room : vol.HasBucket) {parent : Nat} {dir : Node} (dir_found : vol.objs parent = some dir)
    (is_dir : dir.variantType = .directory) (used : ¬isTrash parent) (visible : ¬dir.Hidden)
    {type : ObjType} {name : List Char} (mode : Nat) (equivObj : Option Nat) (aliasStr : List Char)
    (links : type = .hardlink →
      ∃ owner ownerObj, equivObj = some owner ∧ CanLink vol owner ownerObj)
    (reached : reachesHeader P vol type parent name = true) :
    ∃ number ready, Reaches P vol type parent name
      (vol.createObj P type parent name mode equivObj aliasStr) number ready := by
  obtain ⟨free, cloned, room_tnode, room_obj⟩ := (reachesHeader_iff P vol type parent name).mp reached
  have tidy' : (vol.afterAlias P type).Tidy := tidy.of_shape (sameShape_store vol _)
  have room' : (vol.afterAlias P type).HasBucket := room.store _
  rcases newObj_cases P (vol.afterAlias P type) type with
    ⟨-, -, made, adds, store⟩ | ⟨full, -⟩
  · rcases newObj_spec (P := P) tidy' room' type with ⟨failed, -⟩ | ⟨number, made', makes⟩
    · exact absurd (made.symm.trans failed) (by simp)
    obtain rfl := Option.some.inj (made.symm.trans made')
    obtain ⟨apart, counts⟩ := entered_apart ((vol.afterAlias P type).newObj P none type).2
      (vol.afterAlias P type).newObjId.1 type used name mode equivObj aliasStr
    refine ⟨(vol.afterAlias P type).newObjId.1, ((vol.afterAlias P type).newObj P none type).2.entered
      (vol.afterAlias P type).newObjId.1 type parent name mode equivObj aliasStr, makes.fresh,
      newObjId_afterAlias P vol type, ?_, ⟨?_, ?_, ?_, ?_⟩, ?_, ?_⟩
    · exact makes.entered tidy' dir_found is_dir used visible name mode equivObj aliasStr
        fun is_link => by
          obtain ⟨owner, ownerObj, equiv, can⟩ := links is_link
          exact ⟨owner, ownerObj, equiv, can.found, can.type, can.visible, can.used⟩
    · exact adds.apart.trans apart
    · exact counts.nObj.trans adds.nObj
    · exact counts.nUnlinkedFiles.trans adds.nUnlinkedFiles
    · exact counts.param.trans adds.param
    · exact counts.store.trans store
    · rw [createObj_eq, if_neg (by simpa using free)]
      dsimp only
      rw [if_neg (not_not.mpr cloned)]
      split
      case h_1 failed => exact absurd (made.symm.trans failed) (by simp)
      case h_2 number found =>
        obtain rfl := Option.some.inj (made.symm.trans found)
        rfl
  · exact absurd ⟨room_tnode, room_obj⟩ full

/-- A new object has nothing in it. -/
theorem Reaches.leaf {P : Pages Store} {vol : Volume Store} {type : ObjType} {parent : Nat}
    {name : List Char} {outcome : Option Nat × Volume Store} {ready : Volume Store}
    (reaches : Reaches P vol type parent name outcome number ready) (tidy : vol.Tidy) {obj : Node}
    (found : ready.objs number = some obj) : obj.children = [] := by
  refine List.eq_nil_iff_forall_not_mem.mpr fun child child_mem => ?_
  have sound := reaches.finished.tidy.sound
  have up : ready.parentOf child = some number :=
    (sound.listed child number).mpr (by simpa [forest, found] using child_mem)
  obtain ⟨childObj, child_found, child_up⟩ := Option.bind_eq_some_iff.mp up
  by_cases same : child = number
  · subst same
    have rooted := sound.rooted child (by simp [forest, found])
    exact absurd .refl (rooted.not_above_parent sound.orphan up)
  · have eq := reaches.adds.apart child same
    rw [child_found, Option.map_some] at eq
    obtain ⟨old, old_found, old_eq⟩ := Option.map_eq_some_iff.mp eq.symm
    have old_up : old.parent = some number := (congrArg Node.parent old_eq).trans child_up
    obtain ⟨dirObj, dir_found, -⟩ := tidy.directory child old number old_found old_up
    simp [reaches.fresh] at dir_found

/-- A header that could not be written, where no soft deleted file comes to its end, leaves the pages
only. -/
theorem updateOh_failed (spares : Spares (P.counted grows) vol) {name : Option (List Char)}
    (failed : (vol.updateOh (P.counted grows) number name false 0).1 = false) :
    ∃ pages, (vol.updateOh (P.counted grows) number name false 0).2 =
      { vol with store := { vol.store with pages } } := by
  have collected : ∃ pages, vol.checkGc (P.counted grows) =
      { vol with store := { vol.store with pages } } := by
    rcases spares.checkGc with eq | eq
    · exact ⟨vol.store.pages, eq⟩
    · exact ⟨_, eq⟩
  obtain ⟨pages, eq⟩ := collected
  simp only [updateOh, updateOhWith, eq] at failed ⊢
  split at failed
  · contradiction
  · rename_i real
    rw [if_neg real]
    cases found : vol.objs number with
    | none => exact ⟨pages, rfl⟩
    | some obj =>
      simp only [found] at failed ⊢
      split at failed
      · contradiction
      · rename_i unwritten
        rw [if_neg unwritten]
        exact ⟨_, rfl⟩

/-- A creation that fails once the header has been asked for. -/
theorem Reaches.failed {P : Pages Store} {vol : Volume Store} {type : ObjType} {parent : Nat}
    {name : List Char} {outcome : Option Nat × Volume Store} {ready : Volume Store}
    (reaches : Reaches P vol type parent name outcome number ready) (failed : outcome.1 = none) :
    (ready.updateOh P number (some name) false 0).1 = false ∧
      outcome.2 = ((ready.updateOh P number (some name) false 0).2.delObj P number).2 := by
  have eq := reaches.outcome_eq
  cases written : (ready.updateOh P number (some name) false 0).1 with
  | true => simp [eq, written] at failed
  | false => exact ⟨rfl, by simp [eq, written]⟩

/-- With the newer page format a creation whose header cannot be written counts as an unlinked file. -/
theorem Reaches.counts {P : Pages Store} {vol : Volume Store} {type : ObjType} {parent : Nat}
    {name : List Char} {outcome : Option Nat × Volume Store} {ready : Volume Store}
    (reaches : Reaches P vol type parent name outcome number ready) (tidy : vol.Tidy)
    (known : type ≠ .unknown) (failed : outcome.1 = none) (new : vol.param.isYaffs2 = true) :
    vol.nUnlinkedFiles < outcome.2.nUnlinkedFiles := by
  obtain ⟨-, eq⟩ := reaches.failed failed
  have finished := reaches.finished
  obtain ⟨obj, found, type_eq, visible, inode, soft, -⟩ := finished.found
  have leaf := reaches.leaf tidy found
  have ne : ¬isTrash number := fun isTrash => (tidy.movable_of_fresh reaches.fresh).1 isTrash.isTop
  have written : Steady (fun _ _ => True) (fun _ => False) ready
      (ready.updateOh P number (some name) false 0).2 :=
    updateOhWith_other (observes_all P objectIdDeleted).minds (calm_checkGc (observes_all P _).minds)
      finished.tidy.trashStands.firm (fun same => ne (.inr same)) (some name) false 0
  obtain ⟨tidy', swept⟩ := updateOh_keeps (P := P) finished.tidy number (some name) false 0
  obtain ⟨obj', found', core, -⟩ := swept.find found soft
  obtain ⟨type', parent', -, soft', -⟩ := Node.core_eq_iff.mp core
  have visible' : ¬obj'.Hidden := fun hidden => visible ((Node.hidden_congr parent').mp hidden)
  have unlinked' : obj'.unlinked = false := Bool.eq_false_iff.mpr fun unlinked =>
    visible' ((tidy'.node number obj' found').hidden_iff.mp unlinked)
  have leaf' := swept.leaf finished.tidy tidy' found leaf found'
  have param : (ready.updateOh P number (some name) false 0).2.param.isYaffs2 = true := by
    rw [written.param, reaches.adds.param]
    exact new
  rw [eq, ← reaches.adds.nUnlinkedFiles]
  refine written.unlinkedFiles.trans_lt ?_
  exact delObj_counts P tidy'.trashStands ne param found' (soft'.trans soft) unlinked' visible' leaf'
    (by rw [type', type_eq]; exact known)

/-- With the older page format a creation whose header cannot be written leaves nothing behind, if no
soft deleted file comes to its end meanwhile. -/
theorem Reaches.untouched {type : ObjType} {parent : Nat} {name : List Char}
    {outcome : Option Nat × Volume (Census Store)} {ready : Volume (Census Store)}
    (reaches : Reaches (P.counted grows) vol type parent name outcome number ready)
    (tidy : vol.Tidy) (tidy' : outcome.2.Tidy) (known : type ≠ .unknown) (failed : outcome.1 = none)
    (old : vol.param.isYaffs2 = false) (spares : Spares (P.counted grows) vol)
    (made : ((vol.afterAlias (P.counted grows) type).firstTnode (P.counted grows) type).1 = true) :
    Untouched vol outcome.2 := by
  obtain ⟨unwritten, eq⟩ := reaches.failed failed
  obtain ⟨obj, found, type_eq, visible, inode, soft, -⟩ := reaches.finished.found
  have leaf := reaches.leaf tidy found
  have spares' : Spares (P.counted grows) ready := spares.apart reaches.adds.apart fun obj' found' => by
    obtain rfl := Option.some.inj (found.symm.trans found')
    exact soft
  obtain ⟨more, same⟩ := firstTnode_counted P grows (vol.afterAlias (P.counted grows) type) type
  have copied : (vol.afterAlias (P.counted grows) type).store.nTnodes = vol.store.nTnodes := by
    simp only [afterAlias, clonedAlias]
    split <;> rfl
  have tnodes : ready.store.nTnodes = vol.store.nTnodes + if type = .file then 1 else 0 := by
    rw [reaches.store, ← copied]
    split
    case isTrue file => exact (more made file).1
    case isFalse other => exact (same (.inr other)).trans (add_zero _).symm
  have empty : type = .file → ready.store.empty number = true := by
    intro file
    rw [reaches.store, reaches.number_eq, ← newObjId_afterAlias (P.counted grows) vol type]
    exact (more made file).2
  obtain ⟨pages, written⟩ := updateOh_failed spares' unwritten
  obtain ⟨removes, freed⟩ := delObj_yaffs1 { ready with store := { ready.store with pages } }
    (by rw [← old, ← reaches.adds.param]) found inode leaf (by rw [type_eq]; exact known) spares'
    (by rw [type_eq]; exact empty)
  rw [eq, written] at tidy' ⊢
  refine .of_apart tidy reaches.fresh tidy' removes.gone (reaches.adds.apart.trans removes.apart) ?_ ?_ ?_
  · rw [removes.nObj]
    change ready.nObj - 1 = vol.nObj
    rw [reaches.adds.nObj]
    omega
  · exact removes.nUnlinkedFiles.trans reaches.adds.nUnlinkedFiles
  · rw [freed, type_eq]
    change ready.store.nTnodes - _ = _
    rw [tnodes]
    omega

/-- A creation that fails leaves nothing behind exactly if it fails before the header is asked for, or
if the page format is the older one.  Garbage collection, which may end soft deleted files of the older
format, must not do so meanwhile. -/
theorem untouched_iff (tidy : vol.Tidy) (room : vol.HasBucket) {parent : Nat} {dir : Node}
    (dir_found : vol.objs parent = some dir) (is_dir : dir.variantType = .directory)
    (used : ¬isTrash parent) (visible : ¬dir.Hidden) {type : ObjType} (known : type ≠ .unknown)
    {name : List Char} {mode : Nat} {equivObj : Option Nat} {aliasStr : List Char}
    (links : type = .hardlink →
      ∃ owner ownerObj, equivObj = some owner ∧ CanLink vol owner ownerObj)
    (spares : vol.param.isYaffs2 = false → Spares (P.counted grows) vol)
    (failed : (vol.createObj (P.counted grows) type parent name mode equivObj aliasStr).1 = none) :
    Untouched vol (vol.createObj (P.counted grows) type parent name mode equivObj aliasStr).2 ↔
      reachesHeader (P.counted grows) vol type parent name = false ∨ vol.param.isYaffs2 = false := by
  cases reached : reachesHeader (P.counted grows) vol type parent name with
  | false => exact iff_of_true (createObj_unreached P grows reached mode equivObj aliasStr) (.inl rfl)
  | true =>
    obtain ⟨number, ready, reaches⟩ := createObj_reached (P.counted grows) tidy room dir_found is_dir used
      visible mode equivObj aliasStr links reached
    cases format : vol.param.isYaffs2 with
    | false =>
      obtain ⟨-, -, made, -⟩ := (reachesHeader_iff _ _ _ _ _).mp reached
      have created := createObj_keeps (P := P.counted grows) tidy room dir_found is_dir used visible type
        name mode equivObj aliasStr links
      exact iff_of_true (reaches.untouched tidy created.tidy known failed format (spares format) made)
        (.inr rfl)
    | true =>
      have counted := reaches.counts tidy known failed format
      refine iff_of_false (fun untouched => ?_) (by simp)
      exact absurd untouched.nUnlinkedFiles counted.ne'

/-- Pages that are full: no header can be written. -/
abbrev fullPages : Pages (Census Unit) :=
  ({ Vfs.quietPages with writeHeader := fun store _ _ _ _ _ => (false, store) } : Pages Unit).counted
    fun _ _ => 0

/-- A freshly formatted device with full pages. -/
def fullVolume (isYaffs2 : Bool) : Volume (Census Unit) :=
  (({ param := { isYaffs2 }, store := { pages := () } } : Volume (Census Unit)).createInitialDir
    fullPages).2

theorem tidy_fullVolume (isYaffs2 : Bool) : (fullVolume isYaffs2).Tidy := by
  refine createInitialDir_tidy rfl rfl ?_
  cases isYaffs2 <;> decide +kernel

theorem spares_fullPages (vol : Volume (Census Unit)) : Spares fullPages vol := by
  intro store number obj _ _
  exact ⟨List.not_mem_nil, fun _ _ => List.not_mem_nil⟩

/-- The root directory of a freshly formatted device. -/
def freshRoot : Node where
  variantType := .directory
  ystMode := 0o666 ||| sIfDir
  children := [objectIdLostNFound]
  fake := true

/-- With the older page format a directory that cannot be created on full pages leaves nothing. -/
theorem untouched_of_yaffs1 : Untouched (fullVolume false)
    ((fullVolume false).createObj fullPages .directory objectIdRoot "d".toList 0o777 none []).2 := by
  have root : (fullVolume false).objs objectIdRoot = some freshRoot := by decide +kernel
  have visible : ¬freshRoot.Hidden := by
    rintro ⟨trash, -, up⟩
    simp [freshRoot] at up
  have links : ObjType.directory = .hardlink → ∃ owner ownerObj,
      (none : Option Nat) = some owner ∧ (fullVolume false).CanLink owner ownerObj := by
    intro is_link
    contradiction
  have room : (fullVolume false).HasBucket := by decide +kernel
  have failed : ((fullVolume false).createObj fullPages .directory objectIdRoot "d".toList 0o777 none
      []).1 = none := by
    decide +kernel
  have old : (fullVolume false).param.isYaffs2 = false := by decide +kernel
  exact (untouched_iff (tidy_fullVolume false) room root rfl (by decide) visible (by decide) links
    (fun _ => spares_fullPages _) failed).mpr (.inr old)

/-- With the newer page format a directory that cannot be created on full pages counts as an unlinked
file. -/
theorem not_untouched_of_full : ¬∀ (vol : Volume (Census Unit)) (type : ObjType) (parent : Nat)
    (name : List Char) (mode : Nat) (equivObj : Option Nat) (aliasStr : List Char), vol.Tidy →
    (vol.createObj fullPages type parent name mode equivObj aliasStr).1 = none →
      Untouched vol (vol.createObj fullPages type parent name mode equivObj aliasStr).2 := by
  intro always
  have untouched := always (fullVolume true) .directory objectIdRoot "d".toList 0o777 none []
    (tidy_fullVolume true) (by decide +kernel)
  have before : (fullVolume true).nUnlinkedFiles = 0 := by decide +kernel
  have counted : ((fullVolume true).createObj fullPages .directory objectIdRoot "d".toList 0o777 none
      []).2.nUnlinkedFiles = 1 := by
    decide +kernel
  have same := untouched.nUnlinkedFiles
  rw [before, counted] at same
  exact absurd same (by decide)

end Volume

end Yaffs
