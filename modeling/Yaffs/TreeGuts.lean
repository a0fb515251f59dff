import Yaffs.Tree

/-!
# The guts layer keeps the tree

Every operation of the guts layer on names and directories leaves the objects in order, and changes
none but those it is asked to change.  Objects are moved when they are created, unlinked, deleted or
renamed.  The one thing that the guts layer does not check is whether an object is moved below itself.
-/

namespace Yaffs

namespace Volume

variable {Store : Type} {P : Pages Store} {vol after : Volume Store} {loose : Option Nat}
  {touched : Nat → Prop} {relinks : Prop}

/-! ## Facts about objects in order -/

theorem parentOf_eq {number : Nat} {obj : Node} (found : vol.objs number = some obj) :
    vol.parentOf number = obj.parent := by
  simp [parentOf, found]

/-- Only directories have children. -/
theorem TidyBut.leaf_of_type (tidy : vol.TidyBut loose) {number : Nat} {obj : Node}
    (found : vol.objs number = some obj) (type : obj.variantType ≠ .directory) :
    obj.children = [] := by
  refine List.eq_nil_iff_forall_not_mem.mpr fun child child_mem => ?_
  have up : vol.parentOf child = some number :=
    (tidy.sound.listed child number).mpr (by simpa [forest, found] using child_mem)
  obtain ⟨childObj, child_found, parent⟩ := Option.bind_eq_some_iff.mp up
  obtain ⟨dirObj, dir_found, is_dir⟩ := tidy.directory child childObj number child_found parent
  obtain rfl := Option.some.inj (dir_found.symm.trans found)
  exact type is_dir

/-- An object without children is above itself only. -/
theorem TidyBut.not_above_of_leaf (tidy : vol.TidyBut loose) {number start : Nat} {obj : Node}
    (found : vol.objs number = some obj) (leaf : obj.children = []) (ne : start ≠ number) :
    ¬Forest.Above vol.parentOf number start := by
  intro above
  exact ne (tidy.sound.eq_of_above (by simp [forest, found, leaf]) above)

/-- A top is in no directory. -/
theorem TidyBut.not_hidden_of_top (tidy : vol.TidyBut loose) {number : Nat} {obj : Node}
    (found : vol.objs number = some obj) (isTop : isTop number) : ¬obj.Hidden := by
  rintro ⟨trash, -, up⟩
  have orphan := tidy.sound.orphan number isTop
  simp [forest, parentOf, found, up] at orphan

/-- What is no longer in use may be moved. -/
theorem TidyBut.movable_of_hidden (tidy : vol.TidyBut loose) {number : Nat} {obj : Node}
    (found : vol.objs number = some obj) (hidden : obj.Hidden) :
    ¬isTop number ∧ number ≠ objectIdLostNFound := by
  refine ⟨fun isTop => tidy.not_hidden_of_top found isTop hidden, ?_⟩
  rintro rfl
  obtain ⟨obj', found', -, -, -, unlinked⟩ := tidy.fixed _ (.inr rfl)
  obtain rfl := Option.some.inj (found.symm.trans found')
  have unlinked' := (tidy.node _ _ found).hidden_iff.mpr hidden
  simp [unlinked] at unlinked'

/-- What is no directory, or may be renamed or unlinked, may be moved. -/
theorem TidyBut.movable (tidy : vol.TidyBut loose) {number : Nat} {obj : Node}
    (found : vol.objs number = some obj) (free : obj.variantType ≠ .directory ∨
      obj.renameAllowed = true ∨ obj.unlinkAllowed = true) :
    ¬isTop number ∧ number ≠ objectIdLostNFound := by
  have not_fixed : ¬(isTop number ∨ number = objectIdLostNFound) := by
    intro isFixed
    obtain ⟨obj', found', is_dir, not_rename, not_unlink, -⟩ := tidy.fixed number isFixed
    obtain rfl := Option.some.inj (found.symm.trans found')
    rcases free with type | rename | unlink
    · exact type is_dir
    · simp [not_rename] at rename
    · simp [not_unlink] at unlink
  exact ⟨fun isTop => not_fixed (.inl isTop), fun same => not_fixed (.inr same)⟩

/-- Only files are soft deleted. -/
theorem TidyBut.soft_of_type (tidy : vol.TidyBut loose) {number : Nat} {obj : Node}
    (found : vol.objs number = some obj) (type : obj.variantType ≠ .file) : obj.softDel = false := by
  refine Bool.eq_false_iff.mpr fun soft => ?_
  obtain ⟨-, is_file, -⟩ := (tidy.node number obj found).softDel soft
  exact type is_file

/-- Objects of different types are different. -/
theorem ne_of_type {number other : Nat} {obj otherObj : Node} (found : vol.objs number = some obj)
    (found' : vol.objs other = some otherObj) (type : obj.variantType ≠ otherObj.variantType) :
    number ≠ other := by
  rintro rfl
  obtain rfl := Option.some.inj (found.symm.trans found')
  exact type rfl

/-- No link leads to an object that is no hard link, or no longer in use. -/
theorem TidyBut.not_linked (tidy : vol.TidyBut loose) {number : Nat} {obj : Node}
    (found : vol.objs number = some obj) (free : obj.variantType ≠ .hardlink ∨ obj.Hidden) :
    ∀ other otherObj, vol.objs other = some otherObj → number ∉ otherObj.hardLinks := by
  intro other otherObj found' in_ring
  obtain ⟨linkObj, link_found, is_link, -, visible⟩ := (tidy.node _ _ found').ring number in_ring
  obtain rfl := Option.some.inj (found.symm.trans link_found)
  exact free.elim (fun type => type is_link) visible

/-- The directory of an object that is in use is in use itself. -/
theorem TidyBut.parent_visible (tidy : vol.TidyBut loose) {number directory : Nat}
    {obj dirObj : Node} (found : vol.objs number = some obj) (up : obj.parent = some directory)
    (dir_found : vol.objs directory = some dirObj) : ¬dirObj.Hidden := by
  intro hidden
  have child := (mem_children_iff tidy found dir_found).mpr up
  simp [(tidy.node _ _ dir_found).hidden_leaf hidden] at child

theorem trash_found (tidy : vol.TidyBut loose) {trash : Nat} (isTrash : isTrash trash) :
    ∃ dirObj, vol.objs trash = some dirObj ∧ dirObj.variantType = .directory := by
  obtain ⟨dirObj, dir_found, is_dir, -⟩ := tidy.fixed trash (.inl isTrash.isTop)
  exact ⟨dirObj, dir_found, is_dir⟩

theorem parentOf_of_sameShape (same : SameShape vol after) : after.parentOf = vol.parentOf :=
  congrArg Forest.parent same.skeleton.frame.forest_eq

/-! ## Moving -/

/-- An object can be moved into a directory. -/
structure CanMove (vol : Volume Store) (number directory : Nat) (obj dirObj : Node) : Prop where
  found : vol.objs number = some obj
  movable : ¬isTop number ∧ number ≠ objectIdLostNFound
  dir_found : vol.objs directory = some dirObj
  is_dir : dirObj.variantType = .directory
  away : ¬Forest.Above vol.parentOf number directory
  visible : ¬isTrash directory → ¬dirObj.Hidden ∧ ¬obj.Hidden
  trash : isTrash directory → obj.hardLinks = [] ∧ obj.children = [] ∧
    ∀ other otherObj, vol.objs other = some otherObj → number ∉ otherObj.hardLinks

theorem CanMove.of_shape {number directory : Nat} {obj dirObj : Node}
    (can : CanMove vol number directory obj dirObj) (same : SameShape vol after) :
    ∃ obj' dirObj', CanMove after number directory obj' dirObj' ∧ obj'.shape = obj.shape := by
  obtain ⟨obj', found', eq⟩ := same.symm.find can.found
  obtain ⟨dirObj', dir_found', dir_eq⟩ := same.symm.find can.dir_found
  obtain ⟨core, children, links⟩ := Node.shape_eq_iff.mp eq
  obtain ⟨dir_core, -, -⟩ := Node.shape_eq_iff.mp dir_eq
  obtain ⟨-, parent, -⟩ := Node.core_eq_iff.mp core
  obtain ⟨dir_type, dir_parent, -⟩ := Node.core_eq_iff.mp dir_core
  refine ⟨obj', dirObj', ⟨found', can.movable, dir_found', dir_type.symm.trans can.is_dir, ?_, ?_, ?_⟩,
    eq.symm⟩
  · rw [parentOf_of_sameShape same]
    exact can.away
  · rw [← Node.hidden_congr parent, ← Node.hidden_congr dir_parent]
    exact can.visible
  · intro isTrash
    obtain ⟨no_links, leaf, no_link⟩ := can.trash isTrash
    refine ⟨links ▸ no_links, children ▸ leaf, fun other otherObj' other_found => ?_⟩
    obtain ⟨otherObj, other_found', other_eq⟩ := same.find other_found
    rw [(Node.shape_eq_iff.mp other_eq).2.2]
    exact no_link other otherObj other_found'

/-- What has neither children nor links can be given up. -/
theorem CanMove.to_trash (tidy : vol.TidyBut loose) {number trash : Nat} {obj : Node}
    (found : vol.objs number = some obj) (movable : ¬isTop number ∧ number ≠ objectIdLostNFound)
    (isTrash : isTrash trash) (leaf : obj.children = []) (no_links : obj.hardLinks = [])
    (no_link : ∀ other otherObj, vol.objs other = some otherObj → number ∉ otherObj.hardLinks) :
    ∃ dirObj, CanMove vol number trash obj dirObj := by
  obtain ⟨dirObj, dir_found, is_dir⟩ := trash_found tidy isTrash
  have ne : trash ≠ number := by
    rintro rfl
    exact movable.1 isTrash.isTop
  exact ⟨dirObj, found, movable, dir_found, is_dir, tidy.not_above_of_leaf found leaf ne,
    fun not_trash => absurd isTrash not_trash, fun _ => ⟨no_links, leaf, no_link⟩⟩

/-- A loose object that is given up is loose no longer. -/
theorem TidyBut.settle {number : Nat} {obj : Node} (tidy : vol.TidyBut (some number))
    (found : vol.objs number = some obj) (settled : obj.variantType = .hardlink → obj.Hidden) :
    vol.TidyBut none :=
  { tidy with
    node := fun other otherObj found' =>
      { tidy.node other otherObj found' with
        linked := by
          intro is_link visible _
          refine (tidy.node other otherObj found').linked is_link visible ?_
          rintro same
          obtain rfl := Option.some.inj same
          obtain rfl := Option.some.inj (found.symm.trans found')
          exact visible (settled is_link) } }

theorem moved_hidden_of_trash {number trash : Nat} {obj : Node} (isTrash : isTrash trash) :
    (moved trash number number obj).Hidden := by
  rw [moved_hidden_iff, if_pos rfl]
  exact isTrash

/-- Moving an object keeps the objects in order. -/
theorem CanMove.tidy {number directory : Nat} {obj dirObj : Node} (tidy : vol.TidyBut loose)
    (can : CanMove vol number directory obj dirObj)
    (only : loose = none ∨ loose = some number ∧ isTrash directory) :
    (vol.addObjToDir directory number).TidyBut none := by
  have but := tidy.addObjToDir can.found can.movable can.dir_found can.is_dir can.away can.visible
    can.trash
  rcases only with rfl | ⟨rfl, isTrash⟩
  · exact but
  · have placed : (vol.addObjToDir directory number).objs number =
        some (moved directory number number obj) := by
      rw [addObjToDir_objs tidy can.found, can.found]
      rfl
    exact but.settle placed fun _ => moved_hidden_of_trash isTrash

/-! ## Writing headers -/

/-- Nothing is changed but soft deleted files. -/
abbrev Swept (before after : Volume Store) : Prop := Changes (fun _ => False) False before after

theorem Swept.changes (swept : Swept vol after) : Changes touched relinks vol after :=
  Changes.mono swept (fun _ => False.elim) False.elim

/-- An operation leaves the objects in order and sweeps at most soft deleted files. -/
def Sweeps (gc : Volume Store → Volume Store) : Prop :=
  ∀ vol, vol.Tidy → (gc vol).Tidy ∧ Swept vol (gc vol)

theorem sweeps_id : Sweeps (id : Volume Store → Volume Store) :=
  fun _ tidy => ⟨tidy, Changes.refl⟩

theorem sameShape_store (vol : Volume Store) (store : Store) : SameShape vol { vol with store } := ⟨fun _ => rfl, rfl⟩

variable {gc : Volume Store → Volume Store}

theorem updateOhWith_shape (vol : Volume Store) (number : Nat) (name : Option (List Char)) (isShrink : Bool)
    (shadows : Nat) : SameShape vol (vol.updateOhWith P gc number name isShrink shadows).2 ∨
      SameShape (gc vol) (vol.updateOhWith P gc number name isShrink shadows).2 := by
  have written (store : Store) (dirty : Node → Bool) : SameShape (gc vol)
      (({ gc vol with store } : Volume Store).modify number
        fun obj => { obj with dirty := dirty obj }) :=
    (sameShape_store _ store).trans (Same.modify number fun _ => rfl)
  simp only [updateOhWith]
  split
  · exact .inl .refl
  · right
    split
    · exact .refl
    · split
      · exact written _ _
      · exact sameShape_store _ _

theorem updateOhWith_keeps (sweeps : Sweeps gc) (tidy : vol.Tidy) (number : Nat)
    (name : Option (List Char)) (isShrink : Bool) (shadows : Nat) :
    (vol.updateOhWith P gc number name isShrink shadows).2.Tidy ∧
      Swept vol (vol.updateOhWith P gc number name isShrink shadows).2 := by
  obtain ⟨tidy', swept⟩ := sweeps vol tidy
  have written : SameShape vol (vol.updateOhWith P gc number name isShrink shadows).2 ∨
      SameShape (gc vol) (vol.updateOhWith P gc number name isShrink shadows).2 :=
    updateOhWith_shape vol number name isShrink shadows
  rcases written with same | same
  · exact ⟨tidy.of_shape same, same.changes⟩
  · exact ⟨tidy'.of_shape same, swept.trans same.changes⟩

/-- After an object has been moved it is in its new directory and otherwise as before. -/
structure MovedTo (number directory : Nat) (obj : Node) (before after : Volume Store) : Prop where
  tidy : after.Tidy
  changes : Changes (· = number) False before after
  found : ∃ obj', after.objs number = some obj' ∧
    obj'.core = (moved directory number number obj).core

theorem core_moved {directory number : Nat} {obj other : Node} (same : obj.core = other.core) :
    (moved directory number number obj).core = (moved directory number number other).core := by
  simp only [Node.core_eq_iff, moved] at same ⊢
  tauto

/-- Moving an object under a new name, with the header that is written afterwards. -/
theorem changeObjName_moves (sweeps : Sweeps gc) (tidy : vol.TidyBut loose) (hashed : vol.Hashed)
    {number directory : Nat} {obj dirObj : Node} (can : CanMove vol number directory obj dirObj)
    (only : loose = none ∨ loose = some number ∧ isTrash directory)
    (kept : obj.softDel = true → gc = id) {change : Node → Node}
    (same : ∀ obj, (change obj).shape = obj.shape) {middle : Volume Store}
    (objs : middle.objs = ((vol.modify number change).addObjToDir directory number).objs)
    (bucket : middle.objBucket = vol.objBucket) (name : Option (List Char)) (isShrink : Bool)
    (shadows : Nat) :
    MovedTo number directory obj vol (middle.updateOhWith P gc number name isShrink shadows).2 := by
  have renamed : SameShape vol (vol.modify number change) := Same.modify number same
  obtain ⟨obj', dirObj', can', eq⟩ := can.of_shape renamed
  have tidy' := tidy.of_shape renamed
  have arrived : SameShape ((vol.modify number change).addObjToDir directory number) middle :=
    ⟨fun other => by rw [objs], by rw [bucket, addObjToDir_objBucket]; rfl⟩
  have middle_tidy : middle.Tidy :=
    { (can'.tidy tidy' only).of_shape arrived,
      ((hashed.of_same renamed).addObjToDir tidy' can'.found).of_same arrived with }
  have middle_changes : Changes (· = number) False vol middle :=
    (renamed.changes.trans (addObjToDir_changes tidy' can'.found)).trans arrived.changes
  have middle_found : middle.objs number = some (moved directory number number obj') := by
    rw [objs, addObjToDir_objs tidy' can'.found, can'.found]
    rfl
  have core : (moved directory number number obj').core = (moved directory number number obj).core :=
    core_moved (Node.shape_eq_iff.mp eq).1
  obtain ⟨after_tidy, swept⟩ := updateOhWith_keeps (P := P) sweeps middle_tidy number name isShrink
    shadows
  refine ⟨after_tidy, middle_changes.trans swept.changes, ?_⟩
  have soft_eq : (moved directory number number obj').softDel = obj.softDel :=
    (Node.core_eq_iff.mp (Node.shape_eq_iff.mp eq).1).2.2.2.1
  cases soft : obj.softDel with
  | false =>
    obtain ⟨last, last_found, last_core, -⟩ :=
      swept.kept number _ middle_found id (soft_eq.trans soft)
    exact ⟨last, last_found, last_core.trans core⟩
  | true =>
    obtain rfl := kept soft
    have same : SameShape middle (middle.updateOhWith P id number name isShrink shadows).2 :=
      (updateOhWith_shape middle number name isShrink shadows).elim id id
    obtain ⟨last, last_found, last_eq⟩ := same.symm.find middle_found
    exact ⟨last, last_found, (Node.shape_eq_iff.mp last_eq).1.symm.trans core⟩

theorem shape_setObjName (number : Nat) (name : List Char) (obj : Node) :
    ({ obj.setObjName number name with dirty := true } : Node).shape = obj.shape := by
  rw [Node.setObjName]
  split <;> rfl

theorem modify_eq_self {number : Nat} {change : Node → Node}
    (same : ∀ obj, vol.objs number = some obj → change obj = obj) (other : Nat) :
    (vol.modify number change).objs other = vol.objs other := by
  rw [modify_objs]
  cases found : vol.objs other with
  | none => rfl
  | some obj =>
    by_cases eq : other = number
    · subst eq
      simp [same obj found]
    · simp [eq]

/-- A change of name either fails without any change or moves the object, and it does not fail for
what is given up. -/
theorem changeObjNameWith_spec (sweeps : Sweeps gc) (tidy : vol.TidyBut loose) (hashed : vol.Hashed)
    {number directory : Nat} {obj dirObj : Node} (can : CanMove vol number directory obj dirObj)
    (only : loose = none ∨ loose = some number ∧ isTrash directory)
    (kept : obj.softDel = true → gc = id) (newDir : Option Nat)
    (target : newDir.or (vol.parentOf number) = some directory) (newName : List Char) (force : Bool)
    (shadows : Nat) :
    (vol.changeObjNameWith P gc number newDir newName force shadows = (false, vol) ∧
        ¬isTrash directory) ∨
      MovedTo number directory obj vol
        (vol.changeObjNameWith P gc number newDir newName force shadows).2 := by
  have is_dir : vol.isType directory .directory = true := by
    simp [isType, can.dir_found, can.is_dir]
  simp only [changeObjNameWith, target]
  split
  case isTrue refused =>
    refine .inl ⟨rfl, fun isTrash => ?_⟩
    rcases isTrash with rfl | rfl <;> simp [is_dir] at refused
  case isFalse =>
    right
    split
    case isFalse =>
      exact changeObjName_moves sweeps tidy hashed can only kept (shape_setObjName number newName)
        rfl (by simp [Volume.modify]) _ _ _
    case isTrue unlinkOp =>
      refine changeObjName_moves sweeps tidy hashed can only kept (shape_setObjName number newName)
        (funext (modify_eq_self ?_)) (by simp [Volume.modify]) _ _ _
      intro placed placed_found
      obtain ⟨obj', dirObj', can', -⟩ :=
        can.of_shape (Same.modify number (shape_setObjName number newName))
      obtain ⟨old, -, rfl⟩ := addObjToDir_find
        (tidy.of_shape (Same.modify number (shape_setObjName number newName))) can'.found
        placed_found
      have isTrash : isTrash directory := .inl (by simpa using unlinkOp)
      simp [moved, isTrash]

/-! ## Deleting an object -/

/-- An object can be deleted: nothing depends on it. -/
structure Deletable (vol : Volume Store) (number : Nat) (obj : Node) : Prop where
  found : vol.objs number = some obj
  movable : ¬isTop number ∧ number ≠ objectIdLostNFound
  leaf : obj.children = []
  no_links : obj.hardLinks = []
  no_link : ∀ other otherObj, vol.objs other = some otherObj → number ∉ otherObj.hardLinks
  inode : obj.myInode = none

/-- An object has been deleted. -/
structure DeletedFrom (number : Nat) (before after : Volume Store) : Prop where
  tidy : after.Tidy
  changes : Changes (· = number) False before after
  gone : after.objs number = none

theorem Deletable.store {number : Nat} {obj : Node} (deletable : Deletable vol number obj)
    (store : Store) : Deletable { vol with store } number obj :=
  ⟨deletable.found, deletable.movable, deletable.leaf, deletable.no_links, deletable.no_link,
    deletable.inode⟩

theorem Deletable.can_trash (tidy : vol.TidyBut loose) {number trash : Nat} {obj : Node}
    (deletable : Deletable vol number obj) (isTrash : isTrash trash) :
    ∃ dirObj, CanMove vol number trash obj dirObj :=
  CanMove.to_trash tidy deletable.found deletable.movable isTrash deletable.leaf deletable.no_links
    deletable.no_link

/-- What is no longer in use can be deleted as soon as no inode holds it. -/
theorem Deletable.of_hidden (tidy : vol.TidyBut loose) {number : Nat} {obj : Node}
    (found : vol.objs number = some obj) (hidden : obj.Hidden) (inode : obj.myInode = none) :
    Deletable vol number obj where
  found := found
  movable := tidy.movable_of_hidden found hidden
  leaf := (tidy.node number obj found).hidden_leaf hidden
  no_links := (tidy.node number obj found).trash_ring (.inl hidden)
  no_link := tidy.not_linked found (.inr hidden)
  inode := inode

theorem Deletable.drop (tidy : vol.TidyBut loose) (hashed : vol.Hashed) {number : Nat} {obj : Node}
    (deletable : Deletable vol number obj) (only : loose = none ∨ loose = some number)
    (store : Store) :
    DeletedFrom number vol
      (({ vol.removeObjFromDir number with store } : Volume Store).freeObj number) := by
  have dropped : Dropped number vol
      (({ vol.removeObjFromDir number with store } : Volume Store).freeObj number) :=
    dropped_freeObj tidy deletable.found deletable.inode rfl (by simp)
  refine ⟨{ tidy.of_dropped dropped deletable.found deletable.movable deletable.leaf
    deletable.no_links deletable.no_link only, hashed.of_dropped dropped with },
    dropped.changes deletable.found deletable.inode, (dropped.objs number).trans (if_pos rfl)⟩

theorem genericObjDelWith_deletes (sweeps : Sweeps gc) (tidy : vol.TidyBut loose)
    (hashed : vol.Hashed) {number : Nat} {obj : Node} (deletable : Deletable vol number obj)
    (only : loose = none ∨ loose = some number) (kept : obj.softDel = true → gc = id) :
    DeletedFrom number vol (vol.genericObjDelWith P gc number) := by
  have same := sameShape_store vol (P.invalidateWholeCache vol.store number)
  have tidy' := tidy.of_shape same
  have hashed' := hashed.of_same same
  have deletable' := deletable.store (P.invalidateWholeCache vol.store number)
  simp only [genericObjDelWith]
  split
  case isFalse =>
    obtain ⟨done, changes, gone⟩ := deletable'.drop tidy' hashed' only _
    exact ⟨done, same.changes.trans changes, gone⟩
  case isTrue =>
    have isTrash : isTrash objectIdDeleted := .inr rfl
    obtain ⟨dirObj, can⟩ := deletable'.can_trash tidy' isTrash
    have moves := (changeObjNameWith_spec (P := P) sweeps tidy' hashed' can
      (only.imp id fun same => ⟨same, isTrash⟩) kept (some objectIdDeleted) rfl
      "deleted".toList false 0).resolve_left fun refused => refused.2 isTrash
    obtain ⟨obj', found', core⟩ := moves.found
    have hidden : obj'.Hidden :=
      (Node.hidden_congr (Node.core_eq_iff.mp core).2.1).mpr (moved_hidden_of_trash isTrash)
    have inode : obj'.myInode = none :=
      (Node.core_eq_iff.mp core).2.2.2.2.2.2.2.2.trans deletable.inode
    obtain ⟨done, changes, gone⟩ := (Deletable.of_hidden moves.tidy.toTidyBut found' hidden inode).drop
      moves.tidy.toTidyBut moves.tidy.toHashed (.inl rfl) _
    exact ⟨done, (same.changes.trans moves.changes).trans changes, gone⟩

/-! ## Sweeping -/

/-- Changes to a soft deleted file count as sweeping. -/
theorem Changes.swept {number : Nat} {obj : Node} (changes : Changes (· = number) False vol after)
    (found : vol.objs number = some obj) (soft : obj.softDel = true) (gone : after.objs number = none) :
    Swept vol after where
  kept other otherObj found' _ not_soft := by
    have ne : other ≠ number := by
      rintro rfl
      obtain rfl := Option.some.inj (found.symm.trans found')
      simp [soft] at not_soft
    exact changes.kept other otherObj found' ne not_soft
  held := changes.held
  known other otherObj' found' := by
    have ne : other ≠ number := by
      rintro rfl
      simp [gone] at found'
    obtain ⟨otherObj, found, type, inode, core⟩ := changes.known other otherObj' found'
    exact ⟨otherObj, found, type, inode, fun _ => core ne⟩

theorem gcCleanUp_keeps (tidy : vol.Tidy) (number : Nat) :
    (gcCleanUp P vol number).Tidy ∧ Swept vol (gcCleanUp P vol number) := by
  simp only [gcCleanUp]
  split
  case h_1 => exact ⟨tidy, Changes.refl⟩
  case h_2 obj found =>
    split
    case isFalse => exact ⟨tidy, Changes.refl⟩
    case isTrue deleted =>
      have node := tidy.node number obj found
      obtain ⟨unlinked, -, inode⟩ := node.softDel deleted.2.1
      have same := sameShape_store vol (P.freeTnodes vol.store number)
      have tidy' := tidy.of_shape same
      have done := genericObjDelWith_deletes (P := P) sweeps_id tidy'.toTidyBut tidy'.toHashed
        ((Deletable.of_hidden tidy.toTidyBut found (node.hidden_iff.mp unlinked) inode).store _)
        (.inl rfl) fun _ => rfl
      have swept : Swept vol _ := (same.changes.trans done.changes).swept found deleted.2.1 done.gone
      exact ⟨done.tidy.of_shape ⟨fun _ => rfl, rfl⟩, swept.trans (Same.changes ⟨fun _ => rfl, rfl⟩)⟩

theorem sweep_keeps (tidy : vol.Tidy) (collected : List Nat × Store) :
    (vol.sweep P collected).Tidy ∧ Swept vol (vol.sweep P collected) := by
  have same := sameShape_store vol collected.2
  have clean (numbers : List Nat) (vol : Volume Store) (tidy : vol.Tidy) :
      (numbers.foldl (gcCleanUp P) vol).Tidy ∧ Swept vol (numbers.foldl (gcCleanUp P) vol) := by
    induction numbers generalizing vol with
    | nil => exact ⟨tidy, Changes.refl⟩
    | cons number numbers ih =>
      obtain ⟨tidy', swept⟩ := gcCleanUp_keeps (P := P) tidy number
      exact ⟨(ih _ tidy').1, swept.trans (ih _ tidy').2⟩
  simp only [sweep]
  split
  · exact ⟨tidy.of_shape same, same.changes⟩
  · obtain ⟨tidy', swept⟩ := clean collected.1 _ (tidy.of_shape same)
    exact ⟨tidy', same.changes.trans swept⟩

theorem sweeps_checkGc : Sweeps (checkGc P) := by
  intro vol tidy
  rw [checkGc]
  split
  · exact ⟨tidy, Changes.refl⟩
  · exact sweep_keeps tidy _

theorem updateOh_keeps (tidy : vol.Tidy) (number : Nat) (name : Option (List Char)) (isShrink : Bool)
    (shadows : Nat) : (vol.updateOh P number name isShrink shadows).2.Tidy ∧
      Swept vol (vol.updateOh P number name isShrink shadows).2 :=
  updateOhWith_keeps sweeps_checkGc tidy number name isShrink shadows

theorem updateParent_keeps (tidy : vol.Tidy) (directory : Option Nat) :
    (vol.updateParent P directory).Tidy ∧ Swept vol (vol.updateParent P directory) := by
  cases directory with
  | none => exact ⟨tidy, Changes.refl⟩
  | some directory =>
    have same : SameShape vol (vol.modify directory fun dir => { dir with dirty := true }) :=
      Same.modify directory fun _ => rfl
    simp only [updateParent]
    split
    · exact ⟨tidy.of_shape same, same.changes⟩
    · obtain ⟨tidy', swept⟩ := updateOh_keeps (P := P) (tidy.of_shape same) directory none false 0
      exact ⟨tidy', same.changes.trans swept⟩

theorem resizeFile_keeps (tidy : vol.Tidy) (number newSize : Nat) :
    (vol.resizeFile P number newSize).2.Tidy ∧ Swept vol (vol.resizeFile P number newSize).2 := by
  obtain ⟨tidy₁, swept₁⟩ := sweep_keeps (P := P) tidy (P.flushFileCache vol.store number true)
  let flushed := vol.sweep P (P.flushFileCache vol.store number true)
  have same := sameShape_store flushed (P.invalidateWholeCache flushed.store number)
  obtain ⟨tidy₂, swept₂⟩ := sweeps_checkGc (P := P) _ (tidy₁.of_shape same)
  have before : Swept vol _ := swept₁.trans (same.changes.trans swept₂)
  simp only [resizeFile]
  split
  · exact ⟨tidy₂, before⟩
  · split
    · exact ⟨tidy₂, before⟩
    · obtain ⟨tidy₃, swept₃⟩ := sweep_keeps (P := P) tidy₂ (P.resizeData _ number newSize)
      split
      · exact ⟨tidy₃, before.trans swept₃⟩
      · split
        · exact ⟨tidy₃, before.trans swept₃⟩
        · obtain ⟨tidy₄, swept₄⟩ := updateOh_keeps (P := P) tidy₃ number none false 0
          exact ⟨tidy₄, before.trans (swept₃.trans swept₄)⟩

theorem flushFile_keeps (tidy : vol.Tidy) (number : Nat) (discardCache : Bool) :
    (vol.flushFile P number discardCache).2.Tidy ∧
      Swept vol (vol.flushFile P number discardCache).2 := by
  simp only [flushFile]
  split
  · exact ⟨tidy, Changes.refl⟩
  · obtain ⟨tidy₁, swept₁⟩ :=
      sweep_keeps (P := P) tidy (P.flushFileCache vol.store number discardCache)
    obtain ⟨tidy₂, swept₂⟩ := updateOh_keeps (P := P) tidy₁ number none false 0
    exact ⟨tidy₂, swept₁.trans swept₂⟩

/-! ## Deleting a file -/

/-- What sweeping leaves of an object that is no soft deleted file. -/
theorem Swept.find (swept : Swept vol after) {number : Nat} {obj : Node}
    (found : vol.objs number = some obj) (soft : obj.softDel = false) :
    ∃ obj', after.objs number = some obj' ∧ obj'.core = obj.core ∧
      obj'.hardLinks = obj.hardLinks := by
  obtain ⟨obj', found', core, links⟩ := swept.kept number obj found id soft
  exact ⟨obj', found', core, links id⟩

/-- A file that no link leads to and no inode holds can be deleted, now or later. -/
structure FreeFile (vol : Volume Store) (number : Nat) (obj : Node) : Prop where
  found : vol.objs number = some obj
  file : obj.variantType = .file
  no_links : obj.hardLinks = []
  inode : obj.myInode = none

theorem FreeFile.deletable (tidy : vol.TidyBut loose) {number : Nat} {obj : Node}
    (free : FreeFile vol number obj) : Deletable vol number obj where
  found := free.found
  movable := tidy.movable free.found (.inl (by simp [free.file]))
  leaf := tidy.leaf_of_type free.found (by simp [free.file])
  no_links := free.no_links
  no_link := tidy.not_linked free.found (.inl (by simp [free.file]))
  inode := free.inode

theorem FreeFile.swept {number : Nat} {obj : Node} (free : FreeFile vol number obj)
    (soft : obj.softDel = false) (swept : Swept vol after) :
    ∃ obj', FreeFile after number obj' ∧ obj'.core = obj.core := by
  obtain ⟨obj', found', core, links⟩ := swept.find free.found soft
  obtain ⟨type, -, -, -, -, -, -, -, inode⟩ := Node.core_eq_iff.mp core
  exact ⟨obj', ⟨found', type.trans free.file, links.trans free.no_links, inode.trans free.inode⟩,
    core⟩

theorem genericObjDel_deletes (tidy : vol.TidyBut loose) (hashed : vol.Hashed) {number : Nat}
    {obj : Node} (deletable : Deletable vol number obj) (only : loose = none ∨ loose = some number)
    (soft : obj.softDel = false) : DeletedFrom number vol (vol.genericObjDel P number).2 :=
  genericObjDelWith_deletes sweeps_checkGc tidy hashed deletable only (by simp [soft])

/-- An operation on one object leaves the objects in order and changes no other. -/
def KeepsBut (number : Nat) (before after : Volume Store) : Prop :=
  after.Tidy ∧ Changes (· = number) False before after

theorem DeletedFrom.keepsBut {number : Nat} (deleted : DeletedFrom number vol after) :
    KeepsBut number vol after :=
  ⟨deleted.tidy, deleted.changes⟩

theorem KeepsBut.of_swept {number : Nat} (tidy : after.Tidy) (swept : Swept vol after) :
    KeepsBut number vol after :=
  ⟨tidy, swept.changes⟩

theorem KeepsBut.trans {number : Nat} {last : Volume Store} (first : KeepsBut number vol after)
    (second : KeepsBut number after last) : KeepsBut number vol last :=
  ⟨second.1, first.2.trans second.2⟩

theorem FreeFile.store {number : Nat} {obj : Node} (free : FreeFile vol number obj) (store : Store) :
    FreeFile { vol with store } number obj :=
  ⟨free.found, free.file, free.no_links, free.inode⟩

/-- Marking a file as soft deleted. -/
theorem tidy_setSoftDel (tidy : vol.Tidy) {number : Nat} {obj : Node}
    (free : FreeFile vol number obj) (unlinked : obj.unlinked = true) :
    KeepsBut number vol (vol.modify number fun obj => { obj with softDel := true }) := by
  have same : Same Node.skeleton vol (vol.modify number fun obj => { obj with softDel := true }) :=
    Same.modify number fun _ => rfl
  have at_other {other : Nat} (ne : other ≠ number) :
      (vol.modify number fun obj => { obj with softDel := true }).objs other = vol.objs other := by
    rw [modify_objs]
    simp [ne]
  have at_number : (vol.modify number fun obj => { obj with softDel := true }).objs number =
      some { obj with softDel := true } := by
    rw [modify_objs, free.found]
    simp
  refine ⟨{ tidy.toTidyBut.of_skeleton same ?_, tidy.toHashed.of_same same with }, ?_⟩
  · intro other otherObj found'
    by_cases ne : other = number
    · subst ne
      obtain rfl := Option.some.inj (at_number.symm.trans found')
      exact ⟨fun _ => free.inode, fun _ => ⟨unlinked, free.file, free.inode⟩⟩
    · exact (tidy.node other otherObj ((at_other ne).symm.trans found')).marked
  · constructor
    · intro other otherObj found' ne _
      exact ⟨otherObj, (at_other ne).trans found', rfl, fun _ => rfl⟩
    · intro other otherObj found' held
      have ne : other ≠ number := by
        rintro rfl
        obtain rfl := Option.some.inj (free.found.symm.trans found')
        simp [free.inode] at held
      exact ⟨otherObj, (at_other ne).trans found', rfl, rfl⟩
    · intro other otherObj found'
      by_cases ne : other = number
      · subst ne
        obtain rfl := Option.some.inj (at_number.symm.trans found')
        exact ⟨obj, free.found, rfl, rfl, fun untouched => absurd rfl untouched⟩
      · exact ⟨otherObj, (at_other ne).symm.trans found', rfl, rfl, fun _ => rfl⟩

/-- The object is gone, or it is no longer in use. -/
def Left (vol : Volume Store) (number : Nat) : Prop :=
  ∀ obj, vol.objs number = some obj → obj.Hidden

theorem left_of_gone {number : Nat} (gone : vol.objs number = none) : vol.Left number := by
  intro obj found
  simp [gone] at found

theorem TidyBut.left (tidy : vol.TidyBut loose) {number : Nat} {obj : Node}
    (found : vol.objs number = some obj) (unlinked : obj.unlinked = true) : vol.Left number := by
  intro obj' found'
  obtain rfl := Option.some.inj (found.symm.trans found')
  exact (tidy.node number obj found).hidden_iff.mp unlinked

/-- What has been left stays so unless it is touched. -/
theorem Left.changes {number : Nat} (left : vol.Left number) (changes : Changes touched relinks vol after)
    (untouched : ¬touched number) : after.Left number := by
  intro obj' found'
  obtain ⟨obj, found, -, -, core⟩ := changes.known number obj' found'
  exact (Node.hidden_congr (Node.core_eq_iff.mp (core untouched)).2.1).mpr (left obj found)

theorem softDelFile_keeps (tidy : vol.Tidy) {number : Nat} {obj : Node}
    (free : FreeFile vol number obj) (unlinked : obj.unlinked = true) :
    KeepsBut number vol (vol.softDelFile P number) ∧ (vol.softDelFile P number).Left number := by
  have left := tidy.left free.found unlinked
  simp only [softDelFile, free.found]
  split
  case isTrue => exact ⟨⟨tidy, Changes.refl⟩, left⟩
  case isFalse marked =>
    have soft : obj.softDel = false := by
      simp only [not_or, Bool.not_eq_true] at marked
      exact marked.2.2
    split
    · have same := sameShape_store vol (P.freeTnodes vol.store number)
      have tidy' := tidy.of_shape same
      have deleted := genericObjDel_deletes (P := P) tidy'.toTidyBut tidy'.toHashed
        ((free.store _).deletable tidy'.toTidyBut) (.inl rfl) soft
      exact ⟨⟨deleted.tidy, same.changes.trans deleted.changes⟩, left_of_gone deleted.gone⟩
    · have same := sameShape_store vol (P.softDelWorker vol.store number)
      obtain ⟨tidy', changes⟩ := tidy_setSoftDel (tidy.of_shape same) (free.store _) unlinked
      have marked := modify_self (fun obj : Node => { obj with softDel := true })
        (free.store (P.softDelWorker vol.store number)).found
      exact ⟨⟨tidy', same.changes.trans changes⟩, tidy'.left marked unlinked⟩

theorem same_markDeleted (vol : Volume Store) (number : Nat) : SameShape vol (vol.markDeleted number) := by
  have same : SameShape vol (vol.modify number fun obj => { obj with deleted := true }) :=
    Same.modify number fun _ => rfl
  exact same.trans ⟨fun _ => rfl, rfl⟩

theorem changeObjName_spec (tidy : vol.Tidy) {number directory : Nat} {obj dirObj : Node}
    (can : CanMove vol number directory obj dirObj) (soft : obj.softDel = false) (newDir : Option Nat)
    (target : newDir.or (vol.parentOf number) = some directory) (newName : List Char) (force : Bool)
    (shadows : Nat) :
    (vol.changeObjName P number newDir newName force shadows = (false, vol) ∧ ¬isTrash directory) ∨
      MovedTo number directory obj vol
        (vol.changeObjName P number newDir newName force shadows).2 :=
  changeObjNameWith_spec sweeps_checkGc tidy.toTidyBut tidy.toHashed can (.inl rfl) (by simp [soft])
    newDir target newName force shadows

/-- Giving an object up moves it to the unlinked or the deleted objects. -/
theorem changeObjName_gives_up (tidy : vol.TidyBut loose) (hashed : vol.Hashed) {number : Nat}
    {obj : Node} (found : vol.objs number = some obj)
    (movable : ¬isTop number ∧ number ≠ objectIdLostNFound) (leaf : obj.children = [])
    (no_links : obj.hardLinks = [])
    (no_link : ∀ other otherObj, vol.objs other = some otherObj → number ∉ otherObj.hardLinks)
    (only : loose = none ∨ loose = some number) (soft : obj.softDel = false) (trash : Nat)
    (isTrash : isTrash trash) (newName : List Char) :
    MovedTo number trash obj vol
      (vol.changeObjName P number (some trash) newName false 0).2 := by
  obtain ⟨dirObj, can⟩ := CanMove.to_trash tidy found movable isTrash leaf no_links no_link
  exact (changeObjNameWith_spec sweeps_checkGc tidy hashed can
    (only.imp id fun same => ⟨same, isTrash⟩) (by simp [soft]) (some trash) rfl
    newName false 0).resolve_left fun refused => refused.2 isTrash

/-- What has been given up is in its place and marked as unlinked. -/
theorem MovedTo.given_up {number trash : Nat} {obj : Node} (moves : MovedTo number trash obj vol after)
    (isTrash : isTrash trash) : ∃ obj', after.objs number = some obj' ∧ obj'.unlinked = true ∧
      obj'.softDel = obj.softDel ∧ obj'.variantType = obj.variantType ∧
      obj'.myInode = obj.myInode ∧ obj'.hardLinks = [] := by
  obtain ⟨obj', found', core⟩ := moves.found
  obtain ⟨type, parent, -, soft, -, -, -, -, inode⟩ := Node.core_eq_iff.mp core
  have node := moves.tidy.node number obj' found'
  have hidden : obj'.Hidden := (Node.hidden_congr parent).mpr (moved_hidden_of_trash isTrash)
  exact ⟨obj', found', node.hidden_iff.mpr hidden, soft, type, inode, node.trash_ring (.inl hidden)⟩

theorem unlinkFileIfNeeded_keeps (tidy : vol.Tidy) {number : Nat} {obj : Node}
    (free : FreeFile vol number obj) (soft : obj.softDel = false) :
    KeepsBut number vol (vol.unlinkFileIfNeeded P number).2 ∧
      (vol.unlinkFileIfNeeded P number).2.Left number := by
  have deletable := free.deletable tidy.toTidyBut
  have moves := changeObjName_gives_up (P := P) tidy.toTidyBut tidy.toHashed free.found
    deletable.movable deletable.leaf deletable.no_links deletable.no_link (.inl rfl) soft
    objectIdDeleted (.inr rfl) "deleted".toList
  obtain ⟨obj₁, found₁, unlinked₁, soft₁, type₁, inode₁, links₁⟩ := moves.given_up (.inr rfl)
  have same := same_markDeleted (vol.changeObjName P number (some objectIdDeleted)
    "deleted".toList false 0).2 number
  obtain ⟨obj₂, found₂, eq₂⟩ := same.symm.find found₁
  obtain ⟨core₂, -, links₂⟩ := Node.shape_eq_iff.mp eq₂
  obtain ⟨type₂, -, -, soft₂, unlinked₂, -, -, -, inode₂⟩ := Node.core_eq_iff.mp core₂
  have free₂ : FreeFile ((vol.changeObjName P number (some objectIdDeleted)
      "deleted".toList false 0).2.markDeleted number) number obj₂ :=
    ⟨found₂, type₂.symm.trans (type₁.trans free.file), links₂.symm.trans links₁,
      inode₂.symm.trans (inode₁.trans free.inode)⟩
  have soft_eq : obj₂.softDel = false := soft₂.symm.trans (soft₁.trans soft)
  have kept : KeepsBut number vol ((vol.changeObjName P number (some objectIdDeleted)
      "deleted".toList false 0).2.markDeleted number) :=
    ⟨moves.tidy.of_shape same, moves.changes.trans same.changes⟩
  have no_inode : ((vol.objs number).any fun obj => obj.myInode.isSome) = false := by
    simp [free.found, free.inode]
  simp only [unlinkFileIfNeeded, no_inode, Bool.false_eq_true, not_false_eq_true, if_true]
  split
  · obtain ⟨tidy₃, swept₃⟩ := resizeFile_keeps (P := P) kept.1 number 0
    obtain ⟨obj₃, free₃, core₃⟩ := free₂.swept soft_eq swept₃
    obtain ⟨-, -, -, -, unlinked₃, -⟩ := Node.core_eq_iff.mp core₃
    obtain ⟨ended, left⟩ := softDelFile_keeps (P := P) tidy₃ free₃
      (unlinked₃.trans (unlinked₂.symm.trans unlinked₁))
    exact ⟨(kept.trans (.of_swept tidy₃ swept₃)).trans ended, left⟩
  · obtain ⟨ended, left⟩ := softDelFile_keeps (P := P) kept.1 free₂ (unlinked₂.symm.trans unlinked₁)
    exact ⟨kept.trans ended, left⟩

/-- A file can be deleted if no link leads to it and no inode holds it. -/
theorem delFile_keeps (tidy : vol.Tidy) {number : Nat} {obj : Node} (free : FreeFile vol number obj)
    (soft : obj.softDel = false) :
    KeepsBut number vol (vol.delFile P number).2 ∧ (vol.delFile P number).2.Left number := by
  have resized : ∃ obj', KeepsBut number vol
      (if vol.resizesToDelete then (vol.resizeFile P number 0).2 else vol) ∧
      FreeFile (if vol.resizesToDelete then (vol.resizeFile P number 0).2 else vol) number obj' ∧
      obj'.softDel = false := by
    split
    · obtain ⟨tidy', swept⟩ := resizeFile_keeps (P := P) tidy number 0
      obtain ⟨obj', free', core⟩ := free.swept soft swept
      obtain ⟨-, -, -, soft', -⟩ := Node.core_eq_iff.mp core
      exact ⟨obj', .of_swept tidy' swept, free', soft'.trans soft⟩
    · exact ⟨obj, ⟨tidy, Changes.refl⟩, free, soft⟩
  simp only [delFile]
  generalize (if vol.resizesToDelete then (vol.resizeFile P number 0).2 else vol) = middle at *
  obtain ⟨obj', kept, free', soft'⟩ := resized
  split
  case isFalse =>
    have same := sameShape_store middle (P.freeTnodes middle.store number)
    have tidy' := kept.1.of_shape same
    have deleted := genericObjDel_deletes (P := P) tidy'.toTidyBut tidy'.toHashed
      ((free'.store _).deletable tidy'.toTidyBut) (.inl rfl) soft'
    exact ⟨kept.trans ⟨deleted.tidy, same.changes.trans deleted.changes⟩, left_of_gone deleted.gone⟩
  case isTrue =>
    obtain ⟨unlinked, left⟩ : KeepsBut number middle
        (if ¬(middle.objs number).any Node.unlinked then middle.unlinkFileIfNeeded P number
          else (true, middle)).2 ∧
        (if ¬(middle.objs number).any Node.unlinked then middle.unlinkFileIfNeeded P number
          else (true, middle)).2.Left number := by
      split
      case isTrue => exact unlinkFileIfNeeded_keeps kept.1 free' soft'
      case isFalse known =>
        refine ⟨⟨kept.1, Changes.refl⟩, kept.1.left free'.found ?_⟩
        simpa [free'.found] using known
    generalize (if ¬(middle.objs number).any Node.unlinked then middle.unlinkFileIfNeeded P number
      else (true, middle)) = needed at *
    split
    case h_1 => exact ⟨kept.trans unlinked, left⟩
    case h_2 obj₂ found₂ =>
      split
      case isFalse => exact ⟨kept.trans unlinked, left⟩
      case isTrue mark =>
        obtain ⟨old, old_found, type, inode, -⟩ := unlinked.2.known number obj₂ found₂
        obtain rfl := Option.some.inj (free'.found.symm.trans old_found)
        have node := unlinked.1.node number obj₂ found₂
        have same := same_markDeleted needed.2 number
        obtain ⟨obj₃, found₃, eq₃⟩ := same.symm.find found₂
        obtain ⟨core₃, -, links₃⟩ := Node.shape_eq_iff.mp eq₃
        obtain ⟨type₃, -, -, -, unlinked₃, -, -, -, inode₃⟩ := Node.core_eq_iff.mp core₃
        have free₃ : FreeFile (needed.2.markDeleted number) number obj₃ :=
          ⟨found₃, type₃.symm.trans (type.trans free'.file),
            links₃.symm.trans (node.trash_ring (.inl (node.hidden_iff.mp mark.2.1))),
            inode₃.symm.trans (inode.trans free'.inode)⟩
        have marked : KeepsBut number needed.2 (needed.2.markDeleted number) :=
          ⟨unlinked.1.of_shape same, same.changes⟩
        obtain ⟨ended, left'⟩ := softDelFile_keeps (P := P) marked.1 free₃
          (unlinked₃.symm.trans mark.2.1)
        exact ⟨(kept.trans unlinked).trans (marked.trans ended), left'⟩

end Volume

end Yaffs
