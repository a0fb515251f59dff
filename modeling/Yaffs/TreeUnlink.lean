import Yaffs.TreeGuts

/-!
# Unlinking keeps the tree

An object is deleted according to its type.  An object that still has hard links is not deleted: it
takes the place of its newest link.  For a directory that place may lie in the directory itself, which
is the one case in which unlinking does not keep the tree.
-/

namespace Yaffs

namespace Volume

variable {Store : Type} {P : Pages Store} {vol after : Volume Store} {loose : Option Nat}
  {touched : Nat → Prop} {relinks : Prop}

/-! ## Ways up after a change -/

/-- On the way up from an object there are directories only. -/
theorem TidyBut.directory_of_above (tidy : vol.TidyBut loose) {high start : Nat} {obj : Node}
    (found : vol.objs start = some obj) (above : Forest.Above vol.parentOf high start) :
    high = start ∨ ∃ highObj, vol.objs high = some highObj ∧ highObj.variantType = .directory := by
  induction above generalizing obj with
  | refl => exact .inl rfl
  | @step start higher up _ ih =>
    right
    rw [parentOf_eq found] at up
    obtain ⟨higherObj, higher_found, is_dir⟩ := tidy.directory start obj higher found up
    rcases ih higher_found with rfl | found'
    · exact ⟨higherObj, higher_found, is_dir⟩
    · exact found'

/-- The parents on a way up stay the same if nothing on it is touched. -/
theorem Changes.agree (changes : Changes touched relinks vol after) (tidy : vol.TidyBut loose)
    {start : Nat} {obj : Node} (found : vol.objs start = some obj) (soft : obj.softDel = false)
    (untouched : ∀ mid, Forest.Above vol.parentOf mid start → ¬touched mid) (mid : Nat)
    (above : Forest.Above vol.parentOf mid start) : after.parentOf mid = vol.parentOf mid := by
  have settled : ∃ midObj, vol.objs mid = some midObj ∧ midObj.softDel = false := by
    rcases tidy.directory_of_above found above with rfl | ⟨midObj, mid_found, is_dir⟩
    · exact ⟨obj, found, soft⟩
    · refine ⟨midObj, mid_found, Bool.eq_false_iff.mpr fun soft => ?_⟩
      obtain ⟨-, type, -⟩ := (tidy.node mid midObj mid_found).softDel soft
      simp [is_dir] at type
  obtain ⟨midObj, mid_found, soft⟩ := settled
  obtain ⟨midObj', mid_found', core, -⟩ := changes.kept mid midObj mid_found (untouched mid above) soft
  rw [parentOf_eq mid_found, parentOf_eq mid_found', (Node.core_eq_iff.mp core).2.1]

theorem Changes.away (changes : Changes touched relinks vol after) (tidy : vol.TidyBut loose)
    {number start : Nat} {obj : Node} (found : vol.objs start = some obj) (soft : obj.softDel = false)
    (untouched : ∀ mid, Forest.Above vol.parentOf mid start → ¬touched mid)
    (away : ¬Forest.Above vol.parentOf number start) :
    ¬Forest.Above after.parentOf number start :=
  fun above => away (above.of_agree_after (changes.agree tidy found soft untouched))

/-- What an operation does not touch stays empty if nothing is moved there. -/
theorem Changes.leaf (changes : Changes touched relinks vol after) (tidy : vol.TidyBut loose)
    {loose' : Option Nat} (tidy' : after.TidyBut loose') {number : Nat} {obj obj' : Node}
    (found : vol.objs number = some obj) (leaf : obj.children = [])
    (found' : after.objs number = some obj')
    (elsewhere : ∀ child, touched child → after.parentOf child ≠ some number) :
    obj'.children = [] := by
  refine List.eq_nil_iff_forall_not_mem.mpr fun child child_mem => ?_
  have up : after.parentOf child = some number :=
    (tidy'.sound.listed child number).mpr (by simpa [forest, found'] using child_mem)
  obtain ⟨childObj', child_found', parent'⟩ := Option.bind_eq_some_iff.mp up
  obtain ⟨childObj, child_found, -, -, core⟩ := changes.known child childObj' child_found'
  have untouched : ¬touched child := fun touches => elsewhere child touches up
  have parent := (Node.core_eq_iff.mp (core untouched)).2.1
  have listed := (mem_children_iff tidy child_found found).mpr (parent.symm.trans parent')
  simp [leaf] at listed

theorem Swept.leaf (swept : Swept vol after) (tidy : vol.Tidy) (tidy' : after.Tidy) {number : Nat}
    {obj obj' : Node} (found : vol.objs number = some obj) (leaf : obj.children = [])
    (found' : after.objs number = some obj') : obj'.children = [] :=
  Changes.leaf swept tidy.toTidyBut tidy'.toTidyBut found leaf found' fun _ => False.elim

/-! ## Deleting by type -/

/-- What is empty and has no links, is in no list of links, and that no inode holds, may be
deleted. -/
theorem genericObjDel_keeps (tidy : vol.Tidy) {number : Nat} {obj : Node}
    (deletable : Deletable vol number obj) (soft : obj.softDel = false) :
    KeepsBut number vol (vol.genericObjDel P number).2 :=
  (genericObjDel_deletes tidy.toTidyBut tidy.toHashed deletable (.inl rfl) soft).keepsBut

theorem Deletable.of_leaf (tidy : vol.TidyBut loose) {number : Nat} {obj : Node}
    (found : vol.objs number = some obj) (movable : ¬isTop number ∧ number ≠ objectIdLostNFound)
    (leaf : obj.children = []) (type : obj.variantType ≠ .hardlink) (no_links : obj.hardLinks = [])
    (inode : obj.myInode = none) : Deletable vol number obj :=
  ⟨found, movable, leaf, no_links, tidy.not_linked found (.inl type), inode⟩

theorem isNonEmptyDir_eq_false {number : Nat} {obj : Node} (tidy : vol.TidyBut loose)
    (found : vol.objs number = some obj) (empty : vol.isNonEmptyDir number = false) :
    obj.children = [] := by
  by_cases type : obj.variantType = .directory
  · simpa [isNonEmptyDir, found, type] using empty
  · exact tidy.leaf_of_type found type

theorem delDir_keeps (tidy : vol.Tidy) {number : Nat} {obj : Node} (found : vol.objs number = some obj)
    (movable : ¬isTop number ∧ number ≠ objectIdLostNFound) (type : obj.variantType = .directory)
    (no_links : obj.hardLinks = []) (inode : obj.myInode = none) (soft : obj.softDel = false) :
    KeepsBut number vol (vol.delDir P number).2 := by
  simp only [delDir]
  split
  case isTrue => exact ⟨tidy, Changes.refl⟩
  case isFalse empty =>
    have leaf := isNonEmptyDir_eq_false tidy.toTidyBut found (Bool.eq_false_iff.mpr empty)
    exact genericObjDel_keeps tidy
      (.of_leaf tidy.toTidyBut found movable leaf (by simp [type]) no_links inode) soft

theorem delSymlink_deletes (tidy : vol.Tidy) {number : Nat} {obj : Node}
    (found : vol.objs number = some obj) (movable : ¬isTop number ∧ number ≠ objectIdLostNFound)
    (type : obj.variantType = .symlink) (no_links : obj.hardLinks = []) (inode : obj.myInode = none)
    (soft : obj.softDel = false) : DeletedFrom number vol (vol.delSymlink P number).2 := by
  have same : SameShape vol (vol.modify number fun obj => { obj with aliasStr := [] }) :=
    Same.modify number fun _ => rfl
  have tidy' := tidy.of_shape same
  have found' : (vol.modify number fun obj => { obj with aliasStr := [] }).objs number =
      some { obj with aliasStr := [] } :=
    modify_self _ found
  have leaf := tidy.leaf_of_type found (by simp [type])
  have deleted := genericObjDel_deletes (P := P) tidy'.toTidyBut tidy'.toHashed
    (.of_leaf tidy'.toTidyBut found' movable leaf (by simp [type]) no_links inode) (.inl rfl) soft
  exact ⟨deleted.tidy, same.changes.trans deleted.changes, deleted.gone⟩

/-- An operation on one object leaves the objects in order and changes no other, but for lists of
links. -/
def RelinksBut (touched : Nat → Prop) (before after : Volume Store) : Prop :=
  after.Tidy ∧ Changes touched True before after

theorem KeepsBut.relinked {number : Nat} (kept : KeepsBut number vol after)
    (touches : touched number) : RelinksBut touched vol after :=
  ⟨kept.1, kept.2.mono (fun _ same => same ▸ touches) fun _ => trivial⟩

theorem RelinksBut.after_sweep {middle : Volume Store} (swept : Swept vol middle)
    (relinked : RelinksBut touched middle after) : RelinksBut touched vol after :=
  ⟨relinked.1, swept.changes.trans relinked.2⟩

/-- A hard link is taken from the links of its object and deleted. -/
theorem delLink_deletes (tidy : vol.Tidy) {number : Nat} {obj : Node} (found : vol.objs number = some obj)
    (movable : ¬isTop number ∧ number ≠ objectIdLostNFound) (type : obj.variantType = .hardlink)
    (soft : obj.softDel = false) : RelinksBut (· = number) vol (vol.delLink P number).2 ∧
      (vol.delLink P number).2.objs number = none := by
  have node := tidy.node number obj found
  obtain ⟨no_links, inode⟩ := node.hardlink type
  have leaf := tidy.leaf_of_type found (by simp [type])
  simp only [delLink, removeHardLink, found, Option.bind_some]
  cases equiv : obj.equivObj with
  | none =>
    have no_link : ∀ other otherObj, vol.objs other = some otherObj → number ∉ otherObj.hardLinks := by
      intro other otherObj found' in_ring
      obtain ⟨linkObj, link_found, -, equiv', -⟩ := (tidy.node other otherObj found').ring number in_ring
      obtain rfl := Option.some.inj (found.symm.trans link_found)
      simp [equiv] at equiv'
    have deleted := genericObjDel_deletes (P := P) tidy.toTidyBut tidy.toHashed
      ⟨found, movable, leaf, no_links, no_link, inode⟩ (.inl rfl) soft
    exact ⟨deleted.keepsBut.relinked rfl, deleted.gone⟩
  | some owner =>
    have erased := tidy.toTidyBut.eraseLink owner number
    have found' : (vol.modify owner (Volume.eraseLink number)).objs number =
        some { obj with hardLinks := [] } := by
      rw [modify_found _ found]
      split
      · simp [Volume.eraseLink, no_links]
      · rw [← no_links]
    have deletable : Deletable (vol.modify owner (Volume.eraseLink number)) number
        { obj with hardLinks := [] } :=
      ⟨found', movable, leaf, rfl, not_linked_eraseLink tidy.toTidyBut found equiv, inode⟩
    have hashed : (vol.modify owner (Volume.eraseLink number)).Hashed :=
      tidy.toHashed.of_same (same_eraseLink owner number)
    have deleted := genericObjDel_deletes (P := P) erased hashed deletable (.inr rfl) soft
    have changes : Changes (· = number) True vol _ :=
      ((eraseLink_changes owner number).mono (fun _ => False.elim) id).trans
        (deleted.changes.mono (fun _ => id) fun _ => trivial)
    exact ⟨⟨deleted.tidy, changes⟩, deleted.gone⟩

/-- An object without links that no inode holds may be deleted. -/
theorem delObj_keeps (tidy : vol.Tidy) {number : Nat} {obj : Node} (found : vol.objs number = some obj)
    (movable : ¬isTop number ∧ number ≠ objectIdLostNFound) (no_links : obj.hardLinks = [])
    (inode : obj.myInode = none) (soft : obj.softDel = false) :
    RelinksBut (· = number) vol (vol.delObj P number).2 := by
  have unchanged : RelinksBut (· = number) vol vol := ⟨tidy, Changes.refl⟩
  simp only [delObj, found, Option.map_some]
  cases type : obj.variantType with
  | unknown => exact unchanged
  | file => exact (delFile_keeps tidy ⟨found, type, no_links, inode⟩ soft).1.relinked rfl
  | directory => exact (delDir_keeps tidy found movable type no_links inode soft).relinked rfl
  | symlink =>
    exact (delSymlink_deletes tidy found movable type no_links inode soft).keepsBut.relinked rfl
  | hardlink => exact (delLink_deletes tidy found movable type soft).1
  | special =>
    have leaf := tidy.leaf_of_type found (by simp [type])
    exact (genericObjDel_keeps tidy
      (.of_leaf tidy.toTidyBut found movable leaf (by simp [type]) no_links inode) soft).relinked rfl

/-! ## Taking the place of a link -/

/-- The newest hard link of an object lies in the object itself, or below. -/
def Swallows (vol : Volume Store) (number : Nat) : Prop :=
  ∃ obj link older linkObj directory, vol.objs number = some obj ∧ obj.hardLinks = link :: older ∧
    vol.objs link = some linkObj ∧ linkObj.parent = some directory ∧
    Forest.Above vol.parentOf number directory

/-- Only directories have anything below them. -/
theorem TidyBut.not_swallows_of_leaf (tidy : vol.TidyBut loose) {number : Nat} {obj : Node}
    (found : vol.objs number = some obj) (leaf : obj.children = []) : ¬vol.Swallows number := by
  rintro ⟨obj', link, older, linkObj, directory, found', newest, link_found, up, above⟩
  obtain rfl : directory = number :=
    tidy.sound.eq_of_above (by simp [forest, found, leaf]) above
  have listed := (mem_children_iff tidy link_found found).mpr up
  simp [leaf] at listed

/-- An object can take the place of its newest hard link. -/
structure CanPromote (vol : Volume Store) (number link directory : Nat) (obj linkObj : Node) :
    Prop where
  found : vol.objs number = some obj
  soft : obj.softDel = false
  movable : ¬isTop number ∧ number ≠ objectIdLostNFound
  newest : ∃ older, obj.hardLinks = link :: older
  link_found : vol.objs link = some linkObj
  up : linkObj.parent = some directory
  away : ¬Forest.Above vol.parentOf number directory

/-- The link has been put to the unlinked objects, and its place is free. -/
structure Taken (before middle : Volume Store) (number link directory : Nat) : Prop where
  tidy : middle.Tidy
  changes : Changes (· = link) True before middle
  can : ∃ obj dirObj, CanMove middle number directory obj dirObj ∧ obj.softDel = false
  ne : link ≠ number
  link : ∃ linkObj, middle.objs link = some linkObj ∧ linkObj.Hidden ∧ linkObj.myInode = none ∧
    linkObj.softDel = false

theorem CanPromote.taken (tidy : vol.Tidy) {number link directory : Nat} {obj linkObj : Node}
    (can : CanPromote vol number link directory obj linkObj) :
    Taken vol ((vol.modify number (eraseLink link)).addObjToDir objectIdUnlinked link) number link
      directory := by
  have isTrash : isTrash objectIdUnlinked := .inl rfl
  have node := tidy.node number obj can.found
  obtain ⟨older, newest⟩ := can.newest
  obtain ⟨linkObj₀, link_found₀, is_link, equiv, link_visible⟩ := node.ring link (by simp [newest])
  obtain rfl := Option.some.inj (can.link_found.symm.trans link_found₀)
  obtain ⟨link_no_links, link_inode⟩ := (tidy.node link linkObj can.link_found).hardlink is_link
  have link_leaf := tidy.leaf_of_type can.link_found (by simp [is_link])
  obtain ⟨dirObj, dir_found, is_dir⟩ := tidy.directory link linkObj directory can.link_found can.up
  have not_trash : ¬Yaffs.isTrash directory := fun isTrash => link_visible ⟨directory, isTrash, can.up⟩
  have dir_visible : ¬dirObj.Hidden := tidy.parent_visible can.link_found can.up dir_found
  have visible : ¬obj.Hidden := by
    intro hidden
    simp [node.trash_ring (.inl hidden)] at newest
  have link_ne : link ≠ number := by
    rintro rfl
    obtain rfl := Option.some.inj (can.found.symm.trans can.link_found)
    simp [link_no_links] at newest
  have dir_ne : directory ≠ link := ne_of_type dir_found can.link_found (by simp [is_dir, is_link])
  have link_movable := tidy.movable can.link_found (.inl (by simp [is_link]))
  have erased := tidy.toTidyBut.eraseLink number link
  have hashed : (vol.modify number (Volume.eraseLink link)).Hashed :=
    tidy.toHashed.of_same (same_eraseLink number link)
  have link_found' : (vol.modify number (Volume.eraseLink link)).objs link = some linkObj := by
    rw [modify_found _ can.link_found, if_neg link_ne]
  obtain ⟨trashObj, can_trash⟩ := CanMove.to_trash erased link_found' link_movable isTrash link_leaf
    link_no_links (not_linked_eraseLink tidy.toTidyBut can.link_found equiv)
  have tidy' := can_trash.tidy erased (.inr ⟨rfl, isTrash⟩)
  have changes : Changes (· = link) True vol
      ((vol.modify number (eraseLink link)).addObjToDir objectIdUnlinked link) :=
    ((eraseLink_changes number link).mono (fun _ => False.elim) id).trans
      (addObjToDir_changes erased link_found')
  have placed (other : Nat) {otherObj : Node} (found : vol.objs other = some otherObj) :
      ((vol.modify number (eraseLink link)).addObjToDir objectIdUnlinked link).objs other =
        some (moved objectIdUnlinked link other
          (if other = number then Volume.eraseLink link otherObj else otherObj)) := by
    rw [addObjToDir_objs erased link_found', modify_found _ found]
    rfl
  have apart : ∀ mid, Forest.Above vol.parentOf mid directory → mid ≠ link := by
    intro mid above
    rcases tidy.directory_of_above dir_found above with rfl | ⟨midObj, mid_found, type⟩
    · exact dir_ne
    · exact ne_of_type mid_found can.link_found (by simp [type, is_link])
  have away := changes.away tidy.toTidyBut dir_found
    (tidy.soft_of_type dir_found (by simp [is_dir])) apart can.away
  refine ⟨{ tidy' with
    toHashed := hashed.addObjToDir erased link_found' }, changes, ?_, link_ne, ?_⟩
  · refine ⟨_, _, ⟨placed number can.found, can.movable, placed directory dir_found, ?_, away, ?_,
      fun isTrash => absurd isTrash not_trash⟩, ?_⟩
    · split <;> exact is_dir
    · intro _
      rw [moved_hidden_iff, moved_hidden_iff, if_neg dir_ne, if_neg (Ne.symm link_ne), if_pos rfl]
      refine ⟨?_, visible⟩
      split <;> exact dir_visible
    · rw [if_pos rfl]
      exact can.soft
  · refine ⟨_, placed link can.link_found, moved_hidden_of_trash isTrash, ?_⟩
    rw [if_neg link_ne]
    have link_soft := tidy.soft_of_type can.link_found (by simp [is_link])
    exact ⟨link_inode, link_soft⟩

theorem unlinkByHardLink_keeps (tidy : vol.Tidy) {number link directory : Nat} {obj linkObj : Node}
    (can : CanPromote vol number link directory obj linkObj) :
    RelinksBut (fun other => other = number ∨ other = link) vol
      (vol.unlinkByHardLink P number link linkObj).2 := by
  have taken := can.taken tidy
  obtain ⟨obj', dirObj', can', soft'⟩ := taken.can
  obtain ⟨linkObj', link_found', link_hidden, link_inode, link_soft⟩ := taken.link
  have before : Changes (fun other => other = number ∨ other = link) True vol _ :=
    taken.changes.mono (fun _ => .inr) id
  let free := (vol.modify number (eraseLink link)).addObjToDir objectIdUnlinked link
  let outcome := free.changeObjName P number linkObj.parent (vol.getObjName P link linkObj) false 0
  have spec : (outcome = (false, free) ∧ ¬isTrash directory) ∨
      MovedTo number directory obj' free outcome.2 :=
    changeObjName_spec taken.tidy can' soft' linkObj.parent (by rw [can.up]; rfl) _ false 0
  have eq : vol.unlinkByHardLink P number link linkObj =
      if outcome.1 then outcome.2.genericObjDel P link else outcome := rfl
  rw [eq]
  rcases spec with ⟨refused, -⟩ | moves
  · rw [refused, if_neg (by simp)]
    exact ⟨taken.tidy, before⟩
  · have after_move := before.trans (moves.changes.mono (fun _ => .inl) (fun _ => trivial))
    split
    case isFalse => exact ⟨moves.tidy, after_move⟩
    case isTrue =>
      obtain ⟨last, last_found, core, -⟩ :=
        moves.changes.kept link linkObj' link_found' taken.ne link_soft
      obtain ⟨-, parent, -, soft, -, -, -, -, inode⟩ := Node.core_eq_iff.mp core
      have deletable := Deletable.of_hidden moves.tidy.toTidyBut last_found
        ((Node.hidden_congr parent).mpr link_hidden) (inode.trans link_inode)
      obtain ⟨tidy', changes⟩ := genericObjDel_keeps (P := P) moves.tidy deletable (soft.trans link_soft)
      exact ⟨tidy', after_move.trans (changes.mono (fun _ => .inr) fun _ => trivial)⟩

/-! ## Unlinking -/

/-- What unlinking an object touches: the object and its newest hard link. -/
def unlinks (number : Nat) (obj : Node) (other : Nat) : Prop :=
  other = number ∨ obj.hardLinks.head? = some other

/-- An object that may be unlinked. -/
structure CanUnlink (vol : Volume Store) (number : Nat) (obj : Node) : Prop where
  found : vol.objs number = some obj
  soft : obj.softDel = false
  movable : ¬isTop number ∧ number ≠ objectIdLostNFound
  away : ¬vol.Swallows number

/-- Sweeping does not take away what may be unlinked. -/
theorem CanUnlink.swept (tidy : vol.Tidy) {number : Nat} {obj : Node}
    (can : CanUnlink vol number obj) (tidy' : after.Tidy) (swept : Swept vol after) :
    ∃ obj', CanUnlink after number obj' ∧ obj'.core = obj.core ∧ obj'.hardLinks = obj.hardLinks := by
  obtain ⟨obj', found', core, links⟩ := swept.find can.found can.soft
  refine ⟨obj', ⟨found', (Node.core_eq_iff.mp core).2.2.2.1.trans can.soft, can.movable, ?_⟩, core,
    links⟩
  rintro ⟨obj'', link, older, linkObj', directory, found'', newest, link_found', up, above⟩
  obtain rfl := Option.some.inj (found'.symm.trans found'')
  obtain ⟨linkObj, link_found, -, -, link_core⟩ := swept.known link linkObj' link_found'
  have parent := (Node.core_eq_iff.mp (link_core id)).2.1
  obtain ⟨dirObj, dir_found, is_dir⟩ :=
    tidy.directory link linkObj directory link_found (parent.symm.trans up)
  refine swept.away tidy.toTidyBut dir_found (tidy.soft_of_type dir_found (by simp [is_dir]))
    (fun _ _ => id) (fun above => ?_) above
  exact can.away ⟨obj, link, older, linkObj, directory, can.found, links ▸ newest, link_found,
    parent.symm.trans up, above⟩

theorem unlinkWorker_keeps (tidy : vol.Tidy) {number : Nat} {obj : Node}
    (can : CanUnlink vol number obj) :
    RelinksBut (unlinks number obj) vol (vol.unlinkWorker P number).2 := by
  obtain ⟨tidy', swept⟩ := updateParent_keeps (P := P) tidy (vol.parentOf number)
  obtain ⟨obj', can', core, links⟩ := can.swept tidy tidy' swept
  have touches : unlinks number obj number := .inl rfl
  simp only [unlinkWorker, can'.found]
  refine .after_sweep swept ?_
  generalize vol.updateParent P (vol.parentOf number) = vol at *
  split
  case isTrue type =>
    obtain ⟨⟨tidy'', changes⟩, -⟩ :=
      delLink_deletes (P := P) tidy' can'.found can'.movable type can'.soft
    exact ⟨tidy'', changes.mono (fun _ => .inl) id⟩
  case isFalse not_link =>
    cases newest : obj'.hardLinks with
    | cons link older =>
      obtain ⟨linkObj, link_found, is_link, -, visible⟩ :=
        (tidy'.node number obj' can'.found).ring link (by simp [newest])
      obtain ⟨directory, up⟩ : ∃ directory, linkObj.parent = some directory := by
        have not_top := (tidy'.movable link_found (.inl (by simp [is_link]))).1
        obtain ⟨directory, up⟩ := tidy'.sound.has_parent link (by simp [forest, link_found]) not_top
        exact ⟨directory, by simpa [forest, parentOf, link_found] using up⟩
      have promote : CanPromote vol number link directory obj' linkObj :=
        ⟨can'.found, can'.soft, can'.movable, ⟨older, newest⟩, link_found, up, fun above =>
          can'.away ⟨obj', link, older, linkObj, directory, can'.found, newest, link_found, up, above⟩⟩
      obtain ⟨tidy'', changes⟩ := unlinkByHardLink_keeps (P := P) tidy' promote
      simp only [link_found]
      refine ⟨tidy'', changes.mono (fun other => Or.imp id ?_) id⟩
      rintro rfl
      rw [← links, newest]
      rfl
    | nil =>
      simp only
      split
      case isTrue inode =>
        cases type : obj'.variantType with
        | unknown => exact ⟨tidy', Changes.refl⟩
        | file =>
          exact (delFile_keeps tidy' ⟨can'.found, type, newest, inode⟩ can'.soft).1.relinked touches
        | directory =>
          exact (delDir_keeps tidy' can'.found can'.movable type newest inode can'.soft).relinked touches
        | symlink =>
          have deleted := delSymlink_deletes (P := P) tidy' can'.found can'.movable type newest inode
            can'.soft
          exact deleted.keepsBut.relinked touches
        | hardlink => exact absurd type not_link
        | special =>
          have leaf := tidy'.leaf_of_type can'.found (by simp [type])
          exact (genericObjDel_keeps tidy' (.of_leaf tidy'.toTidyBut can'.found can'.movable leaf
            (by simp [type]) newest inode) can'.soft).relinked touches
      case isFalse =>
        split
        case isTrue => exact ⟨tidy', Changes.refl⟩
        case isFalse empty =>
          have leaf := isNonEmptyDir_eq_false tidy'.toTidyBut can'.found (Bool.eq_false_iff.mpr empty)
          have moves := changeObjName_gives_up (P := P) tidy'.toTidyBut tidy'.toHashed can'.found
            can'.movable leaf newest (tidy'.not_linked can'.found (.inl not_link)) (.inl rfl) can'.soft
            objectIdUnlinked (.inl rfl) "unlinked".toList
          exact ⟨moves.tidy, moves.changes.mono (fun _ => .inl) fun _ => trivial⟩

/-- Unlinking keeps the objects in order, unless the place that is left for the object is in the object
itself. -/
theorem unlinkObj_keeps (tidy : vol.Tidy) (number : Option Nat)
    (can : ∀ n obj, number = some n → vol.objs n = some obj → obj.unlinkAllowed = true →
      obj.softDel = false ∧ ¬vol.Swallows n) :
    RelinksBut (fun other => ∃ n obj, number = some n ∧ vol.objs n = some obj ∧
      unlinks n obj other) vol (vol.unlinkObj P number).2 := by
  have unchanged : RelinksBut (fun other => ∃ n obj, number = some n ∧ vol.objs n = some obj ∧
      unlinks n obj other) vol vol := ⟨tidy, Changes.refl⟩
  cases number with
  | none => exact unchanged
  | some n =>
    simp only [unlinkObj]
    split
    case isFalse => exact unchanged
    case isTrue allowed =>
      cases found : vol.objs n with
      | none => simp [found] at allowed
      | some obj =>
        have allowed : obj.unlinkAllowed = true := by simpa [found] using allowed
        obtain ⟨soft, away⟩ := can n obj rfl found allowed
        have movable := tidy.movable found (.inr (.inr allowed))
        obtain ⟨tidy', changes⟩ := unlinkWorker_keeps (P := P) tidy ⟨found, soft, movable, away⟩
        exact ⟨tidy', changes.mono (fun other unlinks => ⟨n, obj, rfl, found, unlinks⟩) id⟩

end Volume

end Yaffs
