import Yaffs.TreeCreate

/-!
# Renaming keeps the tree

An object that is renamed moves to its new directory.  If there is an object of the new name there,
the first object shadows it in its header, and the second is then unlinked.  The guts layer does not
check whether a directory is moved below itself, nor whether the object that is unlinked takes the place
of the one that is renamed, which happens if that is its newest hard link.
-/

namespace Yaffs

namespace Volume

variable {Store : Type} {P : Pages Store} {vol after : Volume Store} {loose : Option Nat}
  {number newDir : Nat}

/-- The object is found, and it is in use. -/
def InUse (vol : Volume Store) (number : Nat) : Prop :=
  ¬isTrash number ∧ ∃ obj, vol.objs number = some obj ∧ ¬obj.Hidden

theorem findByName_child (tidy : vol.TidyBut loose) {directory : Nat} {name : List Char} {child : Nat}
    (found : vol.findByName P directory name = some child) :
    ∃ obj, vol.objs child = some obj ∧ obj.parent = some directory := by
  simp only [findByName] at found
  split at found
  case h_1 => simp at found
  case h_2 dir dir_found =>
    have mem := List.mem_of_find?_eq_some found
    have up : vol.parentOf child = some directory :=
      (tidy.sound.listed child directory).mpr (by simpa [forest, dir_found] using mem)
    exact Option.bind_eq_some_iff.mp up

/-- What is in a directory in use is in use. -/
theorem InUse.child (tidy : vol.TidyBut loose) {directory child : Nat} (used : vol.InUse directory)
    {obj : Node} (found : vol.objs child = some obj) (up : obj.parent = some directory) :
    vol.InUse child ∧ ¬obj.Hidden := by
  have visible : ¬obj.Hidden := by
    rintro ⟨trash, isTrash, up'⟩
    obtain rfl := Option.some.inj (up.symm.trans up')
    exact used.1 isTrash
  refine ⟨⟨fun isTrash => ?_, obj, found, visible⟩, visible⟩
  have orphan := tidy.sound.orphan child isTrash.isTop
  simp [forest, parentOf, found, up] at orphan

/-- What is in use is not soft deleted. -/
theorem TidyBut.soft_of_visible (tidy : vol.TidyBut loose) {obj : Node}
    (found : vol.objs number = some obj) (visible : ¬obj.Hidden) : obj.softDel = false := by
  refine Bool.eq_false_iff.mpr fun soft => ?_
  have node := tidy.node number obj found
  exact visible (node.hidden_iff.mp (node.softDel soft).1)

/-- An object can be renamed over a target, which is empty and whose newest hard link is another
one. -/
structure CanReplace (vol : Volume Store) (number newDir target : Nat) (obj dirObj targetObj : Node) :
    Prop where
  move : CanMove vol number newDir obj dirObj
  visible : ¬obj.Hidden
  used : vol.InUse newDir
  target_found : vol.objs target = some targetObj
  up : targetObj.parent = some newDir
  leaf : targetObj.children = []
  ne : target ≠ number
  newest : targetObj.hardLinks.head? ≠ some number

/-- What a replacement touches besides the object that is renamed. -/
theorem CanReplace.apart (tidy : vol.Tidy) {target : Nat} {obj dirObj targetObj : Node}
    (can : CanReplace vol number newDir target obj dirObj targetObj) (mid : Nat)
    (above : Forest.Above vol.parentOf mid newDir) :
    ¬(mid = number ∨ unlinks target targetObj mid) := by
  have dir_ne : newDir ≠ target := by
    rintro rfl
    have child := (mem_children_iff tidy.toTidyBut can.target_found can.target_found).mpr can.up
    simp [can.leaf] at child
  rintro (rfl | rfl | newest)
  · exact can.move.away above
  · exact tidy.not_above_of_leaf can.target_found can.leaf dir_ne above
  · have in_ring : mid ∈ targetObj.hardLinks := List.mem_of_mem_head? newest
    obtain ⟨linkObj, link_found, is_link, -⟩ :=
      (tidy.node target targetObj can.target_found).ring mid in_ring
    rcases tidy.directory_of_above can.move.dir_found above with rfl | ⟨midObj, mid_found, type⟩
    · exact ne_of_type can.move.dir_found link_found (by simp [can.move.is_dir, is_link]) rfl
    · exact ne_of_type mid_found link_found (by simp [type, is_link]) rfl

/-- The object is where it has been or in its new directory. -/
structure Shifted (vol after : Volume Store) (number newDir : Nat) : Prop where
  tidy : after.Tidy
  changes : Changes (· = number) False vol after
  found : ∃ obj, after.objs number = some obj ∧ ¬obj.Hidden
  parent : after.parentOf number = vol.parentOf number ∨ after.parentOf number = some newDir

theorem CanMove.shifted (tidy : vol.Tidy) {obj dirObj : Node}
    (can : CanMove vol number newDir obj dirObj) (visible : ¬obj.Hidden) (used : ¬isTrash newDir)
    (newName : List Char) (force : Bool) (shadows : Nat) :
    Shifted vol (vol.changeObjName P number (some newDir) newName force shadows).2 number newDir := by
  have soft := tidy.soft_of_visible can.found visible
  rcases changeObjName_spec (P := P) tidy can soft (some newDir) rfl newName force shadows with
    ⟨refused, -⟩ | moves
  · rw [refused]
    exact ⟨tidy, Changes.refl, ⟨obj, can.found, visible⟩, .inl rfl⟩
  · obtain ⟨obj', found', core⟩ := moves.found
    have parent : obj'.parent = some newDir :=
      (Node.core_eq_iff.mp core).2.1.trans (if_pos rfl)
    refine ⟨moves.tidy, moves.changes, ⟨obj', found', ?_⟩, .inr (by rw [parentOf_eq found', parent])⟩
    rintro ⟨trash, isTrash, up⟩
    obtain rfl := Option.some.inj (parent.symm.trans up)
    exact used isTrash

/-- The target is still empty after the object has been put in front of it. -/
theorem Shifted.target_leaf {target : Nat} {obj dirObj targetObj : Node}
    (shifted : Shifted vol after number newDir) (tidy : vol.Tidy)
    (can : CanReplace vol number newDir target obj dirObj targetObj) :
    ∃ targetObj', after.objs target = some targetObj' ∧ targetObj'.softDel = false ∧
      targetObj'.hardLinks = targetObj.hardLinks ∧ targetObj'.children = [] := by
  obtain ⟨-, visible⟩ := can.used.child tidy.toTidyBut can.target_found can.up
  have soft := tidy.soft_of_visible can.target_found visible
  obtain ⟨targetObj', found', core, links⟩ :=
    shifted.changes.kept target targetObj can.target_found can.ne soft
  refine ⟨targetObj', found', (Node.core_eq_iff.mp core).2.2.2.1.trans soft, links id, ?_⟩
  have elsewhere : after.parentOf number ≠ some target := by
    have leaf (other : Nat) (otherObj : Node) (found : vol.objs other = some otherObj) :
        otherObj.parent ≠ some target := by
      intro up
      have child := (mem_children_iff tidy.toTidyBut found can.target_found).mpr up
      simp [can.leaf] at child
    rcases shifted.parent with same | moved
    · rw [same, parentOf_eq can.move.found]
      exact leaf number obj can.move.found
    · rw [moved]
      rintro same
      obtain rfl := Option.some.inj same
      exact leaf newDir targetObj can.target_found can.up
  exact shifted.changes.leaf tidy.toTidyBut shifted.tidy.toTidyBut can.target_found can.leaf found'
    (by rintro child rfl; exact elsewhere)

theorem replaceTarget_keeps (tidy : vol.Tidy) {target : Nat} {obj dirObj targetObj : Node}
    (can : CanReplace vol number newDir target obj dirObj targetObj) (newName : List Char) :
    RelinksBut (fun other => other = number ∨ unlinks target targetObj other) vol
        (vol.replaceTarget P number newDir newName target) ∧
      ∃ obj' dirObj', CanMove (vol.replaceTarget P number newDir newName target) number newDir obj'
        dirObj' ∧ ¬obj'.Hidden := by
  let start : Volume Store := { vol with gcDisable := true }
  have same : SameShape vol start := ⟨fun _ => rfl, rfl⟩
  have can_start : CanMove start number newDir obj dirObj :=
    ⟨can.move.found, can.move.movable, can.move.dir_found, can.move.is_dir, can.move.away,
      can.move.visible, can.move.trash⟩
  let shadowed := (start.changeObjName P number (some newDir) newName false target).2
  have shifted : Shifted vol shadowed number newDir := by
    have shifted := can_start.shifted (P := P) (tidy.of_shape same) can.visible can.used.1 newName false
      target
    exact ⟨shifted.tidy, same.changes.trans shifted.changes, shifted.found, shifted.parent⟩
  obtain ⟨targetObj₁, found₁, soft₁, links₁, leaf₁⟩ := shifted.target_leaf tidy can
  let marked := shadowed.modify target fun obj => { obj with isShadowed := true }
  have same' : SameShape shadowed marked := Same.modify target fun _ => rfl
  have tidy' := shifted.tidy.of_shape same'
  have found' : marked.objs target = some { targetObj₁ with isShadowed := true } :=
    modify_self _ found₁
  obtain ⟨tidy'', changes⟩ := unlinkObj_keeps (P := P) tidy' (some target) (by
    rintro other otherObj same other_found -
    obtain rfl := Option.some.inj same
    obtain rfl := Option.some.inj (found'.symm.trans other_found)
    exact ⟨soft₁, tidy'.not_swallows_of_leaf found' leaf₁⟩)
  have touched : Changes (unlinks target targetObj) True marked (marked.unlinkObj P (some target)).2 := by
    refine changes.mono ?_ id
    rintro other ⟨n, nObj, same, n_found, touches⟩
    obtain rfl := Option.some.inj same
    obtain rfl := Option.some.inj (found'.symm.trans n_found)
    rwa [unlinks, ← links₁]
  have ended : SameShape (marked.unlinkObj P (some target)).2
      (vol.replaceTarget P number newDir newName target) := ⟨fun _ => rfl, rfl⟩
  have before : Changes (fun other => other = number ∨ unlinks target targetObj other) True vol
      (vol.replaceTarget P number newDir newName target) :=
    ((shifted.changes.mono (fun _ => .inl) (fun _ => trivial)).trans same'.changes).trans
      ((touched.mono (fun _ => .inr) id).trans ended.changes)
  have last_tidy := tidy''.of_shape ended
  obtain ⟨obj₁, obj_found₁, visible₁⟩ := shifted.found
  have tail : Changes (unlinks target targetObj) True shadowed
      (vol.replaceTarget P number newDir newName target) :=
    (same'.changes.trans touched).trans ended.changes
  obtain ⟨last, last_found, core, -⟩ := tail.kept number obj₁ obj_found₁
    (not_or.mpr ⟨Ne.symm can.ne, can.newest⟩) (shifted.tidy.soft_of_visible obj_found₁ visible₁)
  have last_visible : ¬last.Hidden :=
    fun hidden => visible₁ ((Node.hidden_congr (Node.core_eq_iff.mp core).2.1).mp hidden)
  have dir_soft := tidy.soft_of_type can.move.dir_found (by simp [can.move.is_dir])
  have apart := can.apart tidy
  obtain ⟨lastDir, dir_found, dir_core, -⟩ :=
    before.kept newDir dirObj can.move.dir_found (apart newDir .refl) dir_soft
  obtain ⟨dir_type, dir_parent, -⟩ := Node.core_eq_iff.mp dir_core
  have dir_visible : ¬lastDir.Hidden :=
    fun hidden => (can.move.visible can.used.1).1 ((Node.hidden_congr dir_parent).mp hidden)
  have away := before.away tidy.toTidyBut can.move.dir_found dir_soft apart can.move.away
  exact ⟨⟨last_tidy, before⟩, last, lastDir, ⟨last_found, can.move.movable, dir_found,
    dir_type.trans can.move.is_dir, away, fun _ => ⟨dir_visible, last_visible⟩,
    fun isTrash => absurd isTrash can.used.1⟩, last_visible⟩

/-- The object that a rename is about. -/
def renamed (vol : Volume Store) (P : Pages Store) (oldDir : Nat) (oldName : Option (List Char)) :
    Option Nat :=
  match oldName with
  | some oldName => vol.findByName P oldDir oldName
  | none => some oldDir

/-- The object is to be renamed over the object that it is the newest hard link of. -/
def Overtakes (vol : Volume Store) (P : Pages Store) (number newDir : Nat) (newName : List Char) :
    Prop :=
  ∃ target targetObj, vol.findByName P newDir newName = some target ∧
    vol.objs target = some targetObj ∧ targetObj.hardLinks.head? = some number

/-- The place of an object that is renamed has been cleared. -/
def cleared (vol : Volume Store) (P : Pages Store) (number newDir : Nat) (newName : List Char) :
    Volume Store :=
  match vol.findByName P newDir newName with
  | some target => if target ≠ number then vol.replaceTarget P number newDir newName target else vol
  | none => vol

theorem cleared_keeps (tidy : vol.Tidy) (used : vol.InUse newDir) {obj dirObj : Node}
    (can : CanMove vol number newDir obj dirObj) (visible : ¬obj.Hidden) (newName : List Char)
    (empty : ∀ target, vol.findByName P newDir newName = some target → vol.isNonEmptyDir target = false)
    (overtakes : ¬vol.Overtakes P number newDir newName) :
    (vol.cleared P number newDir newName).Tidy ∧ Holds vol (vol.cleared P number newDir newName) ∧
      ∃ obj' dirObj', CanMove (vol.cleared P number newDir newName) number newDir obj' dirObj' ∧
        ¬obj'.Hidden := by
  have unchanged : vol.Tidy ∧ Holds vol vol ∧ ∃ obj' dirObj', CanMove vol number newDir obj' dirObj' ∧
      ¬obj'.Hidden :=
    ⟨tidy, .refl, obj, dirObj, can, visible⟩
  simp only [cleared]
  split
  case h_2 => exact unchanged
  case h_1 target found =>
    split
    case isFalse => exact unchanged
    case isTrue ne =>
      obtain ⟨targetObj, target_found, up⟩ := findByName_child tidy.toTidyBut found
      have leaf := isNonEmptyDir_eq_false tidy.toTidyBut target_found (empty target found)
      have newest : targetObj.hardLinks.head? ≠ some number :=
        fun newest => overtakes ⟨target, targetObj, found, target_found, newest⟩
      obtain ⟨⟨tidy', changes⟩, can'⟩ := replaceTarget_keeps (P := P) tidy
        ⟨can, visible, used, target_found, up, leaf, ne, newest⟩ newName
      exact ⟨tidy', changes.holds, can'⟩

/-- The object is moved and the headers of both directories are written. -/
theorem move_keeps (tidy : vol.Tidy) (used : ¬isTrash newDir) {obj dirObj : Node}
    (can : CanMove vol number newDir obj dirObj) (visible : ¬obj.Hidden) (newName : List Char)
    (fromDir : Option Nat) :
    (if some newDir ≠ fromDir then
        ((vol.changeObjName P number (some newDir) newName true 0).2.updateParent P fromDir).updateParent
          P (some newDir)
      else (vol.changeObjName P number (some newDir) newName true 0).2.updateParent P fromDir).Tidy ∧
      Holds vol (if some newDir ≠ fromDir then
        ((vol.changeObjName P number (some newDir) newName true 0).2.updateParent P fromDir).updateParent
          P (some newDir)
      else (vol.changeObjName P number (some newDir) newName true 0).2.updateParent P fromDir) := by
  have shifted := can.shifted (P := P) tidy visible used newName true 0
  obtain ⟨tidy₁, swept₁⟩ := updateParent_keeps (P := P) shifted.tidy fromDir
  obtain ⟨tidy₂, swept₂⟩ := updateParent_keeps (P := P) tidy₁ (some newDir)
  have holds := shifted.changes.holds.trans swept₁.holds
  split
  · exact ⟨tidy₂, holds.trans swept₂.holds⟩
  · exact ⟨tidy₁, holds⟩

theorem renamed_keeps (tidy : vol.Tidy) (used : vol.InUse newDir) (newName : List Char)
    (is_dir : vol.isType newDir .directory) (above : ¬Forest.Above vol.parentOf number newDir)
    (overtakes : ¬vol.Overtakes P number newDir newName) (fromDir : Option Nat) :
    ∀ outcome : Bool × Volume Store, outcome =
      (if ¬(vol.objs number).any Node.renameAllowed then (false, vol)
      else if (vol.findByName P newDir newName).any fun target => vol.isNonEmptyDir target then
        (false, vol)
      else
        (((vol.cleared P number newDir newName).changeObjName P number (some newDir) newName true 0).1,
          if some newDir ≠ fromDir then
            (((vol.cleared P number newDir newName).changeObjName P number (some newDir) newName true
              0).2.updateParent P fromDir).updateParent P (some newDir)
          else ((vol.cleared P number newDir newName).changeObjName P number (some newDir) newName true
            0).2.updateParent P fromDir)) → outcome.2.Tidy ∧ Holds vol outcome.2 := by
  rintro outcome rfl
  have unchanged : vol.Tidy ∧ Holds vol vol :=
    ⟨tidy, .refl⟩
  split
  case isTrue => exact unchanged
  case isFalse allowed =>
    split
    case isTrue => exact unchanged
    case isFalse empty =>
      obtain ⟨dirObj, dir_found, dir_visible⟩ := used.2
      have dir_type : dirObj.variantType = .directory := by
        simpa [isType, dir_found] using is_dir
      cases found : vol.objs number with
      | none => simp [found] at allowed
      | some obj =>
        have allowed : obj.renameAllowed = true := by simpa [found] using allowed
        have visible : ¬obj.Hidden := by
          intro hidden
          simp [(tidy.node number obj found).hidden_rename hidden] at allowed
        have can : CanMove vol number newDir obj dirObj :=
          ⟨found, tidy.movable found (.inr (.inl allowed)), dir_found, dir_type, above,
            fun _ => ⟨dir_visible, visible⟩, fun isTrash => absurd isTrash used.1⟩
        obtain ⟨tidy', holds, obj', dirObj', can', visible'⟩ := cleared_keeps (P := P) tidy used can
          visible newName (fun target target_found => by simpa [target_found] using empty) overtakes
        obtain ⟨tidy'', holds'⟩ := move_keeps (P := P) tidy' used.1 can' visible' newName fromDir
        exact ⟨tidy'', holds.trans holds'⟩

/-- A rename keeps the objects in order if it moves no object below itself and none over the object that
it is the newest hard link of. -/
theorem renameObj_keeps (tidy : vol.Tidy) (oldDir : Nat) (oldName : Option (List Char))
    (newName : List Char) (used : vol.InUse newDir)
    (away : vol.isType newDir .directory → ∀ number, vol.renamed P oldDir oldName = some number →
      ¬Forest.Above vol.parentOf number newDir ∧ ¬vol.Overtakes P number newDir newName) :
    (vol.renameObj P oldDir oldName newDir newName).2.Tidy ∧
      Holds vol (vol.renameObj P oldDir oldName newDir newName).2 := by
  have unchanged : vol.Tidy ∧ Holds vol vol :=
    ⟨tidy, .refl⟩
  simp only [renameObj]
  split
  case isTrue => exact unchanged
  case isFalse checked =>
    have is_dir : vol.isType newDir .directory := by tauto
    cases oldName with
    | none =>
      obtain ⟨above, overtakes⟩ := away is_dir oldDir rfl
      exact renamed_keeps tidy used newName is_dir above overtakes (vol.parentOf oldDir) _ rfl
    | some name =>
      split
      case h_1 => exact unchanged
      case h_2 number eq =>
        obtain ⟨above, overtakes⟩ := away is_dir number eq
        exact renamed_keeps tidy used newName is_dir above overtakes (some oldDir) _ rfl

end Volume

end Yaffs
