import Yaffs.TreeRename
import Yaffs.Steady

/-!
# What becomes of unlinked objects

Unlinking an object either does nothing or puts the object out of use, unless the object has hard links.
Garbage collection takes objects out of directories, but leaves those that stay in the order in which
they were.
-/

namespace Yaffs

namespace Volume

variable {Store : Type} {P : Pages Store} {vol after last : Volume Store} {loose : Option Nat}
  {number directory : Nat}

/-! ## The order in a directory -/

/-- No object has come to a directory, and those still there are in the same order. -/
def Thins (directory : Nat) (before after : Volume Store) : Prop :=
  ∀ dirObj', after.objs directory = some dirObj' → ∃ dirObj, before.objs directory = some dirObj ∧
    dirObj'.children.Sublist dirObj.children

theorem Thins.refl : Thins directory vol vol := fun dirObj found => ⟨dirObj, found, .refl _⟩

theorem Thins.of_objs (same : after.objs = vol.objs) : Thins directory vol after := by
  intro dirObj' found'
  exact ⟨dirObj', same ▸ found', .refl _⟩

theorem Thins.trans (first : Thins directory vol after) (second : Thins directory after last) :
    Thins directory vol last := by
  intro dirObj' found'
  obtain ⟨mid, mid_found, shorter⟩ := second dirObj' found'
  obtain ⟨dirObj, found, shorter'⟩ := first mid mid_found
  exact ⟨dirObj, found, shorter.trans shorter'⟩

theorem Thins.modify {change : Node → Node}
    (shorter : ∀ obj, (change obj).children.Sublist obj.children) :
    Thins directory vol (vol.modify number change) := by
  intro dirObj' found'
  rw [modify_objs] at found'
  obtain ⟨dirObj, found, rfl⟩ := Option.map_eq_some_iff.mp found'
  refine ⟨dirObj, found, ?_⟩
  split
  · exact shorter dirObj
  · exact .refl _

theorem Thins.removeObjFromDir : Thins directory vol (vol.removeObjFromDir number) := by
  rw [Volume.removeObjFromDir]
  refine Thins.trans ?_ (Thins.modify fun _ => .refl _)
  split
  · exact Thins.modify fun _ => List.erase_sublist
  · exact Thins.refl

theorem Thins.addObjToDir {target : Nat} (elsewhere : target ≠ directory) :
    Thins directory vol (vol.addObjToDir target number) := by
  have removed : Thins directory vol (vol.removeObjFromDir number) := Thins.removeObjFromDir
  have listed : Thins directory (vol.removeObjFromDir number)
      ((vol.removeObjFromDir number).modify target fun dir =>
        { dir with children := number :: dir.children }) := by
    intro dirObj' found'
    rw [modify_objs] at found'
    obtain ⟨dirObj, found, rfl⟩ := Option.map_eq_some_iff.mp found'
    exact ⟨dirObj, found, by rw [if_neg elsewhere.symm]⟩
  have entered : Thins directory vol (((vol.removeObjFromDir number).modify target fun dir =>
      { dir with children := number :: dir.children }).modify number fun obj =>
        { obj with parent := some target }) :=
    (removed.trans listed).trans (Thins.modify fun _ => .refl _)
  simp only [Volume.addObjToDir]
  split
  · exact entered.trans (Thins.modify fun _ => .refl _)
  · exact entered

theorem Thins.freeObj : Thins directory vol (vol.freeObj number) := by
  rw [Volume.freeObj]
  split
  · exact Thins.modify fun _ => .refl _
  · intro dirObj' found'
    by_cases eq : directory = number
    · simp [eq] at found'
    · exact ⟨dirObj', by simpa [eq] using found', .refl _⟩

variable {gc : Volume Store → Volume Store}

theorem updateOhWith_thins (gc_thins : Thins directory vol (gc vol)) (name : Option (List Char))
    (isShrink : Bool) (shadows : Nat) :
    Thins directory vol (vol.updateOhWith P gc number name isShrink shadows).2 := by
  simp only [updateOhWith]
  split
  · exact Thins.refl
  · split
    case h_1 => exact gc_thins
    case h_2 obj _ =>
      have stored : Thins directory vol { gc vol with
          store := (P.writeHeader (gc vol).store number obj name isShrink shadows).2 } :=
        gc_thins.trans (Thins.of_objs rfl)
      split
      · exact stored.trans (Thins.modify fun _ => .refl _)
      · exact stored

theorem Thins.setObjName (newName : List Char) :
    Thins directory vol (vol.modify number (named number newName)) := by
  refine Thins.modify fun obj => ?_
  simp only [named, Node.setObjName]
  split <;> exact .refl _

/-- What moves an object elsewhere, moves none to the directory. -/
theorem changeObjNameWith_thins (gc_thins : ∀ vol, Thins directory vol (gc vol)) {target : Nat}
    (elsewhere : target ≠ directory) (newName : List Char) (force : Bool) (shadows : Nat) :
    Thins directory vol
      (vol.changeObjNameWith P gc number (some target) newName force shadows).2 := by
  rcases changeObjNameWith_cases P gc vol number (some target) newName force shadows
    with refused | ⟨target', same, -, accepted⟩
  · rw [refused]
    exact Thins.refl
  · obtain rfl : target = target' := Option.some.inj same
    have placed : Thins directory vol (vol.placed number target newName) := by
      have moves : Thins directory vol
          ((vol.modify number (named number newName)).addObjToDir target number) :=
        (Thins.setObjName newName).trans (Thins.addObjToDir elsewhere)
      simp only [Volume.placed]
      split
      · exact moves.trans (Thins.modify fun _ => .refl _)
      · exact moves
    rw [accepted]
    exact placed.trans (updateOhWith_thins (gc_thins _) _ _ _)

theorem genericObjDelWith_thins (gc_thins : ∀ vol, Thins directory vol (gc vol))
    (used : ¬isTrash directory) : Thins directory vol (vol.genericObjDelWith P gc number) := by
  have elsewhere : objectIdDeleted ≠ directory := by
    rintro rfl
    exact used (.inr rfl)
  have dropped (vol : Volume Store) : Thins directory vol
      (({ vol.removeObjFromDir number with
          store := P.dropHeader (vol.removeObjFromDir number).store number } :
        Volume Store).freeObj number) :=
    (Thins.removeObjFromDir.trans (Thins.of_objs rfl)).trans Thins.freeObj
  have stored : Thins directory vol { vol with store := P.invalidateWholeCache vol.store number } :=
    Thins.of_objs rfl
  simp only [genericObjDelWith]
  split
  · exact (stored.trans (changeObjNameWith_thins gc_thins elsewhere _ _ _)).trans (dropped _)
  · exact stored.trans (dropped _)

theorem gcCleanUp_thins (used : ¬isTrash directory) : Thins directory vol (gcCleanUp P vol number) := by
  simp only [gcCleanUp]
  split
  · exact Thins.refl
  · split
    · have freed : Thins directory vol { vol with store := P.freeTnodes vol.store number } :=
        Thins.of_objs rfl
      have uncollected : ∀ vol : Volume Store, Thins directory vol (id vol) := fun _ => Thins.refl
      exact (freed.trans (genericObjDelWith_thins uncollected used)).trans (Thins.of_objs rfl)
    · exact Thins.refl

theorem sweep_thins (used : ¬isTrash directory) (collected : List Nat × Store) :
    Thins directory vol (vol.sweep P collected) := by
  have clean (numbers : List Nat) (vol : Volume Store) :
      Thins directory vol (numbers.foldl (gcCleanUp P) vol) := by
    induction numbers generalizing vol with
    | nil => exact Thins.refl
    | cons number numbers ih => exact (gcCleanUp_thins used).trans (ih _)
  have stored : Thins directory vol { vol with store := collected.2 } := Thins.of_objs rfl
  simp only [sweep]
  split
  · exact stored
  · exact stored.trans (clean _ _)

theorem checkGc_thins (used : ¬isTrash directory) (vol : Volume Store) :
    Thins directory vol (vol.checkGc P) := by
  rw [checkGc]
  split
  · exact Thins.refl
  · exact sweep_thins used _

theorem updateParent_thins (used : ¬isTrash directory) (parent : Option Nat) :
    Thins directory vol (vol.updateParent P parent) := by
  cases parent with
  | none => exact Thins.refl
  | some parent =>
    have marked : Thins directory vol (vol.modify parent fun dir => { dir with dirty := true }) :=
      Thins.modify fun _ => .refl _
    simp only [updateParent]
    split
    · exact marked
    · exact marked.trans (updateOhWith_thins (checkGc_thins used _) _ _ _)

/-! ## Unlinking -/

theorem MovedTo.left {trash : Nat} {obj : Node} (moves : MovedTo number trash obj vol after)
    (isTrash : isTrash trash) : after.Left number := by
  obtain ⟨obj', found', unlinked, -⟩ := moves.given_up isTrash
  exact moves.tidy.left found' unlinked

/-- An empty object without links goes when it is unlinked, whatever type it is of, or some inode holds
it. -/
theorem unlinkWorker_left (tidy : vol.Tidy) {obj : Node} (can : CanUnlink vol number obj)
    (leaf : obj.children = []) (no_links : obj.hardLinks = [])
    (known : obj.variantType = .unknown → obj.myInode.isSome) :
    (vol.unlinkWorker P number).2.Left number := by
  obtain ⟨tidy', swept⟩ := updateParent_keeps (P := P) tidy (vol.parentOf number)
  obtain ⟨obj', can', core, links⟩ := can.swept tidy tidy' swept
  obtain ⟨type_eq, -, -, -, -, -, -, -, inode_eq⟩ := Node.core_eq_iff.mp core
  have leaf' := swept.leaf tidy tidy' can.found leaf can'.found
  have no_links' : obj'.hardLinks = [] := links.trans no_links
  simp only [unlinkWorker, can'.found]
  generalize vol.updateParent P (vol.parentOf number) = mid at *
  split
  case isTrue type =>
    exact left_of_gone (delLink_deletes tidy' can'.found can'.movable type can'.soft).2
  case isFalse not_link =>
    simp only [no_links']
    have deletable (inode : obj'.myInode = none) : Deletable mid number obj' :=
      .of_leaf tidy'.toTidyBut can'.found can'.movable leaf' not_link no_links' inode
    split
    case isTrue inode =>
      have gone : (mid.genericObjDel P number).2.Left number :=
        left_of_gone (genericObjDel_deletes tidy'.toTidyBut tidy'.toHashed (deletable inode) (.inl rfl)
          can'.soft).gone
      cases type : obj'.variantType with
      | unknown =>
        have held := known (type_eq.symm.trans type)
        simp [← inode_eq, inode] at held
      | file => exact (delFile_keeps tidy' ⟨can'.found, type, no_links', inode⟩ can'.soft).2
      | directory =>
        have empty : mid.isNonEmptyDir number = false := by simp [isNonEmptyDir, can'.found, leaf']
        simpa [delDir, empty] using gone
      | symlink =>
        exact left_of_gone
          (delSymlink_deletes tidy' can'.found can'.movable type no_links' inode can'.soft).gone
      | hardlink => exact absurd type not_link
      | special => exact gone
    case isFalse =>
      have empty : mid.isNonEmptyDir number = false := by simp [isNonEmptyDir, can'.found, leaf']
      have moves := changeObjName_gives_up (P := P) tidy'.toTidyBut tidy'.toHashed can'.found
        can'.movable leaf' no_links' (tidy'.not_linked can'.found (.inl not_link)) (.inl rfl) can'.soft
        objectIdUnlinked (.inl rfl) "unlinked".toList
      simpa [empty] using moves.left (.inl rfl)

end Volume

end Yaffs
