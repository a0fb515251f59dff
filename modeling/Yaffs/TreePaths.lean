import Yaffs.Calls
import Yaffs.TreeRename

/-!
# Paths lead to objects in use

Whatever a path leads to is in use, however many links are followed on the way: no look-up comes to an
object that has been unlinked or deleted.
-/

namespace Yaffs

namespace Volume

variable {Store : Type} {P : Pages Store} {vol : Volume Store} {number : Nat}

theorem isType_eq {type : ObjType} {obj : Node} (found : vol.objs number = some obj)
    (eq : obj.variantType = type) : vol.isType number type = true := by
  simp [isType, found, eq]

/-- The directory of an object in use is in use. -/
theorem InUse.up (tidy : vol.Tidy) (used : vol.InUse number) {directory : Nat}
    (up : vol.parentOf number = some directory) :
    vol.InUse directory ∧ vol.isType directory .directory = true := by
  obtain ⟨-, obj, found, visible⟩ := used
  have parent : obj.parent = some directory := (parentOf_eq found).symm.trans up
  obtain ⟨dirObj, dir_found, is_dir⟩ := tidy.directory number obj directory found parent
  exact ⟨⟨fun isTrash => visible ⟨directory, isTrash, parent⟩, dirObj, dir_found,
    tidy.parent_visible found parent dir_found⟩, isType_eq dir_found is_dir⟩

theorem InUse.root (tidy : vol.Tidy) :
    vol.InUse objectIdRoot ∧ vol.isType objectIdRoot .directory = true := by
  obtain ⟨root, root_found, is_dir, -⟩ := tidy.fixed objectIdRoot (.inl (.inl rfl))
  exact ⟨⟨not_isTrash_root, root, root_found, tidy.not_hidden_of_top root_found (.inl rfl)⟩,
    isType_eq root_found is_dir⟩

theorem InUse.findByName (tidy : vol.Tidy) {directory : Nat} (used : vol.InUse directory)
    {name : List Char} (found : vol.findByName P directory name = some number) :
    vol.InUse number := by
  obtain ⟨obj, obj_found, up⟩ := findByName_child tidy.toTidyBut found
  exact (used.child tidy.toTidyBut obj_found up).1

/-- A hard link in use stands for an object in use, which is no hard link itself. -/
theorem InUse.getEquivalentObj (tidy : vol.Tidy) (used : vol.InUse number) {equiv : Nat}
    (eq : vol.getEquivalentObj (some number) = some equiv) :
    vol.InUse equiv ∧ ∀ obj, vol.objs equiv = some obj → obj.variantType ≠ .hardlink := by
  obtain ⟨obj, found, visible⟩ := used.2
  simp only [Volume.getEquivalentObj, found] at eq
  split at eq
  case isFalse type =>
    obtain rfl := Option.some.inj eq
    refine ⟨used, fun obj' found' => ?_⟩
    obtain rfl := Option.some.inj (found.symm.trans found')
    exact type
  case isTrue is_link =>
    obtain ⟨equivObj, equiv_found, in_ring⟩ :=
      (tidy.node number obj found).linked is_link visible (by simp) equiv eq
    have node := tidy.node equiv equivObj equiv_found
    have kept : ¬(equivObj.Hidden ∨ isTrash equiv) := by
      intro gone
      simp [node.trash_ring gone] at in_ring
    refine ⟨⟨fun isTrash => kept (.inr isTrash), equivObj, equiv_found,
      fun hidden => kept (.inl hidden)⟩, fun obj' found' is_link => ?_⟩
    obtain rfl := Option.some.inj (equiv_found.symm.trans found')
    simp [(node.hardlink is_link).1] at in_ring

/-- A search comes to objects in use only. -/
def UsedOnly (vol : Volume Store) (number : Option Nat) : Prop := ∀ n, number = some n → vol.InUse n

theorem usedOnly_none : vol.UsedOnly none := fun _ eq => by simp at eq

/-- A search comes to a directory in use only. -/
def UsedDir (vol : Volume Store) (directory : Option Nat) : Prop :=
  ∀ n, directory = some n → vol.InUse n ∧ vol.isType n .directory = true

theorem usedDir_none : vol.UsedDir none := fun _ eq => by simp at eq

theorem UsedOnly.getEquivalentObj (tidy : vol.Tidy) {number : Option Nat}
    (used : vol.UsedOnly number) : vol.UsedOnly (vol.getEquivalentObj number) := by
  cases number with
  | none => exact usedOnly_none
  | some n => exact fun equiv eq => ((used n rfl).getEquivalentObj tidy eq).1

theorem UsedOnly.followLinkWith (tidy : vol.Tidy)
    {findObject : Option Nat → List Char → Nat → Option FoundObj}
    (finds : ∀ relDir path depth found, vol.UsedDir relDir →
      findObject relDir path depth = some found → vol.UsedOnly found.obj)
    (left : Nat) {number : Option Nat} (used : vol.UsedOnly number) (symDepth : Nat) (loop : Bool)
    {target : Option Nat × Bool}
    (eq : vol.followLinkWith findObject left number symDepth loop = some target) :
    vol.UsedOnly target.1 := by
  induction left generalizing number symDepth loop with
  | zero => simp [Volume.followLinkWith] at eq
  | succ left ih =>
    simp only [Volume.followLinkWith] at eq
    split at eq
    case h_1 =>
      obtain rfl := Option.some.inj eq
      exact usedOnly_none
    case h_2 obj found =>
      obtain ⟨n, rfl, found⟩ := Option.bind_eq_some_iff.mp found
      split at eq
      case isFalse =>
        obtain rfl := Option.some.inj eq
        exact used
      case isTrue =>
        obtain ⟨next, next_found, eq⟩ := Option.bind_eq_some_iff.mp eq
        refine ih (finds _ _ _ next ?_ next_found) _ _ eq
        intro dir dir_eq
        split at dir_eq
        · simp at dir_eq
        · exact (used n rfl).up tidy ((parentOf_eq found).trans dir_eq)

theorem UsedDir.walk (tidy : vol.Tidy) {follow : Option Nat → Bool → Option (Option Nat × Bool)}
    (follows : ∀ number loop target, vol.UsedOnly number → follow number loop = some target →
      vol.UsedOnly target.1)
    (parts : List (List Char)) {start found : FoundDir} (used : vol.UsedDir start.dir)
    (eq : vol.walk P follow parts start = some found) : vol.UsedDir found.dir := by
  induction parts generalizing start with
  | nil =>
    obtain rfl := Option.some.inj eq
    exact used
  | cons part rest ih =>
    simp only [Volume.walk] at eq
    split at eq
    case h_1 =>
      obtain rfl := Option.some.inj eq
      exact used
    case h_2 dir dir_eq =>
      have dir_used := used dir dir_eq
      split at eq
      case isTrue => exact ih used eq
      case isFalse =>
        split at eq
        case isTrue => exact ih (fun higher up => dir_used.1.up tidy up) eq
        case isFalse =>
          obtain ⟨target, target_eq, eq⟩ := Option.bind_eq_some_iff.mp eq
          have target_used := follows _ _ target
            (fun child child_eq => dir_used.1.findByName tidy child_eq) target_eq
          split at eq
          case h_1 =>
            obtain rfl := Option.some.inj eq
            exact usedDir_none
          case h_2 next next_eq =>
            split at eq
            case isTrue is_dir =>
              refine ih (fun n same => ?_) eq
              obtain rfl := Option.some.inj same
              exact ⟨target_used next next_eq, is_dir⟩
            case isFalse =>
              obtain rfl := Option.some.inj eq
              exact usedDir_none

/-- The object that the last name of a path leads to is in use. -/
theorem UsedDir.lastStep (tidy : vol.Tidy) (name : List Char) {dir : Option Nat} :
    vol.UsedDir dir → vol.UsedOnly (match dir with
      | none => none
      | some dir =>
        if name = ['.', '.'] then vol.parentOf dir
        else if name = ['.'] ∨ name = [] then some dir
        else vol.findByName P dir name) := by
  intro used n n_eq
  split at n_eq
  case h_1 => simp at n_eq
  case h_2 dir =>
    have higher := used dir rfl
    split at n_eq
    · exact (higher.1.up tidy n_eq).1
    · split at n_eq
      · obtain rfl := Option.some.inj n_eq
        exact higher.1
      · exact higher.1.findByName tidy n_eq

theorem UsedDir.findObjectBy (tidy : vol.Tidy)
    {findDirectory : Option Nat → List Char → Nat → Option FoundDir}
    (finds : ∀ relDir path depth found, vol.UsedDir relDir →
      findDirectory relDir path depth = some found → vol.UsedDir found.dir)
    {relDir : Option Nat} (used : vol.UsedDir relDir) (path : List Char) (symDepth : Nat)
    (getEquiv : Bool) {found : FoundObj}
    (eq : vol.findObjectBy P findDirectory relDir path symDepth getEquiv = some found) :
    vol.UsedOnly found.obj ∧ vol.UsedDir found.dir := by
  obtain ⟨foundDir, dir_eq, rfl⟩ := Option.map_eq_some_iff.mp eq
  have dir_used := finds relDir path symDepth foundDir used dir_eq
  refine ⟨?_, dir_used⟩
  have plain := @UsedDir.lastStep Store P vol tidy foundDir.name _ dir_used
  dsimp only
  split
  · exact plain.getEquivalentObj tidy
  · exact plain

/-- A walk starts in the given directory or at the root, both of which are in use. -/
theorem UsedDir.start (tidy : vol.Tidy) {startDir : Option Nat} {path rest : List Char} {dir : Nat}
    (eq : (match startDir with
      | some dir => some (dir, path)
      | none => vol.findRoot path) = some (dir, rest)) (used : vol.UsedDir startDir) :
    vol.InUse dir ∧ vol.isType dir .directory = true := by
  split at eq
  case h_1 start =>
    obtain ⟨rfl, rfl⟩ := Prod.mk.inj (Option.some.inj eq)
    exact used start rfl
  case h_2 =>
    obtain ⟨rest', -, same⟩ := Option.map_eq_some_iff.mp eq
    obtain ⟨rfl, rfl⟩ := Prod.mk.inj same
    exact InUse.root tidy

/-- The directory that a path leads to is in use. -/
theorem UsedDir.findDirectory (tidy : vol.Tidy) (fuel : Nat) {startDir : Option Nat}
    (used : vol.UsedDir startDir) (path : List Char) (symDepth : Nat) {found : FoundDir}
    (eq : vol.findDirectory P fuel startDir path symDepth = some found) :
    vol.UsedDir found.dir := by
  induction fuel generalizing startDir path symDepth found with
  | zero => simp [Volume.findDirectory] at eq
  | succ fuel ih =>
    simp only [Volume.findDirectory] at eq
    split at eq
    case isTrue =>
      obtain rfl := Option.some.inj eq
      exact usedDir_none
    case isFalse =>
      split at eq
      case h_1 =>
        obtain rfl := Option.some.inj eq
        exact usedDir_none
      case h_2 dir rest start_eq =>
        refine UsedDir.walk tidy ?_ _ ?_ eq
        · intro number loop target number_used target_eq
          refine UsedOnly.followLinkWith tidy ?_ _ (number_used.getEquivalentObj tidy) _ _ target_eq
          intro relDir path depth found relDir_used found_eq
          exact (UsedDir.findObjectBy tidy (fun _ path depth _ used eq => ih used path depth eq)
            relDir_used path depth true found_eq).1
        · intro n same
          obtain rfl := Option.some.inj same
          exact UsedDir.start tidy start_eq used

theorem UsedDir.findObject (tidy : vol.Tidy) (fuel : Nat) {relDir : Option Nat}
    (used : vol.UsedDir relDir) (path : List Char) (symDepth : Nat) (getEquiv : Bool)
    {found : FoundObj} (eq : vol.findObject P fuel relDir path symDepth getEquiv = some found) :
    vol.UsedOnly found.obj ∧ vol.UsedDir found.dir :=
  UsedDir.findObjectBy tidy (fun _ path depth _ used => used.findDirectory tidy fuel path depth) used
    path symDepth getEquiv eq

theorem UsedOnly.followLink (tidy : vol.Tidy) (fuel : Nat) {number : Option Nat}
    (used : vol.UsedOnly number) (loop : Bool) {target : Option Nat × Bool}
    (eq : vol.followLink P fuel number loop = some target) : vol.UsedOnly target.1 := by
  refine UsedOnly.followLinkWith tidy ?_ _ (used.getEquivalentObj tidy) _ _ eq
  intro relDir path depth found relDir_used found_eq
  exact (relDir_used.findObject tidy fuel path depth true found_eq).1

/-! ## Inodes -/

/-- Giving an inode to an object, or taking it away. -/
theorem tidy_setInode (tidy : vol.Tidy) {number : Nat} {obj : Node}
    (found : vol.objs number = some obj) (inode : Option Int)
    (free : inode.isSome → obj.softDel = false ∧ obj.variantType ≠ .hardlink) :
    (vol.modify number fun node => { node with myInode := inode }).Tidy := by
  have same : Same Node.skeleton vol
      (vol.modify number fun node => { node with myInode := inode }) :=
    Same.modify number fun _ => rfl
  refine { tidy.toTidyBut.of_skeleton same ?_, tidy.toHashed.of_same same with }
  intro other otherObj found'
  obtain ⟨old, old_found, rfl⟩ := modify_find found'
  have marked := (tidy.node other old old_found).marked
  split
  case isFalse => exact marked
  case isTrue eq =>
    subst eq
    obtain rfl := Option.some.inj (found.symm.trans old_found)
    cases inode with
    | none => exact ⟨fun _ => rfl, fun soft => ⟨(marked.softDel soft).1, (marked.softDel soft).2.1, rfl⟩⟩
    | some index =>
      obtain ⟨soft, type⟩ := free rfl
      exact ⟨fun is_link => absurd is_link type, fun soft' => by simp [soft] at soft'⟩

end Volume

namespace Vfs

variable {Store : Type} {P : Pages Store} {fuel : Nat} {vfs : Vfs Store}

/-! ## What is to be renamed -/

theorem not_above_of_isBelow {obj left : Nat} {start : Option Nat}
    (eq : vfs.isBelow obj left start = some false) (dir : Nat) (start_eq : start = some dir) :
    ¬Forest.Above vfs.vol.parentOf obj dir := by
  induction left generalizing start dir with
  | zero => simp [isBelow] at eq
  | succ left ih =>
    subst start_eq
    simp only [isBelow] at eq
    split at eq
    case isTrue => simp at eq
    case isFalse ne =>
      intro above
      cases above with
      | refl => exact ne rfl
      | step up above => exact ih eq _ up above

/-- The object to be renamed is the one that is checked, or lies below it. -/
theorem not_above_renamed (tidy : vfs.vol.Tidy) {path : List Char} {old : FoundDir}
    {oldObj : FoundObj} (old_eq : vfs.vol.findDirectory P fuel none path 0 = some old)
    (oldObj_eq : vfs.vol.findObject P fuel none path 0 false = some oldObj)
    {oldDir newDir obj : Nat} {oldName : Option (List Char)}
    (oldDir_eq : old.dir = some oldDir) (obj_eq : oldObj.obj = some obj)
    (below_eq : (if vfs.vol.isType obj .directory then vfs.isBelow obj fuel (some newDir)
      else some false) = some false)
    (name_eq : (if old.dir = oldObj.obj then none else some old.name) = oldName)
    (is_dir : vfs.vol.isType newDir .directory) {number : Nat}
    (renamed : vfs.vol.renamed P oldDir oldName = some number) :
    ¬Forest.Above vfs.vol.parentOf number newDir := by
  have obj_used := (Volume.usedDir_none.findObject tidy fuel path 0 false oldObj_eq).1 obj obj_eq
  -- A directory is looked for on the way up, and nothing lies below other objects.
  have away : ¬Forest.Above vfs.vol.parentOf obj newDir := by
    obtain ⟨-, objNode, found, -⟩ := obj_used
    split at below_eq
    case isTrue => exact not_above_of_isBelow below_eq newDir rfl
    case isFalse type =>
      have not_dir : objNode.variantType ≠ .directory := by
        simpa [Volume.isType, found] using type
      refine tidy.not_above_of_leaf found (tidy.leaf_of_type found not_dir) ?_
      rintro rfl
      exact type is_dir
  have eq_obj : oldObj.obj = if old.name = ['.', '.'] then vfs.vol.parentOf oldDir
      else if old.name = ['.'] ∨ old.name = [] then some oldDir
      else vfs.vol.findByName P oldDir old.name := by
    simp only [Volume.findObject, Volume.findObjectBy, old_eq, Option.map_some] at oldObj_eq
    obtain rfl := Option.some.inj oldObj_eq
    simp [oldDir_eq]
  split at name_eq
  case isTrue same =>
    subst name_eq
    obtain rfl : oldDir = number := Option.some.inj renamed
    obtain rfl : oldDir = obj := Option.some.inj (oldDir_eq.symm.trans (same.trans obj_eq))
    exact away
  case isFalse differ =>
    subst name_eq
    replace renamed : vfs.vol.findByName P oldDir old.name = some number := renamed
    split at eq_obj
    case isTrue =>
      obtain ⟨node, node_found, up⟩ := Volume.findByName_child tidy.toTidyBut renamed
      have higher : Forest.Above vfs.vol.parentOf obj number :=
        .step ((Volume.parentOf_eq node_found).trans up)
          (.step (eq_obj.symm.trans obj_eq) .refl)
      exact fun above => away (higher.trans above)
    case isFalse =>
      split at eq_obj
      case isTrue => exact absurd (oldDir_eq.trans eq_obj.symm) differ
      case isFalse =>
        obtain rfl : number = obj := Option.some.inj (renamed.symm.trans (eq_obj.symm.trans obj_eq))
        exact away

/-- An object is renamed to a directory in use that does not lie in the object. -/
theorem renameTarget_spec (tidy : vfs.vol.Tidy) {oldPath newPath : List Char} {target : RenameTarget}
    (eq : vfs.renameTarget P fuel oldPath newPath = some (.ok target)) :
    vfs.vol.InUse target.newDir ∧ (vfs.vol.isType target.newDir .directory → ∀ number,
      vfs.vol.renamed P target.oldDir target.oldName = some number →
        ¬Forest.Above vfs.vol.parentOf number target.newDir) := by
  simp only [renameTarget, Option.bind_eq_some_iff] at eq
  obtain ⟨old, old_eq, new, new_eq, oldObj, oldObj_eq, newObj, newObj_eq, eq⟩ := eq
  have new_used := Volume.usedDir_none.findDirectory tidy fuel newPath 0 new_eq
  generalize name_eq : (if old.dir = oldObj.obj then none else some old.name) = oldName at eq
  split at eq
  case isTrue => simp at eq
  case isFalse =>
    split at eq
    case isTrue => simp at eq
    case isFalse =>
      split at eq
      case isTrue => simp at eq
      case isFalse =>
        split at eq
        case h_2 => simp at eq
        case h_1 oldDir newDir obj oldDir_eq newDir_eq obj_eq =>
          split at eq
          case isTrue => simp at eq
          case isFalse =>
            split at eq
            case h_1 => simp at eq
            case h_2 =>
              obtain ⟨below, below_eq, eq⟩ := Option.map_eq_some_iff.mp eq
              split at eq
              case isTrue => simp at eq
              case isFalse not_below =>
                simp only [Except.ok.injEq] at eq
                subst eq
                have not_below : below = false := by simpa using not_below
                subst not_below
                refine ⟨(new_used newDir newDir_eq).1, fun is_dir number renamed => ?_⟩
                exact not_above_renamed tidy old_eq oldObj_eq oldDir_eq obj_eq below_eq name_eq
                  is_dir renamed

end Vfs

end Yaffs
