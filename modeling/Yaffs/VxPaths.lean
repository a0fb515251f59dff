import Yaffs.MountPoints
import Yaffs.TreeRuns

/-!
# Paths from VxWorks

The VxWorks layer has a walker of its own.  It stores what it found through an argument, also when
the directory is missing, and the search for an object passes no place to store that to.  The
objects that it finds are those of the file system interface.
-/

namespace Yaffs

/-- What the search for a directory stores through its argument `ret`. -/
structure FindDiryReturn where
  robj : Nat
  rstr : List Char
  rname : List Char
  rrest : List Char
  flag : Nat
deriving DecidableEq, Repr

/-- Outcome of the search: the directory, the name and what is stored. -/
structure VxFoundDir where
  dir : Option Nat
  name : List Char
  ret : Option FindDiryReturn
deriving DecidableEq, Repr

/-- Outcome of the search for an object. -/
structure VxFoundObj where
  obj : Option Nat
  /-- Has something been stored through a null pointer? -/
  storesNull : Bool
deriving DecidableEq, Repr

/-- Where a name is followed by something it is not empty. -/
theorem textOf_ne_nil {path : List Char} (goes_on : afterText (skipDividers path) ≠ []) :
    textOf (skipDividers path) ≠ [] := by
  induction path with
  | nil => exact absurd rfl goes_on
  | cons ch rest ih =>
    by_cases divider : isPathDivider ch = true
    · rw [skipDividers, List.dropWhile_cons_of_pos divider] at goes_on ⊢
      exact ih goes_on
    · rw [skipDividers, List.dropWhile_cons_of_neg divider, textOf,
        List.takeWhile_cons_of_pos (by simp [divider])]
      exact List.cons_ne_nil _ _

/-- What follows a name is shorter than what the name was found in. -/
theorem afterText_lt {path : List Char} (goes_on : afterText (skipDividers path) ≠ []) :
    (afterText (skipDividers path)).length < path.length := by
  have named := List.length_pos_iff.2 (textOf_ne_nil goes_on)
  have parts := congrArg List.length (textOf_append_afterText (skipDividers path))
  have skipped : (skipDividers path).length ≤ path.length := List.length_dropWhile_le _ _
  rw [List.length_append] at parts
  omega

namespace Volume

variable {Store : Type} (P : Pages Store) (vol : Volume Store)

/-- The loop over the names of a path. -/
def findDirectoryLoop (str : List Char) (dir : Option Nat) (name restOfPath : List Char) :
    VxFoundDir :=
  match dir with
  | none => ⟨none, name, none⟩
  | some dir =>
    let name := skipDividers restOfPath
    let part := textOf name
    -- the buffer keeps the name before when there is no other one
    let str := if part = [] then str else part.take maxNameLength
    if _ended : afterText name = [] then
      ⟨some dir, name, some ⟨dir, str, name, [], 1⟩⟩
    else if str = ['.'] then findDirectoryLoop str (some dir) name (afterText name)
    else if str = ['.', '.'] then
      findDirectoryLoop str (vol.parentOf dir) name (afterText name)
    else
      match (vol.findByName P dir str).filter fun next => vol.isType next .directory with
      | some next => findDirectoryLoop str (some next) name (afterText name)
      | none => ⟨some dir, name, some ⟨dir, str, name, afterText name, 2⟩⟩
termination_by restOfPath.length
decreasing_by
  all_goals exact afterText_lt _ended

/-- Find the directory of a path, or the last one that exists. -/
def yaffsFindDirectory (startDir : Option Nat) (path : List Char) : VxFoundDir :=
  vol.findDirectoryLoop P [] (some (startDir.getD objectIdRoot)) [] path

/-- Find the object of a path.  Nothing is given to store to.  The name points into a buffer of the
search for the directory, whose contents may have changed by now. -/
def yaffsFindObject (relativeDirectory : Option Nat) (path : List Char)
    (left : List Char → List Char) : VxFoundObj :=
  let found := vol.yaffsFindDirectory P relativeDirectory path
  let obj := match found.dir with
    | none => none
    | some dir =>
      let name := left found.name
      if name = ['.', '.'] then vol.parentOf dir
      else if name = ['.'] then some dir
      else if name ≠ [] then vol.findByName P dir name
      else some dir
  ⟨obj, found.ret.isSome⟩

/-! ## Where a walk ends -/

/-- Where a walk down the directories of a path ends. -/
inductive WalkEnd
  | aboveRoot
  | reached (dir : Nat)
  | missing (dir : Nat)
deriving DecidableEq, Repr

/-- Walk down directories, without links. -/
def walkEnd : List (List Char) → Nat → WalkEnd
  | [], dir => .reached dir
  | part :: rest, dir =>
    let str := part.take maxNameLength
    if str = ['.'] then walkEnd rest dir
    else if str = ['.', '.'] then
      match vol.parentOf dir with
      | none => .aboveRoot
      | some parent => walkEnd rest parent
    else
      match (vol.findByName P dir str).filter fun next => vol.isType next .directory with
      | some next => walkEnd rest next
      | none => .missing dir

/-- The path leads above the root before its last name. -/
def LeavesRoot (startDir : Option Nat) (path : List Char) : Prop :=
  vol.walkEnd P (pathParts path).1 (startDir.getD objectIdRoot) = .aboveRoot

/-- Both walkers find the same object, and nothing is stored through a null pointer. -/
structure WalkersAgree (relDir : Option Nat) (path : List Char) (left : List Char → List Char) :
    Prop where
  same : ∀ fuel, 0 < fuel →
    (vol.findObject P fuel (some (relDir.getD objectIdRoot)) path 0 false).map FoundObj.obj =
      some (vol.yaffsFindObject P relDir path left).obj
  storesNull : (vol.yaffsFindObject P relDir path left).storesNull = false

end Volume

/-! ## The parts of a path -/

/-- A name that is split off at a divider. -/
theorem pathParts_split {part : List Char}
    (plain : ∀ ch ∈ part, isPathDivider ch = false) {ch : Char}
    (divider : isPathDivider ch = true) (rest : List Char) :
    pathParts (part ++ ch :: rest) =
      (if part = [] then (pathParts rest).1 else part :: (pathParts rest).1,
        (pathParts rest).2) := by
  have split := List.splitOnP_append_cons_of_forall_mem plain ch divider rest
  obtain ⟨first, others, nonempty⟩ :=
    List.exists_cons_of_ne_nil (List.splitOnP_ne_nil isPathDivider rest)
  simp only [pathParts, split, nonempty, List.dropLast_cons_cons, List.getLastD_cons]
  by_cases empty : part = []
  · rw [if_pos empty, List.filter_cons_of_neg (by simp [empty])]
  · rw [if_neg empty, List.filter_cons_of_pos (by simp [empty])]

theorem pathParts_skip (path : List Char) : pathParts (skipDividers path) = pathParts path := by
  induction path with
  | nil => rfl
  | cons ch rest ih =>
    by_cases divider : isPathDivider ch = true
    · rw [skipDividers, List.dropWhile_cons_of_pos divider]
      exact ih.trans (pathParts_split (List.forall_mem_nil _) divider rest).symm
    · rw [skipDividers, List.dropWhile_cons_of_neg divider]

theorem not_divider_textOf (path : List Char) : ∀ ch ∈ textOf path,
    isPathDivider ch = false := by
  intro ch member
  have kept := List.mem_takeWhile_imp member
  simpa using kept

/-- The last name of a path. -/
theorem pathParts_last {name : List Char} (ended : afterText name = []) :
    pathParts name = ([], name) := by
  have whole := textOf_append_afterText name
  rw [ended, List.append_nil] at whole
  have single : name.splitOnP isPathDivider = [name] :=
    List.splitOnP_eq_singleton (whole ▸ not_divider_textOf name)
  simp [pathParts, single]

/-- A name that something follows. -/
theorem pathParts_more {name : List Char} (named : textOf name ≠ [])
    (goes_on : afterText name ≠ []) :
    pathParts name =
      (textOf name :: (pathParts (afterText name)).1, (pathParts (afterText name)).2) := by
  obtain ⟨ch, rest, after_eq⟩ := List.exists_cons_of_ne_nil goes_on
  have divider : isPathDivider ch = true := by
    have stops := List.head?_dropWhile_not (fun ch => !isPathDivider ch) name
    rw [show name.dropWhile (fun ch => !isPathDivider ch) = ch :: rest from after_eq] at stops
    simpa using stops
  have whole := textOf_append_afterText name
  have after := pathParts_split (List.forall_mem_nil _) divider rest
  rw [if_pos rfl, List.nil_append] at after
  conv => lhs; rw [← whole, after_eq]
  rw [after_eq, after, pathParts_split (not_divider_textOf name) divider rest, if_neg named]

/-! ## What the walkers find -/

namespace Volume

variable {Store : Type} {P : Pages Store} {vol : Volume Store}

/-- What the walk from VxWorks returns where the walk down a path ends. -/
def FoundAt (path : List Char) (found : VxFoundDir) : WalkEnd → Prop
  | .aboveRoot => found.dir = none ∧ found.ret = none
  | .reached dir => found.dir = some dir ∧ found.name = (pathParts path).2 ∧ found.ret.isSome = true
  | .missing dir =>
    found.dir = some dir ∧ found.ret.isSome = true ∧ found.name.length ≤ path.length ∧
      ∃ ch ∈ found.name, isPathDivider ch = true

/-- What is found for the rest of a path is found for the path. -/
theorem FoundAt.longer {rest path : List Char} {found : VxFoundDir} {ends : WalkEnd}
    (at_end : FoundAt rest found ends) (last_name : (pathParts path).2 = (pathParts rest).2)
    (length_le : rest.length ≤ path.length) : FoundAt path found ends := by
  cases ends with
  | aboveRoot => exact at_end
  | reached dir => exact ⟨at_end.1, at_end.2.1.trans last_name.symm, at_end.2.2⟩
  | missing dir => exact ⟨at_end.1, at_end.2.1, at_end.2.2.1.trans length_le, at_end.2.2.2⟩

/-- A name with what follows it has a divider. -/
theorem exists_divider {name : List Char} (goes_on : afterText name ≠ []) :
    ∃ ch ∈ name, isPathDivider ch = true := by
  by_contra plain
  refine goes_on (List.dropWhile_eq_nil_iff.2 fun ch member => ?_)
  have kept : ¬isPathDivider ch = true := fun divider => plain ⟨ch, member, divider⟩
  simpa using kept

/-- The loop ends where the walk does. -/
theorem findDirectoryLoop_found (str : List Char) (dir : Nat) (name restOfPath : List Char) :
    FoundAt restOfPath (vol.findDirectoryLoop P str (some dir) name restOfPath)
      (vol.walkEnd P (pathParts restOfPath).1 dir) := by
  induction length_eq : restOfPath.length using Nat.strong_induction_on
    generalizing str dir name restOfPath with
  | h length ih =>
    subst length_eq
    rw [findDirectoryLoop, ← pathParts_skip restOfPath]
    by_cases ended : afterText (skipDividers restOfPath) = []
    · rw [dif_pos ended, pathParts_last ended]
      refine ⟨rfl, ?_, rfl⟩
      rw [← pathParts_skip restOfPath, pathParts_last ended]
    · have named := textOf_ne_nil ended
      have parts := pathParts_more named ended
      have shorter := afterText_lt ended
      have last_name : (pathParts restOfPath).2 =
          (pathParts (afterText (skipDividers restOfPath))).2 := by
        rw [← pathParts_skip restOfPath, parts]
      have next := fun str dir name =>
        (ih _ shorter str dir name (afterText (skipDividers restOfPath)) rfl).longer last_name
          shorter.le
      rw [dif_neg ended, if_neg named, parts, walkEnd]
      split
      · exact next _ _ _
      · split
        · cases vol.parentOf dir with
          | none =>
            rw [findDirectoryLoop]
            exact ⟨rfl, rfl⟩
          | some parent => exact next _ _ _
        · generalize (vol.findByName P dir ((textOf (skipDividers restOfPath)).take
            maxNameLength)).filter (fun next => vol.isType next .directory) = target
          cases target with
          | none => exact ⟨rfl, rfl, List.length_dropWhile_le _ _, exists_divider ended⟩
          | some child => exact next _ _ _

/-! ## Agreement -/

/-- The tree is one that both walkers see alike: it has no symbolic links, hard links stand for no
directories, and names have no dividers. -/
structure PlainTree (P : Pages Store) (vol : Volume Store) : Prop where
  noSymlink : ∀ number, vol.isType number .symlink = false
  links : ∀ number obj target, vol.objs number = some obj → obj.variantType = .hardlink →
    obj.equivObj = some target → vol.isType target .directory = false
  names : ∀ number obj, vol.objs number = some obj →
    ∀ ch ∈ vol.getObjName P number obj, isPathDivider ch = false

theorem isType_iff {number : Nat} {type : ObjType} :
    vol.isType number type = true ↔
      ∃ obj, vol.objs number = some obj ∧ obj.variantType = type := by
  rw [isType]
  cases vol.objs number with
  | none => simp
  | some obj => simp

/-- An object that is no symbolic link is not followed any further. -/
theorem followLinkWith_stays {findObject : Option Nat → List Char → Nat → Option FoundObj}
    {number : Nat} (stays : vol.isType number .symlink = false) (symDepth : Nat) (loop : Bool) :
    vol.followLinkWith findObject followFuel (some number) symDepth loop =
      some (if (vol.objs number).isSome then some number else none, loop) := by
  cases held : vol.objs number with
  | none => simp only [followFuel, followLinkWith, Option.bind_some, held, Option.isSome_none,
      Bool.false_eq_true, if_false]
  | some obj =>
    have type : obj.variantType ≠ .symlink := by simpa [isType, held] using stays
    simp only [followFuel, followLinkWith, Option.bind_some, held, if_neg type, Option.isSome_some,
      if_true]

/-- Following a directory stays at it. -/
theorem followLinkBy_directory {findObject : Option Nat → List Char → Nat → Option FoundObj}
    {dir : Nat} (is_dir : vol.isType dir .directory = true) (symDepth : Nat) (loop : Bool) :
    vol.followLinkBy findObject (some dir) symDepth loop = some (some dir, loop) := by
  obtain ⟨obj, held, type⟩ := isType_iff.1 is_dir
  have itself : vol.getEquivalentObj (some dir) = some dir := by
    simp [getEquivalentObj, held, type]
  rw [followLinkBy, itself, followLinkWith_stays (by simp [isType, held, type]), held]
  rfl

/-- Following anything else leads to no directory. -/
theorem followLinkBy_other {findObject : Option Nat → List Char → Nat → Option FoundObj}
    (plain : PlainTree P vol) {number : Option Nat}
    (other : number.filter (fun next => vol.isType next .directory) = none) (symDepth : Nat)
    (loop : Bool) :
    ∃ target, vol.followLinkBy findObject number symDepth loop = some (target, loop) ∧
      target.filter (fun next => vol.isType next .directory) = none := by
  have equiv_other : (vol.getEquivalentObj number).filter
      (fun next => vol.isType next .directory) = none := by
    cases number with
    | none => rfl
    | some number =>
      rw [getEquivalentObj]
      cases held : vol.objs number with
      | none => rfl
      | some obj =>
        by_cases type : obj.variantType = .hardlink
        · cases stands : obj.equivObj with
          | none => simp [type, stands]
          | some target => simp [type, stands, plain.links number obj target held type stands]
        · simpa [type] using other
  rw [followLinkBy]
  cases equiv_eq : vol.getEquivalentObj number with
  | none => exact ⟨none, rfl, rfl⟩
  | some target =>
    refine ⟨_, followLinkWith_stays (plain.noSymlink target) symDepth loop, ?_⟩
    split
    · exact equiv_eq ▸ equiv_other
    · rfl

/-- Where the walk of the file system interface ends. -/
def walkDir : WalkEnd → Option Nat
  | .aboveRoot => none
  | .reached dir => some dir
  | .missing _ => none

/-- A walk that has lost its directory ends. -/
theorem walk_none (follow : Option Nat → Bool → Option (Option Nat × Bool))
    (parts : List (List Char)) {found : FoundDir} (lost : found.dir = none) :
    vol.walk P follow parts found = some found := by
  cases parts with
  | nil => rfl
  | cons part rest => rw [walk, lost]

/-- The walk of the file system interface ends where the walk without links does. -/
theorem walk_walkEnd {findObject : Option Nat → List Char → Nat → Option FoundObj} {symDepth : Nat}
    (parts : List (List Char)) (dir : Nat) (name : List Char)
    (plain : ∀ last, vol.walkEnd P parts dir = .missing last → PlainTree P vol) :
    ∃ notDir, vol.walk P (fun number loop => vol.followLinkBy findObject number symDepth loop) parts
      { dir := some dir, name } =
        some { dir := walkDir (vol.walkEnd P parts dir), name, notDir } := by
  induction parts generalizing dir with
  | nil => exact ⟨false, rfl⟩
  | cons part rest ih =>
    rw [walkEnd] at plain ⊢
    rw [walk]
    dsimp only at plain ⊢
    split
    · rename_i here
      rw [if_pos here] at plain
      exact ih dir plain
    · rename_i elsewhere
      rw [if_neg elsewhere] at plain
      split
      · rename_i up
        rw [if_pos up] at plain
        cases parent_eq : vol.parentOf dir with
        | none => exact ⟨false, walk_none _ _ rfl⟩
        | some parent =>
          rw [parent_eq] at plain
          exact ih parent plain
      · rename_i down
        rw [if_neg down] at plain
        generalize vol.findByName P dir (part.take maxNameLength) = number at plain ⊢
        cases next_eq : number.filter fun next => vol.isType next .directory with
        | none =>
          rw [next_eq] at plain
          obtain ⟨target, followed, other⟩ : ∃ target,
              vol.followLinkBy findObject number symDepth false = some (target, false) ∧
                target.filter (fun next => vol.isType next .directory) = none :=
            followLinkBy_other (plain dir rfl) next_eq symDepth false
          rw [followed]
          cases target with
          | none => exact ⟨false, rfl⟩
          | some target =>
            have no_dir : vol.isType target .directory = false := by simpa using other
            refine ⟨true, ?_⟩
            simp only [Option.bind_some, no_dir, Bool.false_eq_true, if_false]
            rfl
        | some next =>
          rw [next_eq] at plain
          obtain ⟨rfl, is_dir⟩ := Option.filter_eq_some_iff.1 next_eq
          rw [followLinkBy_directory is_dir]
          simp only [Option.bind_some, is_dir, if_true]
          exact ih next plain

/-- What the file system interface finds for a path without a mount point. -/
theorem findObject_eq {fuel : Nat} (fuelled : 0 < fuel) (dir : Nat) (path : List Char)
    (plain : ∀ last, vol.walkEnd P (pathParts path).1 dir = .missing last → PlainTree P vol) :
    (vol.findObject P fuel (some dir) path 0 false).map FoundObj.obj =
      some ((walkDir (vol.walkEnd P (pathParts path).1 dir)).bind fun last =>
        if (pathParts path).2 = ['.', '.'] then vol.parentOf last
        else if (pathParts path).2 = ['.'] ∨ (pathParts path).2 = [] then some last
        else vol.findByName P last (pathParts path).2) := by
  obtain ⟨fuel, rfl⟩ := Nat.exists_eq_succ_of_ne_zero fuelled.ne'
  obtain ⟨notDir, walked⟩ : ∃ notDir, vol.findDirectory P (fuel + 1) (some dir) path 0 =
      some { dir := walkDir (vol.walkEnd P (pathParts path).1 dir), name := (pathParts path).2,
             notDir } := by
    rw [findDirectory, if_neg (by decide)]
    exact walk_walkEnd (pathParts path).1 dir (pathParts path).2 plain
  rw [findObject, findObjectBy, walked]
  cases walkDir (vol.walkEnd P (pathParts path).1 dir) <;> rfl

theorem not_divided {name : List Char} (undivided : name.any isPathDivider = false)
    (divided : ∃ ch ∈ name, isPathDivider ch = true) : False :=
  Bool.false_ne_true (undivided.symm.trans (List.any_eq_true.2 divided))

/-- A name with a divider is not found in a plain tree. -/
theorem findByName_divider (plain : PlainTree P vol) (dir : Nat) {name : List Char}
    (short : name.length ≤ maxNameLength) (divided : ∃ ch ∈ name, isPathDivider ch = true) :
    vol.findByName P dir name = none := by
  obtain ⟨ch, member, divider⟩ := divided
  have unnamed : ∀ number, vol.hasName P name number = false := by
    intro number
    rw [hasName]
    cases held : vol.objs number with
    | none => rfl
    | some obj =>
      dsimp only
      split
      · refine beq_eq_false_iff_ne.2 fun lost => ?_
        rw [lost] at member
        exact not_divided (by decide) ⟨ch, member, divider⟩
      · refine Bool.and_eq_false_iff.2 (.inr (beq_eq_false_iff_ne.2 fun same => ?_))
        rw [List.take_of_length_le short] at same
        have named := plain.names number obj held ch (List.mem_of_mem_take (same ▸ member))
        exact absurd divider (by simp [named])
  rw [findByName]
  cases vol.objs dir with
  | none => rfl
  | some obj => exact List.find?_eq_none.2 fun child _ => by simp [unnamed child]

/-- Both walkers find the same object in a plain tree, as long as the name is still there. -/
theorem same_object (plain : PlainTree P vol) (relDir : Option Nat) {path : List Char}
    (short : path.length ≤ maxNameLength) {fuel : Nat} (fuelled : 0 < fuel) :
    (vol.findObject P fuel (some (relDir.getD objectIdRoot)) path 0 false).map FoundObj.obj =
      some (vol.yaffsFindObject P relDir path id).obj := by
  rw [findObject_eq fuelled _ path fun _ _ => plain]
  have found : FoundAt path (vol.findDirectoryLoop P [] (some (relDir.getD objectIdRoot)) [] path)
      (vol.walkEnd P (pathParts path).1 (relDir.getD objectIdRoot)) :=
    findDirectoryLoop_found [] _ [] path
  rw [yaffsFindObject, yaffsFindDirectory]
  generalize vol.findDirectoryLoop P [] (some (relDir.getD objectIdRoot)) [] path = outcome
    at found ⊢
  generalize vol.walkEnd P (pathParts path).1 (relDir.getD objectIdRoot) = ends at found ⊢
  cases ends with
  | aboveRoot =>
    rw [found.1]
    rfl
  | reached last =>
    obtain ⟨dir_eq, name_eq, -⟩ := found
    simp only [walkDir, dir_eq, name_eq, id, Option.bind_some]
    congr 1
    split
    · rfl
    · split_ifs <;> simp_all
  | missing last =>
    obtain ⟨dir_eq, -, length_le, divided⟩ := found
    have missing := findByName_divider plain last (length_le.trans short) divided
    have named : outcome.name ≠ ['.', '.'] ∧ outcome.name ≠ ['.'] ∧ outcome.name ≠ [] := by
      refine ⟨?_, ?_, ?_⟩ <;>
        exact fun name_eq => not_divided (by decide) (name_eq ▸ divided)
    rw [dir_eq]
    simp only [walkDir, id, named.1, named.2.1, named.2.2, missing, if_false, ne_eq,
      not_false_eq_true, if_true, Option.bind_none]

/-- The walkers agree and nothing is stored through a null pointer just when the path leads above
the root before its last name. -/
theorem walkersAgree_iff (relDir : Option Nat) (path : List Char)
    (left : List Char → List Char) :
    WalkersAgree P vol relDir path left ↔ LeavesRoot P vol relDir path := by
  have found : FoundAt path (vol.findDirectoryLoop P [] (some (relDir.getD objectIdRoot)) [] path)
      (vol.walkEnd P (pathParts path).1 (relDir.getD objectIdRoot)) :=
    findDirectoryLoop_found [] _ [] path
  rw [LeavesRoot]
  constructor
  · intro agree
    have stored : (vol.findDirectoryLoop P [] (some (relDir.getD objectIdRoot)) []
      path).ret.isSome =
      false := agree.storesNull
    generalize vol.walkEnd P (pathParts path).1 (relDir.getD objectIdRoot) = ends at found
    cases ends with
    | aboveRoot => rfl
    | reached last => exact absurd (found.2.2.symm.trans stored) (by decide)
    | missing last => exact absurd (found.2.1.symm.trans stored) (by decide)
  · intro leaves
    rw [leaves] at found
    have nowhere : vol.yaffsFindObject P relDir path left = ⟨none, false⟩ := by
      rw [yaffsFindObject, yaffsFindDirectory, found.1, found.2]
      rfl
    refine ⟨fun fuel fuelled => ?_, congrArg VxFoundObj.storesNull nowhere⟩
    rw [findObject_eq fuelled _ path fun last missing => ?_, leaves, nowhere]
    · rfl
    · rw [leaves] at missing
      exact absurd missing WalkEnd.noConfusion

/-- A file in the root directory. -/
def fileInRoot : Volume Unit where
  store := ()
  objs number := [(objectIdRoot, { variantType := .directory, children := [257] }),
    (257, { variantType := .file, shortName := "a".toList, sum := calcNameSum "a".toList,
            parent := some objectIdRoot })].lookup number

/-- The search for the file stores its directory through a null pointer. -/
theorem not_walkersAgree_file : ¬WalkersAgree Vfs.quietPages fileInRoot none "/a".toList id := by
  intro agree
  have stored : (fileInRoot.yaffsFindObject Vfs.quietPages none "/a".toList id).storesNull = true := by
    rw [yaffsFindObject, yaffsFindDirectory, findDirectoryLoop]
    rfl
  exact absurd (stored.symm.trans agree.storesNull) (by decide)

end Volume

end Yaffs
