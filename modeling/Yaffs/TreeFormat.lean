import Yaffs.TreePaths

/-!
# A formatted device is in order

The four directories of a formatted device are made one after the other, before there is a root
directory to put them in.
-/

namespace Yaffs

namespace Volume

variable {Store : Type} {P : Pages Store} {vol : Volume Store} {number mode : Nat}

/-- One of the directories that need not be on the flash. -/
def fakeDir (mode : Nat) (parent : Option Nat) (children : List Nat) : Node :=
  { variantType := .directory, ystMode := mode, fake := true, parent, children }

/-- The hash buckets with a new object. -/
def hashObj (objBucket : Nat → List Nat) (number : Nat) : Nat → List Nat :=
  Function.update objBucket (hashFn number) (number :: objBucket (hashFn number))

theorem kmalloc_of_createFakeDir (made : (vol.createFakeDir P number mode).1 = true) :
    (P.kmalloc vol.store).1 = true := by
  by_contra failed
  simp [createFakeDir, newObj, allocEmptyObj, failed] at made

/-- A directory that is made before there is a root directory is in no directory. -/
theorem createFakeDir_first (no_root : vol.objs objectIdRoot = none)
    (no_lost : vol.objs objectIdLostNFound = none) (not_lost : number ≠ objectIdLostNFound)
    (made : (vol.createFakeDir P number mode).1 = true) :
    (vol.createFakeDir P number mode).2.objs =
        Function.update vol.objs number (some (fakeDir mode none [])) ∧
      (vol.createFakeDir P number mode).2.objBucket = hashObj vol.objBucket number := by
  have memory := kmalloc_of_createFakeDir made
  simp only [createFakeDir, newObj, reduceCtorEq, if_false, not_true_eq_false, allocEmptyObj, memory,
    no_root, Option.map_none, modify_objs, Function.update_of_ne (Ne.symm not_lost), no_lost,
    Option.isSome_none, Bool.false_eq_true, false_and]
  refine ⟨?_, rfl⟩
  funext other
  rw [modify_objs]
  dsimp only
  rw [modify_objs, modify_objs]
  by_cases same : other = number
  · subst same
    by_cases root : other = objectIdRoot <;> simp [root, fakeDir]
  · by_cases root : other = objectIdRoot
    · subst root
      simp [same, no_root]
    · cases vol.objs other <;> simp [same, root]

/-- The lost and found directory is made in the root directory. -/
theorem createFakeDir_lost {root : Node} (root_found : vol.objs objectIdRoot = some root)
    (made : (vol.createFakeDir P objectIdLostNFound mode).1 = true) :
    (vol.createFakeDir P objectIdLostNFound mode).2.objs =
        Function.update (Function.update vol.objs objectIdLostNFound
          (some (fakeDir mode (some objectIdRoot) []))) objectIdRoot
          (some { root with children := objectIdLostNFound :: root.children }) ∧
      (vol.createFakeDir P objectIdLostNFound mode).2.objBucket =
        hashObj vol.objBucket objectIdLostNFound := by
  have memory := kmalloc_of_createFakeDir made
  have ne : objectIdLostNFound ≠ objectIdRoot := by decide
  simp only [createFakeDir, newObj, reduceCtorEq, if_false, not_true_eq_false, allocEmptyObj, memory,
    root_found, Option.map_some, ne_eq, and_false, ne]
  refine ⟨?_, rfl⟩
  funext other
  rw [modify_objs]
  dsimp only
  rw [modify_objs, modify_objs]
  by_cases same : other = objectIdLostNFound
  · subst same
    simp [ne, fakeDir]
  · by_cases here : other = objectIdRoot
    · subst here
      simp [same, root_found]
    · cases vol.objs other <;> simp [same, here]

/-- The objects of a formatted device. -/
def firstObjs (number : Nat) : Option Node :=
  if number = objectIdRoot then some (fakeDir (0o666 ||| sIfDir) none [objectIdLostNFound])
  else if number = objectIdLostNFound then
    some (fakeDir (0o666 ||| sIfDir) (some objectIdRoot) [])
  else if isTrash number then some (fakeDir sIfDir none [])
  else none

/-- The hash buckets of a formatted device. -/
def firstBuckets : Nat → List Nat :=
  hashObj (hashObj (hashObj (hashObj (fun _ => []) objectIdUnlinked) objectIdDeleted) objectIdRoot)
    objectIdLostNFound

/-- The lost and found directory is put into the root directory once more. -/
theorem lost_again (objs : vol.objs = firstObjs) :
    (vol.addObjToDir objectIdRoot objectIdLostNFound).objs = firstObjs := by
  have root : vol.objs objectIdRoot = some (fakeDir (0o666 ||| sIfDir) none [objectIdLostNFound]) := by
    rw [objs]
    rfl
  have up : vol.parentOf objectIdLostNFound = some objectIdRoot := by
    rw [parentOf, objs]
    rfl
  have kept : ¬(objectIdRoot = objectIdUnlinked ∨ objectIdRoot = objectIdDeleted) := by decide
  simp only [addObjToDir, removeObjFromDir, up, if_neg kept]
  funext number
  simp only [modify_objs, objs]
  by_cases root : number = objectIdRoot
  · subst root
    rfl
  · by_cases lost : number = objectIdLostNFound
    · subst lost
      rfl
    · cases firstObjs number <;> simp [root, lost]

theorem createInitialDir_objs (no_objs : vol.objs = fun _ => none) (no_bucket : vol.objBucket = fun _ => [])
    (made : (vol.createInitialDir P).1 = true) :
    (vol.createInitialDir P).2.objs = firstObjs ∧
      (vol.createInitialDir P).2.objBucket = firstBuckets := by
  simp only [createInitialDir] at made ⊢
  split at made
  case isFalse => simp at made
  case isTrue all =>
    rw [if_pos all]
    obtain ⟨lost_made, root_made, unlinked_made, deleted_made⟩ := all
    obtain ⟨objs₁, bucket₁⟩ := createFakeDir_first (by simp [no_objs]) (by simp [no_objs]) (by decide)
      unlinked_made
    obtain ⟨objs₂, bucket₂⟩ := createFakeDir_first (by rw [objs₁, no_objs]; rfl)
      (by rw [objs₁, no_objs]; rfl) (by decide) deleted_made
    obtain ⟨objs₃, bucket₃⟩ := createFakeDir_first (by rw [objs₂, objs₁, no_objs]; rfl)
      (by rw [objs₂, objs₁, no_objs]; rfl) (by decide) root_made
    obtain ⟨objs₄, bucket₄⟩ := createFakeDir_lost
      (by rw [objs₃]; exact Function.update_self ..) lost_made
    refine ⟨?_, by rw [addObjToDir_objBucket, bucket₄, bucket₃, bucket₂, bucket₁, no_bucket]; rfl⟩
    refine lost_again ?_
    rw [objs₄, objs₃, objs₂, objs₁, no_objs]
    funext number
    by_cases root : number = objectIdRoot
    · subst root
      rfl
    · by_cases lost : number = objectIdLostNFound
      · subst lost
        rfl
      · by_cases deleted : number = objectIdDeleted
        · subst deleted
          rfl
        · by_cases unlinked : number = objectIdUnlinked
          · subst unlinked
            rfl
          · simp [firstObjs, isTrash, root, lost, deleted, unlinked]

theorem firstObjs_cases {obj : Node} (found : firstObjs number = some obj) :
    (number = objectIdRoot ∧ obj = fakeDir (0o666 ||| sIfDir) none [objectIdLostNFound]) ∨
      (number = objectIdLostNFound ∧ obj = fakeDir (0o666 ||| sIfDir) (some objectIdRoot) []) ∨
      (isTrash number ∧ obj = fakeDir sIfDir none []) := by
  simp only [firstObjs] at found
  split at found
  case isTrue root => exact .inl ⟨root, (Option.some.inj found).symm⟩
  case isFalse =>
    split at found
    case isTrue lost => exact .inr (.inl ⟨lost, (Option.some.inj found).symm⟩)
    case isFalse =>
      split at found
      case isTrue trash => exact .inr (.inr ⟨trash, (Option.some.inj found).symm⟩)
      case isFalse => simp at found

theorem firstObjs_lost : firstObjs objectIdLostNFound =
    some (fakeDir (0o666 ||| sIfDir) (some objectIdRoot) []) := rfl

theorem parentOf_first (objs : vol.objs = firstObjs) (number : Nat) : vol.parentOf number =
    if number = objectIdLostNFound then some objectIdRoot else none := by
  rw [parentOf, objs]
  by_cases lost : number = objectIdLostNFound
  · subst lost
    rfl
  · rw [if_neg lost]
    cases found : firstObjs number with
    | none => rfl
    | some obj =>
      rcases firstObjs_cases found with ⟨-, rfl⟩ | ⟨same, -⟩ | ⟨-, rfl⟩
      · rfl
      · exact absurd same lost
      · rfl

theorem children_first (objs : vol.objs = firstObjs) (number : Nat) :
    ((vol.objs number).map Node.children).getD [] =
      if number = objectIdRoot then [objectIdLostNFound] else [] := by
  rw [objs]
  by_cases root : number = objectIdRoot
  · subst root
    rfl
  · rw [if_neg root]
    cases found : firstObjs number with
    | none => rfl
    | some obj =>
      rcases firstObjs_cases found with ⟨same, -⟩ | ⟨-, rfl⟩ | ⟨-, rfl⟩
      · exact absurd same root
      · rfl
      · rfl

theorem sound_first (objs : vol.objs = firstObjs) : vol.forest.Sound isTop := by
  have parent := parentOf_first objs
  have children := children_first objs
  have lost_ne {number : Nat} (isTop : isTop number) : number ≠ objectIdLostNFound := by
    rintro rfl
    exact not_isTop_lostNFound isTop
  have live {number : Nat} (live : (vol.objs number).isSome) :
      isTop number ∨ number = objectIdLostNFound := by
    obtain ⟨obj, found⟩ := Option.isSome_iff_exists.mp live
    rcases firstObjs_cases (objs ▸ found) with ⟨root, -⟩ | ⟨lost, -⟩ | ⟨trash, -⟩
    · exact .inl (.inl root)
    · exact .inr lost
    · exact .inl trash.isTop
  have up {number higher : Nat} (up : vol.parentOf number = some higher) :
      number = objectIdLostNFound ∧ higher = objectIdRoot := by
    rw [parent] at up
    split at up
    case isTrue lost => exact ⟨lost, (Option.some.inj up).symm⟩
    case isFalse => simp at up
  constructor
  case orphan =>
    intro number isTop
    exact (parent number).trans (if_neg (lost_ne isTop))
  case has_parent =>
    intro number isLive not_top
    obtain rfl := (live isLive).resolve_left not_top
    exact ⟨objectIdRoot, (parent _).trans (if_pos rfl)⟩
  case listed =>
    intro number higher
    change vol.parentOf number = some higher ↔ number ∈ ((vol.objs higher).map Node.children).getD []
    rw [parent, children]
    by_cases root : higher = objectIdRoot
    · subst root
      by_cases lost : number = objectIdLostNFound <;> simp [lost]
    · rw [if_neg root]
      by_cases lost : number = objectIdLostNFound <;> simp [lost, Ne.symm root]
  case nodup =>
    intro higher
    change (((vol.objs higher).map Node.children).getD []).Nodup
    rw [children]
    split <;> simp
  case live_of_parent =>
    intro number higher isUp
    obtain ⟨rfl, -⟩ := up isUp
    change (vol.objs objectIdLostNFound).isSome = true
    rw [objs]
    rfl
  case live_parent =>
    intro number higher isUp
    obtain ⟨-, rfl⟩ := up isUp
    change (vol.objs objectIdRoot).isSome = true
    rw [objs]
    rfl
  case rooted =>
    intro number isLive
    rcases live isLive with isTop | rfl
    · exact .top isTop
    · exact .child ((parent _).trans (if_pos rfl)) (.top (.inl rfl))

theorem nodeTidy_fakeDir {parent : Option Nat} {children : List Nat}
    (visible : ¬(fakeDir mode parent children).Hidden) :
    vol.NodeTidy none number (fakeDir mode parent children) := by
  constructor
  case hidden_iff => exact iff_of_false (by simp [fakeDir]) visible
  case hidden_leaf => exact fun hidden => absurd hidden visible
  all_goals simp [fakeDir]

theorem firstBuckets_eq (index : Nat) :
    firstBuckets index = if 1 ≤ index ∧ index ≤ 4 then [index] else [] := by
  by_cases first : 1 ≤ index ∧ index ≤ 4
  · obtain rfl | rfl | rfl | rfl : index = 1 ∨ index = 2 ∨ index = 3 ∨ index = 4 := by omega
    all_goals rfl
  · have ne : index ≠ 1 ∧ index ≠ 2 ∧ index ≠ 3 ∧ index ≠ 4 := by omega
    simp [firstBuckets, hashObj, hashFn, nObjectBuckets, objectIdRoot, objectIdLostNFound,
      objectIdUnlinked, objectIdDeleted, first, ne]

/-- A device with the objects of a formatted one is in order. -/
theorem tidy_of_first (objs : vol.objs = firstObjs) (bucket : vol.objBucket = firstBuckets) :
    vol.Tidy := by
  have root_found : vol.objs objectIdRoot =
      some (fakeDir (0o666 ||| sIfDir) none [objectIdLostNFound]) := by
    rw [objs]
    rfl
  have live (number : Nat) : (vol.objs number).isSome ↔ number = objectIdRoot ∨
      number = objectIdLostNFound ∨ number = objectIdUnlinked ∨ number = objectIdDeleted := by
    rw [objs, firstObjs]
    split
    · simp [*]
    · split
      · simp [*]
      · split <;> simp_all [isTrash]
  constructor
  case toTidyBut =>
    constructor
    case sound => exact sound_first objs
    case directory =>
      intro number obj dir found up
      have up' : vol.parentOf number = some dir := (parentOf_eq found).trans up
      rw [parentOf_first objs] at up'
      split at up'
      case isFalse => simp at up'
      case isTrue =>
        obtain rfl := Option.some.inj up'
        exact ⟨_, root_found, rfl⟩
    case fixed =>
      rintro number isFixed
      have isLive : (vol.objs number).isSome := by
        rw [live]
        rcases isFixed with (rfl | rfl | rfl) | rfl <;> simp
      obtain ⟨obj, found⟩ := Option.isSome_iff_exists.mp isLive
      refine ⟨obj, found, ?_⟩
      rcases firstObjs_cases (objs ▸ found) with ⟨-, rfl⟩ | ⟨-, rfl⟩ | ⟨-, rfl⟩ <;>
        exact ⟨rfl, rfl, rfl, rfl⟩
    case node =>
      intro number obj found
      rcases firstObjs_cases (objs ▸ found) with ⟨-, rfl⟩ | ⟨-, rfl⟩ | ⟨-, rfl⟩
      · exact nodeTidy_fakeDir (by rintro ⟨trash, -, up⟩; simp [fakeDir] at up)
      · refine nodeTidy_fakeDir ?_
        rintro ⟨trash, isTrash, up⟩
        obtain rfl : objectIdRoot = trash := Option.some.inj up
        exact not_isTrash_root isTrash
      · exact nodeTidy_fakeDir (by rintro ⟨trash, -, up⟩; simp [fakeDir] at up)
  case toHashed =>
    constructor
    case bucket =>
      intro number
      rw [live, bucket, firstBuckets_eq]
      split
      case isTrue first =>
        simp only [hashFn, nObjectBuckets, objectIdRoot, objectIdLostNFound, objectIdUnlinked,
          objectIdDeleted, List.mem_singleton] at first ⊢
        omega
      case isFalse other =>
        simp only [hashFn, nObjectBuckets, objectIdRoot, objectIdLostNFound, objectIdUnlinked,
          objectIdDeleted, List.not_mem_nil, iff_false] at other ⊢
        omega
    case nodup =>
      intro index
      rw [bucket, firstBuckets_eq]
      split <;> simp

/-- A device that has been formatted is in order. -/
theorem createInitialDir_tidy (no_objs : vol.objs = fun _ => none)
    (no_bucket : vol.objBucket = fun _ => []) (made : (vol.createInitialDir P).1 = true) :
    (vol.createInitialDir P).2.Tidy := by
  obtain ⟨objs, bucket⟩ := createInitialDir_objs no_objs no_bucket made
  exact tidy_of_first objs bucket

end Volume

end Yaffs
