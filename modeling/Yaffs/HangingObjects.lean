import Yaffs.Steady

/-!
# Objects that hang

After a scan an object may have no parent, a parent that is no directory or a parent that is reached
from itself.  The pass over the hash buckets moves what does not hang below the root to lost and found,
and each move changes what the rest of the pass sees.  It follows parents a fixed number of times.
-/

namespace Yaffs

namespace Volume

variable {Store : Type} (vol : Volume Store)

/-- Is the object one of the directories without a parent? -/
def hasNullParent (number : Nat) : Bool :=
  decide (number = objectIdDeleted ∨ number = objectIdUnlinked ∨ number = objectIdRoot)

/-- Follow the parents from a directory to the root, to a parent that is no directory, or to the end
of the limit. -/
def followParents : Nat → Nat → Nat
  | 0, parent => parent
  | depthLimit + 1, parent =>
    if parent = objectIdRoot then parent
    else
      match vol.parentOf parent with
      | none => parent
      | some higher =>
        if vol.isType higher .directory then followParents depthLimit higher else parent

/-- Is the object to be moved to lost and found? -/
def isHanging (number : Nat) : Bool :=
  if hasNullParent number then false
  else
    match vol.parentOf number with
    | none => true
    | some parent =>
      if ¬vol.isType parent .directory then true
      else if hasNullParent parent then false
      else decide (vol.followParents 100 parent ≠ objectIdRoot)

/-- Look at one object of the pass. -/
def fixHangingObj (number : Nat) : Volume Store :=
  if vol.isHanging number then vol.addObjToDir objectIdLostNFound number else vol

/-- Move the hanging objects to lost and found, one hash bucket after the other. -/
def fixHangingObjs : Volume Store :=
  if vol.param.readOnly then vol
  else
    (List.range nObjectBuckets).foldl
      (fun vol bucket => (vol.objBucket bucket).foldl fixHangingObj vol) vol

/-! ## Ways to the root -/

/-- The directory that an object is in. -/
def dirAbove (number : Nat) : Option Nat :=
  (vol.parentOf number).filter (vol.isType · .directory)

/-- The root is so many directories above the object. -/
inductive BelowRoot : Nat → Nat → Prop
  | root : BelowRoot 0 objectIdRoot
  | child {depth number directory : Nat} (up : vol.dirAbove number = some directory)
      (below : BelowRoot depth directory) : BelowRoot (depth + 1) number

/-- The object is unlinked or deleted, or the root is at most a hundred and one directories above it. -/
def Hung (number : Nat) : Prop :=
  (∃ trash, isTrash trash ∧ vol.dirAbove number = some trash) ∨
    ∃ depth ≤ 101, vol.BelowRoot depth number

/-- The directories that a device starts with are where the scan leaves them. -/
structure Standing : Prop where
  top : ∀ number, isTop number → vol.isType number .directory = true ∧ vol.parentOf number = none
  lostNFound : vol.isType objectIdLostNFound .directory = true ∧
    vol.parentOf objectIdLostNFound = some objectIdRoot

variable {vol} {before after : Volume Store} {number : Nat}

theorem hasNullParent_iff : hasNullParent number = true ↔ isTop number := by
  simp only [hasNullParent, decide_eq_true_eq, isTop, isTrash]
  tauto

theorem dirAbove_eq_some {directory : Nat} : vol.dirAbove number = some directory ↔
    vol.parentOf number = some directory ∧ vol.isType directory .directory = true := by
  simp only [dirAbove, Option.filter_eq_some_iff]

theorem followParents_root (depthLimit : Nat) :
    vol.followParents depthLimit objectIdRoot = objectIdRoot := by
  cases depthLimit <;> simp [followParents]

/-- Following parents comes to the root if it is no further away than the limit. -/
theorem followParents_iff (depthLimit parent : Nat) :
    vol.followParents depthLimit parent = objectIdRoot ↔
      ∃ depth ≤ depthLimit, vol.BelowRoot depth parent := by
  induction depthLimit generalizing parent with
  | zero =>
    constructor
    · rintro rfl
      exact ⟨0, le_rfl, .root⟩
    · rintro ⟨depth, le, below⟩
      obtain rfl : depth = 0 := by omega
      cases below
      rfl
  | succ depthLimit ih =>
    by_cases at_root : parent = objectIdRoot
    · subst at_root
      exact iff_of_true (followParents_root _) ⟨0, Nat.zero_le _, .root⟩
    · have step : (∃ depth ≤ depthLimit + 1, vol.BelowRoot depth parent) ↔
          ∃ higher, vol.dirAbove parent = some higher ∧
            ∃ depth ≤ depthLimit, vol.BelowRoot depth higher := by
        constructor
        · rintro ⟨depth, le, below⟩
          cases below with
          | root => exact absurd rfl at_root
          | child up below => exact ⟨_, up, _, by omega, below⟩
        · rintro ⟨higher, up, depth, le, below⟩
          exact ⟨depth + 1, by omega, .child up below⟩
      rw [step]
      simp only [followParents, if_neg at_root, dirAbove_eq_some]
      cases up : vol.parentOf parent with
      | none => simp [at_root]
      | some higher =>
        by_cases is_dir : vol.isType higher .directory = true
        · simp [is_dir, ih]
        · simp [is_dir, at_root]

theorem hung_iff (not_top : ¬isTop number) : vol.Hung number ↔ ∃ directory,
    vol.dirAbove number = some directory ∧
      (isTrash directory ∨ ∃ depth ≤ 100, vol.BelowRoot depth directory) := by
  constructor
  · rintro (⟨trash, is_trash, up⟩ | ⟨depth, le, below⟩)
    · exact ⟨trash, up, .inl is_trash⟩
    · cases below with
      | root => exact absurd (.inl rfl) not_top
      | child up below => exact ⟨_, up, .inr ⟨_, by omega, below⟩⟩
  · rintro ⟨directory, up, is_trash | ⟨depth, le, below⟩⟩
    · exact .inl ⟨directory, is_trash, up⟩
    · exact .inr ⟨depth + 1, by omega, .child up below⟩

/-- What is not moved: the directories without a parent and what is hung up right. -/
theorem isHanging_iff : vol.isHanging number = false ↔ isTop number ∨ vol.Hung number := by
  by_cases top : isTop number
  · simp [isHanging, hasNullParent_iff.mpr top, top]
  rw [or_iff_right top, hung_iff top]
  simp only [isHanging, if_neg (mt hasNullParent_iff.mp top), dirAbove_eq_some]
  cases up : vol.parentOf number with
  | none => simp
  | some parent =>
    by_cases is_dir : vol.isType parent .directory = true
    · by_cases parent_top : isTop parent
      · -- Directly below the root there is no chain to follow.
        have near : isTrash parent ∨ ∃ depth ≤ 100, vol.BelowRoot depth parent := by
          obtain rfl | trash := parent_top
          · exact .inr ⟨0, Nat.zero_le _, .root⟩
          · exact .inl trash
        simp [is_dir, hasNullParent_iff.mpr parent_top, near]
      · have not_trash : ¬isTrash parent := fun trash => parent_top trash.isTop
        simp [is_dir, mt hasNullParent_iff.mp parent_top, not_trash, followParents_iff]
    · simp [is_dir]

/-! ## One object of the pass -/

theorem addObjToDir_isSome (vol : Volume Store) (directory number other : Nat) :
    ((vol.addObjToDir directory number).objs other).isSome = (vol.objs other).isSome := by
  have same := congrArg Option.isSome (addObjToDir_lasting vol directory number other)
  rwa [Option.isSome_map, Option.isSome_map] at same

theorem addObjToDir_isType (vol : Volume Store) (directory number other : Nat) (type : ObjType) :
    (vol.addObjToDir directory number).isType other type = vol.isType other type := by
  have same := congrArg (Option.any fun obj => decide (obj.variantType = type))
    (addObjToDir_lasting vol directory number other)
  rw [Option.any_map, Option.any_map] at same
  exact same

theorem addObjToDir_parentOf (vol : Volume Store) (directory number : Nat) :
    (vol.addObjToDir directory number).parentOf =
      if (vol.objs number).isSome then Function.update vol.parentOf number (some directory)
      else vol.parentOf := by
  funext other
  have same := congrArg (fun obj => obj.bind Node.parent)
    (addObjToDir_lasting vol directory number other)
  simp only [Option.bind_map] at same
  refine Eq.trans same ?_
  by_cases eq : other = number
  · subst eq
    cases found : vol.objs other with
    | none => simp [parentOf, found]
    | some obj => simp [moved, Node.lasting]
  · have kept : (vol.objs other).bind (Node.parent ∘ fun obj =>
        (moved directory number other obj).lasting) = vol.parentOf other := by
      simp [parentOf, moved, Node.lasting, eq]
    rw [kept]
    split
    · rw [Function.update_of_ne eq]
    · rfl

theorem addObjToDir_dirAbove (vol : Volume Store) {directory : Nat} (number : Nat)
    (is_dir : vol.isType directory .directory = true) :
    (vol.addObjToDir directory number).dirAbove =
      if (vol.objs number).isSome then Function.update vol.dirAbove number (some directory)
      else vol.dirAbove := by
  funext other
  have types : ((vol.addObjToDir directory number).isType · .directory) =
      (vol.isType · .directory) := by
    funext dir
    exact addObjToDir_isType vol directory number dir .directory
  rw [dirAbove, types, addObjToDir_parentOf]
  split
  · by_cases eq : other = number
    · rw [eq, Function.update_self, Function.update_self, Option.filter_some, if_pos is_dir]
    · rw [Function.update_of_ne eq, Function.update_of_ne eq, dirAbove]
  · rfl

/-- The pass so far: what has been moved, what has not, and that the objects it has come to reach a
top directory. -/
structure Rehung (before after : Volume Store) (done : Nat → Prop) : Prop where
  standing : after.Standing
  live : ∀ number, (after.objs number).isSome = (before.objs number).isSome
  isType : ∀ number type, after.isType number type = before.isType number type
  bucket : after.objBucket = before.objBucket
  moved : ∀ number, after.parentOf number = before.parentOf number ∨
    after.parentOf number = some objectIdLostNFound
  kept : ∀ number, before.Hung number → after.parentOf number = before.parentOf number
  rooted : ∀ number, done number → (before.objs number).isSome →
    Forest.Rooted after.dirAbove isTop number

theorem Rehung.refl (standing : vol.Standing) : Rehung vol vol fun _ => False where
  standing := standing
  live _ := rfl
  isType _ _ := rfl
  bucket := rfl
  moved _ := .inl rfl
  kept _ _ := rfl
  rooted _ done := done.elim

theorem BelowRoot.rooted {depth : Nat} (below : vol.BelowRoot depth number) :
    Forest.Rooted vol.dirAbove isTop number := by
  induction below with
  | root => exact .top (.inl rfl)
  | child up _ ih => exact .child up ih

theorem Hung.rooted (hung : vol.Hung number) : Forest.Rooted vol.dirAbove isTop number := by
  obtain ⟨trash, is_trash, up⟩ | ⟨depth, -, below⟩ := hung
  · exact .child up (.top is_trash.isTop)
  · exact below.rooted

theorem Standing.lostNFound_above (standing : vol.Standing) :
    vol.dirAbove objectIdLostNFound = some objectIdRoot :=
  dirAbove_eq_some.mpr ⟨standing.lostNFound.2, (standing.top _ (.inl rfl)).1⟩

theorem Standing.lostNFound_hung (standing : vol.Standing) : vol.Hung objectIdLostNFound :=
  .inr ⟨1, by omega, .child standing.lostNFound_above .root⟩

/-- Only lost and found itself and the root are above lost and found. -/
theorem Standing.above_lostNFound (standing : vol.Standing)
    (above : Forest.Above vol.dirAbove number objectIdLostNFound) :
    number = objectIdLostNFound ∨ isTop number := by
  cases above with
  | refl => exact .inl rfl
  | step up above =>
    obtain rfl := Option.some.inj (up.symm.trans standing.lostNFound_above)
    cases above with
    | refl => exact .inr (.inl rfl)
    | step up _ =>
      have orphan := (standing.top _ (.inl rfl)).2
      rw [(dirAbove_eq_some.mp up).1] at orphan
      cases orphan

namespace Rehung

variable {done : Nat → Prop}

theorem dirAbove_of_parentOf (rehung : Rehung before after done)
    (same : after.parentOf number = before.parentOf number) :
    after.dirAbove number = before.dirAbove number := by
  rw [dirAbove, dirAbove, same]
  congr 1
  funext directory
  exact rehung.isType directory .directory

/-- The ways that are short enough are left alone as a whole. -/
theorem below (rehung : Rehung before after done) {depth : Nat} (short : depth ≤ 101)
    (below : before.BelowRoot depth number) : after.BelowRoot depth number := by
  induction below with
  | root => exact .root
  | child up below ih =>
    refine .child ?_ (ih (by omega))
    rw [rehung.dirAbove_of_parentOf (rehung.kept _ (.inr ⟨_, short, .child up below⟩)), up]

theorem hung (rehung : Rehung before after done) (hung : before.Hung number) :
    after.Hung number := by
  obtain ⟨trash, is_trash, up⟩ | ⟨depth, short, below⟩ := hung
  · refine .inl ⟨trash, is_trash, ?_⟩
    rw [rehung.dirAbove_of_parentOf (rehung.kept _ (.inl ⟨trash, is_trash, up⟩)), up]
  · exact .inr ⟨depth, short, rehung.below short below⟩

/-- An object that is left where it is reaches a top directory. -/
theorem leave (rehung : Rehung before after done) (stays : after.isHanging number = false) :
    Rehung before after fun other => done other ∨ other = number := by
  refine { rehung with rooted := ?_ }
  rintro other (was_done | rfl) live
  · exact rehung.rooted other was_done live
  · obtain top | hung := isHanging_iff.mp stays
    · exact .top top
    · exact hung.rooted

/-- A hanging object is moved away from what hung below it before and after. -/
theorem move (rehung : Rehung before after done) (hanging : after.isHanging number = true) :
    Rehung before (after.addObjToDir objectIdLostNFound number)
      fun other => done other ∨ other = number := by
  have loose : ¬(isTop number ∨ after.Hung number) := by
    rw [← isHanging_iff, hanging]
    exact Bool.noConfusion
  have not_lost : number ≠ objectIdLostNFound := by
    rintro rfl
    exact loose (.inr rehung.standing.lostNFound_hung)
  have lost_dir := rehung.standing.lostNFound.1
  have aboves := addObjToDir_dirAbove after number lost_dir
  have parents := addObjToDir_parentOf after objectIdLostNFound number
  have types := addObjToDir_isType after objectIdLostNFound number
  have lives := addObjToDir_isSome after objectIdLostNFound number
  have bucket : (after.addObjToDir objectIdLostNFound number).objBucket = after.objBucket :=
    addObjToDir_objBucket ..
  generalize after.addObjToDir objectIdLostNFound number = next at *
  have other_kept : ∀ other ≠ number, next.parentOf other = after.parentOf other := by
    intro other ne
    rw [parents]
    split
    · exact Function.update_of_ne ne _ _
    · rfl
  constructor
  case standing =>
    constructor
    · intro top is_top
      rw [types, other_kept top (by rintro rfl; exact loose (.inl is_top))]
      exact rehung.standing.top top is_top
    · rw [types, other_kept _ not_lost.symm]
      exact rehung.standing.lostNFound
  case live => exact fun other => (lives other).trans (rehung.live other)
  case isType => exact fun other type => (types other type).trans (rehung.isType other type)
  case bucket => exact bucket.trans rehung.bucket
  case moved =>
    intro other
    by_cases eq : other = number
    · subst eq
      rw [parents]
      split
      · exact .inr (Function.update_self ..)
      · exact rehung.moved other
    · rw [other_kept other eq]
      exact rehung.moved other
  case kept =>
    intro other was_hung
    rw [other_kept other (by rintro rfl; exact loose (.inr (rehung.hung was_hung)))]
    exact rehung.kept other was_hung
  case rooted =>
    -- The object does not lie above lost and found, so all that was rooted stays rooted.
    have away : ¬Forest.Above after.dirAbove number objectIdLostNFound := by
      intro above
      obtain is_lost | top := rehung.standing.above_lostNFound above
      · exact not_lost is_lost
      · exact loose (.inl top)
    have target := rehung.standing.lostNFound_hung.rooted
    rintro other was_done live
    rw [aboves]
    split
    case isTrue =>
      obtain was_done | rfl := was_done
      · exact target.relink away (rehung.rooted other was_done live)
      · exact .child (Function.update_self ..) (target.relink away target)
    case isFalse gone =>
      obtain was_done | rfl := was_done
      · exact rehung.rooted other was_done live
      · exact absurd ((rehung.live other).trans live) gone

theorem fixHangingObj (rehung : Rehung before after done) (number : Nat) :
    Rehung before (after.fixHangingObj number) fun other => done other ∨ other = number := by
  rw [Volume.fixHangingObj]
  split
  case isTrue hanging => exact rehung.move hanging
  case isFalse stays => exact rehung.leave (eq_false_of_ne_true stays)

/-- One bucket of the pass, and one after the other. -/
theorem bucket_pass (rehung : Rehung before after done) (numbers : List Nat) :
    Rehung before (numbers.foldl Volume.fixHangingObj after)
      fun other => done other ∨ other ∈ numbers := by
  induction numbers generalizing after done with
  | nil => simpa using rehung
  | cons number numbers ih =>
    have next := ih (rehung.fixHangingObj number)
    simpa [or_assoc] using next

theorem buckets_pass (rehung : Rehung before after done) (buckets : List Nat) :
    Rehung before
      (buckets.foldl (fun vol bucket => (vol.objBucket bucket).foldl Volume.fixHangingObj vol) after)
      fun other => done other ∨ ∃ bucket ∈ buckets, other ∈ before.objBucket bucket := by
  induction buckets generalizing after done with
  | nil => simpa using rehung
  | cons bucket buckets ih =>
    have next := ih (rehung.bucket_pass (after.objBucket bucket))
    simpa [or_assoc, rehung.bucket] using next

end Rehung

/-- On a device that may be written, the pass leaves every object below a top directory.  Whatever is
moved goes to lost and found, and nothing that is hung up right is moved. -/
theorem fixHangingObjs_rehangs (standing : vol.Standing) (hashed : vol.Hashed)
    (writable : vol.param.readOnly = false) (live : (vol.objs number).isSome) :
    (vol.fixHangingObjs.objs number).isSome ∧
      Forest.Rooted vol.fixHangingObjs.dirAbove isTop number ∧
      (vol.fixHangingObjs.parentOf number = vol.parentOf number ∨
        vol.fixHangingObjs.parentOf number = some objectIdLostNFound) ∧
      (vol.Hung number → vol.fixHangingObjs.parentOf number = vol.parentOf number) := by
  have rehung := (Rehung.refl standing).buckets_pass (List.range nObjectBuckets)
  have passed : vol.fixHangingObjs = (List.range nObjectBuckets).foldl
      (fun vol bucket => (vol.objBucket bucket).foldl fixHangingObj vol) vol := by
    rw [fixHangingObjs, if_neg (by simp [writable])]
  rw [← passed] at rehung
  have in_bucket : hashFn number < nObjectBuckets := Nat.mod_lt _ (by decide)
  exact ⟨(rehung.live number).trans live,
    rehung.rooted number (.inr ⟨_, List.mem_range.mpr in_bucket, (hashed.bucket number).mp live⟩) live,
    rehung.moved number, rehung.kept number⟩

/-- A file in a directory that has been unlinked, as a scan may leave it. -/
def unlinkedDirNodes : List (Nat × Node) :=
  [(objectIdRoot, { variantType := .directory, children := [objectIdLostNFound] }),
    (objectIdLostNFound, { variantType := .directory, parent := some objectIdRoot }),
    (objectIdUnlinked, { variantType := .directory, children := [300] }),
    (objectIdDeleted, { variantType := .directory }),
    (300, { variantType := .directory, parent := some objectIdUnlinked, children := [301] }),
    (301, { variantType := .file, parent := some 300 })]

/-- The device with that file. -/
def unlinkedDirVol : Volume Unit where
  store := ()
  objs number := unlinkedDirNodes.lookup number
  objBucket bucket := (unlinkedDirNodes.map Prod.fst).filter (hashFn · = bucket)

theorem unlinkedDirVol_standing : unlinkedDirVol.Standing where
  top := by
    rintro number (rfl | rfl | rfl) <;> decide
  lostNFound := by decide

theorem unlinkedDirVol_hashed : unlinkedDirVol.Hashed where
  bucket number := by
    simp [unlinkedDirVol, List.lookup_isSome_iff, List.mem_map]
  nodup bucket := List.Nodup.filter _ (by decide)

theorem fixHangingObjs_rehangs_unlinkedDir :
    (unlinkedDirVol.fixHangingObjs.objs 301).isSome ∧
      Forest.Rooted unlinkedDirVol.fixHangingObjs.dirAbove isTop 301 ∧
      (unlinkedDirVol.fixHangingObjs.parentOf 301 = unlinkedDirVol.parentOf 301 ∨
        unlinkedDirVol.fixHangingObjs.parentOf 301 = some objectIdLostNFound) ∧
      (unlinkedDirVol.Hung 301 →
        unlinkedDirVol.fixHangingObjs.parentOf 301 = unlinkedDirVol.parentOf 301) :=
  fixHangingObjs_rehangs unlinkedDirVol_standing unlinkedDirVol_hashed rfl (by decide)

/-- What is below the unlinked directory, but not directly in it, is moved. -/
theorem fixHangingObjs_moves_rooted :
    unlinkedDirVol.Standing ∧ unlinkedDirVol.Hashed ∧ unlinkedDirVol.param.readOnly = false ∧
      Forest.Rooted unlinkedDirVol.parentOf isTop 301 ∧
      unlinkedDirVol.parentOf 301 = some 300 ∧
      unlinkedDirVol.fixHangingObjs.parentOf 301 = some objectIdLostNFound := by
  refine ⟨unlinkedDirVol_standing, unlinkedDirVol_hashed, rfl, ?_, rfl, ?_⟩
  · have dir_up : unlinkedDirVol.parentOf 300 = some objectIdUnlinked := rfl
    have file_up : unlinkedDirVol.parentOf 301 = some 300 := rfl
    exact .child file_up (.child dir_up (.top (by decide)))
  · decide +kernel

end Volume

end Yaffs
