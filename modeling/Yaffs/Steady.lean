import Yaffs.TreeGuts

/-!
# What writing a header leaves alone

Before a header is written garbage is collected, and that may bring the end of soft deleted files.  All
other objects stay as they are, but for the children of directories and for what is still to be
written.  This holds of any volume, whether or not its objects are in order, and of whatever is asked of
the pages below: a relation between the pages before and after is kept if each operation keeps it.
-/

namespace Yaffs

namespace Node

/-- An object without what changes when other objects are moved or headers are written. -/
def lasting (obj : Node) : Node := { obj with children := [], dirty := false }

theorem lasting_eq_iff {obj other : Node} : obj.lasting = other.lasting ↔
    ∃ children dirty, obj = { other with children, dirty } := by
  constructor
  · intro same
    refine ⟨obj.children, obj.dirty, ?_⟩
    cases obj
    cases other
    simp only [lasting, mk.injEq] at same ⊢
    tauto
  · rintro ⟨children, dirty, rfl⟩
    rfl

theorem parent_of_lasting {obj other : Node} (same : obj.lasting = other.lasting) :
    obj.parent = other.parent := by
  obtain ⟨-, -, rfl⟩ := lasting_eq_iff.mp same
  rfl

theorem lasting_moved {directory number other : Nat} (ne : other ≠ number) (obj : Node) :
    (Volume.moved directory number other obj).lasting = obj.lasting := by
  simp [Volume.moved, lasting, ne]

end Node

namespace Volume

variable {Store : Type} {P : Pages Store} {vol after : Volume Store} {number : Nat}

/-! ## Observing the pages -/

/-- Every operation on the pages keeps a relation between the pages before and after, the writing of
one object's header aside. -/
structure Observes (P : Pages Store) (watched : Nat) (seen : Store → Store → Prop) : Prop where
  refl : ∀ store, seen store store
  trans : ∀ {first second third}, seen first second → seen second third → seen first third
  freeTnodes : ∀ store number, seen store (P.freeTnodes store number)
  checkGc : ∀ store, seen store (P.checkGc store).2
  writeHeader : ∀ store number obj name isShrink shadows, number ≠ watched →
    seen store (P.writeHeader store number obj name isShrink shadows).2
  dropHeader : ∀ store number, seen store (P.dropHeader store number)
  flushFileCache : ∀ store number discard, seen store (P.flushFileCache store number discard).2
  invalidateWholeCache : ∀ store number, seen store (P.invalidateWholeCache store number)
  resizeData : ∀ store number newSize, seen store (P.resizeData store number newSize).2
  softDelWorker : ∀ store number, seen store (P.softDelWorker store number)

/-- The operations on the pages keep a relation between the pages before and after, as far as they are
about other objects than the watched one.  What is done to the data and with the old header of the
watched object itself keeps it as well if `own` holds. -/
structure Minds (P : Pages Store) (watched : Nat) (own : Prop) (seen : Store → Store → Prop) : Prop where
  refl : ∀ store, seen store store
  trans : ∀ {first second third}, seen first second → seen second third → seen first third
  freeTnodes : ∀ store number, number ≠ watched ∨ own → seen store (P.freeTnodes store number)
  checkGc : ∀ store, seen store (P.checkGc store).2
  writeHeader : ∀ store number obj name isShrink shadows, number ≠ watched →
    seen store (P.writeHeader store number obj name isShrink shadows).2
  dropHeader : ∀ store number, number ≠ watched ∨ own → seen store (P.dropHeader store number)
  flushFileCache : ∀ store number discard, seen store (P.flushFileCache store number discard).2
  invalidateWholeCache : ∀ store number, number ≠ watched ∨ own →
    seen store (P.invalidateWholeCache store number)
  resizeData : ∀ store number newSize, number ≠ watched ∨ own →
    seen store (P.resizeData store number newSize).2
  softDelWorker : ∀ store number, number ≠ watched ∨ own → seen store (P.softDelWorker store number)

theorem Observes.minds {watched : Nat} {seen : Store → Store → Prop}
    (observes : Observes P watched seen) : Minds P watched True seen :=
  { observes with
    freeTnodes := fun store number _ => observes.freeTnodes store number
    dropHeader := fun store number _ => observes.dropHeader store number
    invalidateWholeCache := fun store number _ => observes.invalidateWholeCache store number
    resizeData := fun store number newSize _ => observes.resizeData store number newSize
    softDelWorker := fun store number _ => observes.softDelWorker store number }

/-- Objects that are neither touched nor soft deleted last, and the pages are related. -/
structure Steady (seen : Store → Store → Prop) (touched : Nat → Prop) (before after : Volume Store) :
    Prop where
  kept : ∀ number obj, before.objs number = some obj → ¬touched number → obj.softDel = false →
    ∃ obj', after.objs number = some obj' ∧ obj'.lasting = obj.lasting
  store : seen before.store after.store
  param : after.param = before.param
  unlinkedFiles : before.nUnlinkedFiles ≤ after.nUnlinkedFiles

variable {watched : Nat} {own : Prop} {seen : Store → Store → Prop} {touched : Nat → Prop}

theorem Steady.mono {more : Nat → Prop} (steady : Steady seen touched vol after)
    (sub : ∀ number, touched number → more number) : Steady seen more vol after :=
  { steady with
    kept := fun number obj found untouched =>
      steady.kept number obj found fun touches => untouched (sub number touches) }

theorem Steady.any (steady : Steady seen (fun _ => False) vol after) : Steady seen touched vol after :=
  steady.mono fun _ => False.elim

theorem Steady.refl (minds : Minds P watched own seen) : Steady seen touched vol vol :=
  ⟨fun _ obj found _ _ => ⟨obj, found, rfl⟩, minds.refl _, rfl, le_rfl⟩

theorem Steady.trans (minds : Minds P watched own seen) {last : Volume Store}
    (first : Steady seen touched vol after) (second : Steady seen touched after last) :
    Steady seen touched vol last where
  kept number obj found untouched soft := by
    obtain ⟨mid, mid_found, mid_eq⟩ := first.kept number obj found untouched soft
    have mid_soft : mid.softDel = false := (congrArg Node.softDel mid_eq).trans soft
    obtain ⟨obj', found', eq⟩ := second.kept number mid mid_found untouched mid_soft
    exact ⟨obj', found', eq.trans mid_eq⟩
  store := minds.trans first.store second.store
  param := second.param.trans first.param
  unlinkedFiles := first.unlinkedFiles.trans second.unlinkedFiles

/-- Touching a soft deleted file only is as good as touching nothing. -/
theorem Steady.settle (steady : Steady seen (· = number) vol after)
    (soft : ∀ obj, vol.objs number = some obj → obj.softDel = true) :
    Steady seen touched vol after :=
  { steady with
    kept := by
      intro other obj found _ not_soft
      refine steady.kept other obj found ?_ not_soft
      rintro rfl
      simp [soft obj found] at not_soft }

/-- The same objects over other pages. -/
theorem Steady.of_objs (kept : ∀ number, (after.objs number).map Node.lasting =
      (vol.objs number).map Node.lasting)
    (store : seen vol.store after.store) (param : after.param = vol.param)
    (unlinkedFiles : vol.nUnlinkedFiles ≤ after.nUnlinkedFiles) : Steady seen touched vol after where
  kept number obj found _ _ := by
    have eq := kept number
    rw [found] at eq
    cases found' : after.objs number with
    | none => simp [found'] at eq
    | some obj' => exact ⟨obj', rfl, by simpa [found'] using eq⟩
  store := store
  param := param
  unlinkedFiles := unlinkedFiles

theorem Steady.setStore {store : Store} (related : seen vol.store store) :
    Steady seen touched vol { vol with store } :=
  Steady.of_objs (fun _ => rfl) related rfl le_rfl

/-- An object that no garbage collection takes away. -/
def Firm (vol : Volume Store) (number : Nat) : Prop :=
  ∃ obj, vol.objs number = some obj ∧ obj.softDel = false

theorem Firm.steady (firm : vol.Firm number) (steady : Steady seen touched vol after)
    (untouched : ¬touched number) : after.Firm number := by
  obtain ⟨obj, found, soft⟩ := firm
  obtain ⟨obj', found', eq⟩ := steady.kept number obj found untouched soft
  exact ⟨obj', found', (congrArg Node.softDel eq).trans soft⟩

/-! ## Changing and moving one object -/

theorem Steady.modify (minds : Minds P watched own seen) (change : Node → Node) :
    Steady seen (· = number) vol (vol.modify number change) where
  kept other obj found ne _ := by
    refine ⟨obj, ?_, rfl⟩
    rw [modify_found change found, if_neg ne]
  store := minds.refl _
  param := rfl
  unlinkedFiles := le_rfl

theorem Steady.modify_lasting (minds : Minds P watched own seen) {change : Node → Node}
    (lasts : ∀ obj, (change obj).lasting = obj.lasting) :
    Steady seen touched vol (vol.modify number change) := by
  refine Steady.of_objs (fun other => ?_) (minds.refl _) rfl le_rfl
  rw [modify_objs, Option.map_map]
  refine Option.map_congr fun obj _ => ?_
  simp only [Function.comp_apply]
  split
  · exact lasts obj
  · rfl

theorem removeObjFromDir_lasting (vol : Volume Store) (number other : Nat) :
    ((vol.removeObjFromDir number).objs other).map Node.lasting = (vol.objs other).map fun obj =>
      { obj.lasting with parent := if other = number then none else obj.parent } := by
  rw [removeObjFromDir, modify_objs]
  cases vol.parentOf number with
  | none =>
    rw [Option.map_map]
    refine Option.map_congr fun obj _ => ?_
    simp only [Function.comp_apply]
    split <;> rfl
  | some directory =>
    simp only [modify_objs, Option.map_map]
    refine Option.map_congr fun obj _ => ?_
    simp only [Function.comp_apply]
    split <;> split <;> rfl

/-- Where an object is after it has been moved, whatever the other objects are like. -/
theorem addObjToDir_lasting (vol : Volume Store) (directory number other : Nat) :
    ((vol.addObjToDir directory number).objs other).map Node.lasting =
      (vol.objs other).map fun obj => (moved directory number other obj).lasting := by
  have removed := removeObjFromDir_lasting vol number other
  simp only [addObjToDir]
  generalize vol.removeObjFromDir number = free at *
  split
  all_goals
    simp only [modify_objs, Option.map_map]
    cases found : free.objs other <;> cases found' : vol.objs other <;>
      simp only [found, found', Option.map_none, Option.map_some] at removed ⊢
    all_goals grind [Node.lasting, moved, isTrash]

@[simp]
theorem removeObjFromDir_store (vol : Volume Store) (number : Nat) : (vol.removeObjFromDir number).store = vol.store := by
  rw [removeObjFromDir]
  split <;> rfl

@[simp]
theorem removeObjFromDir_param (vol : Volume Store) (number : Nat) : (vol.removeObjFromDir number).param = vol.param := by
  rw [removeObjFromDir]
  split <;> rfl

@[simp]
theorem removeObjFromDir_nUnlinkedFiles (vol : Volume Store) (number : Nat) :
    (vol.removeObjFromDir number).nUnlinkedFiles = vol.nUnlinkedFiles := by
  rw [removeObjFromDir]
  split <;> rfl

@[simp]
theorem addObjToDir_store (vol : Volume Store) (directory number : Nat) :
    (vol.addObjToDir directory number).store = vol.store := by
  have removed := removeObjFromDir_store vol number
  rw [addObjToDir]
  split <;> exact removed

@[simp]
theorem addObjToDir_param (vol : Volume Store) (directory number : Nat) :
    (vol.addObjToDir directory number).param = vol.param := by
  have removed := removeObjFromDir_param vol number
  rw [addObjToDir]
  split <;> exact removed

/-- What comes to the unlinked or the deleted objects is counted, and never taken off the count. -/
theorem addObjToDir_nUnlinkedFiles (vol : Volume Store) (directory number : Nat) :
    (vol.addObjToDir directory number).nUnlinkedFiles =
      if isTrash directory then vol.nUnlinkedFiles + 1 else vol.nUnlinkedFiles := by
  have removed := removeObjFromDir_nUnlinkedFiles vol number
  simp only [addObjToDir]
  split
  case isTrue trash =>
    rw [if_pos (show isTrash directory from trash)]
    exact congrArg (· + 1) removed
  case isFalse kept =>
    rw [if_neg (show ¬isTrash directory from kept)]
    exact removed

theorem Steady.removeObjFromDir (minds : Minds P watched own seen) (number : Nat) :
    Steady seen (· = number) vol (vol.removeObjFromDir number) where
  kept other obj found ne _ := by
    have eq := removeObjFromDir_lasting vol number other
    rw [found, Option.map_some, if_neg ne] at eq
    obtain ⟨obj', found', eq'⟩ := Option.map_eq_some_iff.mp eq
    exact ⟨obj', found', eq'⟩
  store := (removeObjFromDir_store vol number).symm ▸ minds.refl _
  param := removeObjFromDir_param vol number
  unlinkedFiles := (removeObjFromDir_nUnlinkedFiles vol number).ge

theorem Steady.addObjToDir (minds : Minds P watched own seen) (vol : Volume Store) (directory number : Nat) :
    Steady seen (· = number) vol (vol.addObjToDir directory number) where
  kept other obj found ne _ := by
    have eq := addObjToDir_lasting vol directory number other
    rw [found, Option.map_some, Node.lasting_moved ne] at eq
    obtain ⟨obj', found', eq'⟩ := Option.map_eq_some_iff.mp eq
    exact ⟨obj', found', eq'⟩
  store := (addObjToDir_store vol directory number).symm ▸ minds.refl _
  param := addObjToDir_param vol directory number
  unlinkedFiles := by
    rw [addObjToDir_nUnlinkedFiles]
    split <;> omega

/-- The object itself after it has been moved. -/
theorem addObjToDir_found (directory : Nat) {obj : Node} (found : vol.objs number = some obj) :
    ∃ obj', (vol.addObjToDir directory number).objs number = some obj' ∧
      obj'.lasting = (moved directory number number obj).lasting := by
  have eq := addObjToDir_lasting vol directory number number
  rw [found, Option.map_some] at eq
  exact Option.map_eq_some_iff.mp eq

theorem Steady.freeObj (minds : Minds P watched own seen) (number : Nat) :
    Steady seen (· = number) vol (vol.freeObj number) := by
  rw [Volume.freeObj]
  split
  · exact Steady.modify minds _
  · exact ⟨fun other obj found ne _ => ⟨obj, by simp [ne, found], rfl⟩, minds.refl _, rfl, le_rfl⟩

/-- Taking a link from the links of its object changes a list of links only. -/
theorem removeHardLink_found (number : Nat) {other : Nat} {obj : Node} (found : vol.objs other = some obj) :
    ∃ hardLinks, (vol.removeHardLink number).objs other = some { obj with hardLinks } := by
  simp only [Volume.removeHardLink]
  split
  · exact ⟨obj.hardLinks, found⟩
  · rw [modify_found _ found]
    split
    · exact ⟨_, rfl⟩
    · exact ⟨obj.hardLinks, rfl⟩

theorem removeHardLink_same (vol : Volume Store) (number : Nat) : (vol.removeHardLink number).store = vol.store ∧
    (vol.removeHardLink number).param = vol.param := by
  simp only [Volume.removeHardLink]
  split <;> exact ⟨rfl, rfl⟩

/-! ## Writing headers -/

/-- Collecting garbage touches nothing as long as the watched object is not soft deleted. -/
def Calm (watched : Nat) (seen : Store → Store → Prop) (gc : Volume Store → Volume Store) : Prop :=
  ∀ vol, vol.Firm watched → Steady seen (fun _ => False) vol (gc vol)

theorem calm_id (minds : Minds P watched own seen) : Calm watched seen id :=
  fun _ _ => Steady.refl minds

variable {gc : Volume Store → Volume Store}

/-- Writing a header touches nothing if the writing keeps the relation. -/
theorem updateOhWith_steady (minds : Minds P watched own seen) (calm : Calm watched seen gc)
    (firm : vol.Firm watched) (number : Nat) (name : Option (List Char)) (isShrink : Bool)
    (shadows : Nat)
    (writes : ∀ mid obj, Steady seen (fun _ => False) vol mid → mid.objs number = some obj →
      seen mid.store (P.writeHeader mid.store number obj name isShrink shadows).2) :
    Steady seen touched vol (vol.updateOhWith P gc number name isShrink shadows).2 := by
  simp only [updateOhWith]
  split
  case isTrue => exact Steady.refl minds
  case isFalse =>
    have collected := calm vol firm
    cases found : (gc vol).objs number with
    | none => exact collected.any
    | some obj =>
      have written := writes (gc vol) obj collected found
      have stored : Steady seen touched vol { gc vol with
          store := (P.writeHeader (gc vol).store number obj name isShrink shadows).2 } :=
        collected.any.trans minds (Steady.setStore written)
      dsimp only
      split
      · exact stored.trans minds (Steady.modify_lasting minds fun _ => rfl)
      · exact stored

/-- What becomes of a header that is asked for. -/
theorem updateOhWith_written {obj : Node} (real : ∀ obj, vol.objs number = some obj → obj.fake = false)
    (found : (gc vol).objs number = some obj) (name : Option (List Char)) (isShrink : Bool)
    (shadows : Nat) :
    let outcome := vol.updateOhWith P gc number name isShrink shadows
    let written := P.writeHeader (gc vol).store number obj name isShrink shadows
    outcome.1 = written.1 ∧ outcome.2.store = written.2 ∧ outcome.2.param = (gc vol).param ∧
      ∀ other, (outcome.2.objs other).map Node.lasting = ((gc vol).objs other).map Node.lasting := by
  have kept : ¬((vol.objs number).any Node.fake = true ∧ number ≠ objectIdRoot) := by
    rintro ⟨fake, -⟩
    obtain ⟨obj', found', fake⟩ := Option.any_eq_true _ _ |>.mp fake
    simp [real obj' found'] at fake
  simp only [updateOhWith, if_neg kept, found]
  split
  case isTrue done =>
    refine ⟨done.symm, rfl, rfl, fun other => ?_⟩
    rw [modify_objs, Option.map_map]
    refine Option.map_congr fun obj _ => ?_
    simp only [Function.comp_apply]
    split <;> rfl
  case isFalse failed => exact ⟨(Bool.eq_false_iff.mpr failed).symm, rfl, rfl, fun _ => rfl⟩

theorem updateOhWith_other (minds : Minds P watched own seen) (calm : Calm watched seen gc)
    (firm : vol.Firm watched) (ne : number ≠ watched) (name : Option (List Char)) (isShrink : Bool)
    (shadows : Nat) :
    Steady seen touched vol (vol.updateOhWith P gc number name isShrink shadows).2 :=
  updateOhWith_steady minds calm firm number name isShrink shadows
    fun _ _ _ _ => minds.writeHeader _ _ _ _ _ _ ne

/-- An object with its new name. -/
def named (number : Nat) (newName : List Char) (obj : Node) : Node :=
  { obj.setObjName number newName with dirty := true }

/-- The object has its new name and place, but the header is not written yet. -/
def placed (vol : Volume Store) (number newDir : Nat) (newName : List Char) : Volume Store :=
  let vol := (vol.modify number (named number newName)).addObjToDir newDir number
  if newDir = objectIdUnlinked then vol.modify number fun obj => { obj with unlinked := true } else vol

/-- Changing a name is refused, or the object is placed and its header is written. -/
theorem changeObjNameWith_cases (P : Pages Store) (gc : Volume Store → Volume Store)
    (vol : Volume Store) (number : Nat) (newDir : Option Nat) (newName : List Char)
    (force : Bool) (shadows : Nat) :
    vol.changeObjNameWith P gc number newDir newName force shadows = (false, vol) ∨
    ∃ directory, newDir.or (vol.parentOf number) = some directory ∧
      vol.isType directory .directory = true ∧
      vol.changeObjNameWith P gc number newDir newName force shadows =
        (vol.placed number directory newName).updateOhWith P gc number (some newName)
          (decide (directory = objectIdDeleted)) shadows := by
  simp only [changeObjNameWith]
  cases newDir.or (vol.parentOf number) with
  | none => exact .inl rfl
  | some directory =>
    dsimp only
    split
    case isTrue => exact .inl rfl
    case isFalse accepted =>
      refine .inr ⟨directory, rfl, not_not.mp (not_or.mp accepted).2, ?_⟩
      simp only [placed, decide_eq_true_eq]
      rfl

/-- Nothing is in the way of an object that is given up, forced in or that shadows another. -/
theorem changeObjNameWith_accepted {directory : Nat} {newName : List Char} {force : Bool}
    {shadows : Nat} (isDirectory : vol.isType directory .directory = true)
    (free : isTrash directory ∨ force = true ∨ 0 < shadows ∨
      vol.findByName P directory newName = none) :
    vol.changeObjNameWith P gc number (some directory) newName force shadows =
      (vol.placed number directory newName).updateOhWith P gc number (some newName)
        (decide (directory = objectIdDeleted)) shadows := by
  have accepted : ¬(¬(directory = objectIdUnlinked ∨ directory = objectIdDeleted ∨ force = true ∨
      0 < shadows ∨ vol.findByName P directory newName = none) ∨
      ¬vol.isType directory .directory = true) := by
    rw [isTrash] at free
    tauto
  simp only [changeObjNameWith, Option.some_or, decide_eq_true_eq, if_neg accepted]
  rfl

theorem lasting_named (number : Nat) (newName : List Char) (obj : Node) :
    (named number newName obj).softDel = obj.softDel := by
  simp only [named, Node.setObjName]
  split <;> rfl

theorem Steady.placed (minds : Minds P watched own seen) (vol : Volume Store) (number newDir : Nat)
    (newName : List Char) : Steady seen (· = number) vol (vol.placed number newDir newName) := by
  have moves := (Steady.modify minds (Volume.named number newName)).trans minds
    (Steady.addObjToDir minds (vol.modify number (Volume.named number newName)) newDir number)
  simp only [Volume.placed]
  split
  · exact moves.trans minds (Steady.modify minds _)
  · exact moves

/-- Giving another object a new name or place. -/
theorem changeObjNameWith_other (minds : Minds P watched own seen) (calm : Calm watched seen gc)
    (firm : vol.Firm watched) (ne : number ≠ watched) (newDir : Option Nat) (newName : List Char)
    (force : Bool) (shadows : Nat) : Steady seen (· = number) vol
      (vol.changeObjNameWith P gc number newDir newName force shadows).2 := by
  rcases changeObjNameWith_cases P gc vol number newDir newName force shadows
    with refused | ⟨directory, -, -, accepted⟩
  · rw [refused]
    exact Steady.refl minds
  · have moves := Steady.placed minds vol number directory newName
    rw [accepted]
    exact moves.trans minds
      (updateOhWith_other minds calm (firm.steady moves ne.symm) ne _ _ _)

/-! ## Deleting and sweeping -/

/-- The end of an object that is already among the deleted objects or needs no record there. -/
theorem drop_steady (minds : Minds P watched own seen) (minded : number ≠ watched ∨ own) :
    Steady seen (· = number) vol
      (({ vol.removeObjFromDir number with
          store := P.dropHeader (vol.removeObjFromDir number).store number } :
        Volume Store).freeObj number) :=
  ((Steady.removeObjFromDir minds number).trans minds
    (Steady.setStore (minds.dropHeader _ number minded))).trans minds (Steady.freeObj minds number)

theorem genericObjDelWith_other (minds : Minds P watched own seen) (calm : Calm watched seen gc)
    (firm : vol.Firm watched) (ne : number ≠ watched) :
    Steady seen (· = number) vol (vol.genericObjDelWith P gc number) := by
  have dropped : Steady seen (· = number) vol
      { vol with store := P.invalidateWholeCache vol.store number } :=
    Steady.setStore (minds.invalidateWholeCache _ number (.inl ne))
  simp only [genericObjDelWith]
  split
  · have moves := dropped.trans minds (changeObjNameWith_other minds calm
      (firm.steady dropped ne.symm) ne (some objectIdDeleted) "deleted".toList false 0)
    exact moves.trans minds (drop_steady minds (.inl ne))
  · exact dropped.trans minds (drop_steady minds (.inl ne))

theorem gcCleanUp_steady (minds : Minds P watched own seen) (firm : vol.Firm watched)
    (number : Nat) : Steady seen touched vol (gcCleanUp P vol number) := by
  simp only [gcCleanUp]
  split
  case h_1 => exact Steady.refl minds
  case h_2 obj found =>
    split
    case isFalse => exact Steady.refl minds
    case isTrue deleted =>
      have ne : number ≠ watched := by
        rintro rfl
        obtain ⟨obj', found', soft⟩ := firm
        obtain rfl := Option.some.inj (found.symm.trans found')
        simp [soft] at deleted
      have dropped : Steady seen (· = number) vol
          { vol with store := P.freeTnodes vol.store number } :=
        Steady.setStore (minds.freeTnodes _ number (.inl ne))
      have done := dropped.trans minds (genericObjDelWith_other minds (calm_id minds)
        (firm.steady dropped ne.symm) ne)
      have settled : Steady seen (· = number) vol
          { ({ vol with store := P.freeTnodes vol.store number } :
              Volume Store).genericObjDelWith P id number with
            nDeletedFiles := (({ vol with store := P.freeTnodes vol.store number } :
              Volume Store).genericObjDelWith P id number).nDeletedFiles - 1 } :=
        ⟨done.kept, done.store, done.param, done.unlinkedFiles⟩
      refine settled.settle fun obj' found' => ?_
      obtain rfl := Option.some.inj (found.symm.trans found')
      exact deleted.2.1

theorem sweep_steady (minds : Minds P watched own seen) (firm : vol.Firm watched)
    (collected : List Nat × Store) (related : seen vol.store collected.2) :
    Steady seen touched vol (vol.sweep P collected) := by
  have clean (numbers : List Nat) (vol : Volume Store) (firm : vol.Firm watched) :
      Steady seen (fun _ => False) vol (numbers.foldl (gcCleanUp P) vol) := by
    induction numbers generalizing vol with
    | nil => exact Steady.refl minds
    | cons number numbers ih =>
      have first : Steady seen (fun _ => False) vol (gcCleanUp P vol number) :=
        gcCleanUp_steady minds firm number
      exact first.trans minds (ih _ (firm.steady first id))
  have stored : Steady seen (fun _ => False) vol { vol with store := collected.2 } :=
    Steady.setStore related
  simp only [sweep]
  split
  · exact stored.any
  · exact (stored.trans minds (clean collected.1 _ (firm.steady stored id))).any

theorem calm_checkGc (minds : Minds P watched own seen) : Calm watched seen (checkGc P) := by
  intro vol firm
  rw [checkGc]
  split
  · exact Steady.refl minds
  · exact sweep_steady minds firm _ (minds.checkGc _)

theorem updateParent_steady (minds : Minds P watched own seen) (firm : vol.Firm watched)
    (directory : Option Nat)
    (writes : ∀ mid obj, Steady seen (fun _ => False) vol mid → mid.objs watched = some obj →
      seen mid.store (P.writeHeader mid.store watched obj none false 0).2) :
    Steady seen touched vol (vol.updateParent P directory) := by
  cases directory with
  | none => exact Steady.refl minds
  | some directory =>
    have marked : Steady seen (fun _ => False) vol
        (vol.modify directory fun dir => { dir with dirty := true }) :=
      Steady.modify_lasting minds fun _ => rfl
    simp only [updateParent]
    split
    · exact marked.any
    · refine (marked.trans minds (updateOhWith_steady minds (calm_checkGc minds)
        (firm.steady marked id) directory none false 0 ?_)).any
      intro mid obj steady found
      by_cases eq : directory = watched
      · subst eq
        exact writes mid obj (marked.trans minds steady) found
      · exact minds.writeHeader _ _ _ _ _ _ eq

/-- Changing the size of a file writes its header only if the file is in use. -/
theorem resizeFile_steady (minds : Minds P watched own seen) (firm : vol.Firm watched)
    (number newSize : Nat) (minded : number ≠ watched ∨ own)
    (writes : ∀ mid obj, Steady seen (fun _ => False) vol mid → mid.objs watched = some obj →
      ¬obj.Hidden → seen mid.store (P.writeHeader mid.store watched obj none false 0).2) :
    Steady seen touched vol (vol.resizeFile P number newSize).2 := by
  have flushed : Steady seen (fun _ => False) vol
      (vol.sweep P (P.flushFileCache vol.store number true)) :=
    sweep_steady minds firm _ (minds.flushFileCache _ _ _)
  simp only [resizeFile]
  generalize vol.sweep P (P.flushFileCache vol.store number true) = mid₁ at *
  have dropped : Steady seen (fun _ => False) vol
      { mid₁ with store := P.invalidateWholeCache mid₁.store number } :=
    flushed.trans minds (Steady.setStore (minds.invalidateWholeCache _ _ minded))
  have collected := dropped.trans minds
    (calm_checkGc minds _ (firm.steady dropped id))
  generalize ({ mid₁ with store := P.invalidateWholeCache mid₁.store number } :
    Volume Store).checkGc P = mid₂ at *
  split
  · exact collected.any
  · split
    · exact collected.any
    · have resized := collected.trans minds (sweep_steady minds (firm.steady collected id)
        (P.resizeData mid₂.store number newSize) (minds.resizeData _ _ _ minded))
      generalize mid₂.sweep P (P.resizeData mid₂.store number newSize) = mid₃ at *
      cases up : mid₃.parentOf number with
      | none => exact resized.any
      | some parent =>
        dsimp only
        split
        case isTrue => exact resized.any
        case isFalse used =>
          refine (resized.trans minds (updateOhWith_steady minds (calm_checkGc minds)
            (firm.steady resized id) number none false 0 ?_)).any
          intro mid obj steady found
          by_cases eq : number = watched
          · subst eq
            refine writes mid obj (resized.trans minds steady) found ?_
            obtain ⟨old, old_found, soft⟩ := firm.steady resized id
            obtain ⟨obj', found', eq⟩ := steady.kept number old old_found id soft
            obtain rfl := Option.some.inj (found.symm.trans found')
            rintro ⟨trash, isTrash, up'⟩
            rw [parentOf_eq old_found, ← Node.parent_of_lasting eq, up'] at up
            obtain rfl := Option.some.inj up
            exact used (.inr isTrash)
          · exact minds.writeHeader _ _ _ _ _ _ eq

end Volume

end Yaffs
