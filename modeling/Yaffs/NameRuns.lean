import Yaffs.Names

/-!
# Names that persist

A name that fits into a header is the same in all of its copies.  So the objects of a device can be
described by the names that they have been given, and no two of them have the same name in the same
directory.
-/

namespace Yaffs

/-! ## Accepted names -/

theorem checkPathLoop_plain {name : List Char} (plain : ∀ ch ∈ name, isPathDivider ch = false)
    (n : Nat) {divs : Nat} (few : divs < 100) :
    checkPathLoop n divs name = true ↔ name = [] ∨ n + name.length ≤ maxNameLength := by
  induction name generalizing n with
  | nil => simp [checkPathLoop]
  | cons ch name ih =>
    rw [List.forall_mem_cons] at plain
    rw [checkPathLoop, plain.1]
    simp only [Bool.false_eq_true, if_false, few, and_true, List.length_cons, reduceCtorEq,
      false_or]
    split
    case isTrue lt =>
      rw [ih plain.2]
      constructor
      · rintro (rfl | le)
        · rw [List.length_nil]
          omega
        · omega
      · exact fun le => .inr (by omega)
    case isFalse ge =>
      constructor
      · exact fun accepted => Bool.noConfusion accepted
      · exact fun le => absurd (show n < maxNameLength by omega) ge

/-- The path check accepts a name of up to the greatest length. -/
theorem checkPath_plain {name : List Char} (plain : ∀ ch ∈ name, isPathDivider ch = false) :
    checkPath name = true ↔ name.length ≤ maxNameLength := by
  rw [checkPath, checkPathLoop_plain plain 0 (by decide), Nat.zero_add]
  constructor
  · rintro (rfl | le)
    · exact Nat.zero_le _
    · exact le
  · exact Or.inr

/-! ## One object -/

/-- All copies of the name and of the target of an object are whole. -/
structure NamedObj.Keeps (given target : List Char) (obj : NamedObj) (oh : NameHeader) : Prop where
  header : obj.header = some oh
  number_ne : obj.number ≠ objectIdLostNFound
  name : oh.name = given
  parent : oh.parentObjId = obj.parent
  given_ne : given ≠ []
  given_lt : given.length < maxNameLength
  target_le : obj.variantType = .symlink → target.length ≤ maxAliasLength
  aliasName : obj.variantType = .symlink → oh.aliasName = target
  shortName : obj.lazyLoaded = false →
    obj.shortName = if given.length ≤ shortNameLength then given else []
  sum : obj.lazyLoaded = false → obj.sum = calcNameSum given
  aliasStr : obj.lazyLoaded = false → obj.variantType = .symlink → obj.aliasStr = target

/-- The lost and found directory has no header. -/
structure NamedObj.IsLostNFound (given : List Char) (obj : NamedObj) : Prop where
  header : obj.header = none
  number : obj.number = objectIdLostNFound
  parent : obj.parent = objectIdRoot
  name : given = lostNFoundName
  type : obj.variantType ≠ .symlink
  loaded : obj.lazyLoaded = false

/-- An object is as it has been named. -/
def NamedObj.IsAs (given target : List Char) (obj : NamedObj) : Prop :=
  obj.IsLostNFound given ∨ ∃ oh, obj.Keeps given target oh

theorem cloneStr_of_le {str : List Char} (le : str.length ≤ maxAliasLength) :
    cloneStr str = str := by
  rw [cloneStr, strnlen, Nat.min_eq_left (by omega), List.take_length]

theorem loadOhFromName_of_lt {name : List Char} (lt : name.length < maxNameLength) :
    loadOhFromName name = name :=
  List.take_of_length_le (by omega)

namespace NamedObj

variable {given target : List Char} {obj : NamedObj} {oh : NameHeader}

theorem setObjName_of_ne (obj : NamedObj) {name : List Char} (ne : name ≠ []) :
    obj.setObjName name =
      { obj with
        shortName := if name.length ≤ shortNameLength then name else []
        sum := calcNameSum name } := by
  have short : strnlen name (shortNameLength + 1) ≤ shortNameLength ↔
      name.length ≤ shortNameLength := by
    rw [strnlen]
    omega
  rw [setObjName, if_neg ne]
  simp only [short]

theorem checkObjDetailsLoaded_of_loaded (loaded : obj.lazyLoaded = false) :
    obj.checkObjDetailsLoaded = obj := by
  unfold checkObjDetailsLoaded
  split
  · rfl
  · rw [if_neg (by rw [loaded]; decide)]

/-- What loading the details of an object leaves alone. -/
structure SamePlace (before after : NamedObj) : Prop where
  number : after.number = before.number
  type : after.variantType = before.variantType
  parent : after.parent = before.parent
  header : after.header = before.header

theorem setObjName_same (obj : NamedObj) (name : List Char) :
    obj.SamePlace (obj.setObjName name) := by
  unfold setObjName
  split
  · exact ⟨rfl, rfl, rfl, rfl⟩
  · exact ⟨rfl, rfl, rfl, rfl⟩

theorem checkObjDetailsLoaded_same (obj : NamedObj) : obj.SamePlace obj.checkObjDetailsLoaded := by
  unfold checkObjDetailsLoaded
  split
  · exact ⟨rfl, rfl, rfl, rfl⟩
  · split
    · obtain ⟨number, type, parent, header⟩ :=
        setObjName_same { obj with lazyLoaded := false } (by assumption : NameHeader).name
      split
      · exact ⟨number, type, parent, header⟩
      · exact ⟨number, type, parent, header⟩
    · exact ⟨rfl, rfl, rfl, rfl⟩

theorem Keeps.loads (keeps : obj.Keeps given target oh) :
    obj.checkObjDetailsLoaded.Keeps given target oh ∧
      obj.checkObjDetailsLoaded.lazyLoaded = false := by
  cases lazily : obj.lazyLoaded with
  | false =>
    rw [checkObjDetailsLoaded_of_loaded lazily]
    exact ⟨keeps, lazily⟩
  | true =>
    have ne : oh.name ≠ [] := by
      rw [keeps.name]
      exact keeps.given_ne
    unfold checkObjDetailsLoaded
    rw [keeps.header]
    simp only [lazily, if_true, setObjName_of_ne _ ne]
    split
    case isTrue symlink =>
      refine ⟨{ keeps with
        header := rfl
        shortName := fun _ => by rw [← keeps.name]
        sum := fun _ => by rw [← keeps.name]
        aliasStr := fun _ _ => ?_ }, rfl⟩
      rw [keeps.aliasName symlink]
      exact cloneStr_of_le (keeps.target_le symlink)
    case isFalse other =>
      exact ⟨{ keeps with
        header := rfl
        shortName := fun _ => by rw [← keeps.name]
        sum := fun _ => by rw [← keeps.name]
        aliasStr := fun _ symlink => absurd symlink other }, rfl⟩

theorem Keeps.getObjName_eq (keeps : obj.Keeps given target oh) : obj.getObjName = given := by
  obtain ⟨loaded, lazily⟩ := keeps.loads
  unfold getObjName
  dsimp only
  generalize obj.checkObjDetailsLoaded = obj at loaded lazily ⊢
  rw [if_neg loaded.number_ne, loaded.shortName lazily, loaded.header]
  have whole : loadNameFromOh oh.name = given := by
    rw [loaded.name]
    exact List.take_of_length_le (Nat.le_of_lt loaded.given_lt)
  by_cases short : given.length ≤ shortNameLength
  · rw [if_pos short, if_pos loaded.given_ne, fixNullName, if_neg loaded.given_ne]
  · simp only [if_neg short, ne_eq, not_true_eq_false, if_false, whole]
    rw [fixNullName, if_neg loaded.given_ne]

theorem Keeps.getSymlinkAlias_eq (keeps : obj.Keeps given target oh)
    (symlink : obj.variantType = .symlink) : obj.getSymlinkAlias = target := by
  obtain ⟨loaded, lazily⟩ := keeps.loads
  have type := obj.checkObjDetailsLoaded_same.type.trans symlink
  rw [getSymlinkAlias, loaded.aliasStr lazily type]
  exact cloneStr_of_le (loaded.target_le type)

/-- A longer name is not taken for the one that it begins with. -/
theorem take_eq_iff {name : List Char} (lt : given.length < maxNameLength) :
    name.take maxNameLength = given.take maxNameLength ↔ name = given := by
  rw [List.take_of_length_le (Nat.le_of_lt lt)]
  constructor
  · intro same
    have length := congrArg List.length same
    rw [List.length_take] at length
    rwa [List.take_of_length_le (by omega)] at same
  · intro same
    rw [same]
    exact List.take_of_length_le (Nat.le_of_lt lt)

theorem Keeps.hasName_iff (keeps : obj.Keeps given target oh) (name : List Char) :
    obj.checkObjDetailsLoaded.hasName name = true ↔ name = given := by
  obtain ⟨loaded, lazily⟩ := keeps.loads
  generalize obj.checkObjDetailsLoaded = obj at loaded lazily ⊢
  rw [hasName, if_neg loaded.number_ne, loaded.getObjName_eq, loaded.header, loaded.sum lazily]
  simp only [Option.isNone_some, Bool.or_false, Bool.and_eq_true, beq_iff_eq,
    take_eq_iff loaded.given_lt]
  constructor
  · exact fun both => both.2
  · intro same
    rw [same]
    exact ⟨rfl, rfl⟩

theorem IsLostNFound.loads (lost : obj.IsLostNFound given) : obj.checkObjDetailsLoaded = obj :=
  checkObjDetailsLoaded_of_loaded lost.loaded

theorem IsLostNFound.hasName_iff (lost : obj.IsLostNFound given) (name : List Char) :
    obj.checkObjDetailsLoaded.hasName name = true ↔ name = given := by
  rw [lost.loads, hasName, if_pos lost.number, lost.name, beq_iff_eq]

theorem IsAs.hasName_iff (isAs : obj.IsAs given target) (name : List Char) :
    obj.checkObjDetailsLoaded.hasName name = true ↔ name = given := by
  obtain lost | ⟨oh, keeps⟩ := isAs
  · exact lost.hasName_iff name
  · exact keeps.hasName_iff name

theorem IsAs.getObjName_eq (isAs : obj.IsAs given target) : obj.getObjName = given := by
  obtain lost | ⟨oh, keeps⟩ := isAs
  · rw [getObjName, lost.loads]
    simp only [if_pos lost.number, lost.name]
    rfl
  · exact keeps.getObjName_eq

theorem IsAs.loads (isAs : obj.IsAs given target) :
    obj.checkObjDetailsLoaded.IsAs given target ∧
      obj.checkObjDetailsLoaded.lazyLoaded = false := by
  obtain lost | ⟨oh, keeps⟩ := isAs
  · rw [lost.loads]
    exact ⟨.inl lost, lost.loaded⟩
  · exact ⟨.inr ⟨oh, keeps.loads.1⟩, keeps.loads.2⟩

/-- The name in the header is kept if there is no new one. -/
theorem Keeps.updateOh_none (keeps : obj.Keeps given target oh) :
    ∃ oh, (obj.updateOh none).Keeps given target oh := by
  obtain ⟨loaded, lazily⟩ := keeps.loads
  unfold updateOh
  dsimp only
  generalize obj.checkObjDetailsLoaded = obj at loaded lazily ⊢
  rw [loaded.header]
  refine ⟨_, { loaded with
    header := rfl
    name := loaded.name
    parent := rfl
    aliasName := fun symlink => ?_ }⟩
  rw [if_pos symlink, loaded.aliasStr lazily symlink]
  exact List.take_of_length_le (loaded.target_le symlink)

theorem updateOh_of_loaded (loaded : obj.lazyLoaded = false) (name : Option (List Char)) :
    (obj.updateOh name).number = obj.number ∧ (obj.updateOh name).parent = obj.parent ∧
      (obj.updateOh name).lazyLoaded = false := by
  unfold updateOh
  rw [checkObjDetailsLoaded_of_loaded loaded]
  exact ⟨rfl, rfl, loaded⟩

/-- A new name is kept in all places. -/
theorem updateOh_some {name : List Char} (number_ne : obj.number ≠ objectIdLostNFound)
    (loaded : obj.lazyLoaded = false) (name_ne : name ≠ []) (name_lt : name.length < maxNameLength)
    (target_le : obj.variantType = .symlink → target.length ≤ maxAliasLength)
    (shortName : obj.shortName = if name.length ≤ shortNameLength then name else [])
    (sum : obj.sum = calcNameSum name)
    (aliasStr : obj.variantType = .symlink → obj.aliasStr = target) :
    ∃ oh, (obj.updateOh (some name)).Keeps name target oh := by
  unfold updateOh
  rw [checkObjDetailsLoaded_of_loaded loaded]
  refine ⟨_, rfl, number_ne, ?_, rfl, name_ne, name_lt, target_le, fun symlink => ?_,
    fun _ => shortName, fun _ => sum, fun _ => aliasStr⟩
  · simp only [if_pos name_ne]
    exact loadOhFromName_of_lt name_lt
  · rw [if_pos symlink, aliasStr symlink]
    exact List.take_of_length_le (target_le symlink)

theorem Keeps.renamed (keeps : obj.Keeps given target oh) (loaded : obj.lazyLoaded = false)
    {newName : List Char} (name_ne : newName ≠ []) (name_lt : newName.length < maxNameLength)
    (newDir : Nat) :
    ∃ oh, ({ obj.setObjName newName with parent := newDir }.updateOh
      (some newName)).Keeps newName target oh := by
  rw [setObjName_of_ne obj name_ne]
  exact updateOh_some keeps.number_ne loaded name_ne name_lt keeps.target_le rfl rfl
    (keeps.aliasStr loaded)

theorem Keeps.remounted (keeps : obj.Keeps given target oh) (lazyLoad : Bool) :
    ∃ oh, (obj.remounted lazyLoad).Keeps given target oh := by
  have found : NamedObj.Keeps given target
      { number := obj.number
        variantType := obj.variantType
        parent := oh.parentObjId
        lazyLoaded := true
        header := some oh } oh :=
    { keeps with
      header := rfl
      parent := rfl
      shortName := fun loaded => Bool.noConfusion loaded
      sum := fun loaded => Bool.noConfusion loaded
      aliasStr := fun loaded => Bool.noConfusion loaded }
  unfold NamedObj.remounted
  rw [keeps.header]
  cases lazyLoad
  · exact ⟨oh, found.loads.1⟩
  · exact ⟨oh, found⟩

theorem remounted_place (keeps : obj.Keeps given target oh) (lazyLoad : Bool) :
    (obj.remounted lazyLoad).number = obj.number ∧
      (obj.remounted lazyLoad).parent = obj.parent := by
  unfold NamedObj.remounted
  simp only [keeps.header]
  cases lazyLoad
  · simp only [Bool.false_eq_true, if_false]
    exact ⟨(checkObjDetailsLoaded_same _).number,
      (checkObjDetailsLoaded_same _).parent.trans keeps.parent⟩
  · exact ⟨rfl, keeps.parent⟩

end NamedObj

/-! ## All objects -/

/-- The details of some objects have been loaded. -/
def LoadsTo : List NamedObj → List NamedObj → Prop :=
  List.Forall₂ fun before after => after = before ∨ after = before.checkObjDetailsLoaded

/-- The details of an object are loaded. -/
def IsLoaded (number : Nat) (objs : List NamedObj) : Prop :=
  ∀ obj ∈ objs, obj.number = number → obj.lazyLoaded = false

/-- All objects are as they have been named, and have numbers of their own. -/
structure Catalog.Named (cat : Catalog) : Prop where
  isAs : ∀ obj ∈ cat.objs, obj.IsAs (cat.given obj.number) (cat.target obj.number)
  numbers : (cat.objs.map NamedObj.number).Nodup

/-- The directory of an object, and its name there. -/
def Catalog.place (cat : Catalog) (obj : NamedObj) : Nat × List Char :=
  (obj.parent, cat.given obj.number)

/-- No two objects have the same name in the same directory. -/
structure Catalog.Kept (cat : Catalog) : Prop extends cat.Named where
  places : (cat.objs.map cat.place).Nodup

theorem LoadsTo.refl (objs : List NamedObj) : LoadsTo objs objs :=
  List.forall₂_same.mpr fun _ _ => .inl rfl

theorem findByName_loadsTo (directory : Nat) (name : List Char) (objs : List NamedObj) :
    LoadsTo objs (findByName directory name objs).2 := by
  induction objs with
  | nil => exact .nil
  | cons obj objs ih =>
    unfold findByName
    split
    · exact .cons (.inr rfl) (LoadsTo.refl objs)
    · refine .cons ?_ ih
      split
      · exact .inr rfl
      · exact .inl rfl

theorem changeObj_loadsTo (number : Nat) (objs : List NamedObj) :
    LoadsTo objs (changeObj number NamedObj.checkObjDetailsLoaded objs) := by
  induction objs with
  | nil => exact .nil
  | cons obj objs ih =>
    refine .cons ?_ ih
    dsimp only
    split
    · exact .inr rfl
    · exact .inl rfl

namespace LoadsTo

variable {objs loaded : List NamedObj}

theorem same {before after : NamedObj}
    (loads : after = before ∨ after = before.checkObjDetailsLoaded) : before.SamePlace after := by
  rcases loads with rfl | rfl
  · exact ⟨rfl, rfl, rfl, rfl⟩
  · exact before.checkObjDetailsLoaded_same

/-- What does not depend on the details is left alone. -/
theorem map_eq {α : Type} (loads : LoadsTo objs loaded) {f : NamedObj → α}
    (same : ∀ {before after : NamedObj}, before.SamePlace after → f after = f before) :
    loaded.map f = objs.map f := by
  induction loads with
  | nil => rfl
  | cons head _ ih => rw [List.map_cons, List.map_cons, ih, same (LoadsTo.same head)]

theorem numbers (loads : LoadsTo objs loaded) :
    loaded.map NamedObj.number = objs.map NamedObj.number :=
  loads.map_eq fun same => same.number

theorem mem (loads : LoadsTo objs loaded) {after : NamedObj} (mem : after ∈ loaded) :
    ∃ before ∈ objs, after = before ∨ after = before.checkObjDetailsLoaded := by
  induction loads with
  | nil => exact absurd mem List.not_mem_nil
  | cons head _ ih =>
    rcases List.mem_cons.mp mem with rfl | mem
    · exact ⟨_, List.mem_cons_self, head⟩
    · obtain ⟨before, mem, loads⟩ := ih mem
      exact ⟨before, List.mem_cons_of_mem _ mem, loads⟩

theorem isLoaded (loads : LoadsTo objs loaded) {number : Nat} (isLoaded : IsLoaded number objs) :
    IsLoaded number loaded := by
  intro after mem is
  obtain ⟨before, own, rfl | rfl⟩ := loads.mem mem
  · exact isLoaded _ own is
  · have loaded := isLoaded before own (before.checkObjDetailsLoaded_same.number.symm.trans is)
    rw [NamedObj.checkObjDetailsLoaded_of_loaded loaded]
    exact loaded

end LoadsTo

namespace Catalog

variable {cat : Catalog}

theorem Named.loads (named : cat.Named) {loaded : List NamedObj} (loads : LoadsTo cat.objs loaded) :
    Named { cat with objs := loaded } := by
  refine ⟨fun after mem => ?_, ?_⟩
  · obtain ⟨before, own, rfl | rfl⟩ := loads.mem mem
    · exact named.isAs _ own
    · dsimp only
      rw [before.checkObjDetailsLoaded_same.number]
      exact (named.isAs before own).loads.1
  · change (loaded.map _).Nodup
    rw [loads.numbers]
    exact named.numbers

theorem Kept.loads (kept : cat.Kept) {loaded : List NamedObj} (loads : LoadsTo cat.objs loaded) :
    Kept { cat with objs := loaded } := by
  refine ⟨kept.toNamed.loads loads, ?_⟩
  have same : loaded.map cat.place = cat.objs.map cat.place := by
    apply loads.map_eq
    intro before after same
    rw [place, place, same.number, same.parent]
  change (loaded.map cat.place).Nodup
  rw [same]
  exact kept.places

/-! ## Looking up -/

theorem mem_of_findByName {directory number : Nat} {name : List Char} {objs : List NamedObj}
    (found : (findByName directory name objs).1 = some number) :
    number ∈ objs.map NamedObj.number := by
  induction objs with
  | nil => cases found
  | cons obj objs ih =>
    unfold findByName at found
    split at found
    · obtain rfl := Option.some.inj found
      exact List.mem_cons_self
    · exact List.mem_cons_of_mem _ (ih found)

theorem Named.findByName_eq (named : cat.Named) (directory : Nat) (name : List Char) :
    (findByName directory name cat.objs).1 =
      (cat.objs.find? fun obj => decide (cat.place obj = (directory, name))).map
        NamedObj.number := by
  obtain ⟨isAs, -⟩ := named
  generalize cat.objs = objs at isAs ⊢
  induction objs with
  | nil => rfl
  | cons obj objs ih =>
    have hasName := (isAs obj List.mem_cons_self).hasName_iff name
    have place : cat.place obj = (directory, name) ↔
        obj.parent = directory ∧ obj.checkObjDetailsLoaded.hasName name = true := by
      rw [Catalog.place, Prod.mk.injEq, hasName, eq_comm (a := name)]
    unfold findByName
    by_cases is : cat.place obj = (directory, name)
    · rw [if_pos (place.mp is)]
      simp only [List.find?_cons, is, decide_true, Option.map_some]
    · rw [if_neg (fun both => is (place.mpr both))]
      simp only [List.find?_cons, is, decide_false]
      exact ih fun other mem => isAs other (List.mem_cons_of_mem _ mem)

/-- The object that is found has the name. -/
theorem Named.of_findByName (named : cat.Named) {directory number : Nat} {name : List Char}
    (found : (findByName directory name cat.objs).1 = some number) :
    ∃ obj ∈ cat.objs, obj.number = number ∧ cat.place obj = (directory, name) := by
  rw [named.findByName_eq, Option.map_eq_some_iff] at found
  obtain ⟨obj, found, rfl⟩ := found
  exact ⟨obj, List.mem_of_find?_eq_some found, rfl, by simpa using List.find?_some found⟩

theorem Named.of_findByName_none (named : cat.Named) {directory : Nat} {name : List Char}
    (none : (findByName directory name cat.objs).1 = none) :
    ∀ obj ∈ cat.objs, cat.place obj ≠ (directory, name) := by
  rw [named.findByName_eq, Option.map_eq_none_iff, List.find?_eq_none] at none
  exact fun obj mem is => none obj mem (decide_eq_true is)

/-- An object is found under its name. -/
theorem Kept.findByName_place (kept : cat.Kept) {obj : NamedObj} (mem : obj ∈ cat.objs) :
    (findByName obj.parent (cat.given obj.number) cat.objs).1 = some obj.number := by
  cases found : (findByName obj.parent (cat.given obj.number) cat.objs).1 with
  | none => exact absurd rfl (kept.toNamed.of_findByName_none found obj mem)
  | some number =>
    obtain ⟨other, other_mem, rfl, place⟩ := kept.toNamed.of_findByName found
    rw [List.inj_on_of_nodup_map kept.places other_mem mem place]

/-- The details of the object that is found are loaded. -/
theorem Named.findByName_isLoaded (named : cat.Named) {directory number : Nat} {name : List Char}
    (found : (findByName directory name cat.objs).1 = some number) :
    IsLoaded number (findByName directory name cat.objs).2 := by
  obtain ⟨isAs, numbers⟩ := named
  generalize cat.objs = objs at isAs numbers found ⊢
  induction objs with
  | nil => cases found
  | cons obj objs ih =>
    rw [List.map_cons, List.nodup_cons] at numbers
    unfold findByName at found ⊢
    split
    case isTrue is =>
      rw [if_pos is] at found
      obtain rfl := Option.some.inj found
      intro after mem same
      rcases List.mem_cons.mp mem with rfl | mem
      · exact (isAs obj List.mem_cons_self).loads.2
      · exact absurd (same ▸ List.mem_map_of_mem mem) numbers.1
    case isFalse is =>
      rw [if_neg is] at found
      intro after mem same
      rcases List.mem_cons.mp mem with rfl | mem
      · have head : obj.number = number := by
          split at same
          · rw [← same, obj.checkObjDetailsLoaded_same.number]
          · exact same
        exact absurd (head ▸ mem_of_findByName found) numbers.1
      · exact ih (fun other mem => isAs other (List.mem_cons_of_mem obj mem)) numbers.2 found after
          mem same

/-! ## Changing names -/

theorem mem_removeObj {number : Nat} {objs : List NamedObj} {obj : NamedObj} :
    obj ∈ removeObj number objs ↔ obj ∈ objs ∧ obj.number ≠ number := by
  rw [removeObj, List.mem_filter, decide_eq_true_iff]

theorem removeObj_sublist (number : Nat) (objs : List NamedObj) :
    (removeObj number objs).Sublist objs :=
  List.filter_sublist

theorem Named.remove (named : cat.Named) (number : Nat) :
    Named { cat with objs := removeObj number cat.objs } :=
  ⟨fun obj mem => named.isAs obj (mem_removeObj.mp mem).1,
    named.numbers.sublist ((removeObj_sublist number cat.objs).map _)⟩

theorem Kept.remove (kept : cat.Kept) (number : Nat) :
    Kept { cat with objs := removeObj number cat.objs } :=
  ⟨kept.toNamed.remove number, kept.places.sublist ((removeObj_sublist number cat.objs).map _)⟩

/-- There is an object with a number in a place. -/
def Placed (cat : Catalog) (number : Nat) (place : Nat × List Char) : Prop :=
  ∃ obj ∈ cat.objs, obj.number = number ∧ cat.place obj = place

/-- An object has got a name in a directory. -/
structure Moved (cat : Catalog) (number newDir : Nat) (newName : List Char) (cat' : Catalog)
    (moved : NamedObj) : Prop where
  objs : cat'.objs = moved :: removeObj number cat.objs
  given : cat'.given = Function.update cat.given number newName
  target : cat'.target = cat.target
  number_eq : moved.number = number
  parent_eq : moved.parent = newDir
  keeps : ∃ oh, moved.Keeps newName (cat.target number) oh
  loaded : moved.lazyLoaded = false

theorem changeObjName_cases (named : cat.Named) {number : Nat} (loaded : IsLoaded number cat.objs)
    (number_ne : number ≠ objectIdLostNFound) {newName : List Char} (name_ne : newName ≠ [])
    (name_lt : newName.length < maxNameLength) (newDir : Nat) :
    (number ∉ cat.objs.map NamedObj.number ∧ cat.changeObjName number newDir newName = cat) ∨
      ∃ moved, Moved cat number newDir newName (cat.changeObjName number newDir newName) moved := by
  unfold changeObjName
  cases found : cat.objs.find? fun obj => decide (obj.number = number) with
  | none =>
    refine .inl ⟨fun mem => ?_, rfl⟩
    obtain ⟨obj, mem, is⟩ := List.mem_map.mp mem
    exact List.find?_eq_none.mp found obj mem (decide_eq_true is)
  | some obj =>
    have mem := List.mem_of_find?_eq_some found
    obtain rfl : obj.number = number := by simpa using List.find?_some found
    obtain lost | ⟨oh, keeps⟩ := named.isAs obj mem
    · exact absurd lost.number number_ne
    · have lazily := loaded obj mem rfl
      have named : ({ obj.setObjName newName with parent := newDir } : NamedObj).lazyLoaded =
          false := by
        rw [NamedObj.setObjName_of_ne obj name_ne]
        exact lazily
      obtain ⟨number, parent, loaded⟩ := NamedObj.updateOh_of_loaded named (some newName)
      exact .inr ⟨_, rfl, rfl, rfl, number.trans (obj.setObjName_same newName).number, parent,
        keeps.renamed lazily name_ne name_lt newDir, loaded⟩

namespace Moved

variable {cat' : Catalog} {number newDir : Nat} {newName : List Char} {moved : NamedObj}

theorem place_other (is : Moved cat number newDir newName cat' moved) {obj : NamedObj}
    (ne : obj.number ≠ number) : cat'.place obj = cat.place obj := by
  rw [place, place, is.given, Function.update_of_ne ne]

theorem place_moved (is : Moved cat number newDir newName cat' moved) :
    cat'.place moved = (newDir, newName) := by
  rw [place, is.given, is.number_eq, is.parent_eq, Function.update_self]

theorem named (is : Moved cat number newDir newName cat' moved) (named : cat.Named) :
    cat'.Named := by
  constructor
  · rw [is.objs, is.given, is.target]
    intro obj mem
    rcases List.mem_cons.mp mem with rfl | mem
    · rw [is.number_eq, Function.update_self]
      exact .inr is.keeps
    · obtain ⟨mem, ne⟩ := mem_removeObj.mp mem
      rw [Function.update_of_ne ne]
      exact named.isAs obj mem
  · rw [is.objs, List.map_cons, List.nodup_cons, is.number_eq]
    refine ⟨fun mem => ?_, (named.remove number).numbers⟩
    obtain ⟨obj, mem, same⟩ := List.mem_map.mp mem
    exact (mem_removeObj.mp mem).2 same

/-- The other places stay, and the new one is there as well. -/
theorem places (is : Moved cat number newDir newName cat' moved) :
    cat'.objs.map cat'.place =
      (newDir, newName) :: (removeObj number cat.objs).map cat.place := by
  rw [is.objs, List.map_cons, is.place_moved]
  refine congrArg _ (List.map_congr_left fun obj mem => ?_)
  exact is.place_other (mem_removeObj.mp mem).2

theorem isLoaded (is : Moved cat number newDir newName cat' moved) {other : Nat}
    (loaded : IsLoaded other cat.objs) : IsLoaded other cat'.objs := by
  rw [is.objs]
  intro obj mem same
  rcases List.mem_cons.mp mem with rfl | mem
  · exact is.loaded
  · exact loaded obj (mem_removeObj.mp mem).1 same

theorem placed (is : Moved cat number newDir newName cat' moved) {other : Nat}
    {spot : Nat × List Char} (placed : cat.Placed other spot) (ne : other ≠ number) :
    cat'.Placed other spot := by
  obtain ⟨obj, mem, same, place⟩ := placed
  refine ⟨obj, ?_, same, ?_⟩
  · rw [is.objs]
    exact List.mem_cons_of_mem _ (mem_removeObj.mpr ⟨mem, same.trans_ne ne⟩)
  · rw [is.place_other (same.trans_ne ne), place]

end Moved

theorem Placed.loads {number : Nat} {spot : Nat × List Char} (placed : cat.Placed number spot)
    {loaded : List NamedObj} (loads : LoadsTo cat.objs loaded) :
    Placed { cat with objs := loaded } number spot := by
  obtain ⟨obj, mem, rfl, rfl⟩ := placed
  have pairs : loaded.map (fun obj => (obj.number, cat.place obj)) =
      cat.objs.map fun obj => (obj.number, cat.place obj) := by
    apply loads.map_eq
    intro before after same
    rw [place, place, same.number, same.parent]
  have mem : (obj.number, cat.place obj) ∈ loaded.map fun obj => (obj.number, cat.place obj) := by
    rw [pairs]
    exact List.mem_map_of_mem (f := fun obj => (obj.number, cat.place obj)) mem
  obtain ⟨other, mem, same⟩ := List.mem_map.mp mem
  exact ⟨other, mem, congrArg Prod.fst same, congrArg Prod.snd same⟩

/-- A place that is free stays so when details are loaded. -/
theorem place_loads {objs loaded : List NamedObj} (loads : LoadsTo objs loaded)
    {spot : Nat × List Char} (free : ∀ obj ∈ objs, cat.place obj ≠ spot) :
    ∀ obj ∈ loaded, cat.place obj ≠ spot := by
  intro after mem
  obtain ⟨before, mem, loads⟩ := loads.mem mem
  have same := LoadsTo.same loads
  refine Eq.trans_ne ?_ (free before mem)
  exact congrArg₂ Prod.mk same.parent (congrArg cat.given same.number)

/-- The places of the other objects are all different. -/
structure AllBut (cat : Catalog) (number : Nat) : Prop extends cat.Named where
  places : ((removeObj number cat.objs).map cat.place).Nodup

theorem Kept.allBut (kept : cat.Kept) (number : Nat) : cat.AllBut number :=
  ⟨kept.toNamed, (kept.remove number).places⟩

theorem removeObj_loadsTo {objs loaded : List NamedObj} (loads : LoadsTo objs loaded)
    (number : Nat) : LoadsTo (removeObj number objs) (removeObj number loaded) := by
  induction loads with
  | nil => exact .nil
  | cons head _ ih =>
    have same := (LoadsTo.same head).number
    rw [removeObj, removeObj, List.filter_cons, List.filter_cons, same]
    split
    · exact .cons head ih
    · exact ih

theorem AllBut.loads {number : Nat} (allBut : cat.AllBut number) {loaded : List NamedObj}
    (loads : LoadsTo cat.objs loaded) : AllBut { cat with objs := loaded } number := by
  refine ⟨allBut.toNamed.loads loads, ?_⟩
  have same : (removeObj number loaded).map cat.place =
      (removeObj number cat.objs).map cat.place := by
    apply (removeObj_loadsTo loads number).map_eq
    intro before after same
    rw [place, place, same.number, same.parent]
  change ((removeObj number loaded).map cat.place).Nodup
  rw [same]
  exact allBut.places

/-- An object may be given a name in a directory if no other one has it there. -/
theorem AllBut.changeObjName {number : Nat} (allBut : cat.AllBut number)
    (loaded : IsLoaded number cat.objs) (number_ne : number ≠ objectIdLostNFound)
    {newName : List Char} (name_ne : newName ≠ []) (name_lt : newName.length < maxNameLength)
    {newDir : Nat} (free : ∀ obj ∈ cat.objs, obj.number ≠ number →
      cat.place obj ≠ (newDir, newName)) :
    (cat.changeObjName number newDir newName).Kept := by
  rcases changeObjName_cases allBut.toNamed loaded number_ne name_ne name_lt newDir with
    ⟨absent, same⟩ | ⟨moved, is⟩
  · rw [same]
    refine ⟨allBut.toNamed, ?_⟩
    have whole : removeObj number cat.objs = cat.objs := by
      refine List.filter_eq_self.mpr fun obj mem => decide_eq_true fun is => absent ?_
      rw [← is]
      exact List.mem_map_of_mem mem
    have places := allBut.places
    rwa [whole] at places
  · refine ⟨is.named allBut.toNamed, ?_⟩
    rw [is.places, List.nodup_cons]
    refine ⟨fun mem => ?_, allBut.places⟩
    obtain ⟨obj, mem, same⟩ := List.mem_map.mp mem
    obtain ⟨mem, ne⟩ := mem_removeObj.mp mem
    exact free obj mem ne same

theorem changeObjName_placed (named : cat.Named) {number : Nat} (loaded : IsLoaded number cat.objs)
    (number_ne : number ≠ objectIdLostNFound) {newName : List Char} (name_ne : newName ≠ [])
    (name_lt : newName.length < maxNameLength) (newDir : Nat) {other : Nat}
    {spot : Nat × List Char} (placed : cat.Placed other spot) (ne : other ≠ number) :
    (cat.changeObjName number newDir newName).Placed other spot := by
  rcases changeObjName_cases named loaded number_ne name_ne name_lt newDir with
    ⟨-, same⟩ | ⟨moved, is⟩
  · rwa [same]
  · exact is.placed placed ne

theorem changeObjName_isLoaded (named : cat.Named) {number : Nat}
    (loaded : IsLoaded number cat.objs) (number_ne : number ≠ objectIdLostNFound)
    {newName : List Char} (name_ne : newName ≠ []) (name_lt : newName.length < maxNameLength)
    (newDir : Nat) {other : Nat} (others : IsLoaded other cat.objs) :
    IsLoaded other (cat.changeObjName number newDir newName).objs := by
  rcases changeObjName_cases named loaded number_ne name_ne name_lt newDir with
    ⟨-, same⟩ | ⟨moved, is⟩
  · rwa [same]
  · exact is.isLoaded others

theorem isLoaded_removeObj {number : Nat} {objs : List NamedObj} (loaded : IsLoaded number objs)
    (other : Nat) : IsLoaded number (removeObj other objs) :=
  fun obj mem => loaded obj (mem_removeObj.mp mem).1

theorem Placed.remove {number : Nat} {spot : Nat × List Char} (placed : cat.Placed number spot)
    {other : Nat} (ne : number ≠ other) :
    Placed { cat with objs := removeObj other cat.objs } number spot := by
  obtain ⟨obj, mem, same, place⟩ := placed
  exact ⟨obj, mem_removeObj.mpr ⟨mem, same.trans_ne ne⟩, same, place⟩

/-! ## Unlinking and renaming -/

theorem given_fits {given target : List Char} {obj : NamedObj} (isAs : obj.IsAs given target) :
    given ≠ [] ∧ given.length < maxNameLength := by
  obtain lost | ⟨oh, keeps⟩ := isAs
  · rw [lost.name]
    decide
  · exact ⟨keeps.given_ne, keeps.given_lt⟩

/-- The place of the link is its own, unless the link is the object itself. -/
def OwnPlace (cat : Catalog) (number : Nat) (link : Option Nat) : Prop :=
  ∀ obj ∈ cat.objs, some obj.number = link → obj.number ≠ number → ∀ other ∈ cat.objs,
    other.number ≠ obj.number → cat.place other ≠ cat.place obj

/-- An object has been unlinked. -/
structure Unlinked (cat : Catalog) (number : Nat) (link : Option Nat) (cat' : Catalog) : Prop where
  kept : cat'.Kept
  isLoaded : ∀ other, IsLoaded other cat.objs → IsLoaded other cat'.objs
  placed : ∀ other spot, other ≠ number → link ≠ some other → cat.Placed other spot →
    cat'.Placed other spot

theorem AllBut.unlinkObj {number : Nat} (allBut : cat.AllBut number)
    (number_ne : number ≠ objectIdLostNFound) (loaded : IsLoaded number cat.objs)
    {link : Option Nat} (own : cat.OwnPlace number link) :
    Unlinked cat number link (cat.unlinkObj number link) := by
  unfold Catalog.unlinkObj
  rw [if_neg number_ne]
  cases found : cat.objs.find? fun obj => decide (some obj.number = link) with
  | none =>
    exact ⟨⟨allBut.toNamed.remove number, allBut.places⟩,
      fun other others => isLoaded_removeObj others number,
      fun other spot ne _ placed => placed.remove ne⟩
  | some linkObj =>
    have mem := List.mem_of_find?_eq_some found
    have is : some linkObj.number = link := by simpa using List.find?_some found
    have isAs := allBut.isAs linkObj mem
    have removed : AllBut { cat with objs := removeObj linkObj.number cat.objs } number := by
      refine ⟨allBut.toNamed.remove _, allBut.places.sublist (List.Sublist.map _ ?_)⟩
      exact (removeObj_sublist linkObj.number cat.objs).filter _
    have loads := findByName_loadsTo linkObj.parent linkObj.getObjName
      (removeObj linkObj.number cat.objs)
    have others (other : Nat) (others : IsLoaded other cat.objs) := loads.isLoaded
      (isLoaded_removeObj others linkObj.number)
    have placed (other : Nat) (spot : Nat × List Char) (ne : link ≠ some other)
        (placed : cat.Placed other spot) :=
      (placed.remove (fun same => ne (same ▸ is.symm))).loads loads
    dsimp only at removed loads others placed ⊢
    split
    case isTrue none =>
      have free := removed.toNamed.of_findByName_none none
      have name_eq := isAs.getObjName_eq
      obtain ⟨name_ne, name_lt⟩ := given_fits isAs
      rw [← name_eq] at name_ne name_lt
      have removed := removed.loads loads
      refine ⟨removed.changeObjName (others number loaded) number_ne name_ne name_lt ?_, ?_, ?_⟩
      · exact fun after mem _ => place_loads loads free after mem
      · exact fun other isLoaded => changeObjName_isLoaded removed.toNamed (others number loaded)
          number_ne name_ne name_lt _ (others other isLoaded)
      · exact fun other spot ne apart here => changeObjName_placed removed.toNamed
          (others number loaded) number_ne name_ne name_lt _ (placed other spot apart here) ne
    case isFalse taken =>
      -- a name in the way can only be that of the object itself
      have same : linkObj.number = number := by
        by_contra ne
        apply taken
        cases way : (findByName linkObj.parent linkObj.getObjName
            (removeObj linkObj.number cat.objs)).1 with
        | none => rfl
        | some other =>
          obtain ⟨obj, there, -, place⟩ := removed.toNamed.of_findByName way
          obtain ⟨there, apart⟩ := mem_removeObj.mp there
          refine absurd ?_ (own linkObj mem is ne obj there apart)
          rw [isAs.getObjName_eq] at place
          exact place
      have kept : Kept { cat with objs := removeObj linkObj.number cat.objs } := by
        rw [same]
        exact ⟨allBut.toNamed.remove number, allBut.places⟩
      exact ⟨kept.loads loads, others, fun other spot _ apart here => placed other spot apart here⟩

theorem Kept.ownPlace (kept : cat.Kept) (number : Nat) (link : Option Nat) :
    cat.OwnPlace number link :=
  fun _ mem _ _ _ other_mem ne same =>
    ne (congrArg NamedObj.number (List.inj_on_of_nodup_map kept.places other_mem mem same))

/-- What is found may be unlinked, unless it is the lost and found directory. -/
theorem Kept.unlinkObj (kept : cat.Kept) {number : Nat} (loaded : IsLoaded number cat.objs)
    (link : Option Nat) : (cat.unlinkObj number link).Kept := by
  by_cases lost : number = objectIdLostNFound
  · rw [Catalog.unlinkObj, if_pos lost]
    exact kept
  · exact ((kept.allBut number).unlinkObj lost loaded (kept.ownPlace number link)).kept

theorem Kept.eq_of_place (kept : cat.Kept) {first second : NamedObj} (first_mem : first ∈ cat.objs)
    (second_mem : second ∈ cat.objs) (same : cat.place first = cat.place second) :
    first.number = second.number :=
  congrArg NamedObj.number (List.inj_on_of_nodup_map kept.places first_mem second_mem same)

/-- The target of a rename can be unlinked once the object has its name. -/
theorem Kept.unlinkTarget (kept : cat.Kept) {number target : Nat}
    (loaded : IsLoaded number cat.objs) (targetLoaded : IsLoaded target cat.objs)
    (number_ne : number ≠ objectIdLostNFound)
    (present : number ∈ cat.objs.map NamedObj.number) (target_ne : target ≠ number)
    {newDir : Nat} {newName : List Char} (name_ne : newName ≠ [])
    (name_lt : newName.length < maxNameLength)
    (not_lost : ¬(newDir = objectIdRoot ∧ newName = lostNFoundName))
    (placed : cat.Placed target (newDir, newName)) {link : Option Nat}
    (link_ne : link ≠ some number) :
    let cat' := (cat.changeObjName number newDir newName).unlinkObj target link
    cat'.Kept ∧ IsLoaded number cat'.objs ∧ cat'.Placed number (newDir, newName) := by
  obtain ⟨targetObj, target_mem, rfl, place⟩ := placed
  have target_lost : targetObj.number ≠ objectIdLostNFound := by
    intro lost
    obtain is | ⟨oh, keeps⟩ := kept.isAs targetObj target_mem
    · refine not_lost ⟨?_, ?_⟩
      · exact (congrArg Prod.fst place).symm.trans is.parent
      · exact (congrArg Prod.snd place).symm.trans is.name
    · exact keeps.number_ne lost
  rcases changeObjName_cases kept.toNamed loaded number_ne name_ne name_lt newDir with
    ⟨absent, -⟩ | ⟨moved, is⟩
  · exact absurd present absent
  have only (obj : NamedObj) (mem : obj ∈ cat.objs) (same : cat.place obj = (newDir, newName)) :
      obj.number = targetObj.number :=
    kept.eq_of_place mem target_mem (same.trans place.symm)
  have allBut : (cat.changeObjName number newDir newName).AllBut targetObj.number := by
    refine ⟨is.named kept.toNamed, ?_⟩
    rw [is.objs, removeObj, List.filter_cons_of_pos (by
      rw [is.number_eq, decide_eq_true_iff]
      exact target_ne.symm), List.map_cons, List.nodup_cons, is.place_moved]
    have same : ((removeObj number cat.objs).filter fun obj =>
        decide (obj.number ≠ targetObj.number)).map
          (cat.changeObjName number newDir newName).place =
        (removeObj targetObj.number (removeObj number cat.objs)).map cat.place :=
      List.map_congr_left fun obj mem =>
        is.place_other (mem_removeObj.mp (mem_removeObj.mp mem).1).2
    rw [same]
    refine ⟨fun mem => ?_, (((kept.remove number).remove targetObj.number)).places⟩
    obtain ⟨obj, mem, same⟩ := List.mem_map.mp mem
    obtain ⟨mem, ne⟩ := mem_removeObj.mp mem
    exact ne (only obj (mem_removeObj.mp mem).1 same)
  have own : (cat.changeObjName number newDir newName).OwnPlace targetObj.number link := by
    have other_mem {obj : NamedObj} (mem : obj ∈ (cat.changeObjName number newDir newName).objs)
        (ne : obj.number ≠ number) : obj ∈ cat.objs := by
      rw [is.objs] at mem
      rcases List.mem_cons.mp mem with rfl | mem
      · exact absurd is.number_eq ne
      · exact (mem_removeObj.mp mem).1
    intro obj mem linked ne other there apart
    have obj_ne : obj.number ≠ number := fun same => link_ne (same ▸ linked.symm)
    rw [is.place_other obj_ne]
    rw [is.objs] at there
    rcases List.mem_cons.mp there with rfl | there
    · rw [is.place_moved]
      exact fun same => ne (only obj (other_mem mem obj_ne) same.symm)
    · obtain ⟨there, other_ne⟩ := mem_removeObj.mp there
      rw [is.place_other other_ne]
      exact fun same => apart (kept.eq_of_place there (other_mem mem obj_ne) same)
  have unlinked := allBut.unlinkObj target_lost (is.isLoaded targetLoaded) own
  refine ⟨unlinked.kept, unlinked.isLoaded number (is.isLoaded loaded), ?_⟩
  refine unlinked.placed number _ target_ne.symm link_ne ⟨moved, ?_, is.number_eq, is.place_moved⟩
  rw [is.objs]
  exact List.mem_cons_self

theorem Kept.renameTo (kept : cat.Kept) {number : Nat} (loaded : IsLoaded number cat.objs)
    {newDir : Nat} {newName : List Char} (name_ne : newName ≠ [])
    (name_lt : newName.length < maxNameLength)
    (not_lost : ¬(newDir = objectIdRoot ∧ newName = lostNFoundName)) {link : Option Nat}
    (link_ne : link ≠ some number) : (cat.renameTo number newDir newName link).Kept := by
  unfold Catalog.renameTo
  split
  case isTrue => exact kept
  case isFalse possible =>
    push Not at possible
    obtain ⟨number_ne, present⟩ := possible
    have loads := findByName_loadsTo newDir newName cat.objs
    have kept' := kept.loads loads
    have loaded' := loads.isLoaded loaded
    have present' : number ∈ (findByName newDir newName cat.objs).2.map NamedObj.number := by
      rwa [loads.numbers]
    dsimp only
    cases existing : (findByName newDir newName cat.objs).1 with
    | none =>
      have free := place_loads loads (kept.toNamed.of_findByName_none existing)
      exact (kept'.allBut number).changeObjName loaded' number_ne name_ne name_lt
        fun obj mem _ => free obj mem
    | some target =>
      obtain ⟨obj, mem, same, place⟩ := kept.toNamed.of_findByName existing
      have placed : cat.Placed target (newDir, newName) := ⟨obj, mem, same, place⟩
      have placed := placed.loads loads
      dsimp only
      split
      case isTrue target_ne =>
        obtain ⟨kept, loaded, placed⟩ := kept'.unlinkTarget loaded'
          (kept.toNamed.findByName_isLoaded existing) number_ne present' target_ne name_ne name_lt
          not_lost placed link_ne
        refine (kept.allBut number).changeObjName loaded number_ne name_ne name_lt ?_
        obtain ⟨own, own_mem, own_number, own_place⟩ := placed
        intro obj mem ne same
        exact ne ((kept.eq_of_place mem own_mem (same.trans own_place.symm)).trans own_number)
      case isFalse is =>
        obtain rfl : target = number := not_not.mp is
        refine (kept'.allBut target).changeObjName loaded' number_ne name_ne name_lt ?_
        obtain ⟨own, own_mem, own_number, own_place⟩ := placed
        intro obj mem ne same
        exact ne ((kept'.eq_of_place mem own_mem (same.trans own_place.symm)).trans own_number)

theorem Kept.renameObj (kept : cat.Kept) {oldDir : Nat} {oldName : Option (List Char)}
    {newDir : Nat} {newName : List Char} {link : Option Nat}
    (fits : NameTurn.Fits (.rename oldDir oldName newDir newName link) cat) :
    (cat.renameObj oldDir oldName newDir newName link).Kept := by
  obtain ⟨name_lt, not_lost, apart⟩ := fits
  have link_ne {number : Nat} (is : cat.renamed oldDir oldName = some number) :
      link ≠ some number := by
    rcases apart with rfl | ne
    · exact (Option.some_ne_none number).symm
    · rwa [is] at ne
  unfold Catalog.renameObj
  split
  case isTrue => exact kept
  case isFalse accepted =>
    push Not at accepted
    cases oldName with
    | some oldName =>
      have loads := findByName_loadsTo oldDir oldName cat.objs
      dsimp only
      split
      case h_1 => exact kept.loads loads
      case h_2 number found =>
        exact (kept.loads loads).renameTo (kept.toNamed.findByName_isLoaded found) accepted.1
          name_lt not_lost (link_ne found)
    | none =>
      have loads := changeObj_loadsTo oldDir cat.objs
      have loaded : IsLoaded oldDir (changeObj oldDir NamedObj.checkObjDetailsLoaded cat.objs) := by
        intro after mem same
        obtain ⟨before, own, rfl⟩ := List.mem_map.mp mem
        split at same
        case isTrue is =>
          rw [if_pos is]
          exact (kept.isAs before own).loads.2
        case isFalse ne => exact absurd same ne
      exact (kept.loads loads).renameTo loaded accepted.1 name_lt not_lost (link_ne rfl)

theorem Kept.unlinker (kept : cat.Kept) (directory : Nat) (name : List Char) (link : Option Nat) :
    (cat.unlinker directory name link).Kept := by
  have loads := findByName_loadsTo directory name cat.objs
  unfold Catalog.unlinker
  dsimp only
  split
  case h_1 => exact kept.loads loads
  case h_2 number found =>
    exact (kept.loads loads).unlinkObj (kept.toNamed.findByName_isLoaded found) link

/-! ## Creating -/

theorem Kept.createObj (kept : cat.Kept) {number : Nat} {type : ObjType} {parent : Nat}
    {name aliasStr : List Char}
    (fits : NameTurn.Fits (.create number type parent name aliasStr) cat) :
    (cat.createObj number type parent name aliasStr).Kept := by
  obtain ⟨name_lt, target_le⟩ := fits
  have loads := findByName_loadsTo parent name cat.objs
  have kept' := kept.loads loads
  unfold Catalog.createObj
  dsimp only
  split
  case isTrue => exact kept'
  case isFalse accepted =>
    push Not at accepted
    obtain ⟨none, name_ne, -, -, number_ne, fresh⟩ := accepted
    have free := place_loads loads (kept.toNamed.of_findByName_none none)
    generalize (findByName parent name cat.objs).2 = objs at kept' fresh free ⊢
    -- the object in memory, before it has a header
    obtain ⟨obj, made, obj_number, obj_parent, obj_loaded, shortName, sum, symlink⟩ :
        ∃ obj : NamedObj, obj = (
          let obj := NamedObj.setObjName { number, variantType := type, parent } name
          if type = .symlink then { obj with aliasStr := cloneStr aliasStr } else obj) ∧
          obj.number = number ∧ obj.parent = parent ∧ obj.lazyLoaded = false ∧
          obj.shortName = (if name.length ≤ shortNameLength then name else []) ∧
          obj.sum = calcNameSum name ∧
          (obj.variantType = .symlink →
            aliasStr.length ≤ maxAliasLength ∧ obj.aliasStr = aliasStr) := by
      refine ⟨_, rfl, ?_⟩
      rw [NamedObj.setObjName_of_ne _ name_ne]
      dsimp only
      split
      case isTrue is =>
        exact ⟨rfl, rfl, rfl, rfl, rfl, fun _ => ⟨target_le is, cloneStr_of_le (target_le is)⟩⟩
      case isFalse other => exact ⟨rfl, rfl, rfl, rfl, rfl, fun is => absurd is other⟩
    dsimp only at made
    rw [← made]
    obtain ⟨oh, keeps⟩ := NamedObj.updateOh_some (obj_number.trans_ne number_ne) obj_loaded name_ne
      name_lt (fun is => (symlink is).1) shortName sum fun is => (symlink is).2
    obtain ⟨same_number, same_parent, -⟩ := NamedObj.updateOh_of_loaded obj_loaded (some name)
    rw [obj_number] at same_number
    rw [obj_parent] at same_parent
    have other_ne {other : NamedObj} (mem : other ∈ objs) : other.number ≠ number :=
      fun same => fresh (same ▸ List.mem_map_of_mem mem)
    refine ⟨⟨?_, ?_⟩, ?_⟩
    · intro other mem
      rcases List.mem_cons.mp mem with rfl | mem
      · dsimp only
        rw [same_number, Function.update_self, Function.update_self]
        exact .inr ⟨oh, keeps⟩
      · dsimp only
        rw [Function.update_of_ne (other_ne mem), Function.update_of_ne (other_ne mem)]
        exact kept'.isAs other mem
    · rw [List.map_cons, List.nodup_cons, same_number]
      exact ⟨fresh, kept'.numbers⟩
    · have places : objs.map (Catalog.place
          { objs := obj.updateOh (some name) :: objs
            given := Function.update cat.given number name
            target := Function.update cat.target number aliasStr }) = objs.map cat.place := by
        refine List.map_congr_left fun other mem => ?_
        rw [Catalog.place, Catalog.place]
        dsimp only
        rw [Function.update_of_ne (other_ne mem)]
      rw [List.map_cons, places, List.nodup_cons, Catalog.place]
      dsimp only
      rw [same_number, same_parent, Function.update_self]
      refine ⟨fun mem => ?_, kept'.places⟩
      obtain ⟨other, mem, same⟩ := List.mem_map.mp mem
      exact free other mem same

/-! ## Other turns -/

/-- Objects may be changed one by one, if each stays as it has been named. -/
theorem Kept.change (kept : cat.Kept) (change : NamedObj → NamedObj)
    (same : ∀ obj ∈ cat.objs, (change obj).number = obj.number ∧ (change obj).parent = obj.parent)
    (isAs : ∀ obj ∈ cat.objs, (change obj).IsAs (cat.given obj.number) (cat.target obj.number)) :
    Kept { cat with objs := cat.objs.map change } := by
  have numbers : (cat.objs.map change).map NamedObj.number = cat.objs.map NamedObj.number := by
    rw [List.map_map]
    exact List.map_congr_left fun obj mem => (same obj mem).1
  have places : (cat.objs.map change).map cat.place = cat.objs.map cat.place := by
    rw [List.map_map]
    refine List.map_congr_left fun obj mem => ?_
    rw [Function.comp_apply, place, place, (same obj mem).1, (same obj mem).2]
  refine ⟨⟨fun after mem => ?_, ?_⟩, ?_⟩
  · obtain ⟨obj, own, rfl⟩ := List.mem_map.mp mem
    dsimp only
    rw [(same obj own).1]
    exact isAs obj own
  · rw [numbers]
    exact kept.numbers
  · change ((cat.objs.map change).map cat.place).Nodup
    rw [places]
    exact kept.places

/-- The order of the objects does not matter. -/
theorem Kept.perm (kept : cat.Kept) {objs : List NamedObj} (perm : objs.Perm cat.objs) :
    Kept { cat with objs := objs } :=
  ⟨⟨fun obj mem => kept.isAs obj (perm.mem_iff.mp mem),
    ((perm.map NamedObj.number).nodup_iff).mpr kept.numbers⟩,
    ((perm.map cat.place).nodup_iff).mpr kept.places⟩

theorem Kept.update (kept : cat.Kept) (number : Nat) :
    Kept { cat with
      objs := changeObj number
        (fun obj => if number = objectIdLostNFound then obj else obj.updateOh none) cat.objs } := by
  apply kept.change
  · intro obj mem
    split
    case isFalse => exact ⟨rfl, rfl⟩
    case isTrue =>
      split
      case isTrue => exact ⟨rfl, rfl⟩
      case isFalse =>
        unfold NamedObj.updateOh
        exact ⟨obj.checkObjDetailsLoaded_same.number, obj.checkObjDetailsLoaded_same.parent⟩
  · intro obj mem
    split
    case isFalse => exact kept.isAs obj mem
    case isTrue is =>
      split
      case isTrue => exact kept.isAs obj mem
      case isFalse ne =>
        obtain lost | ⟨oh, keeps⟩ := kept.isAs obj mem
        · exact absurd (is.symm.trans lost.number) ne
        · exact .inr keeps.updateOh_none

theorem find?_number (numbers : (cat.objs.map NamedObj.number).Nodup) {obj : NamedObj}
    (mem : obj ∈ cat.objs) :
    (cat.objs.find? fun other => decide (other.number = obj.number)) = some obj := by
  cases found : cat.objs.find? fun other => decide (other.number = obj.number) with
  | none => exact absurd (decide_eq_true rfl) (List.find?_eq_none.mp found obj mem)
  | some other =>
    have same : other.number = obj.number := by simpa using List.find?_some found
    rw [List.inj_on_of_nodup_map numbers (List.mem_of_find?_eq_some found) mem same]

theorem Kept.remount (kept : cat.Kept) (order : List Nat) (lazyLoad : Nat → Bool) :
    ((NameTurn.remount order lazyLoad).exec cat).Kept := by
  simp only [NameTurn.exec]
  split
  case isFalse => exact kept
  case isTrue perm =>
    have changed : Kept { cat with
        objs := cat.objs.map fun obj => obj.remounted (lazyLoad obj.number) } := by
      apply kept.change
      · intro obj mem
        obtain lost | ⟨oh, keeps⟩ := kept.isAs obj mem
        · rw [NamedObj.remounted, lost.header]
          exact ⟨rfl, rfl⟩
        · exact NamedObj.remounted_place keeps _
      · intro obj mem
        obtain lost | ⟨oh, keeps⟩ := kept.isAs obj mem
        · rw [NamedObj.remounted, lost.header]
          exact .inl lost
        · exact .inr (keeps.remounted _)
    refine changed.perm ((perm.filterMap _).trans ?_)
    rw [List.filterMap_map]
    have each : cat.objs.filterMap ((fun number =>
        (cat.objs.find? fun obj => decide (obj.number = number)).map fun obj =>
          obj.remounted (lazyLoad number)) ∘ NamedObj.number) =
        cat.objs.filterMap fun obj => some (obj.remounted (lazyLoad obj.number)) := by
      refine List.filterMap_congr fun obj mem => ?_
      rw [Function.comp_apply, find?_number kept.numbers mem]
      rfl
    rw [each, List.filterMap_eq_map']

/-! ## Runs -/

theorem exec_kept (turn : NameTurn) (fits : turn.Fits cat) (kept : cat.Kept) :
    (turn.exec cat).Kept := by
  cases turn with
  | create => exact kept.createObj fits
  | rename => exact kept.renameObj fits
  | unlink directory name link => exact kept.unlinker directory name link
  | update number => exact kept.update number
  | load number => exact kept.loads (changeObj_loadsTo number cat.objs)
  | remount order lazyLoad => exact kept.remount order lazyLoad

theorem initial_kept : initial.Kept := by
  refine ⟨⟨fun obj mem => ?_, by decide⟩, by decide⟩
  obtain rfl := List.mem_singleton.mp mem
  exact .inl ⟨rfl, rfl, rfl, rfl, by decide, rfl⟩

theorem Kept.persists (kept : cat.Kept) : cat.Persists := by
  constructor
  · exact fun obj mem => kept.findByName_place mem
  · intro directory name number found
    obtain ⟨obj, -, rfl, place⟩ := kept.toNamed.of_findByName found
    exact (congrArg Prod.snd place).symm
  · exact fun obj mem => (kept.isAs obj mem).getObjName_eq
  · intro obj mem symlink
    obtain lost | ⟨oh, keeps⟩ := kept.isAs obj mem
    · exact absurd symlink lost.type
    · exact keeps.getSymlinkAlias_eq symlink

/-- In every run in which the names and targets fit, names and targets persist. -/
theorem persists_of_run (turns : List NameTurn)
    (fits : Execution.Guarded NameTurn.exec NameTurn.Fits turns initial) :
    (Execution.run NameTurn.exec turns initial).Persists := by
  have step : ∀ turn cat, NameTurn.Fits turn cat → cat.Kept → (turn.exec cat).Kept :=
    fun turn _ => exec_kept turn
  exact (Execution.run_invariant step fits initial_kept).persists

/-- A symbolic link is created and renamed over a file, and the device is mounted again. -/
theorem persists_of_short :
    let turns : List NameTurn :=
      [.create 257 .file objectIdRoot "a".toList [],
        .create 258 .symlink objectIdRoot "lost".toList "a".toList,
        .rename objectIdRoot (some "lost".toList) objectIdRoot "a".toList none,
        .remount [258, objectIdLostNFound] fun _ => true]
    Execution.Guarded NameTurn.exec NameTurn.Fits turns initial ∧
      (Execution.run NameTurn.exec turns initial).Persists := by
  have fits : Execution.Guarded NameTurn.exec NameTurn.Fits
      [.create 257 .file objectIdRoot "a".toList [],
        .create 258 .symlink objectIdRoot "lost".toList "a".toList,
        .rename objectIdRoot (some "lost".toList) objectIdRoot "a".toList none,
        .remount [258, objectIdLostNFound] fun _ => true] initial := by
    refine ⟨⟨by decide, by decide⟩, ⟨by decide, by decide⟩, ⟨by decide, by decide, .inl rfl⟩,
      trivial, trivial⟩
  exact ⟨fits, persists_of_run _ fits⟩

/-- A name of the greatest length is accepted, and never found again. -/
theorem not_persists_of_longest :
    let turns : List NameTurn :=
      [.create 257 .file objectIdRoot (List.replicate maxNameLength 'a') []]
    let cat := Execution.run NameTurn.exec turns initial
    257 ∈ cat.objs.map NamedObj.number ∧
      (findByName objectIdRoot (List.replicate maxNameLength 'a') cat.objs).1 = none ∧
      ¬cat.Persists := by
  have created : (Execution.run NameTurn.exec
      [.create 257 .file objectIdRoot (List.replicate maxNameLength 'a') []]
        initial).objs.map NamedObj.number = [257, objectIdLostNFound] := by
    decide +kernel
  have cut : (Execution.run NameTurn.exec
      [.create 257 .file objectIdRoot (List.replicate maxNameLength 'a') []]
        initial).objs.map NamedObj.getObjName =
      [List.replicate (maxNameLength - 1) 'a', lostNFoundName] := by
    decide +kernel
  refine ⟨by rw [created]; decide, by decide +kernel, fun persists => ?_⟩
  have whole := List.map_congr_left persists.name
  rw [cut] at whole
  revert whole
  decide +kernel

end Catalog

end Yaffs
