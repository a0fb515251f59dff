import Mathlib.Data.List.Find
import Yaffs.FailedRenames

/-!
# Unlinking one of several names

An object with hard links keeps its other names when one of its names is unlinked.  If that is a
link, the link goes; if it is the object's own name, the object takes the name and the place of its
newest link.  That link has been put to the unlinked objects before, so that its name is free in its
directory.
-/

namespace Yaffs

/-- The names in the headers and the data of an object are the same. -/
structure Labels.Still {Store : Type} (number : Nat) (first second : Labels Store) : Prop extends
    Labels.Same number first second where
  header_eq : second.header number = first.header number

/-- What an object is, whatever its names are. -/
def Node.attributes (obj : Node) : Node :=
  { obj.lasting with shortName := [], sum := 0, parent := none, hardLinks := [] }

namespace Volume

/-- The number of names of an object. -/
def getObjLinkCount {Store : Type} (vol : Volume Store) (number : Nat) : Nat :=
  match vol.objs number with
  | none => 0
  | some obj => (if obj.unlinked then 0 else 1) + obj.hardLinks.length

open Labels

variable {Store : Type} {P : Pages Store} {fails : Nat → Nat → Bool}
  {vol after last : Volume (Labels Store)} {number other link directory : Nat} {obj : Node}
  {name : List Char} {loose : Option Nat}

theorem minds_still (P : Pages Store) (fails : Nat → Nat → Bool) (watched : Nat) :
    Minds (P.labelled fails) watched False (Labels.Still watched) where
  refl labels := ⟨Labels.Same.refl labels, rfl⟩
  trans first second := ⟨first.toSame.trans second.toSame, second.header_eq.trans first.header_eq⟩
  freeTnodes labels _ ne := ⟨take_other labels _ (ne.resolve_right id), rfl⟩
  checkGc labels := ⟨⟨rfl, id, rfl, rfl⟩, rfl⟩
  writeHeader labels number _ name _ _ ne := by
    refine ⟨write_other fails labels _ name ne, ?_⟩
    simp only [Pages.labelled, Labels.write]
    split
    · rfl
    · exact Function.update_of_ne ne.symm _ _
  dropHeader labels _ ne := by
    have other := (ne.resolve_right id).symm
    exact ⟨(minds_labels P fails watched).dropHeader labels _ ne, Function.update_of_ne other _ _⟩
  flushFileCache labels _ _ := ⟨⟨rfl, id, rfl, rfl⟩, rfl⟩
  invalidateWholeCache labels _ ne := ⟨take_other labels _ (ne.resolve_right id), rfl⟩
  resizeData labels _ _ ne := ⟨take_other labels _ (ne.resolve_right id), rfl⟩
  softDelWorker labels _ ne := ⟨take_other labels _ (ne.resolve_right id), rfl⟩

/-! ## Names -/

/-- An object has the name, as far as names are compared. -/
def Called (P : Pages (Labels Store)) (vol : Volume (Labels Store)) (name : List Char)
    (number : Nat) : Prop :=
  ∃ obj, vol.objs number = some obj ∧
    name.take maxNameLength = (vol.getObjName P number obj).take maxNameLength

/-- What the name of an object is made up of. -/
structure SameName (number : Nat) (before after : Volume (Labels Store)) : Prop where
  node : ∀ obj', after.objs number = some obj' → ∃ obj, before.objs number = some obj ∧
    obj'.shortName = obj.shortName ∧ obj'.sum = obj.sum
  label : Labels.Same number before.store after.store

/-- A name that is read from the header. -/
theorem headerName_eq (P : Pages Store) (fails : Nat → Nat → Bool) (labels : Labels Store)
    (number : Nat) :
    (if 0 < (P.labelled fails).hdrChunk labels number then
      ((P.labelled fails).headerName labels number).take maxNameLength else []) =
      ((labels.header number).getD []).take maxNameLength := by
  cases header : labels.header number <;> simp [Pages.labelled, header]

theorem SameName.getObjName (P : Pages Store) (fails : Nat → Nat → Bool)
    (same : SameName number vol after) {obj obj' : Node}
    (found : vol.objs number = some obj) (found' : after.objs number = some obj') :
    after.getObjName (P.labelled fails) number obj' = vol.getObjName (P.labelled fails)
      number obj := by
  obtain ⟨obj₀, found₀, short, -⟩ := same.node obj' found'
  obtain rfl := Option.some.inj (found.symm.trans found₀)
  simp only [Volume.getObjName, short, headerName_eq, same.label.name]

/-- An object that gets its first header may lose its name, but none gets another one. -/
theorem SameName.hasName (same : SameName number vol after)
    (has : after.hasName (P.labelled fails) name number = true) :
    vol.hasName (P.labelled fails) name number = true := by
  cases found' : after.objs number with
  | none => simp [Volume.hasName, found'] at has
  | some obj' =>
    obtain ⟨obj, found, -, sum⟩ := same.node obj' found'
    simp only [Volume.hasName, found', found, same.getObjName P fails found found', sum] at has ⊢
    split
    case isTrue lost => rwa [if_pos lost] at has
    case isFalse lost =>
      rw [if_neg lost] at has
      simp only [Bool.and_eq_true, Bool.or_eq_true, decide_eq_true_eq] at has ⊢
      refine ⟨has.1.imp id fun no_header => ?_, has.2⟩
      by_contra header
      have header' := same.label.header (by
        cases held : vol.store.header number with
        | none => simp [Pages.labelled, held] at header
        | some => rfl)
      simp [Pages.labelled, header'] at no_header

/-- An object whose header is still there keeps its name. -/
theorem SameName.hasName_eq (same : SameName number vol after)
    (alive : (after.objs number).isSome = (vol.objs number).isSome)
    (header : number = objectIdLostNFound ∨
      (after.store.header number).isSome = (vol.store.header number).isSome) :
    after.hasName (P.labelled fails) name number = vol.hasName (P.labelled fails) name number := by
  cases found' : after.objs number with
  | none =>
    have found : vol.objs number = none := by simpa [found'] using alive.symm
    simp [Volume.hasName, found, found']
  | some obj' =>
    obtain ⟨obj, found, -, sum⟩ := same.node obj' found'
    simp only [Volume.hasName, found', found, same.getObjName P fails found found', sum]
    split
    case isTrue => rfl
    case isFalse lost =>
      have chunk : (P.labelled fails).hdrChunk after.store number =
          (P.labelled fails).hdrChunk vol.store number := by
        simp only [Pages.labelled, header.resolve_left lost]
      rw [chunk]

/-! ## Looking up names -/

/-- The first match of a list is still the first after others have gone, if nothing new matches. -/
theorem find_of_sublist {α : Type*} {before after : List α}
    {matches_ matches' : α → Bool} {found : α}
    (shorter : after.Sublist before) (nodup : before.Nodup)
    (first : before.find? matches_ = some found)
    (mem : found ∈ after) (still : matches' found = true)
    (less : ∀ item ∈ after, matches' item = true → matches_ item = true) :
    after.find? matches' = some found := by
  induction shorter with
  | slnil => cases mem
  | @cons after before item shorter ih =>
    rw [List.nodup_cons] at nodup
    refine ih nodup.2 ?_ mem less
    by_cases hit : matches_ item = true
    · rw [List.find?_cons_of_pos hit] at first
      obtain rfl := Option.some.inj first
      exact absurd (shorter.subset mem) nodup.1
    · rwa [List.find?_cons_of_neg hit] at first
  | @cons_cons after before item shorter ih =>
    rw [List.nodup_cons] at nodup
    by_cases hit : matches' item = true
    · rw [List.find?_cons_of_pos hit]
      rw [List.find?_cons_of_pos (less item List.mem_cons_self hit)] at first
      exact first
    · rw [List.find?_cons_of_neg hit]
      have ne : found ≠ item := by
        rintro rfl
        exact hit still
      have mem_tail := (List.mem_cons.mp mem).resolve_left ne
      refine ih nodup.2 ?_ mem_tail fun other other_mem => less other
        (List.mem_cons_of_mem _ other_mem)
      by_cases hit' : matches_ item = true
      · rw [List.find?_cons_of_pos hit'] at first
        exact absurd (Option.some.inj first).symm ne
      · rwa [List.find?_cons_of_neg hit'] at first

/-- A look-up that comes to an object still does if the object keeps its place and its name, and no
other object of the directory takes the name. -/
theorem lookup_kept (tidy : vol.Tidy) (tidy' : last.Tidy) (thins : Thins directory vol last)
    (first : vol.findByName (P.labelled fails) directory name = some number)
    (placed : last.parentOf number = some directory)
    (still : last.hasName (P.labelled fails) name number = true)
    (less : ∀ sibling, last.parentOf sibling = some directory →
      last.hasName (P.labelled fails) name sibling = true →
        vol.hasName (P.labelled fails) name sibling = true) :
    last.findByName (P.labelled fails) directory name = some number := by
  obtain ⟨obj', found', up⟩ := Option.bind_eq_some_iff.mp placed
  obtain ⟨dirObj', dir_found', -⟩ := tidy'.directory number obj' directory found' up
  obtain ⟨dirObj, dir_found, shorter⟩ := thins dirObj' dir_found'
  have nodup : dirObj.children.Nodup := by
    simpa [forest, dir_found] using tidy.sound.nodup directory
  have listed (sibling : Nat) (mem : sibling ∈ dirObj'.children) :
      last.parentOf sibling = some directory :=
    (tidy'.sound.listed sibling directory).mpr (by simpa [forest, dir_found'] using mem)
  simp only [findByName, dir_found, dir_found'] at first ⊢
  exact find_of_sublist shorter nodup first
    ((mem_children_iff tidy'.toTidyBut found' dir_found').mpr up)
    still fun sibling mem => less sibling (listed sibling mem)

theorem hasName_of_findByName {Q : Pages (Labels Store)}
    (first : vol.findByName Q directory name = some number) : vol.hasName Q name number = true := by
  simp only [findByName] at first
  split at first
  case h_1 => cases first
  case h_2 => exact List.find?_some first

/-- A name that no object of a directory has leads nowhere. -/
theorem lookup_gone (tidy : last.TidyBut loose)
    (no : ∀ sibling, last.parentOf sibling = some directory →
      last.hasName (P.labelled fails) name sibling = false) :
    last.findByName (P.labelled fails) directory name = none := by
  rw [findByName]
  cases dir_found : last.objs directory with
  | none => rfl
  | some dirObj =>
    refine List.find?_eq_none.mpr fun sibling mem => ?_
    rw [no sibling ((tidy.sound.listed sibling directory).mpr
      (by simpa [forest, dir_found] using mem))]
    exact Bool.noConfusion

/-! ## What is left alone -/

theorem SameName.of_steady {touched : Nat → Prop}
    (steady : Steady (Labels.Same number) touched vol after) (found : vol.objs number = some obj)
    (soft : obj.softDel = false) (untouched : ¬touched number) : SameName number vol after where
  node obj' found' := by
    obtain ⟨kept, kept_found, eq⟩ := steady.kept number obj found untouched soft
    obtain rfl := Option.some.inj (found'.symm.trans kept_found)
    obtain ⟨-, -, rfl⟩ := Node.lasting_eq_iff.mp eq
    exact ⟨obj, found, rfl, rfl⟩
  label := steady.store

/-- Noting a change of a directory leaves all names alone. -/
theorem updateParent_same (firm : vol.Firm number) (directory : Option Nat) {touched : Nat → Prop} :
    Steady (Labels.Same number) touched vol (vol.updateParent (P.labelled fails) directory) :=
  updateParent_steady (minds_labels P fails number) firm directory
    fun mid _ _ _ => write_unnamed fails mid.store _ number

/-- It writes no other header. -/
theorem updateParent_still (firm : vol.Firm number) {directory : Option Nat}
    (ne : directory ≠ some number) {touched : Nat → Prop} :
    Steady (Labels.Still number) touched vol (vol.updateParent (P.labelled fails) directory) := by
  have minds := minds_still P fails number
  cases directory with
  | none => exact Steady.refl minds
  | some directory =>
    have marked : Steady (Labels.Still number) (fun _ => False) vol
        (vol.modify directory fun dir => { dir with dirty := true }) :=
      Steady.modify_lasting minds fun _ => rfl
    simp only [updateParent]
    split
    · exact marked.any
    · have ne' : directory ≠ number := fun eq => ne (congrArg some eq)
      exact (marked.trans minds (updateOhWith_other minds (calm_checkGc minds)
        (firm.steady marked id) ne' none false 0)).any

theorem genericObjDel_apart {seen : Labels Store → Labels Store → Prop}
    (minds : Minds (P.labelled fails) number False seen) (firm : vol.Firm number)
    (ne : other ≠ number) :
    Steady seen (· = other) vol (vol.genericObjDel (P.labelled fails) other).2 :=
  genericObjDelWith_other minds (calm_checkGc minds) firm ne

/-- Deleting a link touches the link and its object. -/
theorem delLink_eq {owner : Nat} (found : vol.objs link = some obj)
    (equiv : obj.equivObj = some owner) :
    vol.delLink (P.labelled fails) link =
      (vol.modify owner (eraseLink link)).genericObjDel (P.labelled fails) link := by
  simp only [delLink, removeHardLink, found, Option.bind_some, equiv]
  rfl

/-- One of the names of an object, its own or a link, has been unlinked, and the others are as they
were. -/
structure UnlinkedOne (P : Pages (Labels Store)) (number unlinked : Nat)
    (before : Volume (Labels Store))
    (result : Bool × Volume (Labels Store)) : Prop where
  succeeds : result.1 = true
  others : ∀ directory name entry, ¬isTrash directory →
    before.findByName P directory name = some entry → entry ≠ unlinked →
    before.getEquivalentObj (some entry) = some number →
      result.2.getEquivalentObj (result.2.findByName P directory name) = some number
  gone : ∀ directory entryObj, before.objs unlinked = some entryObj →
    entryObj.parent = some directory →
    (∀ sibling ≠ unlinked, before.parentOf sibling = some directory →
      ¬before.Called P (before.getObjName P unlinked entryObj) sibling) →
      result.2.findByName P directory (before.getObjName P unlinked entryObj) = none
  linkCount : result.2.getObjLinkCount number + 1 = before.getObjLinkCount number
  object : (result.2.objs number).map Node.attributes = (before.objs number).map Node.attributes
  contents : result.2.store.taken number = before.store.taken number

theorem Called.of_hasName {Q : Pages (Labels Store)} (has : vol.hasName Q name number = true) :
    vol.Called Q name number := by
  cases found : vol.objs number with
  | none => simp [hasName, found] at has
  | some obj =>
    refine ⟨obj, found, ?_⟩
    simp only [hasName, found] at has
    split at has
    case isTrue lost =>
      rw [getObjName, if_pos lost, eq_of_beq has]
      rfl
    case isFalse => exact eq_of_beq (Bool.and_eq_true_iff.mp has).2

/-- What comes up in a directory in use was there before, unless it has been touched. -/
theorem Changes.sibling {touched : Nat → Prop} {relinks : Prop}
    (changes : Changes touched relinks vol last) (tidy : vol.Tidy) (used : ¬isTrash directory)
    (untouched : ¬touched number) (up : last.parentOf number = some directory) :
    ∃ obj, vol.objs number = some obj ∧ obj.parent = some directory ∧ obj.softDel = false := by
  obtain ⟨obj', found', up'⟩ := Option.bind_eq_some_iff.mp up
  obtain ⟨obj, found, -, -, core⟩ := changes.known number obj' found'
  have parent := (Node.core_eq_iff.mp (core untouched)).2.1.symm.trans up'
  refine ⟨obj, found, parent, tidy.soft_of_visible found ?_⟩
  rintro ⟨trash, trashy, up''⟩
  obtain rfl := Option.some.inj (parent.symm.trans up'')
  exact used trashy

/-- A link of an object that may be unlinked. -/
structure LinkOf (vol : Volume (Labels Store)) (number link : Nat) (linkObj : Node) : Prop where
  found : vol.objs link = some linkObj
  is_link : linkObj.variantType = .hardlink
  equiv : linkObj.equivObj = some number
  visible : ¬linkObj.Hidden
  no_links : linkObj.hardLinks = []
  inode : linkObj.myInode = none
  soft : linkObj.softDel = false
  leaf : linkObj.children = []
  movable : ¬isTop link ∧ link ≠ objectIdLostNFound
  ne : link ≠ number

theorem TidyBut.linkOf (tidy : vol.TidyBut loose) (found : vol.objs number = some obj)
    (mem : link ∈ obj.hardLinks) : ∃ linkObj, LinkOf vol number link linkObj := by
  obtain ⟨linkObj, link_found, is_link, equiv, visible⟩ :=
    (tidy.node number obj found).ring link mem
  obtain ⟨no_links, inode⟩ := (tidy.node link linkObj link_found).hardlink is_link
  refine ⟨linkObj, link_found, is_link, equiv, visible, no_links, inode,
    tidy.soft_of_visible link_found visible, tidy.leaf_of_type link_found (by simp [is_link]),
    tidy.movable link_found (.inl (by simp [is_link])), ?_⟩
  rintro rfl
  obtain rfl := Option.some.inj (found.symm.trans link_found)
  simp [no_links] at mem

theorem LinkOf.canUnlink {linkObj : Node} (is : LinkOf vol number link linkObj) (tidy : vol.Tidy) :
    CanUnlink vol link linkObj :=
  ⟨is.found, is.soft, is.movable, tidy.not_swallows_of_leaf is.found is.leaf⟩

/-- What is done when a link is unlinked. -/
theorem LinkOf.unlinkWorker_eq {linkObj : Node} (is : LinkOf vol number link linkObj) :
    vol.unlinkWorker (P.labelled fails) link =
      ((vol.updateParent (P.labelled fails) (vol.parentOf link)).modify number
        (eraseLink link)).genericObjDel (P.labelled fails) link := by
  have noted : Steady (Labels.Same link) (fun _ => False) vol
      (vol.updateParent (P.labelled fails) (vol.parentOf link)) :=
    updateParent_same ⟨linkObj, is.found, is.soft⟩ _
  obtain ⟨linkObj', found', eq⟩ := noted.kept link linkObj is.found id is.soft
  obtain ⟨children, dirty, rfl⟩ := Node.lasting_eq_iff.mp eq
  rw [← delLink_eq found' is.equiv]
  simp [unlinkWorker, found', is.is_link]

/-- What has happened to the others when a link has been unlinked. -/
theorem LinkOf.steady {seen : Labels Store → Labels Store → Prop}
    (minds : Minds (P.labelled fails) other False seen) {linkObj : Node}
    (is : LinkOf vol number link linkObj) (firm : vol.Firm other) (ne : other ≠ link)
    (noted : Steady seen (fun _ => False) vol
      (vol.updateParent (P.labelled fails) (vol.parentOf link))) :
    Steady seen (fun touched => touched = number ∨ touched = link) vol
      (vol.unlinkWorker (P.labelled fails) link).2 := by
  rw [is.unlinkWorker_eq]
  generalize vol.updateParent (P.labelled fails) (vol.parentOf link) = mid at *
  have erased : Steady seen (· = number) mid (mid.modify number (eraseLink link)) :=
    Steady.modify minds _
  have firm' : (mid.modify number (eraseLink link)).Firm other := by
    obtain ⟨otherObj, held, soft⟩ := firm.steady noted id
    refine ⟨_, modify_found _ held, ?_⟩
    split <;> exact soft
  exact (noted.any.trans minds (erased.mono fun _ => .inl)).trans minds
    ((genericObjDel_apart minds firm' ne.symm).mono fun _ => .inr)

/-- The object itself when one of its links has been unlinked. -/
theorem LinkOf.owner (P : Pages Store) (fails : Nat → Nat → Bool) {linkObj : Node}
    (is : LinkOf vol number link linkObj)
    (found : vol.objs number = some obj) (soft : obj.softDel = false) :
    ∃ obj', (vol.unlinkWorker (P.labelled fails) link).2.objs number = some obj' ∧
      obj'.lasting = (eraseLink link obj).lasting := by
  have minds := minds_labels P fails number
  have noted : Steady (Labels.Same number) (fun _ => False) vol
      (vol.updateParent (P.labelled fails) (vol.parentOf link)) :=
    updateParent_same ⟨obj, found, soft⟩ _
  obtain ⟨mid, mid_found, mid_eq⟩ := noted.kept number obj found id soft
  obtain ⟨children, dirty, rfl⟩ := Node.lasting_eq_iff.mp mid_eq
  rw [is.unlinkWorker_eq]
  have erased := modify_self (eraseLink link) mid_found
  have last := genericObjDel_apart minds ⟨_, erased, soft⟩ is.ne
  obtain ⟨obj', found', eq⟩ := last.kept number _ erased is.ne.symm soft
  exact ⟨obj', found', eq⟩

theorem LinkOf.thins (P : Pages Store) (fails : Nat → Nat → Bool) {linkObj : Node}
    (is : LinkOf vol number link linkObj)
    (used : ¬isTrash directory) :
    Thins directory vol (vol.unlinkWorker (P.labelled fails) link).2 := by
  rw [is.unlinkWorker_eq]
  have noted : Thins directory vol (vol.updateParent (P.labelled fails) (vol.parentOf link)) :=
    updateParent_thins used _
  generalize vol.updateParent (P.labelled fails) (vol.parentOf link) = mid at *
  have erased : Thins directory mid (mid.modify number (eraseLink link)) :=
    Thins.modify fun _ => .refl _
  exact (noted.trans erased).trans (genericObjDelWith_thins (checkGc_thins used) used)

theorem LinkOf.gone {linkObj : Node} (is : LinkOf vol number link linkObj) (tidy : vol.Tidy) :
    (vol.unlinkWorker (P.labelled fails) link).2.objs link = none := by
  have kept := updateParent_keeps (P := P.labelled fails) tidy (vol.parentOf link)
  have noted : Steady (Labels.Same link) (fun _ => False) vol
      (vol.updateParent (P.labelled fails) (vol.parentOf link)) :=
    updateParent_same ⟨linkObj, is.found, is.soft⟩ _
  obtain ⟨linkObj', found', eq⟩ := noted.kept link linkObj is.found id is.soft
  obtain ⟨children, dirty, rfl⟩ := Node.lasting_eq_iff.mp eq
  rw [is.unlinkWorker_eq, ← delLink_eq found' is.equiv]
  exact (delLink_deletes kept.1 found' is.movable is.is_link is.soft).2

/-- The entries of an object: the object itself, or its links. -/
theorem getEquivalentObj_entry {entry : Nat}
    (leads : vol.getEquivalentObj (some entry) = some number) :
    ∃ entryObj, vol.objs entry = some entryObj ∧
      (entry = number ∧ entryObj.variantType ≠ .hardlink ∨
        entryObj.variantType = .hardlink ∧ entryObj.equivObj = some number) := by
  cases held : vol.objs entry with
  | none => simp [getEquivalentObj, held] at leads
  | some entryObj =>
    simp only [getEquivalentObj, held] at leads
    split at leads
    case isTrue is_link => exact ⟨entryObj, rfl, .inr ⟨is_link, leads⟩⟩
    case isFalse not_link => exact ⟨entryObj, rfl, .inl ⟨Option.some.inj leads, not_link⟩⟩

/-- What becomes of the objects beside an object and one of its links: they stay, and so do their
names and headers, but for the header of a directory. -/
structure Bystander (number : Nat) (before after : Volume (Labels Store)) : Prop where
  kept : ∀ obj, before.objs number = some obj → ∃ obj', after.objs number = some obj' ∧
    obj'.lasting = obj.lasting
  label : Labels.Same number before.store after.store
  header : ∀ obj, before.objs number = some obj → obj.variantType ≠ .directory →
    after.store.header number = before.store.header number

theorem Bystander.sameName (stands : Bystander number vol last)
    (found : vol.objs number = some obj) :
    SameName number vol last where
  node obj' found' := by
    obtain ⟨kept, kept_found, eq⟩ := stands.kept obj found
    obtain rfl := Option.some.inj (found'.symm.trans kept_found)
    obtain ⟨-, -, rfl⟩ := Node.lasting_eq_iff.mp eq
    exact ⟨obj, found, rfl, rfl⟩
  label := stands.label

theorem Bystander.parentOf (stands : Bystander number vol last)
    (found : vol.objs number = some obj) :
    last.parentOf number = obj.parent := by
  obtain ⟨obj', found', eq⟩ := stands.kept obj found
  exact (parentOf_eq found').trans (Node.parent_of_lasting eq)

/-- What is no directory keeps its name. -/
theorem Bystander.hasName_eq (stands : Bystander number vol last)
    (found : vol.objs number = some obj)
    (not_dir : obj.variantType ≠ .directory) (name : List Char) :
    last.hasName (P.labelled fails) name number = vol.hasName (P.labelled fails) name number := by
  obtain ⟨obj', found', -⟩ := stands.kept obj found
  refine (stands.sameName found).hasName_eq (by simp [found, found']) (.inr ?_)
  rw [stands.header obj found not_dir]

/-- A link that stays still leads to its object. -/
theorem Bystander.getEquivalentObj (stands : Bystander link vol last)
    (found : vol.objs link = some obj) :
    last.getEquivalentObj (some link) = vol.getEquivalentObj (some link) := by
  obtain ⟨obj', found', eq⟩ := stands.kept obj found
  obtain ⟨children, dirty, rfl⟩ := Node.lasting_eq_iff.mp eq
  simp [Volume.getEquivalentObj, found, found']

/-- The objects beside an object and one of its links, which has gone. -/
structure Bystanders (number link : Nat) (before after : Volume (Labels Store)) : Prop where
  tidy : after.Tidy
  gone : after.objs link = none
  stands : ∀ other, before.Firm other → other ≠ link → other ≠ number → Bystander other before after
  changes : Changes (fun touched => touched = number ∨ touched = link) True before after

/-- What is in a directory in use was there before. -/
theorem Bystanders.sibling (beside : Bystanders number link vol last) (tidy : vol.Tidy)
    (used : ¬isTrash directory) (ne : other ≠ number) (up : last.parentOf other = some directory) :
    ∃ otherObj, vol.objs other = some otherObj ∧ otherObj.parent = some directory ∧ other ≠ link ∧
      Bystander other vol last := by
  have ne_link : other ≠ link := by
    rintro rfl
    simp [parentOf, beside.gone] at up
  obtain ⟨otherObj, held, parent, soft⟩ :=
    beside.changes.sibling tidy used (fun touched => touched.elim ne ne_link) up
  exact ⟨otherObj, held, parent, ne_link, beside.stands other ⟨otherObj, held, soft⟩ ne_link ne⟩

/-- What is no directory has nothing in it. -/
theorem TidyBut.not_parent (tidy : vol.TidyBut loose) (found : vol.objs number = some obj)
    (type : obj.variantType ≠ .directory) (child : Nat) : vol.parentOf child ≠ some number := by
  intro up
  obtain ⟨childObj, child_found, parent⟩ := Option.bind_eq_some_iff.mp up
  obtain ⟨dirObj, dir_found, is_dir⟩ := tidy.directory child childObj number child_found parent
  obtain rfl := Option.some.inj (found.symm.trans dir_found)
  exact type is_dir

theorem LinkOf.bystanders (P : Pages Store) (fails : Nat → Nat → Bool) {linkObj : Node}
    (is : LinkOf vol number link linkObj) (tidy : vol.Tidy) :
    Bystanders number link vol (vol.unlinkWorker (P.labelled fails) link).2 := by
  have same (other : Nat) (firm : vol.Firm other) (ne : other ≠ link) :=
    is.steady (minds_labels P fails other) firm ne (updateParent_same firm _)
  have still (other : Nat) (firm : vol.Firm other) (ne : other ≠ link)
      (apart : vol.parentOf link ≠ some other) :=
    is.steady (minds_still P fails other) firm ne (updateParent_still firm apart)
  obtain ⟨tidy', changes⟩ := unlinkWorker_keeps (P := P.labelled fails) tidy (is.canUnlink tidy)
  have touches : ∀ touched, unlinks link linkObj touched → touched = number ∨ touched = link := by
    rintro touched (rfl | newest)
    · exact .inr rfl
    · simp [is.no_links] at newest
  refine ⟨tidy', is.gone tidy, ?_, changes.mono touches id⟩
  intro other firm ne ne'
  have steady := same other firm ne
  obtain ⟨otherObj, held, soft⟩ := firm
  constructor
  · intro obj found
    obtain rfl := Option.some.inj (held.symm.trans found)
    exact steady.kept other otherObj held (fun touched => touched.elim ne' ne) soft
  · exact steady.store
  · intro obj found type
    exact (still other ⟨otherObj, held, soft⟩ ne (tidy.not_parent found type link)).store.header_eq

/-- One of several links has been deleted. -/
theorem unlinkLink_local (tidy : vol.Tidy) (found : vol.objs number = some obj)
    (not_dir : obj.variantType ≠ .directory) (mem : link ∈ obj.hardLinks) :
    UnlinkedOne (P.labelled fails) number link vol (vol.unlinkWorker (P.labelled fails) link) := by
  obtain ⟨linkObj, is⟩ := tidy.linkOf found mem
  have node := tidy.node number obj found
  have visible : ¬obj.Hidden := by
    intro hidden
    simp [node.trash_ring (.inl hidden)] at mem
  have not_link : obj.variantType ≠ .hardlink := by
    intro is_link
    simp [(node.hardlink is_link).1] at mem
  have soft := tidy.soft_of_visible found visible
  have ok : (vol.unlinkWorker (P.labelled fails) link).1 = true := by
    rw [is.unlinkWorker_eq]
    rfl
  have thins (directory : Nat) (used : ¬isTrash directory) :=
    is.thins P fails used
  have beside := is.bystanders P fails tidy
  have own := is.steady (minds_still P fails number) ⟨obj, found, soft⟩ is.ne.symm
    (updateParent_still ⟨obj, found, soft⟩ (tidy.not_parent found not_dir link))
  obtain ⟨obj', found', eq⟩ := is.owner P fails found soft
  generalize vol.unlinkWorker (P.labelled fails) link = result at *
  obtain ⟨children, dirty, rfl⟩ := Node.lasting_eq_iff.mp eq
  have same : SameName number vol result.2 := by
    refine ⟨fun obj' found'' => ⟨obj, found, ?_⟩, own.store.toSame⟩
    obtain rfl := Option.some.inj (found'.symm.trans found'')
    exact ⟨rfl, rfl⟩
  -- Whoever is in a directory in use was there before, and has at most the name that it had.
  have sibling (directory : Nat) (used : ¬isTrash directory) (other : Nat)
      (up : result.2.parentOf other = some directory) :
      other ≠ link ∧ vol.parentOf other = some directory ∧ SameName other vol result.2 := by
    by_cases eq : other = number
    · subst eq
      exact ⟨is.ne.symm, (parentOf_eq found).trans ((parentOf_eq found').symm.trans up), same⟩
    · obtain ⟨otherObj, held, parent, ne, stands⟩ := beside.sibling tidy used eq up
      exact ⟨ne, (parentOf_eq held).trans parent, stands.sameName held⟩
  constructor
  case succeeds => exact ok
  case others =>
    intro directory name entry used first ne leads
    obtain ⟨entryObj, held, up⟩ := findByName_child tidy.toTidyBut first
    have has := hasName_of_findByName first
    have less (other : Nat) (up : result.2.parentOf other = some directory)
        (has : result.2.hasName (P.labelled fails) name other = true) :
        vol.hasName (P.labelled fails) name other = true :=
      (sibling directory used other up).2.2.hasName has
    have kept (placed : result.2.parentOf entry = some directory)
        (still : result.2.hasName (P.labelled fails) name entry = true) :
        result.2.findByName (P.labelled fails) directory name = some entry :=
      lookup_kept tidy beside.tidy (thins directory used) first placed still less
    by_cases eq : entry = number
    · subst eq
      obtain rfl := Option.some.inj (held.symm.trans found)
      have placed := (parentOf_eq found').trans up
      have still := same.hasName_eq (P := P) (by simp [found, found'])
        (.inr (congrArg Option.isSome own.store.header_eq)) |>.trans has
      rw [kept placed still]
      simp only [getEquivalentObj, found']
      exact if_neg not_link
    · obtain ⟨entryObj', held', own_entry | ⟨is_link, -⟩⟩ := getEquivalentObj_entry leads
      · exact absurd own_entry.1 eq
      obtain rfl := Option.some.inj (held.symm.trans held')
      have entry_soft := tidy.soft_of_visible held fun hidden => by
        obtain ⟨trash, trashy, up'⟩ := hidden
        obtain rfl := Option.some.inj (up.symm.trans up')
        exact used trashy
      have stands := beside.stands entry ⟨entryObj, held, entry_soft⟩ ne eq
      have placed := (stands.parentOf held).trans up
      have still := (stands.hasName_eq held (by simp [is_link]) name).trans has
      rw [kept placed still, stands.getEquivalentObj held, leads]
  case gone =>
    intro directory linkObj' link_found up others
    obtain rfl := Option.some.inj (is.found.symm.trans link_found)
    have used : ¬isTrash directory := fun trashy => is.visible ⟨directory, trashy, up⟩
    refine lookup_gone beside.tidy.toTidyBut fun other other_up =>
      Bool.eq_false_iff.mpr fun has => ?_
    obtain ⟨ne, up_before, same⟩ := sibling directory used other other_up
    exact others other ne up_before (Called.of_hasName (same.hasName has))
  case linkCount =>
    have length := List.length_erase_of_mem mem
    have pos := List.length_pos_of_mem mem
    simp only [getObjLinkCount, found, found', eraseLink, length]
    omega
  case object => rw [found, found']; rfl
  case contents => exact own.store.taken

/-! ## Taking the name of a link -/

/-- The newest link of an object has been put to the unlinked objects. -/
def aside (vol : Volume (Labels Store)) (number link : Nat) : Volume (Labels Store) :=
  (vol.modify number (eraseLink link)).addObjToDir objectIdUnlinked link

/-- What is done when an object with links is unlinked. -/
theorem LinkOf.promote_eq {linkObj : Node} (is : LinkOf vol number link linkObj)
    (found : vol.objs number = some obj) (soft : obj.softDel = false)
    (not_link : obj.variantType ≠ .hardlink) {older : List Nat}
    (newest : obj.hardLinks = link :: older)
    (up : linkObj.parent = some directory) :
    vol.unlinkWorker (P.labelled fails) number =
      let free := (vol.updateParent (P.labelled fails) (vol.parentOf number)).aside number link
      let moved := free.changeObjName (P.labelled fails) number (some directory)
        (vol.getObjName (P.labelled fails) link linkObj) false 0
      if moved.1 then moved.2.genericObjDel (P.labelled fails) link else moved := by
  have noted (other : Nat) (firm : vol.Firm other) : Steady (Labels.Same other) (fun _ => False) vol
      (vol.updateParent (P.labelled fails) (vol.parentOf number)) := updateParent_same firm _
  obtain ⟨obj', found', eq⟩ := (noted number ⟨obj, found, soft⟩).kept number obj found id soft
  have link_noted := noted link ⟨linkObj, is.found, is.soft⟩
  obtain ⟨linkObj', link_found', link_eq⟩ := link_noted.kept link linkObj is.found id is.soft
  have name := (SameName.of_steady link_noted is.found is.soft id).getObjName P fails is.found
    link_found'
  have up' := (Node.parent_of_lasting link_eq).trans up
  obtain ⟨children, dirty, rfl⟩ := Node.lasting_eq_iff.mp eq
  simp only [unlinkWorker, found', newest, if_neg not_link, link_found',
    unlinkByHardLink, name, up']
  rfl

theorem aside_steady {seen : Labels Store → Labels Store → Prop}
    (minds : Minds (P.labelled fails) other False seen) (number link : Nat) :
    Steady seen (fun touched => touched = number ∨ touched = link) vol (vol.aside number link) := by
  have erased : Steady seen (· = number) vol (vol.modify number (eraseLink link)) :=
    Steady.modify minds _
  have moves := Steady.addObjToDir minds (vol.modify number (eraseLink link)) objectIdUnlinked link
  exact (erased.mono fun _ => .inl).trans minds (moves.mono fun _ => .inr)

theorem aside_kept (number : Nat) (found : vol.objs other = some obj) (ne : other ≠ link) :
    ∃ obj', (vol.aside number link).objs other = some obj' ∧
      obj'.lasting = (if other = number then eraseLink link obj else obj).lasting := by
  have moves := addObjToDir_lasting (vol.modify number (eraseLink link)) objectIdUnlinked link other
  rw [modify_found _ found, Option.map_some, Node.lasting_moved ne] at moves
  exact Option.map_eq_some_iff.mp moves

theorem aside_thins (used : ¬isTrash directory) : Thins directory vol (vol.aside number link) := by
  have erased : Thins directory vol (vol.modify number (eraseLink link)) :=
    Thins.modify fun _ => .refl _
  exact erased.trans (Thins.addObjToDir fun eq => used (.inl eq.symm))

/-- An object that comes to a directory is the newest there. -/
theorem addObjToDir_children {Store : Type} {vol : Volume Store} {directory number : Nat}
    {dirObj' : Node} (found' : (vol.addObjToDir directory number).objs directory = some dirObj') :
    ∃ dirObj, vol.objs directory = some dirObj ∧
      dirObj'.children.Sublist (number :: dirObj.children) := by
  have removed : Thins directory vol (vol.removeObjFromDir number) := Thins.removeObjFromDir
  have listed : ∃ dirObj, (vol.removeObjFromDir number).objs directory = some dirObj ∧
      dirObj'.children = number :: dirObj.children := by
    simp only [addObjToDir] at found'
    split at found'
    all_goals
      simp only [modify_objs, Option.map_map] at found'
      obtain ⟨dirObj, found, rfl⟩ := Option.map_eq_some_iff.mp found'
      refine ⟨dirObj, found, ?_⟩
      simp only [Function.comp_apply, if_true]
      grind
  obtain ⟨mid, mid_found, eq⟩ := listed
  obtain ⟨dirObj, found, shorter⟩ := removed mid mid_found
  exact ⟨dirObj, found, eq ▸ shorter.cons_cons number⟩

/-- The object with its new name, in the directory that it has been put to. -/
theorem placed_used (found : vol.objs number = some obj) (used : ¬isTrash directory)
    (newName : List Char) :
    ∃ obj', (vol.placed number directory newName).objs number = some obj' ∧
      obj'.lasting = { (obj.setObjName number newName).lasting with parent := some directory } := by
  have not_unlinked : directory ≠ objectIdUnlinked := fun eq => used (.inl eq)
  simp only [placed, if_neg not_unlinked]
  have moves := addObjToDir_found directory (modify_self (named number newName) found)
  obtain ⟨obj', found', eq⟩ := moves
  refine ⟨obj', found', eq.trans ?_⟩
  simp only [moved, named, Node.lasting, used, and_false, decide_false, Bool.false_or,
    Bool.not_false, Bool.true_and, if_true]

/-- An object gets a name that is free, and its header can be written. -/
theorem changeObjName_written {newName : List Char} (found : vol.objs number = some obj)
    (soft : obj.softDel = false) (real : obj.fake = false) (used : ¬isTrash directory)
    (is_dir : vol.isType directory .directory = true) (some_name : newName ≠ [])
    (free : vol.findByName (P.labelled fun _ _ => false) directory newName = none) :
    let moved := vol.changeObjName (P.labelled fun _ _ => false) number (some directory)
      newName false 0
    moved.1 = true ∧ moved.2.store.taken number = vol.store.taken number ∧
      moved.2.store.header number = some (newName.take maxNameLength) ∧
      ∃ obj', moved.2.objs number = some obj' ∧
        obj'.lasting =
          { (obj.setObjName number newName).lasting with parent := some directory } := by
  have minds := minds_labels P (fun _ _ => false) number
  have accepted : vol.changeObjName (P.labelled fun _ _ => false) number
      (some directory) newName false 0 =
        (vol.placed number directory newName).updateOhWith (P.labelled fun _ _ => false)
        (checkGc (P.labelled fun _ _ => false)) number (some newName)
          (decide (directory = objectIdDeleted)) 0 :=
    changeObjNameWith_accepted is_dir (.inr (.inr (.inr free)))
  obtain ⟨there, there_found, there_eq⟩ := placed_used found used newName
  have stored := (Steady.placed minds vol number directory newName).store
  have fields : (obj.setObjName number newName).softDel = obj.softDel ∧
      (obj.setObjName number newName).fake = obj.fake := by
    simp only [Node.setObjName]
    split <;> exact ⟨rfl, rfl⟩
  have there_soft : there.softDel = false :=
    (congrArg Node.softDel there_eq).trans (fields.1.trans soft)
  have there_real : there.fake = false := (congrArg Node.fake there_eq).trans (fields.2.trans real)
  dsimp only
  rw [accepted]
  generalize vol.placed number directory newName = mid at *
  have all_real : ∀ obj, mid.objs number = some obj → obj.fake = false := by
    intro obj held
    obtain rfl := Option.some.inj (there_found.symm.trans held)
    exact there_real
  have collected := calm_checkGc minds mid ⟨there, there_found, there_soft⟩
  obtain ⟨last, last_found, last_eq⟩ := collected.kept number there there_found id there_soft
  obtain ⟨done, store_eq, -, lasting_eq⟩ := updateOhWith_written (P := P.labelled fun _ _ => false)
    all_real last_found (some newName) (decide (directory = objectIdDeleted)) 0
  obtain ⟨written, -, taken, header⟩ := write_named (fun _ _ => false) (checkGc _ mid).store
    (P.writeHeader (checkGc _ mid).store.pages number last (some newName)
      (decide (directory = objectIdDeleted)) 0) number some_name
  refine ⟨done.trans written, ?_, ?_, ?_⟩
  · rw [store_eq]
    exact (congrFun taken number).trans (collected.store.taken.trans stored.taken)
  · rw [store_eq]
    exact header
  · have kept := lasting_eq number
    rw [last_found, Option.map_some] at kept
    obtain ⟨obj', found', eq⟩ := Option.map_eq_some_iff.mp kept
    exact ⟨obj', found', eq.trans (last_eq.trans there_eq)⟩

/-- No object but one has come to a directory. -/
def Gains (directory number : Nat) (before after : Volume (Labels Store)) : Prop :=
  ∀ dirObj', after.objs directory = some dirObj' → ∃ dirObj, before.objs directory = some dirObj ∧
    dirObj'.children.Sublist (number :: dirObj.children)

theorem Gains.after_thins (first : Thins directory vol after)
    (gains : Gains directory number after last) :
    Gains directory number vol last := by
  intro dirObj' found'
  obtain ⟨mid, mid_found, shorter⟩ := gains dirObj' found'
  obtain ⟨dirObj, found, shorter'⟩ := first mid mid_found
  exact ⟨dirObj, found, shorter.trans (shorter'.cons_cons number)⟩

theorem Gains.thins (gains : Gains directory number vol after)
    (second : Thins directory after last) :
    Gains directory number vol last := by
  intro dirObj' found'
  obtain ⟨mid, mid_found, shorter⟩ := second dirObj' found'
  obtain ⟨dirObj, found, shorter'⟩ := gains mid mid_found
  exact ⟨dirObj, found, shorter.trans shorter'⟩

/-- A directory that an object comes to under a name that is free gains that object. -/
theorem changeObjName_gains {newName : List Char} (used : ¬isTrash directory) :
    Gains directory number vol (vol.changeObjName (P.labelled fails) number (some directory) newName
      false 0).2 := by
  have not_unlinked : directory ≠ objectIdUnlinked := fun eq => used (.inl eq)
  have moves : Gains directory number (vol.modify number (named number newName))
      ((vol.modify number (named number newName)).addObjToDir directory number) :=
    fun _ found' => addObjToDir_children found'
  have placed : Gains directory number vol (vol.placed number directory newName) := by
    simp only [Volume.placed, if_neg not_unlinked]
    exact moves.after_thins (Thins.setObjName newName)
  simp only [changeObjName]
  rcases changeObjNameWith_cases (P.labelled fails) (checkGc (P.labelled fails)) vol number
    (some directory) newName false 0 with refused | ⟨directory', same, -, accepted⟩
  · rw [refused]
    exact fun dirObj found => ⟨dirObj, found, List.sublist_cons_self ..⟩
  · obtain rfl : directory = directory' := Option.some.inj same
    rw [accepted]
    exact placed.thins (updateOhWith_thins (checkGc_thins used _) _ _ _)

/-! ## Names of renamed objects -/

theorem calcNameSum_take (name : List Char) : calcNameSum (name.take maxNameLength) =
    calcNameSum name := by
  rw [calcNameSum, calcNameSum, List.take_take]
  rfl

/-- An object that has got a new name, with its header, has that name and no other. -/
theorem hasName_renamed {newName : List Char} {obj' : Node} (not_lost : number ≠ objectIdLostNFound)
    (found' : vol.objs number = some obj') (some_name : newName ≠ [])
    (eq : obj'.lasting =
      { (obj.setObjName number newName).lasting with parent := some directory })
    (header : vol.store.header number = some (newName.take maxNameLength)) :
    vol.hasName (P.labelled fails) name number = true ↔
      name.take maxNameLength = newName.take maxNameLength := by
  have sum : obj'.sum = calcNameSum newName := by
    have same := congrArg Node.sum eq
    simpa [Node.lasting, Node.setObjName, some_name] using same
  have short : obj'.shortName = if newName.length ≤ shortNameLength then newName else [] := by
    have same := congrArg Node.shortName eq
    simpa [Node.lasting, Node.setObjName, some_name] using same
  have called : (vol.getObjName (P.labelled fails) number obj').take maxNameLength =
      newName.take maxNameLength := by
    have cut : newName.take maxNameLength ≠ [] := by
      simp [some_name, maxNameLength]
    simp only [getObjName, if_neg not_lost, headerName_eq, header, Option.getD_some, short,
      List.take_take, Nat.min_self]
    by_cases fits : newName.length ≤ shortNameLength
    · simp only [if_pos fits, ne_eq, some_name, not_false_eq_true, if_true, fixNullName, if_false]
    · simp only [if_neg fits, ne_eq, not_true_eq_false, if_false, fixNullName, cut, List.take_take,
        Nat.min_self]
  have sums : name.take maxNameLength = newName.take maxNameLength →
      calcNameSum newName = calcNameSum name := by
    intro same
    rw [← calcNameSum_take newName, ← same, calcNameSum_take]
  simp only [hasName, found', if_neg not_lost, called, sum]
  constructor
  · intro has
    exact eq_of_beq (Bool.and_eq_true_iff.mp has).2
  · intro same
    simp [sums same, same]

/-! ## Giving an object the name of its link -/

/-- An object that is unlinked under its own name, with its newest link. -/
structure Promotes (vol : Volume (Labels Store)) (number link directory : Nat)
    (obj linkObj : Node) :
    Prop where
  found : vol.objs number = some obj
  not_dir : obj.variantType ≠ .directory
  real : obj.fake = false
  newest : obj.hardLinks.head? = some link
  is : LinkOf vol number link linkObj
  up : linkObj.parent = some directory

namespace Promotes

variable {linkObj : Node} (promotes : Promotes vol number link directory obj linkObj)
include promotes

theorem mem : link ∈ obj.hardLinks := List.mem_of_mem_head? promotes.newest

theorem used : ¬isTrash directory :=
  fun trashy => promotes.is.visible ⟨directory, trashy, promotes.up⟩

theorem visible (tidy : vol.Tidy) : ¬obj.Hidden := by
  intro hidden
  have none := (tidy.node number obj promotes.found).trash_ring (.inl hidden)
  simpa [none] using promotes.mem

theorem soft (tidy : vol.Tidy) : obj.softDel = false :=
  tidy.soft_of_visible promotes.found (promotes.visible tidy)

theorem not_link (tidy : vol.Tidy) : obj.variantType ≠ .hardlink := by
  intro is_link
  have none := ((tidy.node number obj promotes.found).hardlink is_link).1
  simpa [none] using promotes.mem

theorem canUnlink (tidy : vol.Tidy) : CanUnlink vol number obj :=
  ⟨promotes.found, promotes.soft tidy, tidy.movable promotes.found (.inl promotes.not_dir),
    tidy.not_swallows_of_leaf promotes.found
      (tidy.leaf_of_type promotes.found promotes.not_dir)⟩

end Promotes

/-- The objects when the newest link is out of the way. -/
def linkAside (P : Pages (Labels Store)) (vol : Volume (Labels Store)) (number link : Nat) :
    Volume (Labels Store) :=
  (vol.updateParent P (vol.parentOf number)).aside number link

/-- The others when the link is out of the way. -/
theorem linkAside_sameName (P : Pages Store) (fails : Nat → Nat → Bool) (number : Nat)
    (firm : vol.Firm other) (ne : other ≠ link) :
    SameName other vol (vol.linkAside (P.labelled fails) number link) ∧
      (vol.linkAside (P.labelled fails) number link).parentOf other = vol.parentOf other := by
  have same : Steady (Labels.Same other) (fun _ => False) vol
      (vol.updateParent (P.labelled fails) (vol.parentOf number)) := updateParent_same firm _
  have stored := same.store
  obtain ⟨otherObj, held, soft⟩ := firm
  obtain ⟨mid, mid_found, mid_eq⟩ := same.kept other otherObj held id soft
  rw [linkAside]
  generalize vol.updateParent (P.labelled fails) (vol.parentOf number) = middle at *
  obtain ⟨last, last_found, last_eq⟩ := aside_kept number mid_found ne
  have store : (middle.aside number link).store = middle.store := addObjToDir_store _ _ _
  obtain ⟨children, dirty, rfl⟩ := Node.lasting_eq_iff.mp mid_eq
  have parts : last.shortName = otherObj.shortName ∧ last.sum = otherObj.sum ∧
      last.parent = otherObj.parent := by
    obtain ⟨children', dirty', rfl⟩ := Node.lasting_eq_iff.mp last_eq
    split <;> exact ⟨rfl, rfl, rfl⟩
  refine ⟨⟨fun obj' found' => ⟨otherObj, held, ?_⟩, store ▸ stored⟩, ?_⟩
  · obtain rfl := Option.some.inj (last_found.symm.trans found')
    exact ⟨parts.1, parts.2.1⟩
  · rw [parentOf_eq last_found, parentOf_eq held, parts.2.2]

theorem linkAside_header (firm : vol.Firm other) (apart : vol.parentOf number ≠ some other) :
    (vol.linkAside (P.labelled fails) number link).store.header other = vol.store.header other := by
  have same : Steady (Labels.Still other) (fun _ => False) vol
      (vol.updateParent (P.labelled fails) (vol.parentOf number)) := updateParent_still firm apart
  rw [linkAside, aside, addObjToDir_store]
  exact same.store.header_eq

/-- No other object of the directory of a link has the name of the link. -/
def NameFree (P : Pages (Labels Store)) (vol : Volume (Labels Store)) (link directory : Nat)
    (linkObj : Node) : Prop :=
  ∀ sibling ≠ link, vol.parentOf sibling = some directory →
    vol.hasName P (vol.getObjName P link linkObj) sibling = false

/-- The directory of an object has a header, unless it is one that needs none. -/
def Headed (vol : Volume (Labels Store)) (number : Nat) : Prop :=
  ∀ directory, vol.parentOf number = some directory →
    directory = objectIdRoot ∨ directory = objectIdLostNFound ∨
      (vol.store.header directory).isSome = true

namespace Promotes

variable {linkObj : Node}

/-- The object and its link when the change of the directory has been noted. -/
theorem noted (P : Pages Store) (fails : Nat → Nat → Bool)
    (promotes : Promotes vol number link directory obj linkObj) (tidy : vol.Tidy) :
    let mid := vol.updateParent (P.labelled fails) (vol.parentOf number)
    ∃ obj' linkObj', mid.Tidy ∧ Swept vol mid ∧ obj'.lasting = obj.lasting ∧
      linkObj'.lasting = linkObj.lasting ∧ CanPromote mid number link directory obj' linkObj' := by
  have same (other : Nat) (firm : vol.Firm other) : Steady (Labels.Same other) (fun _ => False) vol
      (vol.updateParent (P.labelled fails) (vol.parentOf number)) := updateParent_same firm _
  obtain ⟨tidy', swept⟩ := updateParent_keeps (P := P.labelled fails) tidy (vol.parentOf number)
  have soft := promotes.soft tidy
  obtain ⟨obj', found', eq⟩ :=
    (same number ⟨obj, promotes.found, soft⟩).kept number obj promotes.found id soft
  obtain ⟨linkObj', link_found', link_eq⟩ :=
    (same link ⟨linkObj, promotes.is.found, promotes.is.soft⟩).kept link linkObj
    promotes.is.found id
      promotes.is.soft
  refine ⟨obj', linkObj', tidy', swept, eq, link_eq, ?_⟩
  have up' := (Node.parent_of_lasting link_eq).trans promotes.up
  have movable := tidy.movable promotes.found (.inl promotes.not_dir)
  have not_dir := promotes.not_dir
  have newest := promotes.newest
  obtain ⟨children, dirty, rfl⟩ := Node.lasting_eq_iff.mp eq
  have leaf := tidy'.leaf_of_type found' not_dir
  obtain ⟨older, cons⟩ := List.head?_eq_some_iff.mp newest
  exact ⟨found', soft, movable, ⟨older, cons⟩, link_found', up', fun above =>
    tidy'.not_swallows_of_leaf found' leaf
      ⟨_, link, older, linkObj', directory, found', cons, link_found', up', above⟩⟩

/-- The objects when the link is out of the way are in order, and the link is unlinked. -/
theorem taken (P : Pages Store) (fails : Nat → Nat → Bool)
    (promotes : Promotes vol number link directory obj linkObj) (tidy : vol.Tidy) :
    let free := vol.linkAside (P.labelled fails) number link
    Changes (· = link) True vol free ∧ ∃ mid, Taken mid free number link directory := by
  obtain ⟨obj', linkObj', tidy', swept, -, -, can⟩ := promotes.noted P fails tidy
  have taken := can.taken tidy'
  exact ⟨swept.changes.trans taken.changes, _, taken⟩

/-- If the name of the link is free, the look-up finds nothing. -/
theorem findByName_none (promotes : Promotes vol number link directory obj linkObj)
    (tidy : vol.Tidy)
    (nameFree : vol.NameFree (P.labelled fails) link directory linkObj) :
    (vol.linkAside (P.labelled fails) number link).findByName (P.labelled fails) directory
      (vol.getObjName (P.labelled fails) link linkObj) = none := by
  obtain ⟨changes, mid, taken⟩ := promotes.taken P fails tidy
  refine lookup_gone taken.tidy.toTidyBut fun sibling up => Bool.eq_false_iff.mpr fun has => ?_
  have ne : sibling ≠ link := by
    rintro rfl
    obtain ⟨linkObj', link_found', ⟨trash, trashy, up'⟩, -⟩ := taken.link
    rw [parentOf_eq link_found', up'] at up
    exact promotes.used (Option.some.inj up ▸ trashy)
  obtain ⟨siblingObj, held, parent, soft⟩ := changes.sibling tidy promotes.used ne up
  have same := (linkAside_sameName P fails number ⟨siblingObj, held, soft⟩ ne).1
  have free := nameFree sibling ne ((parentOf_eq held).trans parent)
  rw [same.hasName has] at free
  cases free

/-- If the look-up finds nothing, the name of the link is free. -/
theorem nameFree (promotes : Promotes vol number link directory obj linkObj) (tidy : vol.Tidy)
    (headed : vol.Headed number)
    (none : (vol.linkAside (P.labelled fails) number link).findByName (P.labelled fails) directory
      (vol.getObjName (P.labelled fails) link linkObj) = none) :
    vol.NameFree (P.labelled fails) link directory linkObj := by
  obtain ⟨-, mid, taken⟩ := promotes.taken P fails tidy
  intro sibling ne up
  obtain ⟨siblingObj, held, parent⟩ := Option.bind_eq_some_iff.mp up
  have visible : ¬siblingObj.Hidden := by
    rintro ⟨trash, trashy, up'⟩
    obtain rfl := Option.some.inj (parent.symm.trans up')
    exact promotes.used trashy
  have firm : vol.Firm sibling := ⟨siblingObj, held, tidy.soft_of_visible held visible⟩
  obtain ⟨same, place⟩ := linkAside_sameName P fails number firm ne
  have placed := place.trans up
  obtain ⟨obj', found', up'⟩ := Option.bind_eq_some_iff.mp placed
  obtain ⟨dirObj', dir_found', -⟩ := taken.tidy.directory sibling obj' directory found' up'
  have header : sibling = objectIdLostNFound ∨
      ((vol.linkAside (P.labelled fails) number link).store.header sibling).isSome =
        (vol.store.header sibling).isSome := by
    by_cases parent_of : vol.parentOf number = some sibling
    · obtain rfl | lost | header := headed sibling parent_of
      · have orphan := tidy.sound.orphan objectIdRoot (.inl rfl)
        simp [forest, up] at orphan
      · exact .inl lost
      · exact .inr ((same.label.header header).trans header.symm)
    · exact .inr (congrArg Option.isSome (linkAside_header firm parent_of))
  rw [← same.hasName_eq (by simp [held, found']) header]
  simp only [findByName, dir_found'] at none
  exact Bool.eq_false_iff.mpr (List.find?_eq_none.mp none sibling
    ((mem_children_iff taken.tidy.toTidyBut found' dir_found').mpr up'))

end Promotes

/-- The object comes to the directory of the link, under the name of the link. -/
def takePlace (P : Pages (Labels Store)) (vol : Volume (Labels Store)) (number link directory : Nat)
    (linkObj : Node) : Bool × Volume (Labels Store) :=
  (vol.linkAside P number link).changeObjName P number (some directory)
    (vol.getObjName P link linkObj) false 0

/-- The others when the link has been deleted. -/
theorem takePlace_steady {seen : Labels Store → Labels Store → Prop} {linkObj : Node}
    (minds : Minds (P.labelled fails) other False seen) (firm : vol.Firm other)
    (ne : other ≠ number)
    (ne' : other ≠ link)
    (noted : Steady seen (fun _ => False) vol
      (vol.updateParent (P.labelled fails) (vol.parentOf number))) :
    Steady seen (fun touched => touched = number ∨ touched = link) vol
      ((vol.takePlace (P.labelled fails) number link directory linkObj).2.genericObjDel
        (P.labelled fails) link).2 := by
  have apart : ¬(other = number ∨ other = link) := fun touched => touched.elim ne ne'
  have aside := noted.any.trans minds (aside_steady minds number link)
  have firm' := firm.steady aside apart
  have changed := changeObjNameWith_other minds (calm_checkGc minds) firm' ne.symm (some directory)
    (vol.getObjName (P.labelled fails) link linkObj) false 0
  have placed := aside.trans minds (changed.mono fun _ => .inl)
  exact placed.trans minds
    ((genericObjDel_apart minds (firm.steady placed apart) ne'.symm).mono fun _ => .inr)

theorem getObjName_ne_nil {Q : Pages (Labels Store)} (number : Nat) (obj : Node) :
    vol.getObjName Q number obj ≠ [] := by
  simp only [getObjName]
  generalize (if number = objectIdLostNFound then lostNFoundName else _) = name
  rw [fixNullName]
  split
  case isTrue => simp [lostNFoundPrefix, maxNameLength]
  case isFalse some_name => exact some_name

namespace Promotes

variable {linkObj : Node}

/-- The object in its new place, before the link is deleted. -/
theorem moved (promotes : Promotes vol number link directory obj linkObj) (tidy : vol.Tidy)
    (nameFree : vol.NameFree (P.labelled fun _ _ => false) link directory linkObj) :
    let name := vol.getObjName (P.labelled fun _ _ => false) link linkObj
    let moved := vol.takePlace (P.labelled fun _ _ => false) number link directory linkObj
    moved.1 = true ∧ moved.2.store.taken number = vol.store.taken number ∧
      moved.2.store.header number = some (name.take maxNameLength) ∧
      ∃ obj', moved.2.objs number = some obj' ∧
        obj'.lasting = { ((eraseLink link obj).setObjName number name).lasting with
          parent := some directory } := by
  have soft := promotes.soft tidy
  have none := promotes.findByName_none tidy nameFree
  obtain ⟨changes, mid, taken⟩ := promotes.taken P (fun _ _ => false) tidy
  obtain ⟨_, dirObj, can, -⟩ := taken.can
  have is_dir := isType_eq can.dir_found can.is_dir
  obtain ⟨obj', linkObj', -, -, eq, -, can'⟩ :=
    promotes.noted P (fun _ _ => false) tidy
  have same : Steady (Labels.Same number) (fun _ => False) vol
      (vol.updateParent (P.labelled fun _ _ => false) (vol.parentOf number)) :=
    updateParent_same ⟨obj, promotes.found, soft⟩ _
  have aside_taken : (vol.linkAside (P.labelled fun _ _ => false) number link).store.taken number =
      vol.store.taken number := by
    rw [linkAside, aside, addObjToDir_store]
    exact same.store.taken
  obtain ⟨last, last_found, last_eq⟩ := aside_kept number can'.found promotes.is.ne.symm
  rw [if_pos rfl] at last_eq
  obtain ⟨children, dirty, rfl⟩ := Node.lasting_eq_iff.mp eq
  obtain ⟨children', dirty', rfl⟩ := Node.lasting_eq_iff.mp last_eq
  obtain ⟨done, taken_eq, header, obj'', found'', eq''⟩ := changeObjName_written (P := P)
    last_found soft promotes.real promotes.used is_dir (getObjName_ne_nil link linkObj) none
  refine ⟨done, taken_eq.trans aside_taken, header, obj'', found'', eq''.trans ?_⟩
  simp only [Node.setObjName]
  split <;> rfl

/-- What an object with links comes to when it is unlinked and the name of the link is free. -/
theorem unlinkWorker_eq (promotes : Promotes vol number link directory obj linkObj)
    (tidy : vol.Tidy)
    (nameFree : vol.NameFree (P.labelled fun _ _ => false) link directory linkObj) :
    vol.unlinkWorker (P.labelled fun _ _ => false) number =
      (vol.takePlace (P.labelled fun _ _ => false) number link directory linkObj).2.genericObjDel
        (P.labelled fun _ _ => false) link := by
  obtain ⟨older, newest⟩ := List.head?_eq_some_iff.mp promotes.newest
  have done := (promotes.moved (P := P) tidy nameFree).1
  rw [promotes.is.promote_eq promotes.found (promotes.soft tidy) (promotes.not_link tidy) newest
    promotes.up]
  exact if_pos done

/-- The link is deleted in the end. -/
theorem gone (promotes : Promotes vol number link directory obj linkObj) (tidy : vol.Tidy)
    (nameFree : vol.NameFree (P.labelled fun _ _ => false) link directory linkObj) :
    ((vol.takePlace (P.labelled fun _ _ => false) number link directory linkObj).2.genericObjDel
      (P.labelled fun _ _ => false) link).2.objs link = none := by
  obtain ⟨-, mid, taken⟩ := promotes.taken P (fun _ _ => false) tidy
  obtain ⟨obj', dirObj, can, soft⟩ := taken.can
  obtain ⟨linkObj', link_found, hidden, inode, link_soft⟩ := taken.link
  have done := (promotes.moved (P := P) tidy nameFree).1
  rw [takePlace] at done ⊢
  obtain ⟨refused, -⟩ | moves := changeObjName_spec
    (P := P.labelled fun _ _ => false) taken.tidy can
    soft (some directory) rfl (vol.getObjName (P.labelled fun _ _ => false) link linkObj) false 0
  · rw [refused] at done
    cases done
  · obtain ⟨last, last_found, core, -⟩ :=
      moves.changes.kept link linkObj' link_found taken.ne link_soft
    obtain ⟨-, parent, -, soft_eq, -, -, -, -, inode_eq⟩ := Node.core_eq_iff.mp core
    have deletable := Deletable.of_hidden moves.tidy.toTidyBut last_found
      ((Node.hidden_congr parent).mpr hidden) (inode_eq.trans inode)
    exact (genericObjDel_deletes moves.tidy.toTidyBut moves.tidy.toHashed deletable (.inl rfl)
      (soft_eq.trans link_soft)).gone

theorem bystanders (promotes : Promotes vol number link directory obj linkObj) (tidy : vol.Tidy)
    (nameFree : vol.NameFree (P.labelled fun _ _ => false) link directory linkObj) :
    Bystanders number link vol (vol.unlinkWorker (P.labelled fun _ _ => false) number).2 := by
  obtain ⟨tidy', changes⟩ :=
    unlinkWorker_keeps (P := P.labelled fun _ _ => false) tidy (promotes.canUnlink tidy)
  have touches : ∀ touched, unlinks number obj touched → touched = number ∨ touched = link := by
    rintro touched (rfl | newest)
    · exact .inl rfl
    · exact .inr (Option.some.inj (newest.symm.trans promotes.newest))
  refine ⟨tidy', ?_, ?_, changes.mono touches id⟩
  · rw [promotes.unlinkWorker_eq tidy nameFree]
    exact promotes.gone tidy nameFree
  · intro other firm ne ne'
    have steady {seen : Labels Store → Labels Store → Prop}
        (minds : Minds (P.labelled fun _ _ => false) other False seen)
        (noted : Steady seen (fun _ => False) vol
          (vol.updateParent (P.labelled fun _ _ => false) (vol.parentOf number))) :
        Steady seen (fun touched => touched = number ∨ touched = link) vol
          (vol.unlinkWorker (P.labelled fun _ _ => false) number).2 := by
      rw [promotes.unlinkWorker_eq tidy nameFree]
      exact takePlace_steady minds firm ne' ne noted
    have same := steady (minds_labels P (fun _ _ => false) other) (updateParent_same firm _)
    have still (apart : vol.parentOf number ≠ some other) :=
      steady (minds_still P (fun _ _ => false) other) (updateParent_still firm apart)
    obtain ⟨otherObj, held, soft⟩ := firm
    constructor
    · intro obj₁ found
      obtain rfl := Option.some.inj (held.symm.trans found)
      exact same.kept other otherObj held (fun touched => touched.elim ne' ne) soft
    · exact same.store
    · intro obj₁ found type
      exact (still (tidy.not_parent found type number)).store.header_eq

/-- The object itself when its link has been deleted. -/
theorem owner (promotes : Promotes vol number link directory obj linkObj) (tidy : vol.Tidy)
    (nameFree : vol.NameFree (P.labelled fun _ _ => false) link directory linkObj) :
    let name := vol.getObjName (P.labelled fun _ _ => false) link linkObj
    let last := (vol.unlinkWorker (P.labelled fun _ _ => false) number).2
    last.store.taken number = vol.store.taken number ∧
      last.store.header number = some (name.take maxNameLength) ∧
      ∃ obj', last.objs number = some obj' ∧
        obj'.lasting = { ((eraseLink link obj).setObjName number name).lasting with
          parent := some directory } := by
  obtain ⟨-, taken, header, obj', found', eq⟩ := promotes.moved (P := P) tidy nameFree
  have soft : obj'.softDel = false := by
    have same := congrArg Node.softDel eq
    simp only [Node.lasting, Node.setObjName] at same
    rw [same]
    split <;> exact promotes.soft tidy
  have deleted := genericObjDel_apart (minds_still P (fun _ _ => false) number) ⟨obj', found', soft⟩
    promotes.is.ne
  rw [promotes.unlinkWorker_eq tidy nameFree]
  obtain ⟨obj'', found'', eq'⟩ := deleted.kept number obj' found' promotes.is.ne.symm soft
  exact ⟨deleted.store.taken.trans taken, deleted.store.header_eq.trans header, obj'', found'',
    eq'.trans eq⟩

/-- No directory gains another object than this. -/
theorem gains (promotes : Promotes vol number link directory obj linkObj) (tidy : vol.Tidy)
    (nameFree : vol.NameFree (P.labelled fun _ _ => false) link directory linkObj) {other : Nat}
    (used : ¬isTrash other) :
    Gains other number vol (vol.unlinkWorker (P.labelled fun _ _ => false) number).2 := by
  rw [promotes.unlinkWorker_eq tidy nameFree]
  have noted : Thins other vol (vol.linkAside (P.labelled fun _ _ => false) number link) :=
    (updateParent_thins used _).trans (aside_thins used)
  have deleted (vol : Volume (Labels Store)) : Thins other vol
      (vol.genericObjDel (P.labelled fun _ _ => false) link).2 :=
    genericObjDelWith_thins (checkGc_thins used) used
  by_cases eq : other = directory
  · subst eq
    exact ((changeObjName_gains used).after_thins noted).thins (deleted _)
  · have elsewhere : Thins other (vol.linkAside (P.labelled fun _ _ => false) number link)
        (vol.takePlace (P.labelled fun _ _ => false) number link directory linkObj).2 :=
      changeObjNameWith_thins (checkGc_thins used) (Ne.symm eq) _ _ _
    intro dirObj' found'
    obtain ⟨dirObj, found, shorter⟩ := (noted.trans elsewhere).trans (deleted _) dirObj' found'
    exact ⟨dirObj, found, shorter.trans (List.sublist_cons_self ..)⟩

end Promotes

/-- Names that are the same as far as they are compared are had by the same objects. -/
theorem hasName_congr {Q : Pages (Labels Store)} {newName : List Char}
    (same : name.take maxNameLength = newName.take maxNameLength)
    (has : vol.hasName Q name number = true) : vol.hasName Q newName number = true := by
  have sums : calcNameSum name = calcNameSum newName := by
    rw [← calcNameSum_take name, same, calcNameSum_take]
  cases found : vol.objs number with
  | none => simp [hasName, found] at has
  | some obj =>
    simp only [hasName, found] at has ⊢
    split
    case isTrue lost =>
      rw [if_pos lost] at has
      have short : newName.take maxNameLength = lostNFoundName := by
        rw [← same, eq_of_beq has]
        rfl
      have length : newName.length ≤ maxNameLength := by
        by_contra long
        have cut := congrArg List.length short
        rw [List.length_take, Nat.min_eq_left (by omega)] at cut
        exact absurd cut (by decide)
      rw [List.take_of_length_le length] at short
      simp [short]
    case isFalse lost =>
      rw [if_neg lost, sums, same] at has
      exact has

/-- The object is found under the name of the link, in whatever place of the directory it is. -/
theorem Promotes.finds_owner {linkObj : Node}
    (promotes : Promotes vol number link directory obj linkObj) (tidy : vol.Tidy)
    (nameFree : vol.NameFree (P.labelled fails) link directory linkObj)
    (beside : Bystanders number link vol last) (placed : last.parentOf number = some directory)
    (same : name.take maxNameLength =
      (vol.getObjName (P.labelled fails) link linkObj).take maxNameLength)
    (has : last.hasName (P.labelled fails) name number = true) :
    last.findByName (P.labelled fails) directory name = some number := by
  obtain ⟨obj', found', up⟩ := Option.bind_eq_some_iff.mp placed
  obtain ⟨dirObj, dir_found, -⟩ := beside.tidy.directory number obj' directory found' up
  have mem := (mem_children_iff beside.tidy.toTidyBut found' dir_found).mpr up
  cases first : last.findByName (P.labelled fails) directory name with
  | none =>
    simp only [findByName, dir_found] at first
    exact absurd has (List.find?_eq_none.mp first number mem)
  | some other =>
    by_contra ne
    have ne' : other ≠ number := fun eq => ne (congrArg some eq)
    obtain ⟨otherObj, held, up'⟩ := findByName_child beside.tidy.toTidyBut first
    obtain ⟨old, old_found, old_up, apart, stands⟩ :=
      beside.sibling tidy promotes.used ne' ((parentOf_eq held).trans up')
    have had := (stands.sameName old_found).hasName (hasName_of_findByName first)
    have free := nameFree other apart ((parentOf_eq old_found).trans old_up)
    rw [hasName_congr same had] at free
    cases free

/-- A look-up that comes to an object still does if the directory has gained one that does not
match. -/
theorem lookup_gained (tidy : vol.Tidy) (tidy' : last.Tidy)
    (gains : Gains directory number vol last)
    (first : vol.findByName (P.labelled fails) directory name = some other) (ne : other ≠ number)
    (placed : last.parentOf other = some directory)
    (still : last.hasName (P.labelled fails) name other = true)
    (misses : last.parentOf number = some directory →
      last.hasName (P.labelled fails) name number = false)
    (less : ∀ sibling ≠ number, last.parentOf sibling = some directory →
      last.hasName (P.labelled fails) name sibling = true →
        vol.hasName (P.labelled fails) name sibling = true) :
    last.findByName (P.labelled fails) directory name = some other := by
  obtain ⟨obj', found', up⟩ := Option.bind_eq_some_iff.mp placed
  obtain ⟨dirObj', dir_found', -⟩ := tidy'.directory other obj' directory found' up
  obtain ⟨dirObj, dir_found, shorter⟩ := gains dirObj' dir_found'
  have nodup : dirObj.children.Nodup := by
    simpa [forest, dir_found] using tidy.sound.nodup directory
  have listed (sibling : Nat) (mem : sibling ∈ dirObj'.children) :
      last.parentOf sibling = some directory :=
    (tidy'.sound.listed sibling directory).mpr (by simpa [forest, dir_found'] using mem)
  -- The newcomer does not match, so that it may be left out of both lists.
  have kept : (dirObj'.children.filter fun sibling => decide (sibling ≠ number)).Sublist
      dirObj.children := by
    have filtered := shorter.filter fun sibling => decide (sibling ≠ number)
    rw [List.filter_cons_of_neg (by simp)] at filtered
    exact filtered.trans List.filter_sublist
  have mem := (mem_children_iff tidy'.toTidyBut found' dir_found').mpr up
  simp only [findByName, dir_found, dir_found'] at first ⊢
  have found := find_of_sublist kept nodup first
    (List.mem_filter.mpr ⟨mem, by simpa using ne⟩) still
    fun sibling sibling_mem => by
      obtain ⟨sibling_mem, apart⟩ := List.mem_filter.mp sibling_mem
      exact less sibling (by simpa using apart) (listed sibling sibling_mem)
  rw [List.find?_filter] at found
  rw [← found]
  refine List.find?_congr fun sibling sibling_mem => ?_
  by_cases own : sibling = number
  · subst own
    simp [misses (listed sibling sibling_mem)]
  · simp [own]

/-- The object has taken the name and the place of its newest link. -/
theorem unlinkOwn_local (tidy : vol.Tidy) {linkObj : Node}
    (promotes : Promotes vol number link directory obj linkObj)
    (nameFree : vol.NameFree (P.labelled fun _ _ => false) link directory linkObj) :
    UnlinkedOne (P.labelled fun _ _ => false) number number vol
      (vol.unlinkWorker (P.labelled fun _ _ => false) number) := by
  have not_lost := (tidy.movable promotes.found (.inl promotes.not_dir)).2
  have not_link := promotes.not_link tidy
  have ok : (vol.unlinkWorker (P.labelled fun _ _ => false) number).1 = true := by
    rw [promotes.unlinkWorker_eq tidy nameFree]
    rfl
  have beside := promotes.bystanders tidy nameFree
  have gains (other : Nat) (used : ¬isTrash other) := promotes.gains tidy nameFree used
  obtain ⟨taken, header, obj', found', eq⟩ := promotes.owner tidy nameFree
  generalize vol.unlinkWorker (P.labelled fun _ _ => false) number = result at *
  have placed : result.2.parentOf number = some directory :=
    (parentOf_eq found').trans (congrArg Node.parent eq)
  have renamed (name : List Char) :
      result.2.hasName (P.labelled fun _ _ => false) name number = true ↔ name.take maxNameLength =
        (vol.getObjName (P.labelled fun _ _ => false) link linkObj).take maxNameLength :=
    hasName_renamed not_lost found' (getObjName_ne_nil link linkObj) eq header
  constructor
  case succeeds => exact ok
  case others =>
    intro dir name entry used first ne leads
    obtain ⟨entryObj, held, up⟩ := findByName_child tidy.toTidyBut first
    have has := hasName_of_findByName first
    obtain ⟨entryObj', held', own_entry | ⟨is_link, -⟩⟩ := getEquivalentObj_entry leads
    · exact absurd own_entry.1 ne
    obtain rfl := Option.some.inj (held.symm.trans held')
    have entry_soft := tidy.soft_of_visible held fun hidden => by
      obtain ⟨trash, trashy, up'⟩ := hidden
      obtain rfl := Option.some.inj (up.symm.trans up')
      exact used trashy
    by_cases here : dir = directory ∧ result.2.hasName (P.labelled fun _ _ => false)
      name number = true
    case pos =>
      obtain ⟨rfl, has'⟩ := here
      have type : obj'.variantType ≠ .hardlink := by
        have same : obj'.variantType = obj.variantType := by
          refine (congrArg Node.variantType eq).trans ?_
          simp only [Node.lasting, Node.setObjName]
          split <;> rfl
        rwa [same]
      rw [promotes.finds_owner tidy nameFree beside placed ((renamed name).mp has') has']
      simp only [getEquivalentObj, found', if_neg type]
    case neg =>
      have apart : entry ≠ link := by
        rintro rfl
        obtain rfl := Option.some.inj (held.symm.trans promotes.is.found)
        obtain rfl := Option.some.inj (up.symm.trans promotes.up)
        obtain ⟨linkObj', link_found, called⟩ := Called.of_hasName has
        obtain rfl := Option.some.inj (held.symm.trans link_found)
        exact here ⟨rfl, (renamed name).mpr called⟩
      have stands := beside.stands entry ⟨entryObj, held, entry_soft⟩ apart ne
      have first' := lookup_gained tidy beside.tidy (gains dir used) first ne
        ((stands.parentOf held).trans up)
        ((stands.hasName_eq held (by simp [is_link]) name).trans has)
        (fun own_up => Bool.eq_false_iff.mpr fun own_has =>
          here ⟨Option.some.inj (own_up.symm.trans placed), own_has⟩)
        fun sibling own sibling_up => by
          obtain ⟨siblingObj, sibling_found, -, -, sibling_stands⟩ :=
            beside.sibling tidy used own sibling_up
          exact (sibling_stands.sameName sibling_found).hasName
      rw [first', stands.getEquivalentObj held, leads]
  case gone =>
    intro dir obj₁ held up others
    obtain rfl := Option.some.inj (promotes.found.symm.trans held)
    have used : ¬isTrash dir := fun trashy => promotes.visible tidy ⟨dir, trashy, up⟩
    refine lookup_gone beside.tidy.toTidyBut fun other other_up =>
      Bool.eq_false_iff.mpr fun has => ?_
    by_cases own : other = number
    · subst own
      obtain rfl := Option.some.inj (placed.symm.trans other_up)
      refine others link promotes.is.ne ((parentOf_eq promotes.is.found).trans promotes.up) ?_
      exact ⟨linkObj, promotes.is.found, (renamed _).mp has⟩
    · obtain ⟨otherObj, other_found, parent, -, stands⟩ := beside.sibling tidy used own other_up
      exact others other own ((parentOf_eq other_found).trans parent)
        (Called.of_hasName ((stands.sameName other_found).hasName has))
  case linkCount =>
    have length := List.length_erase_of_mem promotes.mem
    have pos := List.length_pos_of_mem promotes.mem
    have unlinked : obj'.unlinked = obj.unlinked := by
      refine (congrArg Node.unlinked eq).trans ?_
      simp only [Node.lasting, Node.setObjName]
      split <;> rfl
    have links : obj'.hardLinks = obj.hardLinks.erase link := by
      refine (congrArg Node.hardLinks eq).trans ?_
      simp only [Node.lasting, Node.setObjName]
      split <;> rfl
    simp only [getObjLinkCount, promotes.found, found', unlinked, links, length]
    omega
  case object =>
    rw [promotes.found, found', Option.map_some, Option.map_some]
    refine congrArg some ?_
    rw [Node.attributes, eq]
    simp only [Node.setObjName]
    split <;> rfl
  case contents => exact taken

/-- A name that is not free in the directory of the link is refused, with the link still aside. -/
theorem Promotes.refused {linkObj : Node}
    (promotes : Promotes vol number link directory obj linkObj)
    (tidy : vol.Tidy)
    (some_other : (vol.linkAside (P.labelled fails) number link).findByName
      (P.labelled fails) directory
      (vol.getObjName (P.labelled fails) link linkObj) ≠ none) :
    (vol.unlinkWorker (P.labelled fails) number).1 = false := by
  have used := promotes.used
  obtain ⟨older, newest⟩ := List.head?_eq_some_iff.mp promotes.newest
  have refused : (vol.linkAside (P.labelled fails) number link).changeObjName
    (P.labelled fails) number
      (some directory) (vol.getObjName (P.labelled fails) link linkObj) false 0 =
        (false, vol.linkAside (P.labelled fails) number link) := by
    rw [isTrash, not_or] at used
    simp [changeObjName, changeObjNameWith, used.1, used.2, some_other]
  rw [promotes.is.promote_eq promotes.found (promotes.soft tidy) (promotes.not_link tidy) newest
    promotes.up]
  rw [linkAside] at refused
  dsimp only
  rw [refused]
  rfl

/-- If an object gives up its own name, the name of its newest link must be free in the directory of
the link: no other object there may have it. -/
def TakesFreeName (P : Pages (Labels Store)) (vol : Volume (Labels Store))
    (number unlinked : Nat) : Prop :=
  unlinked = number → ∀ obj link linkObj directory, vol.objs number = some obj →
    obj.hardLinks.head? = some link → vol.objs link = some linkObj →
      linkObj.parent = some directory → vol.NameFree P link directory linkObj

/-- The newest link of an object is in a directory. -/
theorem promotes_of_tidy (tidy : vol.Tidy) (found : vol.objs number = some obj)
    (not_dir : obj.variantType ≠ .directory) (real : obj.fake = false)
    (several : obj.hardLinks ≠ []) :
    ∃ link directory linkObj, Promotes vol number link directory obj linkObj := by
  obtain ⟨link, older, newest⟩ := List.exists_cons_of_ne_nil several
  have head : obj.hardLinks.head? = some link := by rw [newest, List.head?_cons]
  obtain ⟨linkObj, is⟩ := tidy.linkOf found (List.mem_of_mem_head? head)
  obtain ⟨directory, up⟩ := tidy.sound.has_parent link (by simp [forest, is.found]) is.movable.1
  exact ⟨link, directory, linkObj, found, not_dir, real, head, is,
    (parentOf_eq is.found).symm.trans up⟩

/-- Unlinking one of several names leaves the other names, if the name that the object then takes is
free; else the object keeps its name and has lost a link. -/
theorem unlinkWorker_local (P : Pages Store) {unlinked : Nat} (tidy : vol.Tidy)
    (found : vol.objs number = some obj) (not_dir : obj.variantType ≠ .directory)
    (real : obj.fake = false) (several : obj.hardLinks ≠ [])
    (named : unlinked = number ∨ unlinked ∈ obj.hardLinks) :
    let P' := P.labelled fun _ _ => false
    (vol.TakesFreeName P' number unlinked →
      UnlinkedOne P' number unlinked vol (vol.unlinkWorker P' unlinked)) ∧
    (vol.Headed number → UnlinkedOne P' number unlinked vol (vol.unlinkWorker P' unlinked) →
      vol.TakesFreeName P' number unlinked) := by
  intro P'
  obtain ⟨link, directory, linkObj, promotes⟩ := promotes_of_tidy tidy found not_dir real several
  constructor
  · intro free
    rcases named with rfl | mem
    · exact unlinkOwn_local tidy promotes
        (free rfl obj link linkObj directory found promotes.newest promotes.is.found promotes.up)
    · exact unlinkLink_local tidy found not_dir mem
  · rintro headed done rfl obj' link' linkObj' directory' found' newest' link_found' up'
    obtain rfl := Option.some.inj (found.symm.trans found')
    obtain rfl := Option.some.inj (promotes.newest.symm.trans newest')
    obtain rfl := Option.some.inj (promotes.is.found.symm.trans link_found')
    obtain rfl := Option.some.inj (promotes.up.symm.trans up')
    refine promotes.nameFree tidy headed ?_
    by_contra some_other
    have succeeds := done.succeeds
    rw [promotes.refused tidy some_other] at succeeds
    cases succeeds

/-! ## A file with one link -/

/-- Pages on which every header write succeeds. -/
abbrev writingPages : Pages (Labels Unit) := Vfs.quietPages.labelled fun _ _ => false

/-- A formatted device. -/
def blankVolume : Volume (Labels Unit) :=
  (({ store := { pages := () } } : Volume (Labels Unit)).createInitialDir writingPages).2

/-- The file `a` in the root directory. -/
def oneFile : Volume (Labels Unit) :=
  (blankVolume.createFile writingPages objectIdRoot "a".toList 0).2

/-- The file has the link `b` beside it. -/
def twoNames : Volume (Labels Unit) := (oneFile.linkObj writingPages objectIdRoot "b".toList 257).2

/-- The link has been renamed over the empty lost and found directory, which cannot be unlinked. -/
def overLostNFound : Volume (Labels Unit) :=
  (twoNames.renameObj writingPages objectIdRoot (some "b".toList) objectIdRoot
    "lost+found".toList).2

theorem tidy_blankVolume : blankVolume.Tidy := createInitialDir_tidy rfl rfl (by decide +kernel)

/-- The root directory of the three is in use. -/
theorem root_used {vol : Volume (Labels Unit)} {children : List Nat} (root :
    (vol.objs objectIdRoot).map (fun dir => (dir.variantType, dir.parent, dir.children)) =
      some (.directory, none, children)) :
    vol.InUse objectIdRoot ∧ vol.isType objectIdRoot .directory = true := by
  obtain ⟨dir, found, eq⟩ := Option.map_eq_some_iff.mp root
  simp only [Prod.mk.injEq] at eq
  refine ⟨⟨by decide, dir, found, ?_⟩, isType_eq found eq.1⟩
  rintro ⟨trash, -, up⟩
  rw [eq.2.1] at up
  cases up

theorem tidy_oneFile : oneFile.Tidy :=
  (Vfs.createFile_keeps tidy_blankVolume (by decide +kernel)
    (root_used (by decide +kernel : _ = some (_, _, [objectIdLostNFound]))) "a".toList 0).tidy

theorem tidy_twoNames : twoNames.Tidy := by
  have equiv : oneFile.getEquivalentObj (some 257) = some 257 := by decide +kernel
  obtain ⟨obj, found, eq⟩ := Option.map_eq_some_iff.mp
    (by decide +kernel : (oneFile.objs 257).map (fun obj => (obj.variantType, obj.parent)) =
      some (.file, some objectIdRoot))
  simp only [Prod.mk.injEq] at eq
  have can : oneFile.CanLink 257 obj := by
    refine ⟨found, by simp [eq.1], ?_, by decide⟩
    rintro ⟨trash, trashy, up⟩
    obtain rfl := Option.some.inj (eq.2.symm.trans up)
    exact absurd trashy (by decide)
  have made := Vfs.create_keeps (P := writingPages) tidy_oneFile (by decide +kernel)
    (root_used (by decide +kernel : _ = some (_, _, [257, objectIdLostNFound])))
    .hardlink "b".toList 0
    (some 257) [] fun _ => ⟨257, obj, rfl, can⟩
  simp only [twoNames, linkObj, equiv]
  exact made.tidy

/-- The file takes the name of the link when its own name is unlinked. -/
theorem unlinkWorker_twoNames :
    UnlinkedOne writingPages 257 257 twoNames (twoNames.unlinkWorker writingPages 257) := by
  obtain ⟨obj, found, eq⟩ := Option.map_eq_some_iff.mp
    (by decide +kernel : (twoNames.objs 257).map (fun obj =>
      (obj.variantType, obj.fake, obj.hardLinks)) = some (.file, false, [258]))
  obtain ⟨linkObj, link_found, link_eq⟩ := Option.map_eq_some_iff.mp
    (by decide +kernel : (twoNames.objs 258).map (fun link =>
      (link.parent, twoNames.getObjName writingPages 258 link)) = some
        (some objectIdRoot, "b".toList))
  simp only [Prod.mk.injEq] at eq link_eq
  refine (unlinkWorker_local Vfs.quietPages tidy_twoNames found (by simp [eq.1]) eq.2.1
    (by simp [eq.2.2]) (.inl rfl)).1 ?_
  intro _ obj' link linkObj' directory found' newest link_found' up sibling ne sibling_up
  obtain rfl := Option.some.inj (found.symm.trans found')
  obtain rfl : 258 = link := by simpa [eq.2.2] using newest
  obtain rfl := Option.some.inj (link_found.symm.trans link_found')
  obtain rfl := Option.some.inj (link_eq.1.symm.trans up)
  rw [link_eq.2]
  -- The other objects of the root directory have other names.
  obtain ⟨siblingObj, sibling_found, parent⟩ := Option.bind_eq_some_iff.mp sibling_up
  obtain ⟨root, root_found, children⟩ := Option.map_eq_some_iff.mp
    (by decide +kernel : (twoNames.objs objectIdRoot).map Node.children =
      some [258, 257, objectIdLostNFound])
  have mem := (mem_children_iff tidy_twoNames.toTidyBut sibling_found root_found).mpr parent
  rw [children] at mem
  simp only [List.mem_cons, List.not_mem_nil, or_false] at mem
  rcases mem with rfl | rfl | rfl
  · exact absurd rfl ne
  · decide +kernel
  · decide +kernel

theorem tidy_overLostNFound : overLostNFound.Tidy := by
  refine (renameObj_keeps tidy_twoNames objectIdRoot (some "b".toList) "lost+found".toList
    (root_used (by decide +kernel : _ = some (_, _, [258, 257, objectIdLostNFound]))).1 ?_).1
  intro _ number renamed
  have found : twoNames.renamed writingPages objectIdRoot (some "b".toList) = some 258 := by
    decide +kernel
  obtain rfl := Option.some.inj (found.symm.trans renamed)
  constructor
  · have top : twoNames.parentOf objectIdRoot = none := by decide +kernel
    intro above
    cases above with
    | step up => simp [top] at up
  · rintro ⟨target, targetObj, target_found, held, newest⟩
    have lost : twoNames.findByName writingPages objectIdRoot "lost+found".toList =
        some objectIdLostNFound := by decide +kernel
    obtain rfl := Option.some.inj (lost.symm.trans target_found)
    have no_links : (twoNames.objs objectIdLostNFound).map Node.hardLinks = some [] := by
      decide +kernel
    simp [held] at no_links
    simp [no_links] at newest

/-- A file whose newest link has the name of another object keeps its own name when that is
unlinked. -/
theorem not_local_of_same_names : ¬∀ (vol : Volume (Labels Unit)) (number unlinked : Nat)
    (obj : Node), vol.Tidy → vol.objs number = some obj → obj.variantType ≠ .directory →
    obj.fake = false → obj.hardLinks ≠ [] → unlinked = number ∨ unlinked ∈ obj.hardLinks →
      UnlinkedOne writingPages number unlinked vol (vol.unlinkWorker writingPages unlinked) := by
  intro always
  obtain ⟨obj, found, eq⟩ := Option.map_eq_some_iff.mp
    (by decide +kernel : (overLostNFound.objs 257).map (fun obj =>
      (obj.variantType, obj.fake, obj.hardLinks)) = some (.file, false, [258]))
  simp only [Prod.mk.injEq] at eq
  have succeeds := (always overLostNFound 257 257 obj tidy_overLostNFound found
    (by simp [eq.1]) eq.2.1
    (by simp [eq.2.2]) (.inl rfl)).succeeds
  have refused : (overLostNFound.unlinkWorker writingPages 257).1 = false := by decide +kernel
  rw [refused] at succeeds
  cases succeeds

end Volume

end Yaffs
