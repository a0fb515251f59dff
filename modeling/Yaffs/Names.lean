import Yaffs.Paths
import Yaffs.Library.Execution

/-!
# Names of objects

The name of an object lies in its header on the flash.  In memory there is only a sum of its
characters, and the name itself if it is short.  After a mount not even these are there: an object
loads its details from its header when they are asked for.  The target of a symbolic link is kept in
memory, and in the header again.  Each of these copies is cut at a length of its own.
-/

namespace Yaffs

/-- What the header of an object says about its name. -/
structure NameHeader where
  name : List Char
  /-- Symbolic links only. -/
  aliasName : List Char
  parentObjId : Nat
deriving DecidableEq

/-- An object, as far as names go. -/
structure NamedObj where
  number : Nat
  variantType : ObjType
  /-- The name, if it is short. -/
  shortName : List Char := []
  /-- Sum of the name. -/
  sum : Nat := 0
  /-- The target of a symbolic link. -/
  aliasStr : List Char := []
  /-- The directory that the object is in. -/
  parent : Nat
  /-- The details have not been loaded yet. -/
  lazyLoaded : Bool := false
  /-- The header, if the object has a page for it. -/
  header : Option NameHeader := none
deriving DecidableEq

/-- The name that is stored in a header for a given one. -/
def loadOhFromName (name : List Char) : List Char := name.take (maxNameLength - 1)

/-- The name that is taken from a header. -/
def loadNameFromOh (ohName : List Char) : List Char := ohName.take maxNameLength

namespace NamedObj

/-- Give an object a name in memory. -/
def setObjName (obj : NamedObj) (name : List Char) : NamedObj :=
  if name = [] then
    let shortName := fixNullName obj.number [] shortNameLength
    { obj with shortName, sum := calcNameSum shortName }
  else
    { obj with
      shortName := if strnlen name (shortNameLength + 1) ≤ shortNameLength then name else []
      sum := calcNameSum name }

/-- Load the details of an object from its header. -/
def checkObjDetailsLoaded (obj : NamedObj) : NamedObj :=
  match obj.header with
  | none => obj
  | some oh =>
    if obj.lazyLoaded then
      let loaded := { obj with lazyLoaded := false }.setObjName oh.name
      if obj.variantType = .symlink then { loaded with aliasStr := cloneStr oh.aliasName }
      else loaded
    else obj

/-- The name of an object. -/
def getObjName (obj : NamedObj) : List Char :=
  let obj := obj.checkObjDetailsLoaded
  let name :=
    if obj.number = objectIdLostNFound then lostNFoundName
    else if obj.shortName ≠ [] then obj.shortName
    else match obj.header with
      | some oh => loadNameFromOh oh.name
      | none => []
  fixNullName obj.number name (maxNameLength + 1)

/-- The target of a symbolic link. -/
def getSymlinkAlias (obj : NamedObj) : List Char := cloneStr obj.checkObjDetailsLoaded.aliasStr

/-- Write the header of an object, with a new name or with the one that the old header has. -/
def updateOh (obj : NamedObj) (name : Option (List Char)) : NamedObj :=
  let obj := obj.checkObjDetailsLoaded
  let oldName := match obj.header with
    | some oh => oh.name
    | none => []
  let ohName := match name with
    | some name => if name ≠ [] then loadOhFromName name else oldName
    | none => oldName
  { obj with
    header := some
      { name := ohName
        aliasName := if obj.variantType = .symlink then obj.aliasStr.take maxAliasLength else []
        parentObjId := obj.parent } }

/-- Does an object, whose details are loaded, have a name? -/
def hasName (obj : NamedObj) (name : List Char) : Bool :=
  if obj.number = objectIdLostNFound then name == lostNFoundName
  else (obj.sum == calcNameSum name || obj.header.isNone) &&
    name.take maxNameLength == obj.getObjName.take maxNameLength

/-- An object after a mount: its header is found, and the details may be left there. -/
def remounted (obj : NamedObj) (lazyLoad : Bool) : NamedObj :=
  match obj.header with
  | none => obj
  | some oh =>
    let found : NamedObj :=
      { number := obj.number
        variantType := obj.variantType
        parent := oh.parentObjId
        lazyLoaded := true
        header := some oh }
    if lazyLoad then found else found.checkObjDetailsLoaded

end NamedObj

/-! ## Directories -/

/-- Find the object with a name in a directory.  The objects are passed newest first, with the
details of those that are looked at loaded on the way. -/
def findByName (directory : Nat) (name : List Char) : List NamedObj → Option Nat × List NamedObj
  | [] => (none, [])
  | obj :: objs =>
    if obj.parent = directory ∧ obj.checkObjDetailsLoaded.hasName name then
      (some obj.number, obj.checkObjDetailsLoaded :: objs)
    else
      let rest := findByName directory name objs
      (rest.1, (if obj.parent = directory then obj.checkObjDetailsLoaded else obj) :: rest.2)

/-- The objects without one of them. -/
def removeObj (number : Nat) (objs : List NamedObj) : List NamedObj :=
  objs.filter fun obj => decide (obj.number ≠ number)

/-- Change the object with a number. -/
def changeObj (number : Nat) (change : NamedObj → NamedObj) (objs : List NamedObj) :
    List NamedObj :=
  objs.map fun obj => if obj.number = number then change obj else obj

/-- The objects of a device that have names, with the names and targets that the calls have given
them. -/
structure Catalog where
  /-- Newest first. -/
  objs : List NamedObj
  given : Nat → List Char
  target : Nat → List Char

namespace Catalog

variable (cat : Catalog)

/-- A device that has just been formatted: there is the lost and found directory only. -/
def initial : Catalog where
  objs := [{ number := objectIdLostNFound, variantType := .directory, parent := objectIdRoot }]
  given _ := lostNFoundName
  target _ := []

/-- The name of a new object is accepted if its path is, and nothing has the name.  The target of a
symbolic link has to be a path too. -/
def createObj (number : Nat) (type : ObjType) (parent : Nat) (name aliasStr : List Char) :
    Catalog :=
  let found := findByName parent name cat.objs
  let cat := { cat with objs := found.2 }
  if found.1 ≠ none ∨ name = [] ∨ ¬checkPath name ∨ (type = .symlink ∧ ¬checkPath aliasStr) ∨
      number = objectIdLostNFound ∨ number ∈ cat.objs.map NamedObj.number then cat
  else
    let obj : NamedObj := { number, variantType := type, parent }
    let obj := obj.setObjName name
    let obj := if type = .symlink then { obj with aliasStr := cloneStr aliasStr } else obj
    { objs := obj.updateOh (some name) :: cat.objs
      given := Function.update cat.given number name
      target := Function.update cat.target number aliasStr }

/-- Give an object a name in a directory. -/
def changeObjName (number newDir : Nat) (newName : List Char) : Catalog :=
  match cat.objs.find? fun obj => decide (obj.number = number) with
  | none => cat
  | some obj =>
    { cat with
      objs :=
        { obj.setObjName newName with parent := newDir }.updateOh (some newName) ::
          removeObj number cat.objs
      given := Function.update cat.given number newName }

/-- Unlink an object: it is gone, or it gets the name and the place of one of its hard links, which
is gone then. -/
def unlinkObj (number : Nat) (link : Option Nat) : Catalog :=
  if number = objectIdLostNFound then cat
  else
    match cat.objs.find? fun obj => decide (some obj.number = link) with
    | none => { cat with objs := removeObj number cat.objs }
    | some linkObj =>
      let name := linkObj.getObjName
      let found := findByName linkObj.parent name (removeObj linkObj.number cat.objs)
      let cat := { cat with objs := found.2 }
      if found.1 = none then cat.changeObjName number linkObj.parent name else cat

/-- Give an object another name.  What has the name already is unlinked. -/
def renameTo (number newDir : Nat) (newName : List Char) (link : Option Nat) : Catalog :=
  if number = objectIdLostNFound ∨ number ∉ cat.objs.map NamedObj.number then cat
  else
    let existing := findByName newDir newName cat.objs
    let cat := { cat with objs := existing.2 }
    let cat := match existing.1 with
      | some target =>
        if target ≠ number then (cat.changeObjName number newDir newName).unlinkObj target link
        else cat
      | none => cat
    cat.changeObjName number newDir newName

/-- Rename what has a name in a directory, or the directory itself if there is no name behind it on
the path. -/
def renameObj (oldDir : Nat) (oldName : Option (List Char)) (newDir : Nat) (newName : List Char)
    (link : Option Nat) : Catalog :=
  if newName = [] ∨ ¬checkPath newName ∨
      maxNameLength < strnlen newName (maxNameLength + 1) then cat
  else
    match oldName with
    | some oldName =>
      let found := findByName oldDir oldName cat.objs
      match found.1 with
      | none => { cat with objs := found.2 }
      | some number => { cat with objs := found.2 }.renameTo number newDir newName link
    | none =>
      { cat with
        objs := changeObj oldDir NamedObj.checkObjDetailsLoaded cat.objs }.renameTo
          oldDir newDir newName link

/-- Unlink what has a name in a directory. -/
def unlinker (directory : Nat) (name : List Char) (link : Option Nat) : Catalog :=
  let found := findByName directory name cat.objs
  match found.1 with
  | none => { cat with objs := found.2 }
  | some number => { cat with objs := found.2 }.unlinkObj number link

end Catalog

/-- What may happen to the names of a device. -/
inductive NameTurn
  /-- A file, directory, special file, hard link or symbolic link is created. -/
  | create (number : Nat) (type : ObjType) (parent : Nat) (name aliasStr : List Char)
  /-- Which hard link takes the place of an object that is unlinked is given. -/
  | rename (oldDir : Nat) (oldName : Option (List Char)) (newDir : Nat) (newName : List Char)
    (link : Option Nat)
  | unlink (directory : Nat) (name : List Char) (link : Option Nat)
  /-- The header is written for another reason. -/
  | update (number : Nat)
  /-- The details of an object are loaded. -/
  | load (number : Nat)
  /-- The device is mounted again.  The objects are found in any order. -/
  | remount (order : List Nat) (lazyLoad : Nat → Bool)

/-- Take a turn. -/
def NameTurn.exec : NameTurn → Catalog → Catalog
  | create number type parent name aliasStr, cat => cat.createObj number type parent name aliasStr
  | rename oldDir oldName newDir newName link, cat =>
    cat.renameObj oldDir oldName newDir newName link
  | unlink directory name link, cat => cat.unlinker directory name link
  | update number, cat =>
    { cat with
      objs := changeObj number
        (fun obj => if number = objectIdLostNFound then obj else obj.updateOh none) cat.objs }
  | load number, cat =>
    { cat with objs := changeObj number NamedObj.checkObjDetailsLoaded cat.objs }
  | remount order lazyLoad, cat =>
    if order.Perm (cat.objs.map NamedObj.number) then
      { cat with
        objs := order.filterMap fun number =>
          (cat.objs.find? fun obj => decide (obj.number = number)).map fun obj =>
            obj.remounted (lazyLoad number) }
    else cat

/-- The object that a rename is about. -/
def Catalog.renamed (cat : Catalog) (oldDir : Nat) (oldName : Option (List Char)) : Option Nat :=
  match oldName with
  | some oldName => (findByName oldDir oldName cat.objs).1
  | none => some oldDir

/-- Names have at least one character less than the longest ones that are accepted, and targets fit
into a header.  Nothing is renamed to the lost and found directory, and no hard link is renamed to
the object whose newest link it is. -/
def NameTurn.Fits : NameTurn → Catalog → Prop
  | create _ type _ name aliasStr, _ =>
    name.length < maxNameLength ∧ (type = .symlink → aliasStr.length ≤ maxAliasLength)
  | rename oldDir oldName newDir newName link, cat =>
    newName.length < maxNameLength ∧ ¬(newDir = objectIdRoot ∧ newName = lostNFoundName) ∧
      (link = none ∨ link ≠ cat.renamed oldDir oldName)
  | _, _ => True

/-- Each object is found under the name that it has been given, nothing is found under another name,
and names and targets are what they were when they were given. -/
structure Catalog.Persists (cat : Catalog) : Prop where
  found : ∀ obj ∈ cat.objs,
    (findByName obj.parent (cat.given obj.number) cat.objs).1 = some obj.number
  only : ∀ directory name number, (findByName directory name cat.objs).1 = some number →
    name = cat.given number
  name : ∀ obj ∈ cat.objs, obj.getObjName = cat.given obj.number
  target : ∀ obj ∈ cat.objs, obj.variantType = .symlink →
    obj.getSymlinkAlias = cat.target obj.number

end Yaffs
