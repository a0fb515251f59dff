import Yaffs.Namespace
import Mathlib.Data.List.DropRight

/-!
# Paths

How the file system interface finds a directory or an object by its path.  Symbolic links are
followed on the way.  A link that leads through itself makes the look-up call itself without end, so
that look-ups take fuel and may not return.
-/

namespace Yaffs

/-- Deepest nesting of symbolic links. -/
def maxSymlinkDereferences : Nat := 5

/-- Path dividers. -/
def isPathDivider (ch : Char) : Bool := ch == '/'

/-- The directories on a path and the name at its end, which is empty after a divider. -/
def pathParts (path : List Char) : List (List Char) × List Char :=
  let parts := path.splitOnP isPathDivider
  (parts.dropLast.filter fun part => decide (part ≠ []), parts.getLastD [])

/-- Is a path short enough?  No part may be as long as the longest name, and there may be less than a
hundred dividers. -/
def checkPathLoop : Nat → Nat → List Char → Bool
  | _, _, [] => true
  | n, divs, ch :: rest =>
    if n < maxNameLength ∧ divs < 100 then
      if isPathDivider ch then checkPathLoop 0 (divs + 1) rest else checkPathLoop (n + 1) divs rest
    else false

def checkPath (path : List Char) : Bool := checkPathLoop 0 0 path

/-- Cut the dividers off the end of the path of a directory.  Only so much of the path is looked
at. -/
def altDirPath (path : List Char) : List Char :=
  let seen := path.take ((maxNameLength + 1) * 3 + 1)
  if (seen.getLast?.map isPathDivider).getD false then seen.rdropWhile isPathDivider else path

/-- What is left of a path after the mount point, if it begins with that. -/
def matchMount (mount path : List Char) : Option (List Char) :=
  let parts := (mount.splitOnP isPathDivider).filter fun part => decide (part ≠ [])
  (parts.foldlM (fun rest part =>
    let rest := rest.dropWhile isPathDivider
    if rest.takeWhile (fun ch => !isPathDivider ch) = part then
      some (rest.dropWhile fun ch => !isPathDivider ch)
    else none) path).map fun rest => rest.dropWhile isPathDivider

/-- Outcome of the search for a directory: the directory, the name within it and what went wrong on
the way. -/
structure FoundDir where
  dir : Option Nat := none
  name : List Char := []
  notDir : Bool := false
  loop : Bool := false
deriving DecidableEq, Repr

/-- Outcome of the search for an object. -/
structure FoundObj where
  obj : Option Nat := none
  dir : Option Nat := none
  notDir : Bool := false
  loop : Bool := false
deriving DecidableEq, Repr

namespace Volume

variable {Store : Type} (P : Pages Store) (vol : Volume Store)

/-- The root directory of the device that a path leads to, and the rest of the path. -/
def findRoot (path : List Char) : Option (Nat × List Char) :=
  (matchMount vol.param.name path).map fun rest => (objectIdRoot, rest)

/-- Follow a symbolic link as long as it leads to another one.  The look-up of an object is a
parameter, and the depth rises with every link of the chain. -/
def followLinkWith (findObject : Option Nat → List Char → Nat → Option FoundObj) :
    Nat → Option Nat → Nat → Bool → Option (Option Nat × Bool)
  | 0, _, _, _ => none
  | left + 1, number, symDepth, loop =>
    match number.bind vol.objs with
    | none => some (none, loop)
    | some obj =>
      if obj.variantType = .symlink then
        let start := if (obj.aliasStr.head?.map isPathDivider).getD false then none else obj.parent
        (findObject start obj.aliasStr symDepth).bind fun found =>
          followLinkWith findObject left found.obj (symDepth + 1) (loop || found.loop)
      else some (number, loop)

/-- Links that a chain can have before the depth is exceeded. -/
def followFuel : Nat := maxSymlinkDereferences + 3

/-- Follow the links from an object, with hard links first. -/
def followLinkBy (findObject : Option Nat → List Char → Nat → Option FoundObj)
    (number : Option Nat) (symDepth : Nat) (loop : Bool) : Option (Option Nat × Bool) :=
  vol.followLinkWith findObject followFuel (vol.getEquivalentObj number) symDepth loop

/-- Walk down the directories of a path. -/
def walk (follow : Option Nat → Bool → Option (Option Nat × Bool)) :
    List (List Char) → FoundDir → Option FoundDir
  | [], found => some found
  | part :: rest, found =>
    match found.dir with
    | none => some found
    | some dir =>
      let str := part.take maxNameLength
      if str = ['.'] then walk follow rest found
      else if str = ['.', '.'] then walk follow rest { found with dir := vol.parentOf dir }
      else
        (follow (vol.findByName P dir str) found.loop).bind fun target =>
          let found := { found with loop := target.2 }
          match target.1 with
          | none => some { found with dir := none }
          | some next =>
            if vol.isType next .directory then walk follow rest { found with dir := some next }
            else some { found with dir := none, notDir := true }

/-- The object at the end of a path, with the directory found for the path. -/
def findObjectBy (findDirectory : Option Nat → List Char → Nat → Option FoundDir)
    (relDir : Option Nat) (path : List Char) (symDepth : Nat) (getEquiv : Bool) : Option FoundObj :=
  (findDirectory relDir path symDepth).map fun found =>
    let obj := match found.dir with
      | none => none
      | some dir =>
        if found.name = ['.', '.'] then vol.parentOf dir
        else if found.name = ['.'] ∨ found.name = [] then some dir
        else vol.findByName P dir found.name
    { obj := if getEquiv then vol.getEquivalentObj obj else obj
      dir := found.dir
      notDir := found.notDir
      loop := found.loop }

/-- The directory of a path and the name within it.  The fuel bounds the nesting of look-ups. -/
def findDirectory : Nat → Option Nat → List Char → Nat → Option FoundDir
  | 0, _, _, _ => none
  | fuel + 1, startDir, path, symDepth =>
    if maxSymlinkDereferences < symDepth then some { loop := true }
    else
      let start := match startDir with
        | some dir => some (dir, path)
        | none => vol.findRoot path
      match start with
      | none => some {}
      | some (dir, path) =>
        let parts := pathParts path
        let findObject relDir path depth :=
          vol.findObjectBy P (findDirectory fuel) relDir path depth true
        vol.walk P (fun number loop => vol.followLinkBy findObject number symDepth loop) parts.1
          { dir := some dir, name := parts.2 }

/-- The object of a path. -/
def findObject (fuel : Nat) (relDir : Option Nat) (path : List Char) (symDepth : Nat)
    (getEquiv : Bool) : Option FoundObj :=
  vol.findObjectBy P (vol.findDirectory P fuel) relDir path symDepth getEquiv

/-- The object that a symbolic or hard link leads to. -/
def followLink (fuel : Nat) (number : Option Nat) (loop : Bool) : Option (Option Nat × Bool) :=
  vol.followLinkBy (fun relDir path depth => vol.findObject P fuel relDir path depth true) number 0
    loop

end Volume

end Yaffs
