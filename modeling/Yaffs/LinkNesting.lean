import Yaffs.TreeRuns

/-!
# Nested symbolic links

A path is resolved part by part, and where a part is a symbolic link the text of the link is
resolved in its place.  The look-up counts the links of a chain, where each link is at the end of
the text of the one before.  A link before the end of a text is looked up with the count of the text
itself, so that such links can be nested without end.
-/

namespace Yaffs

/-- What a resolution with a limit for nested expansions comes to: a value, or a link nested too
deep.  In a chain every nested link is at the end of the text of the link before. -/
inductive Resolution (α : Type)
  | done (value : α)
  | tooDeep (chained : Bool)
deriving DecidableEq

namespace Resolution

/-- Go on from the value of a resolution. -/
def bind {α β : Type} (resolution : Resolution α) (next : α → Resolution β) : Resolution β :=
  match resolution with
  | .done value => next value
  | .tooDeep chained => .tooDeep chained

/-- The same resolution for something computed from its value. -/
def map {α β : Type} (f : α → β) (resolution : Resolution α) : Resolution β :=
  resolution.bind fun value => .done (f value)

end Resolution

/-- Expansions that may be nested. -/
def maxNested : Nat := maxSymlinkDereferences + 1

/-- The directory where the text of a link begins, unless that begins at the root. -/
def Node.textStart (link : Node) : Option Nat :=
  if (link.aliasStr.head?.map isPathDivider).getD false then none else link.parent

namespace Volume

variable {Store : Type} (P : Pages Store) (vol : Volume Store)

/-! ## Resolution -/

/-- The object that a name within a directory stands for. -/
def foundObject (getEquiv : Bool) (found : FoundDir) : FoundObj :=
  let obj := match found.dir with
    | none => none
    | some dir =>
      if found.name = ['.', '.'] then vol.parentOf dir
      else if found.name = ['.'] ∨ found.name = [] then some dir
      else vol.findByName P dir found.name
  { obj := if getEquiv then vol.getEquivalentObj obj else obj
    dir := found.dir
    notDir := found.notDir
    loop := found.loop }

/-- The directory where a look-up begins, and the path from there. -/
def startOf (startDir : Option Nat) (path : List Char) : Option (Nat × List Char) :=
  match startDir with
  | some dir => some (dir, path)
  | none => vol.findRoot path

/-- Resolve the directories of a path: the directory that they lead to, and whether something that
is no directory was in the way. -/
def resolveParts (expand : Option Nat → Resolution (Option Nat)) :
    List (List Char) → Option Nat → Resolution (Option Nat × Bool)
  | _, none => .done (none, false)
  | [], some dir => .done (some dir, false)
  | part :: rest, some dir =>
    let str := part.take maxNameLength
    if str = ['.'] then resolveParts expand rest (some dir)
    else if str = ['.', '.'] then resolveParts expand rest (vol.parentOf dir)
    else
      (expand (vol.findByName P dir str)).bind fun target =>
        if target.any fun next => !vol.isType next .directory then .done (none, true)
        else resolveParts expand rest target

/-- Resolve the directory of a path and the name within it. -/
def resolveDirectory (expand : Option Nat → Resolution (Option Nat)) (startDir : Option Nat)
    (path : List Char) : Resolution FoundDir :=
  match vol.startOf startDir path with
  | none => .done {}
  | some (dir, path) =>
    let parts := pathParts path
    (vol.resolveParts P expand parts.1 (some dir)).map fun reached =>
      { dir := reached.1, name := parts.2, notDir := reached.2 }

/-- What an object that is no link stands for. -/
def unlessLink (number : Option Nat) (atLink : Node → Resolution (Option Nat)) :
    Resolution (Option Nat) :=
  match number.bind vol.objs with
  | none => .done none
  | some obj => if obj.variantType = .symlink then atLink obj else .done number

/-- Expand a symbolic link.  The links within its text are nested in it, and only the one at the end
of the text continues a chain. -/
def expand : Nat → Bool → Option Nat → Resolution (Option Nat)
  | 0, chained, number => vol.unlessLink number fun _ => .tooDeep chained
  | left + 1, chained, number =>
    vol.unlessLink number fun link =>
      (vol.resolveDirectory P (fun inner => expand left false (vol.getEquivalentObj inner))
        link.textStart link.aliasStr).bind fun found =>
          expand left chained (vol.foundObject P true found).obj

/-- The object that a link leads to. -/
def resolvedLink (limit : Nat) (number : Option Nat) : Resolution (Option Nat) :=
  vol.expand P limit true (vol.getEquivalentObj number)

/-- The directory of a path and the name within it. -/
def resolvedDirectory (startDir : Option Nat) (path : List Char) (limit : Nat) :
    Resolution FoundDir :=
  vol.resolveDirectory P (vol.resolvedLink P limit) startDir path

/-- The object of a path. -/
def resolvedObject (startDir : Option Nat) (path : List Char) (getEquiv : Bool) (limit : Nat) :
    Resolution FoundObj :=
  (vol.resolvedDirectory P startDir path limit).map (vol.foundObject P getEquiv)

/-! ## Look-ups that keep count

The functions of the look-up, with the number of expansions that they are nested in and the deepest
nesting that was seen. -/

/-- Follow a symbolic link as long as it leads to another one. -/
def followCounted (findObject : Option Nat → List Char → Nat → Nat → Option (FoundObj × Nat)) :
    Nat → Option Nat → Nat → Nat → Bool × Nat → Option (Option Nat × Bool × Nat)
  | 0, _, _, _, _ => none
  | left + 1, number, symDepth, nested, seen =>
    match number.bind vol.objs with
    | none => some (none, seen)
    | some obj =>
      if obj.variantType = .symlink then
        (findObject obj.textStart obj.aliasStr symDepth (nested + 1)).bind fun found =>
          followCounted findObject left found.1.obj (symDepth + 1) (nested + 1)
            (seen.1 || found.1.loop, max seen.2 found.2)
      else some (number, seen)

/-- Walk down the directories of a path. -/
def walkCounted (follow : Option Nat → Bool × Nat → Option (Option Nat × Bool × Nat)) :
    List (List Char) → FoundDir × Nat → Option (FoundDir × Nat)
  | [], found => some found
  | part :: rest, found =>
    match found.1.dir with
    | none => some found
    | some dir =>
      let str := part.take maxNameLength
      if str = ['.'] then walkCounted follow rest found
      else if str = ['.', '.'] then
        walkCounted follow rest ({ found.1 with dir := vol.parentOf dir }, found.2)
      else
        (follow (vol.findByName P dir str) (found.1.loop, found.2)).bind fun target =>
          let found := { found.1 with loop := target.2.1 }
          match target.1 with
          | none => some ({ found with dir := none }, target.2.2)
          | some next =>
            if vol.isType next .directory then
              walkCounted follow rest ({ found with dir := some next }, target.2.2)
            else some ({ found with dir := none, notDir := true }, target.2.2)

/-- The directory of a path and the name within it.  A look-up that is refused expands nothing. -/
def findDirectoryCounted : Nat → Option Nat → List Char → Nat → Nat → Option (FoundDir × Nat)
  | 0, _, _, _, _ => none
  | fuel + 1, startDir, path, symDepth, nested =>
    if maxSymlinkDereferences < symDepth then some ({ loop := true }, 0)
    else
      match vol.startOf startDir path with
      | none => some ({}, nested)
      | some (dir, path) =>
        let parts := pathParts path
        let findObject relDir path depth nested :=
          (findDirectoryCounted fuel relDir path depth nested).map fun found =>
            (vol.foundObject P true found.1, found.2)
        vol.walkCounted P (fun number => vol.followCounted findObject followFuel
          (vol.getEquivalentObj number) symDepth nested) parts.1
          ({ dir := some dir, name := parts.2 }, nested)

/-- The object of a path. -/
def findObjectCounted (fuel : Nat) (relDir : Option Nat) (path : List Char)
    (symDepth nested : Nat) (getEquiv : Bool) : Option (FoundObj × Nat) :=
  (vol.findDirectoryCounted P fuel relDir path symDepth nested).map fun found =>
    (vol.foundObject P getEquiv found.1, found.2)

/-- The object that a symbolic or hard link leads to. -/
def followLinkCounted (fuel : Nat) (number : Option Nat) : Option ((Option Nat × Bool) × Nat) :=
  (vol.followCounted
    (fun relDir path depth nested => vol.findObjectCounted P fuel relDir path depth nested true)
    followFuel (vol.getEquivalentObj number) 0 0 (false, 0)).map fun target =>
      ((target.1, target.2.1), target.2.2)

/-! ## The counts change nothing -/

variable {P vol}

theorem map_followCounted
    {counted : Option Nat → List Char → Nat → Nat → Option (FoundObj × Nat)}
    {plain : Option Nat → List Char → Nat → Option FoundObj}
    (same : ∀ relDir path depth nested,
      (counted relDir path depth nested).map Prod.fst = plain relDir path depth)
    (left : Nat) (number : Option Nat) (symDepth nested : Nat) (seen : Bool × Nat) :
    (vol.followCounted counted left number symDepth nested seen).map (fun r => (r.1, r.2.1)) =
      vol.followLinkWith plain left number symDepth seen.1 := by
  induction left generalizing number symDepth nested seen with
  | zero => rfl
  | succ left induction =>
    rw [followCounted, followLinkWith]
    cases number.bind vol.objs with
    | none => rfl
    | some obj =>
      dsimp only
      split
      case isFalse => rfl
      case isTrue =>
        rw [← same _ _ _ (nested + 1), Node.textStart]
        cases counted (if (obj.aliasStr.head?.map isPathDivider).getD false then none
          else obj.parent) obj.aliasStr symDepth (nested + 1) with
        | none => rfl
        | some found => exact induction found.1.obj (symDepth + 1) (nested + 1) _

theorem map_walkCounted {counted : Option Nat → Bool × Nat → Option (Option Nat × Bool × Nat)}
    {plain : Option Nat → Bool → Option (Option Nat × Bool)}
    (same : ∀ number seen, (counted number seen).map (fun r => (r.1, r.2.1)) = plain number seen.1)
    (parts : List (List Char)) (found : FoundDir × Nat) :
    (vol.walkCounted P counted parts found).map Prod.fst = vol.walk P plain parts found.1 := by
  induction parts generalizing found with
  | nil => rfl
  | cons part rest induction =>
    rw [walkCounted, walk]
    cases found.1.dir with
    | none => rfl
    | some dir =>
      dsimp only
      split
      · exact induction found
      · split
        · exact induction _
        · rw [← same _ (found.1.loop, found.2)]
          cases counted (vol.findByName P dir (part.take maxNameLength))
            (found.1.loop, found.2) with
          | none => rfl
          | some target =>
            simp only [Option.bind_some, Option.map_some]
            cases target.1 with
            | none => rfl
            | some next =>
              dsimp only
              split
              · exact induction _
              · rfl

theorem findDirectory_succ (fuel : Nat) (startDir : Option Nat) (path : List Char)
    (symDepth : Nat) :
    vol.findDirectory P (fuel + 1) startDir path symDepth =
      if maxSymlinkDereferences < symDepth then some { loop := true }
      else (vol.startOf startDir path).elim (some {}) fun start =>
        vol.walk P (fun number loop => vol.followLinkBy
          (fun relDir path depth => vol.findObjectBy P (vol.findDirectory P fuel) relDir path depth
            true) number symDepth loop) (pathParts start.2).1
          { dir := some start.1, name := (pathParts start.2).2 } := by
  rw [findDirectory.eq_def]
  cases startDir with
  | some dir => rfl
  | none =>
    dsimp only [startOf]
    cases vol.findRoot path <;> rfl

/-- Without the counts the look-up of a directory is what it was. -/
theorem map_findDirectoryCounted (fuel : Nat) (startDir : Option Nat) (path : List Char)
    (symDepth nested : Nat) :
    (vol.findDirectoryCounted P fuel startDir path symDepth nested).map Prod.fst =
      vol.findDirectory P fuel startDir path symDepth := by
  induction fuel generalizing startDir path symDepth nested with
  | zero => rfl
  | succ fuel induction =>
    rw [findDirectory_succ, findDirectoryCounted.eq_def]
    dsimp only
    split
    · rfl
    · cases vol.startOf startDir path with
      | none => rfl
      | some start =>
        refine map_walkCounted (fun number seen => ?_) _ _
        refine map_followCounted (fun relDir path depth nested => ?_) _ _ _ _ _
        rw [Option.map_map, findObjectBy, ← induction relDir path depth nested, Option.map_map]
        rfl

theorem map_findObjectCounted (fuel : Nat) (relDir : Option Nat) (path : List Char)
    (symDepth nested : Nat) (getEquiv : Bool) :
    (vol.findObjectCounted P fuel relDir path symDepth nested getEquiv).map Prod.fst =
      vol.findObject P fuel relDir path symDepth getEquiv := by
  rw [findObjectCounted, findObject, findObjectBy,
    ← map_findDirectoryCounted fuel relDir path symDepth nested, Option.map_map, Option.map_map]
  rfl

theorem map_followLinkCounted (fuel : Nat) (number : Option Nat) :
    (vol.followLinkCounted P fuel number).map Prod.fst = vol.followLink P fuel number false := by
  rw [followLinkCounted, Option.map_map]
  exact map_followCounted (fun relDir path depth nested =>
    map_findObjectCounted fuel relDir path depth nested true) _ _ _ _ _

/-! ## Counts only rise -/

theorem followCounted_le {findObject : Option Nat → List Char → Nat → Nat → Option (FoundObj × Nat)}
    {left : Nat} {number : Option Nat} {symDepth nested : Nat} {seen : Bool × Nat}
    {result : Option Nat × Bool × Nat}
    (eq : vol.followCounted findObject left number symDepth nested seen = some result) :
    seen.2 ≤ result.2.2 := by
  induction left generalizing number symDepth nested seen with
  | zero => cases eq
  | succ left induction =>
    rw [followCounted] at eq
    cases held : number.bind vol.objs with
    | none =>
      rw [held] at eq
      exact (Option.some.inj eq) ▸ le_rfl
    | some obj =>
      rw [held] at eq
      dsimp only at eq
      split at eq
      case isFalse => exact (Option.some.inj eq) ▸ le_rfl
      case isTrue =>
        obtain ⟨found, -, eq⟩ := Option.bind_eq_some_iff.1 eq
        exact le_trans (le_max_left _ _) (induction eq)

theorem walkCounted_le {follow : Option Nat → Bool × Nat → Option (Option Nat × Bool × Nat)}
    (rises : ∀ number seen result, follow number seen = some result → seen.2 ≤ result.2.2)
    {parts : List (List Char)} {found result : FoundDir × Nat}
    (eq : vol.walkCounted P follow parts found = some result) : found.2 ≤ result.2 := by
  induction parts generalizing found with
  | nil => exact (Option.some.inj eq) ▸ le_rfl
  | cons part rest induction =>
    rw [walkCounted] at eq
    cases at_dir : found.1.dir with
    | none =>
      rw [at_dir] at eq
      exact (Option.some.inj eq) ▸ le_rfl
    | some dir =>
      rw [at_dir] at eq
      dsimp only at eq
      split at eq
      · exact induction eq
      · split at eq
        · exact (induction eq :)
        · obtain ⟨target, followed, eq⟩ := Option.bind_eq_some_iff.1 eq
          have risen := rises _ _ _ followed
          split at eq
          · exact (Option.some.inj eq) ▸ risen
          · split at eq
            · exact risen.trans (induction eq :)
            · exact (Option.some.inj eq) ▸ risen

/-- A look-up that is not refused counts itself. -/
theorem findDirectoryCounted_le {fuel : Nat} {startDir : Option Nat} {path : List Char}
    {symDepth nested : Nat} (allowed : symDepth ≤ maxSymlinkDereferences)
    {result : FoundDir × Nat}
    (eq : vol.findDirectoryCounted P fuel startDir path symDepth nested = some result) :
    nested ≤ result.2 := by
  cases fuel with
  | zero => cases eq
  | succ fuel =>
    rw [findDirectoryCounted.eq_def] at eq
    dsimp only at eq
    rw [if_neg (Nat.not_lt.2 allowed)] at eq
    cases start_eq : vol.startOf startDir path with
    | none =>
      rw [start_eq] at eq
      exact (Option.some.inj eq) ▸ le_rfl
    | some start =>
      rw [start_eq] at eq
      exact (walkCounted_le (fun number seen result => followCounted_le) eq :)

/-! ## Look-ups and resolutions -/

/-- What a look-up has to do with a resolution up to the deepest nesting: it finds the same, it is
refused, or it goes deeper. -/
def Agrees {α : Type} (resolution : Resolution α) (same : α → Prop) (refused : Prop)
    (deepest : Nat) : Prop :=
  match resolution with
  | .done value => same value ∧ deepest ≤ maxNested
  | .tooDeep true => refused ∧ deepest ≤ maxNested
  | .tooDeep false => maxNested < deepest

theorem Agrees.bind {α β : Type} {resolution : Resolution α} {next : α → Resolution β}
    {same : α → Prop} {refused : Prop} {deepest : Nat}
    (agrees : Agrees resolution same refused deepest)
    {same' : β → Prop} {refused' : Prop} {deepest' : Nat} (rises : deepest ≤ deepest')
    (refusal : refused → deepest ≤ maxNested → refused' ∧ deepest' ≤ maxNested)
    (step : ∀ value, resolution = .done value → same value → deepest ≤ maxNested →
      Agrees (next value) same' refused' deepest') :
    Agrees (resolution.bind next) same' refused' deepest' := by
  cases resolution with
  | done value => exact step value rfl agrees.1 agrees.2
  | tooDeep chained =>
    cases chained with
    | true => exact refusal agrees.1 agrees.2
    | false => exact Nat.lt_of_lt_of_le agrees rises

theorem Agrees.imp {α : Type} {resolution : Resolution α} {same same' : α → Prop}
    {refused refused' : Prop} {deepest : Nat} (agrees : Agrees resolution same refused deepest)
    (same_imp : ∀ value, same value → same' value) (refused_imp : refused → refused') :
    Agrees resolution same' refused' deepest := by
  cases resolution with
  | done value => exact ⟨same_imp value agrees.1, agrees.2⟩
  | tooDeep chained =>
    cases chained with
    | true => exact ⟨refused_imp agrees.1, agrees.2⟩
    | false => exact agrees

/-- Following agrees with expanding. -/
def FollowAgrees (expand : Option Nat → Resolution (Option Nat))
    (follow : Option Nat → Bool × Nat → Option (Option Nat × Bool × Nat)) : Prop :=
  ∀ number seen result, seen.2 ≤ maxNested → follow number seen = some result →
    Agrees (expand number) (fun value => result.1 = value ∧ result.2.1 = seen.1)
      (result.1 = none ∧ result.2.1 = true) result.2.2

theorem resolveParts_none (expand : Option Nat → Resolution (Option Nat))
    (parts : List (List Char)) : vol.resolveParts P expand parts none = .done (none, false) := by
  cases parts <;> rfl

theorem walkCounted_none {follow : Option Nat → Bool × Nat → Option (Option Nat × Bool × Nat)}
    (parts : List (List Char)) {found : FoundDir × Nat} (nowhere : found.1.dir = none) :
    vol.walkCounted P follow parts found = some found := by
  cases parts with
  | nil => rfl
  | cons part rest => rw [walkCounted, nowhere]

theorem eq_reached {found : FoundDir} {dir : Option Nat} (at_dir : found.dir = dir)
    (clear : found.notDir = false) : found = { found with dir := dir, notDir := false } := by
  rw [← at_dir, ← clear]

theorem walkCounted_agrees {expand : Option Nat → Resolution (Option Nat)}
    {follow : Option Nat → Bool × Nat → Option (Option Nat × Bool × Nat)}
    (rises : ∀ number seen result, follow number seen = some result → seen.2 ≤ result.2.2)
    (agrees : FollowAgrees expand follow) {parts : List (List Char)}
    {found result : FoundDir × Nat} (shallow : found.2 ≤ maxNested)
    (clear : found.1.notDir = false)
    (eq : vol.walkCounted P follow parts found = some result) :
    Agrees (vol.resolveParts P expand parts found.1.dir)
      (fun reached => result.1 = { found.1 with dir := reached.1, notDir := reached.2 })
      (result.1.dir = none ∧ result.1.loop = true) result.2 := by
  induction parts generalizing found with
  | nil =>
    obtain rfl := Option.some.inj eq
    cases at_dir : found.1.dir with
    | none => exact ⟨eq_reached at_dir clear, shallow⟩
    | some dir => exact ⟨eq_reached at_dir clear, shallow⟩
  | cons part rest induction =>
    cases at_dir : found.1.dir with
    | none =>
      rw [walkCounted_none (part :: rest) at_dir] at eq
      obtain rfl := Option.some.inj eq
      exact ⟨eq_reached at_dir clear, shallow⟩
    | some dir =>
      rw [walkCounted, at_dir] at eq
      rw [resolveParts]
      dsimp only at eq ⊢
      split
      case isTrue dot =>
        rw [if_pos dot] at eq
        have walked := induction shallow clear eq
        rwa [at_dir] at walked
      case isFalse no_dot =>
        rw [if_neg no_dot] at eq
        split
        case isTrue up =>
          rw [if_pos up] at eq
          exact @induction ({ found.1 with dir := vol.parentOf dir }, found.2) shallow clear eq
        case isFalse no_up =>
          rw [if_neg no_up] at eq
          obtain ⟨target, followed, eq⟩ := Option.bind_eq_some_iff.1 eq
          have target_agrees := agrees _ _ _ shallow followed
          cases target_eq : target.1 with
          | none =>
            rw [target_eq] at eq
            obtain rfl := Option.some.inj eq
            refine target_agrees.bind le_rfl (fun refused deep => ⟨⟨rfl, refused.2⟩, deep⟩) ?_
            rintro value - ⟨value_eq, loop_eq⟩ deep
            obtain rfl : none = value := target_eq.symm.trans value_eq
            dsimp only [Option.any_none, Bool.false_eq_true, if_false]
            rw [if_neg Bool.false_ne_true, resolveParts_none]
            exact ⟨by rw [loop_eq, ← clear], deep⟩
          | some next =>
            rw [target_eq] at eq
            dsimp only at eq
            split at eq
            case isTrue is_dir =>
              refine target_agrees.bind (walkCounted_le rises eq :)
                (fun refused _ => absurd (target_eq.symm.trans refused.1) nofun) ?_
              rintro value - ⟨value_eq, loop_eq⟩ deep
              obtain rfl : some next = value := target_eq.symm.trans value_eq
              have walked := @induction
                ({ found.1 with loop := target.2.1, dir := some next }, target.2.2) deep clear eq
              rw [Option.any_some, is_dir, Bool.not_true, if_neg Bool.false_ne_true]
              refine walked.imp (fun reached same => ?_) id
              rw [same, loop_eq]
            case isFalse not_dir =>
              obtain rfl := Option.some.inj eq
              refine target_agrees.bind le_rfl
                (fun refused _ => absurd (target_eq.symm.trans refused.1) nofun) ?_
              rintro value - ⟨value_eq, loop_eq⟩ deep
              obtain rfl : some next = value := target_eq.symm.trans value_eq
              rw [Option.any_some, Bool.eq_false_iff.2 not_dir, Bool.not_false, if_pos rfl]
              exact ⟨by rw [loop_eq], deep⟩


/-- A walk returns where following does, until a link is nested too deep. -/
theorem walkCounted_returns {expand : Option Nat → Resolution (Option Nat)}
    {follow : Option Nat → Bool × Nat → Option (Option Nat × Bool × Nat)}
    (agrees : FollowAgrees expand follow)
    (returns : ∀ number seen, expand number ≠ .tooDeep false → (follow number seen).isSome = true)
    {parts : List (List Char)} {found : FoundDir × Nat} (shallow : found.2 ≤ maxNested)
    (fine : vol.resolveParts P expand parts found.1.dir ≠ .tooDeep false) :
    (vol.walkCounted P follow parts found).isSome = true := by
  induction parts generalizing found with
  | nil => rfl
  | cons part rest induction =>
    cases at_dir : found.1.dir with
    | none => rw [walkCounted_none (part :: rest) at_dir, Option.isSome_some]
    | some dir =>
      rw [walkCounted, at_dir]
      rw [at_dir, resolveParts] at fine
      dsimp only at fine ⊢
      split
      case isTrue dot =>
        rw [if_pos dot, ← at_dir] at fine
        exact induction shallow fine
      case isFalse no_dot =>
        rw [if_neg no_dot] at fine
        split
        case isTrue up =>
          rw [if_pos up] at fine
          exact @induction ({ found.1 with dir := vol.parentOf dir }, found.2) shallow fine
        case isFalse no_up =>
          rw [if_neg no_up] at fine
          have expands : expand (vol.findByName P dir (part.take maxNameLength)) ≠ .tooDeep false :=
            fun deep => fine (by rw [deep]; rfl)
          obtain ⟨target, followed⟩ :=
            Option.isSome_iff_exists.1 (returns _ (found.1.loop, found.2) expands)
          have target_agrees := agrees _ _ _ shallow followed
          rw [followed, Option.bind_some]
          cases target_eq : target.1 with
          | none => rfl
          | some next =>
            dsimp only
            split
            case isFalse => rfl
            case isTrue is_dir =>
              cases expanded : expand (vol.findByName P dir (part.take maxNameLength)) with
              | tooDeep chained =>
                cases chained with
                | true =>
                  rw [expanded] at target_agrees
                  exact absurd (target_eq.symm.trans target_agrees.1.1) nofun
                | false => exact absurd expanded expands
              | done value =>
                rw [expanded] at target_agrees fine
                obtain rfl : some next = value := target_eq.symm.trans target_agrees.1.1
                rw [Resolution.bind, Option.any_some, is_dir, Bool.not_true,
                  if_neg Bool.false_ne_true] at fine
                exact @induction ({ found.1 with loop := target.2.1, dir := some next }, target.2.2)
                  target_agrees.2 fine

/-- How a look-up of an inner text follows a link. -/
def followWith (P : Pages Store) (vol : Volume Store) (fuel chain symDepth nested : Nat)
    (number : Option Nat) (seen : Bool × Nat) : Option (Option Nat × Bool × Nat) :=
  vol.followCounted
    (fun relDir path depth nested => vol.findObjectCounted P fuel relDir path depth nested true)
    chain number symDepth nested seen

theorem findDirectoryCounted_agrees {fuel : Nat} {expand : Option Nat → Resolution (Option Nat)}
    {startDir : Option Nat} {path : List Char} {symDepth nested : Nat}
    (allowed : symDepth ≤ maxSymlinkDereferences) (shallow : nested ≤ maxNested)
    (agrees : FollowAgrees expand fun number =>
      vol.followWith P fuel followFuel symDepth nested (vol.getEquivalentObj number))
    {result : FoundDir × Nat}
    (eq : vol.findDirectoryCounted P (fuel + 1) startDir path symDepth nested = some result) :
    Agrees (vol.resolveDirectory P expand startDir path) (fun value => result.1 = value)
      (result.1.dir = none ∧ result.1.loop = true) result.2 := by
  rw [findDirectoryCounted.eq_def] at eq
  rw [resolveDirectory]
  dsimp only at eq ⊢
  rw [if_neg (Nat.not_lt.2 allowed)] at eq
  cases start_eq : vol.startOf startDir path with
  | none =>
    rw [start_eq] at eq
    obtain rfl := Option.some.inj eq
    exact ⟨rfl, shallow⟩
  | some start =>
    rw [start_eq] at eq
    have walked := @walkCounted_agrees _ P vol expand _
      (fun number seen result => followCounted_le) agrees (pathParts start.2).1
      ({ dir := some start.1, name := (pathParts start.2).2 }, nested) result shallow rfl eq
    exact walked.bind le_rfl (fun refused deep => ⟨refused, deep⟩)
      fun value _ same deep => ⟨same, deep⟩

theorem findDirectoryCounted_returns {fuel : Nat} {expand : Option Nat → Resolution (Option Nat)}
    {startDir : Option Nat} {path : List Char} {symDepth nested : Nat}
    (shallow : nested ≤ maxNested)
    (agrees : FollowAgrees expand fun number =>
      vol.followWith P fuel followFuel symDepth nested (vol.getEquivalentObj number))
    (returns : ∀ number seen, expand number ≠ .tooDeep false →
      (vol.followWith P fuel followFuel symDepth nested (vol.getEquivalentObj number) seen).isSome =
        true)
    (fine : vol.resolveDirectory P expand startDir path ≠ .tooDeep false) :
    (vol.findDirectoryCounted P (fuel + 1) startDir path symDepth nested).isSome = true := by
  rw [findDirectoryCounted.eq_def]
  rw [resolveDirectory] at fine
  dsimp only at fine ⊢
  split
  · rfl
  · cases start_eq : vol.startOf startDir path with
    | none => rfl
    | some start =>
      rw [start_eq] at fine
      refine @walkCounted_returns _ P vol expand _ agrees returns (pathParts start.2).1
        ({ dir := some start.1, name := (pathParts start.2).2 }, nested) shallow fun deep => ?_
      exact fine (by dsimp only at deep ⊢; rw [deep]; rfl)

theorem loop_of_resolveDirectory {expand : Option Nat → Resolution (Option Nat)}
    {startDir : Option Nat} {path : List Char} {found : FoundDir}
    (resolved : vol.resolveDirectory P expand startDir path = .done found) :
    found.loop = false := by
  rw [resolveDirectory] at resolved
  cases start_eq : vol.startOf startDir path with
  | none =>
    rw [start_eq] at resolved
    exact Resolution.done.inj resolved ▸ rfl
  | some start =>
    rw [start_eq] at resolved
    dsimp only [Resolution.map] at resolved
    cases reached_eq : vol.resolveParts P expand (pathParts start.2).1 (some start.1) with
    | tooDeep chained =>
      rw [reached_eq] at resolved
      cases resolved
    | done reached =>
      rw [reached_eq] at resolved
      exact Resolution.done.inj resolved ▸ rfl

/-- A number either is that of a link or is what it stands for. -/
theorem link_or_done (number : Option Nat) :
    (∃ link, number.bind vol.objs = some link ∧ link.variantType = .symlink) ∨
      ∃ value, (∀ atLink, vol.unlessLink number atLink = .done value) ∧
        ∀ fuel chain symDepth nested seen,
          vol.followWith P fuel (chain + 1) symDepth nested number seen = some (value, seen) := by
  cases held : number.bind vol.objs with
  | none =>
    refine .inr ⟨none, fun atLink => ?_, fun fuel chain symDepth nested seen => ?_⟩
    · rw [unlessLink, held]
    · rw [followWith, followCounted, held]
  | some obj =>
    by_cases is_link : obj.variantType = .symlink
    · exact .inl ⟨obj, rfl, is_link⟩
    · refine .inr ⟨number, fun atLink => ?_, fun fuel chain symDepth nested seen => ?_⟩
      · rw [unlessLink, held]
        exact if_neg is_link
      · rw [followWith, followCounted, held]
        exact if_neg is_link

theorem followWith_link {number : Option Nat} {link : Node}
    (held : number.bind vol.objs = some link)
    (is_link : link.variantType = .symlink) (fuel chain symDepth nested : Nat)
    (seen : Bool × Nat) :
    vol.followWith P fuel (chain + 1) symDepth nested number seen =
      (vol.findObjectCounted P fuel link.textStart link.aliasStr symDepth (nested + 1) true).bind
        fun found => vol.followWith P fuel chain (symDepth + 1) (nested + 1) found.1.obj
          (seen.1 || found.1.loop, max seen.2 found.2) := by
  rw [followWith, followCounted, held]
  exact if_pos is_link

theorem unlessLink_link {number : Option Nat} {link : Node}
    (held : number.bind vol.objs = some link)
    (is_link : link.variantType = .symlink) (atLink : Node → Resolution (Option Nat)) :
    vol.unlessLink number atLink = atLink link := by
  rw [unlessLink, held]
  exact if_pos is_link

theorem followWith_none (fuel chain symDepth nested : Nat) (seen : Bool × Nat) :
    vol.followWith P fuel (chain + 1) symDepth nested none seen = some (none, seen) := rfl

/-- Following agrees with expanding for a link and returns where that does not go too deep. -/
def ExpandAgrees (P : Pages Store) (vol : Volume Store) (left fuel chain symDepth nested : Nat)
    (chained : Bool) (number : Option Nat) (seen : Bool × Nat) : Prop :=
  (seen.2 ≤ maxNested → ∀ result,
    vol.followWith P fuel chain symDepth nested number seen = some result →
      Agrees (vol.expand P left chained number)
        (fun value => result.1 = value ∧ result.2.1 = seen.1)
        (result.1 = none ∧ result.2.1 = true) result.2.2) ∧
    (left < fuel → vol.expand P left chained number ≠ .tooDeep false →
      (vol.followWith P fuel chain symDepth nested number seen).isSome = true)

theorem expandAgrees_done {left fuel chain symDepth nested : Nat} {chained : Bool}
    {number value : Option Nat} {seen : Bool × Nat}
    (expands : vol.expand P left chained number = .done value)
    (follows : vol.followWith P fuel chain symDepth nested number seen = some (value, seen)) :
    ExpandAgrees P vol left fuel chain symDepth nested chained number seen := by
  rw [ExpandAgrees, expands, follows]
  exact ⟨fun shallow result eq => Option.some.inj eq ▸ ⟨⟨rfl, rfl⟩, shallow⟩, fun _ _ => rfl⟩

/-- Where no more expansions may be nested, a link in a chain is refused, and another one is
expanded. -/
theorem expandAgrees_zero {fuel chain symDepth nested : Nat} {chained : Bool}
    (room : nested = maxNested)
    (count : if chained then symDepth = nested else symDepth < nested)
    (long : followFuel ≤ chain + 1 + symDepth) {number : Option Nat} {link : Node}
    (held : number.bind vol.objs = some link) (is_link : link.variantType = .symlink)
    (seen : Bool × Nat) :
    ExpandAgrees P vol 0 fuel (chain + 1) symDepth nested chained number seen := by
  subst room
  have expands : vol.expand P 0 chained number = .tooDeep chained := unlessLink_link held is_link _
  rw [ExpandAgrees, expands, followWith_link held is_link]
  cases chained with
  | true =>
    obtain rfl : symDepth = maxNested := count
    obtain ⟨chain, rfl⟩ : ∃ n, chain = n + 1 :=
      ⟨chain - 1, by simp only [followFuel, maxNested, maxSymlinkDereferences] at long; omega⟩
    cases fuel with
    | zero => exact ⟨fun _ _ eq => absurd eq nofun, fun room => absurd room (Nat.lt_irrefl 0)⟩
    | succ fuel =>
      have refused : vol.findObjectCounted P (fuel + 1) link.textStart link.aliasStr maxNested
          (maxNested + 1) true = some ({ loop := true }, 0) := rfl
      rw [refused, Option.bind_some, followWith_none]
      refine ⟨fun shallow result eq => Option.some.inj eq ▸ ⟨⟨rfl, ?_⟩, ?_⟩, fun _ _ => rfl⟩
      · exact Bool.or_true _
      · exact max_le shallow (Nat.zero_le _)
  | false =>
    have low : symDepth < maxNested := count
    refine ⟨fun shallow result eq => ?_, fun _ fine => absurd rfl fine⟩
    obtain ⟨found, looked, eq⟩ := Option.bind_eq_some_iff.1 eq
    obtain ⟨dir, dir_eq, rfl⟩ := Option.map_eq_some_iff.1 looked
    have deep := findDirectoryCounted_le (Nat.le_of_lt_succ low) dir_eq
    exact Nat.lt_of_lt_of_le (Nat.lt_of_succ_le deep)
      ((le_max_right _ _).trans (followCounted_le eq))

/-- Where another expansion may be nested, the text of a link is looked up, and the link that it may
lead to is next in the chain. -/
theorem expandAgrees_succ {left fuel chain symDepth nested : Nat} {chained : Bool}
    (room : left + 1 + nested = maxNested) (count : symDepth ≤ nested)
    (long : followFuel ≤ chain + 1 + symDepth) {number : Option Nat} {link : Node}
    (held : number.bind vol.objs = some link) (is_link : link.variantType = .symlink)
    (inner : ∀ fuel number seen,
      ExpandAgrees P vol left fuel followFuel symDepth (nested + 1) false number seen)
    (next : ∀ number seen,
      ExpandAgrees P vol left fuel chain (symDepth + 1) (nested + 1) chained number seen)
    (seen : Bool × Nat) :
    ExpandAgrees P vol (left + 1) fuel (chain + 1) symDepth nested chained number seen := by
  have expands : vol.expand P (left + 1) chained number =
      (vol.resolveDirectory P (fun inner => vol.expand P left false (vol.getEquivalentObj inner))
        link.textStart link.aliasStr).bind fun found =>
          vol.expand P left chained (vol.foundObject P true found).obj :=
    unlessLink_link held is_link _
  rw [ExpandAgrees, expands, followWith_link held is_link]
  cases fuel with
  | zero => exact ⟨fun _ _ eq => absurd eq nofun, fun room => absurd room (Nat.not_lt_zero _)⟩
  | succ fuel =>
    have allowed : symDepth ≤ maxSymlinkDereferences := by
      simp only [maxNested] at room
      omega
    have shallow_text : nested + 1 ≤ maxNested := by omega
    have inner_agrees : FollowAgrees
        (fun inner => vol.expand P left false (vol.getEquivalentObj inner)) fun number =>
          vol.followWith P fuel followFuel symDepth (nested + 1) (vol.getEquivalentObj number) :=
      fun number seen result shallow =>
        (inner fuel (vol.getEquivalentObj number) seen).1 shallow result
    obtain ⟨chain, rfl⟩ : ∃ n, chain = n + 1 :=
      ⟨chain - 1, by simp only [followFuel, maxSymlinkDereferences] at long allowed; omega⟩
    have nowhere : ∀ dir : FoundDir, dir.dir = none → (vol.foundObject P true dir).obj = none := by
      intro dir none
      rw [foundObject, none]
      rfl
    refine ⟨fun shallow result eq => ?_, fun room fine => ?_⟩
    · obtain ⟨found, looked, eq⟩ := Option.bind_eq_some_iff.1 eq
      obtain ⟨dir, dir_eq, rfl⟩ := Option.map_eq_some_iff.1 looked
      have dir_agrees := findDirectoryCounted_agrees allowed shallow_text inner_agrees dir_eq
      refine dir_agrees.bind ((le_max_right _ _).trans (followCounted_le eq :))
        (fun refused deep => ?_) fun value resolved same deep => ?_
      · rw [nowhere dir.1 refused.1, followWith_none] at eq
        obtain rfl := Option.some.inj eq
        refine ⟨⟨rfl, ?_⟩, max_le shallow deep⟩
        exact (congrArg (seen.1 || ·) refused.2).trans (Bool.or_true _)
      · subst same
        have quiet : (seen.1 || dir.1.loop) = seen.1 := by
          rw [loop_of_resolveDirectory resolved, Bool.or_false]
        have agrees := (next (vol.foundObject P true dir.1).obj (seen.1 || dir.1.loop,
          max seen.2 dir.2)).1 (max_le shallow deep) result eq
        exact agrees.imp (fun _ same => ⟨same.1, same.2.trans quiet⟩) id
    · have room := Nat.lt_of_succ_lt_succ room
      have dir_fine : vol.resolveDirectory P
          (fun inner => vol.expand P left false (vol.getEquivalentObj inner)) link.textStart
            link.aliasStr ≠ .tooDeep false := fun deep => fine (by rw [deep]; rfl)
      obtain ⟨dir, dir_eq⟩ := Option.isSome_iff_exists.1 (findDirectoryCounted_returns
        shallow_text inner_agrees (fun number seen => (inner fuel _ seen).2 room) dir_fine)
      have dir_agrees := findDirectoryCounted_agrees allowed shallow_text inner_agrees dir_eq
      rw [findObjectCounted, dir_eq, Option.map_some, Option.bind_some]
      cases resolved : vol.resolveDirectory P
          (fun inner => vol.expand P left false (vol.getEquivalentObj inner)) link.textStart
            link.aliasStr with
      | done value =>
        rw [resolved] at dir_agrees fine
        rw [dir_agrees.1]
        exact (next _ _).2 (Nat.lt_succ_of_lt room) fine
      | tooDeep chained =>
        cases chained with
        | true =>
          rw [resolved] at dir_agrees
          rw [nowhere dir.1 dir_agrees.1.1]
          rfl
        | false => exact absurd resolved dir_fine

/-- Following agrees with expanding where the count of the look-up is right for a link in a chain,
or too low for another one. -/
theorem expandAgrees {left fuel chain symDepth nested : Nat} {chained : Bool}
    (room : left + nested = maxNested)
    (count : if chained then symDepth = nested else symDepth < nested)
    (long : followFuel ≤ chain + symDepth) (number : Option Nat) (seen : Bool × Nat) :
    ExpandAgrees P vol left fuel chain symDepth nested chained number seen := by
  have count_le : symDepth ≤ nested := by
    split at count <;> omega
  induction left generalizing fuel chain symDepth nested chained number seen with
  | zero =>
    obtain ⟨chain, rfl⟩ : ∃ n, chain = n + 1 := by
      refine ⟨chain - 1, ?_⟩
      simp only [followFuel, maxNested, maxSymlinkDereferences] at long room
      omega
    rcases link_or_done number with ⟨link, held, is_link⟩ | ⟨value, done, follows⟩
    · exact expandAgrees_zero (by omega) count long held is_link seen
    · exact expandAgrees_done (done _) (follows fuel chain symDepth nested seen)
  | succ left induction =>
    obtain ⟨chain, rfl⟩ : ∃ n, chain = n + 1 := by
      refine ⟨chain - 1, ?_⟩
      simp only [followFuel, maxNested, maxSymlinkDereferences] at long room
      omega
    rcases link_or_done number with ⟨link, held, is_link⟩ | ⟨value, done, follows⟩
    · have inner_room : left + (nested + 1) = maxNested := by omega
      refine expandAgrees_succ room count_le long held is_link (fun fuel number seen => ?_)
        (fun number seen => ?_) seen
      · exact @induction fuel followFuel symDepth (nested + 1) false inner_room
          (Nat.lt_succ_of_le count_le) (Nat.le_add_right _ _) number seen
          (Nat.le_succ_of_le count_le)
      · refine induction inner_room ?_ (by omega) number seen (Nat.succ_le_succ count_le)
        split at count
        case isTrue right => exact (if_pos right).mpr (congrArg (· + 1) count)
        case isFalse low => exact (if_neg low).mpr (Nat.succ_lt_succ count)
    · exact expandAgrees_done (done _) (follows fuel chain symDepth nested seen)

/-! ## More room -/

/-- An expansion that finds everything that another one finds. -/
def Extends (expand wider : Option Nat → Resolution (Option Nat)) : Prop :=
  ∀ number value, expand number = .done value → wider number = .done value

theorem Extends.resolveParts {expand wider : Option Nat → Resolution (Option Nat)}
    (wide : Extends expand wider) {parts : List (List Char)} {dir : Option Nat}
    {reached : Option Nat × Bool} (eq : vol.resolveParts P expand parts dir = .done reached) :
    vol.resolveParts P wider parts dir = .done reached := by
  induction parts generalizing dir with
  | nil => cases dir <;> exact eq
  | cons part rest induction =>
    cases dir with
    | none => exact eq
    | some dir =>
      rw [Volume.resolveParts] at eq ⊢
      split
      case isTrue dot =>
        rw [if_pos dot] at eq
        exact induction eq
      case isFalse no_dot =>
        rw [if_neg no_dot] at eq
        split
        case isTrue up =>
          rw [if_pos up] at eq
          exact induction eq
        case isFalse no_up =>
          rw [if_neg no_up] at eq
          cases expanded : expand (vol.findByName P dir (part.take maxNameLength)) with
          | tooDeep chained =>
            rw [expanded] at eq
            cases eq
          | done target =>
            rw [expanded, Resolution.bind] at eq
            rw [wide _ _ expanded, Resolution.bind]
            split
            case isTrue no_dir =>
              rw [if_pos no_dir] at eq
              exact eq
            case isFalse is_dir =>
              rw [if_neg is_dir] at eq
              exact induction eq

theorem Extends.resolveDirectory {expand wider : Option Nat → Resolution (Option Nat)}
    (wide : Extends expand wider) {startDir : Option Nat} {path : List Char} {found : FoundDir}
    (eq : vol.resolveDirectory P expand startDir path = .done found) :
    vol.resolveDirectory P wider startDir path = .done found := by
  rw [Volume.resolveDirectory] at eq ⊢
  cases start_eq : vol.startOf startDir path with
  | none =>
    rw [start_eq] at eq
    exact eq
  | some start =>
    rw [start_eq] at eq
    dsimp only [Resolution.map] at eq ⊢
    cases reached_eq : vol.resolveParts P expand (pathParts start.2).1 (some start.1) with
    | tooDeep chained =>
      rw [reached_eq] at eq
      cases eq
    | done reached =>
      rw [reached_eq] at eq
      rw [wide.resolveParts reached_eq]
      exact eq

/-- What is found within a limit is found within a higher one. -/
theorem expand_succ {left : Nat} {chained : Bool} :
    Extends (vol.expand P left chained) (vol.expand P (left + 1) chained) := by
  intro number value eq
  induction left generalizing chained number value with
  | zero =>
    rcases @link_or_done _ P vol number with ⟨link, held, is_link⟩ | ⟨done, done_eq, -⟩
    · exact absurd ((unlessLink_link held is_link _).symm.trans eq) nofun
    · exact (done_eq _).trans ((done_eq _).symm.trans eq)
  | succ left induction =>
    rcases @link_or_done _ P vol number with ⟨link, held, is_link⟩ | ⟨done, done_eq, -⟩
    · rw [expand, unlessLink_link held is_link] at eq ⊢
      cases found_eq : vol.resolveDirectory P
          (fun inner => vol.expand P left false (vol.getEquivalentObj inner)) link.textStart
            link.aliasStr with
      | tooDeep chained =>
        rw [found_eq] at eq
        cases eq
      | done found =>
        rw [found_eq] at eq
        have inner : Extends (fun inner => vol.expand P left false (vol.getEquivalentObj inner))
            fun inner => vol.expand P (left + 1) false (vol.getEquivalentObj inner) :=
          fun number value eq => induction _ _ eq
        rw [inner.resolveDirectory found_eq]
        exact induction _ _ eq
    · exact (done_eq _).trans ((done_eq _).symm.trans eq)

theorem extends_resolvedLink {limit more : Nat} (le : limit ≤ more) :
    Extends (vol.resolvedLink P limit) (vol.resolvedLink P more) := by
  induction le with
  | refl => exact fun _ _ eq => eq
  | step _ induction => exact fun number value eq => expand_succ _ _ (induction number value eq)

/-! ## Where look-ups end -/

/-- A look-up ends, nests no more expansions than it may, reports a loop where no nesting would be
deep enough, and finds what a resolution within the limit finds. -/
structure LookUpRight {α β : Type} (resolution : Nat → Resolution α)
    (lookUp : Nat → Option (β × Nat)) (value : β → α) (loop : β → Bool) : Prop where
  ends : ∃ fuel, (lookUp fuel).isSome = true
  nested : ∀ fuel result, lookUp fuel = some result → result.2 ≤ maxNested
  loops : (∀ limit found, resolution limit ≠ .done found) →
    ∀ fuel result, lookUp fuel = some result → loop result.1 = true
  finds : ∀ limit ≤ maxNested, ∀ found, resolution limit = .done found →
    ∀ fuel result, lookUp fuel = some result → value result.1 = found

/-- No link is nested too deep but at the end of a chain. -/
def OnlyChains {α : Type} (resolution : Nat → Resolution α) : Prop :=
  resolution maxNested ≠ .tooDeep false

/-- The look-ups for a path and for a link are right just where their resolutions do not nest links
too deep but at the end of a chain. -/
theorem lookUpRight_iff_of_agrees {α β : Type} {resolution : Nat → Resolution α}
    {lookUp : Nat → Option (β × Nat)} {value : β → α} {loop : β → Bool} (nowhere : β → Prop)
    (returns : OnlyChains resolution → ∃ fuel, (lookUp fuel).isSome = true)
    (grows : ∀ limit ≤ maxNested, ∀ found, resolution limit = .done found →
      resolution maxNested = .done found)
    (agrees : ∀ fuel result, lookUp fuel = some result →
      Agrees (resolution maxNested) (fun found => value result.1 = found)
        (nowhere result.1 ∧ loop result.1 = true) result.2) :
    LookUpRight resolution lookUp value loop ↔ OnlyChains resolution := by
  constructor
  · intro right deep
    obtain ⟨fuel, some⟩ := right.ends
    obtain ⟨result, eq⟩ := Option.isSome_iff_exists.1 some
    have deeper := agrees fuel result eq
    rw [deep] at deeper
    exact Nat.not_lt.2 (right.nested fuel result eq) deeper
  · intro chains
    refine ⟨returns chains, fun fuel result eq => ?_, fun endless fuel result eq => ?_,
      fun limit within found resolved fuel result eq => ?_⟩
    all_goals have agree := agrees fuel result eq
    · cases resolved : resolution maxNested with
      | done found => exact (resolved ▸ agree).2
      | tooDeep chained =>
        cases chained with
        | true => exact (resolved ▸ agree).2
        | false => exact absurd resolved chains
    · cases resolved : resolution maxNested with
      | done found => exact absurd resolved (endless maxNested found)
      | tooDeep chained =>
        cases chained with
        | true => exact (resolved ▸ agree).1.2
        | false => exact absurd resolved chains
    · exact (grows limit within found resolved ▸ agree).1

/-- Following a link of a path agrees with expanding it. -/
theorem resolvedLink_agrees (fuel : Nat) (number : Option Nat) (seen : Bool × Nat) :
    ExpandAgrees P vol maxNested fuel followFuel 0 0 true number seen :=
  expandAgrees (Nat.add_zero maxNested) (by rw [if_pos rfl]) (Nat.le_add_right _ _) number seen

theorem followAgrees_resolvedLink (fuel : Nat) :
    FollowAgrees (vol.resolvedLink P maxNested) fun number =>
      vol.followWith P fuel followFuel 0 0 (vol.getEquivalentObj number) :=
  fun number seen result shallow =>
    (resolvedLink_agrees fuel (vol.getEquivalentObj number) seen).1 shallow result

theorem resolvedDirectory_agrees {fuel : Nat} {startDir : Option Nat} {path : List Char}
    {result : FoundDir × Nat}
    (eq : vol.findDirectoryCounted P fuel startDir path 0 0 = some result) :
    Agrees (vol.resolvedDirectory P startDir path maxNested) (fun found => result.1 = found)
      (result.1.dir = none ∧ result.1.loop = true) result.2 := by
  cases fuel with
  | zero => cases eq
  | succ fuel =>
    exact findDirectoryCounted_agrees (Nat.zero_le _) (Nat.zero_le _)
      (followAgrees_resolvedLink fuel) eq

theorem resolvedDirectory_returns {startDir : Option Nat} {path : List Char}
    (chains : OnlyChains (vol.resolvedDirectory P startDir path)) :
    (vol.findDirectoryCounted P (maxNested + 1 + 1) startDir path 0 0).isSome = true :=
  findDirectoryCounted_returns (Nat.zero_le _) (followAgrees_resolvedLink (maxNested + 1))
    (fun number seen => (resolvedLink_agrees (maxNested + 1) (vol.getEquivalentObj number) seen).2
      (Nat.lt_succ_self maxNested)) chains

theorem resolvedObject_agrees {fuel : Nat} {startDir : Option Nat} {path : List Char}
    {getEquiv : Bool} {result : FoundObj × Nat}
    (eq : vol.findObjectCounted P fuel startDir path 0 0 getEquiv = some result) :
    Agrees (vol.resolvedObject P startDir path getEquiv maxNested) (fun found => result.1 = found)
      (result.1.dir = none ∧ result.1.loop = true) result.2 := by
  obtain ⟨dir, dir_eq, rfl⟩ := Option.map_eq_some_iff.1 eq
  exact (resolvedDirectory_agrees dir_eq).bind le_rfl (fun refused deep => ⟨refused, deep⟩)
    fun found _ same deep => ⟨congrArg (vol.foundObject P getEquiv) same, deep⟩

theorem resolvedLink_agrees_counted {fuel : Nat} {number : Option Nat}
    {result : (Option Nat × Bool) × Nat} (eq : vol.followLinkCounted P fuel number = some result) :
    Agrees (vol.resolvedLink P maxNested number) (fun found => result.1.1 = found)
      (result.1.1 = none ∧ result.1.2 = true) result.2 := by
  obtain ⟨target, target_eq, rfl⟩ := Option.map_eq_some_iff.1 eq
  have agrees := (resolvedLink_agrees fuel (vol.getEquivalentObj number) (false, 0)).1
    (Nat.zero_le _) target target_eq
  exact agrees.imp (fun _ same => same.1) id

theorem resolvedLink_returns {number : Option Nat}
    (chains : OnlyChains fun limit => vol.resolvedLink P limit number) :
    (vol.followLinkCounted P (maxNested + 1) number).isSome = true :=
  Option.isSome_map.trans
    ((resolvedLink_agrees (maxNested + 1) (vol.getEquivalentObj number) (false, 0)).2
      (Nat.lt_succ_self maxNested) chains)

theorem lookUpRight_directory_iff (startDir : Option Nat) (path : List Char) :
    LookUpRight (vol.resolvedDirectory P startDir path)
        (fun fuel => vol.findDirectoryCounted P fuel startDir path 0 0) id FoundDir.loop ↔
      OnlyChains (vol.resolvedDirectory P startDir path) :=
  lookUpRight_iff_of_agrees (fun found => found.dir = none)
    (fun chains => ⟨_, resolvedDirectory_returns chains⟩)
    (fun _ within _ resolved => (extends_resolvedLink within).resolveDirectory resolved)
    fun _ _ eq => resolvedDirectory_agrees eq

theorem lookUpRight_object_iff (startDir : Option Nat) (path : List Char) (getEquiv : Bool) :
    LookUpRight (vol.resolvedObject P startDir path getEquiv)
        (fun fuel => vol.findObjectCounted P fuel startDir path 0 0 getEquiv) id FoundObj.loop ↔
      OnlyChains (vol.resolvedObject P startDir path getEquiv) := by
  refine lookUpRight_iff_of_agrees (fun found => found.dir = none)
    (fun chains => ⟨maxNested + 1 + 1, ?_⟩) (fun limit within found resolved => ?_)
    fun _ _ eq => resolvedObject_agrees eq
  · refine Option.isSome_map.trans (resolvedDirectory_returns fun deep => chains ?_)
    rw [resolvedObject, deep]
    rfl
  · rw [resolvedObject] at resolved ⊢
    cases dir_eq : vol.resolvedDirectory P startDir path limit with
    | tooDeep chained =>
      rw [dir_eq] at resolved
      cases resolved
    | done dir =>
      rw [dir_eq] at resolved
      have wider : vol.resolvedDirectory P startDir path maxNested = .done dir :=
        (extends_resolvedLink within).resolveDirectory dir_eq
      rw [wider]
      exact resolved

theorem lookUpRight_link_iff (number : Option Nat) :
    LookUpRight (fun limit => vol.resolvedLink P limit number)
        (fun fuel => vol.followLinkCounted P fuel number) Prod.fst Prod.snd ↔
      OnlyChains fun limit => vol.resolvedLink P limit number :=
  lookUpRight_iff_of_agrees (fun found => found.1 = none)
    (fun chains => ⟨_, resolvedLink_returns chains⟩)
    (fun _ within _ resolved => extends_resolvedLink within _ _ resolved)
    fun _ _ eq => resolvedLink_agrees_counted eq

/-- The look-ups of a path and of a link end, nest no more expansions than they may, report loops
and find what the path and the link stand for, just where no link is nested too deep but at the end
of a chain. -/
theorem lookUps_right_iff (P : Pages Store) (vol : Volume Store) (startDir : Option Nat)
    (path : List Char) (getEquiv : Bool) (number : Option Nat) :
    (LookUpRight (vol.resolvedDirectory P startDir path)
        (fun fuel => vol.findDirectoryCounted P fuel startDir path 0 0) id FoundDir.loop ↔
      OnlyChains (vol.resolvedDirectory P startDir path)) ∧
    (LookUpRight (vol.resolvedObject P startDir path getEquiv)
        (fun fuel => vol.findObjectCounted P fuel startDir path 0 0 getEquiv) id FoundObj.loop ↔
      OnlyChains (vol.resolvedObject P startDir path getEquiv)) ∧
    (LookUpRight (fun limit => vol.resolvedLink P limit number)
        (fun fuel => vol.followLinkCounted P fuel number) Prod.fst Prod.snd ↔
      OnlyChains fun limit => vol.resolvedLink P limit number) :=
  ⟨lookUpRight_directory_iff startDir path, lookUpRight_object_iff startDir path getEquiv,
    lookUpRight_link_iff number⟩

/-- A link in the root directory whose text leads through the link itself. -/
def linkInItself : Volume Unit where
  store := ()
  objs number := [(objectIdRoot, { variantType := .directory, children := [257] }),
    (257, { variantType := .symlink, shortName := "l".toList, sum := calcNameSum "l".toList,
            aliasStr := "l/x".toList, parent := some objectIdRoot })].lookup number

theorem not_lookUpRight_linkInItself : checkPath "/l/x".toList = true ∧
    ¬LookUpRight (linkInItself.resolvedObject Vfs.quietPages none "/l/x".toList true)
      (fun fuel => linkInItself.findObjectCounted Vfs.quietPages fuel none "/l/x".toList 0 0 true)
      id FoundObj.loop := by
  refine ⟨by decide, fun right => (lookUpRight_object_iff none "/l/x".toList true).1 right ?_⟩
  decide +kernel

end Volume

end Yaffs
