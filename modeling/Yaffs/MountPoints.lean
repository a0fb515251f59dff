import Yaffs.Paths
import Yaffs.Library.Parts

/-!
# Mount points

A path leads to the device whose name is the longest that the path begins with.  Two cursors go
through the name and the path, and any run of dividers counts as one.
-/

namespace Yaffs

open Parts

/-- The components of a path. -/
abbrev components (path : List Char) : List (List Char) := parts isPathDivider path

/-- Skip dividers. -/
def skipDividers (path : List Char) : List Char := path.dropWhile isPathDivider

/-- Does a path go on with text? -/
def atText (path : List Char) : Bool := path.head?.any fun ch => !isPathDivider ch

/-- The cursors in the name of a device and in a path, with the length of the text that has matched.
-/
structure Cursors where
  matching : Bool := true
  p : List Char
  leftOver : List Char
  thisMatchLength : Nat := 0

/-- Match the text up to the next divider, in the name and in the path. -/
def matchText (length : Nat) : List Char → List Char → Cursors
  | ch :: p, other :: leftOver =>
    if isPathDivider ch ∨ isPathDivider other then
      { p := ch :: p, leftOver := other :: leftOver, thisMatchLength := length }
    else if ch = other then matchText (length + 1) p leftOver
    else
      { matching := false, p := ch :: p, leftOver := other :: leftOver, thisMatchLength := length }
  | p, leftOver => { p, leftOver, thisMatchLength := length }

/-- Match one component after the other, as long as there are any in both. -/
def matchLoop : Nat → Cursors → Cursors
  | 0, cursors => cursors
  | left + 1, cursors =>
    if ¬cursors.matching ∨ cursors.p = [] ∨ cursors.leftOver = [] then cursors
    else
      let text := matchText cursors.thisMatchLength cursors.p cursors.leftOver
      if atText text.p ∨ atText text.leftOver then { text with matching := false }
      else
        matchLoop left
          { text with p := skipDividers text.p, leftOver := skipDividers text.leftOver }

/-- Match the name of a device with the beginning of a path: the length of the text that matches,
and the rest of the path. -/
def matchDevice (name path : List Char) : Option (Nat × List Char) :=
  let cursors := matchLoop name.length { p := skipDividers name, leftOver := skipDividers path }
  let leftOver := skipDividers cursors.leftOver
  if cursors.matching ∧ skipDividers cursors.p = [] then some (cursors.thisMatchLength, leftOver)
  else none

section

variable {Device : Type} (name : Device → Option (List Char))

/-- The best match so far: its length, the device and the rest of the path. -/
structure BestMatch (Device : Type) where
  longestMatch : Int := -1
  found : Option (Device × List Char) := none

/-- Look at one device of the list.  A device without a name is passed over. -/
def tryDevice (path : List Char) (best : BestMatch Device) (dev : Device) : BestMatch Device :=
  match (name dev).bind fun name => matchDevice name path with
  | some (length, leftOver) =>
    if best.longestMatch < length then { longestMatch := length, found := some (dev, leftOver) }
    else best
  | none => best

/-- The device that a path leads to, and the rest of the path. -/
def findDevice (devices : List Device) (path : List Char) : Option (Device × List Char) :=
  (devices.foldl (tryDevice name path) {}).found

/-- The device of which a path is the mount point. -/
def findMountPoint (devices : List Device) (path : List Char) : Option Device :=
  (findDevice name devices path).bind fun found => if found.2 = [] then some found.1 else none

end

/-! ## Matching one device -/

/-- The path is the components of the name, with dividers around them, followed by the rest. -/
structure RestOf (name path rest : List Char) : Prop where
  split : ∃ taken, path = taken ++ rest ∧ components taken = components name
  remaining : components path = components name ++ components rest
  start : ∀ ch ∈ rest.head?, isPathDivider ch = false

/-- The text in front of the next divider. -/
def textOf (path : List Char) : List Char := path.takeWhile fun ch => !isPathDivider ch

/-- What follows the text. -/
def afterText (path : List Char) : List Char := path.dropWhile fun ch => !isPathDivider ch

theorem textOf_append_afterText (path : List Char) : textOf path ++ afterText path = path :=
  List.takeWhile_append_dropWhile

theorem atText_iff {path : List Char} : atText path = true ↔ textOf path ≠ [] := by
  cases path with
  | nil => simp [atText, textOf]
  | cons ch path => by_cases divides : isPathDivider ch <;> simp [atText, textOf, divides]

theorem atText_afterText (path : List Char) : atText (afterText path) = false := by
  have stop := List.head?_dropWhile_not (fun ch => !isPathDivider ch) path
  simp only [atText, afterText]
  cases ends : (path.dropWhile fun ch => !isPathDivider ch).head? with
  | none => rfl
  | some ch =>
    rw [ends] at stop
    simpa using stop

theorem afterText_of_textOf {path : List Char} (none : textOf path = []) :
    afterText path = path := by
  have split := textOf_append_afterText path
  rwa [none, List.nil_append] at split

theorem textOf_cons {ch : Char} (plain : isPathDivider ch = false) (path : List Char) :
    textOf (ch :: path) = ch :: textOf path ∧ afterText (ch :: path) = afterText path := by
  simp [textOf, afterText, plain]

theorem textOf_divider {ch : Char} (divides : isPathDivider ch = true) (path : List Char) :
    textOf (ch :: path) = [] := by
  simp [textOf, divides]

/-- Cursors that have not moved and matched no text. -/
theorem stay_spec {p leftOver : List Char} (none : textOf p = [] ∨ textOf leftOver = [])
    (length : Nat) :
    (textOf p = textOf leftOver →
        ({ p, leftOver, thisMatchLength := length } : Cursors) =
          { p := afterText p
            leftOver := afterText leftOver
            thisMatchLength := length + (textOf p).length }) ∧
      (textOf p ≠ textOf leftOver → atText p = true ∨ atText leftOver = true) := by
  constructor
  · intro same
    have both : textOf p = [] ∧ textOf leftOver = [] := by
      rcases none with none | none
      · exact ⟨none, same.symm.trans none⟩
      · exact ⟨same.trans none, none⟩
    rw [afterText_of_textOf both.1, afterText_of_textOf both.2, both.1]
    rfl
  · intro differ
    rw [atText_iff, atText_iff]
    by_contra neither
    rw [not_or, not_not, not_not] at neither
    exact differ (neither.1.trans neither.2.symm)

/-- The cursors stop behind the text if it is the same in both, and before text in one of them if it
is not. -/
theorem matchText_spec (length : Nat) (p leftOver : List Char) :
    let text := matchText length p leftOver
    (textOf p = textOf leftOver →
        text =
          { p := afterText p
            leftOver := afterText leftOver
            thisMatchLength := length + (textOf p).length }) ∧
      (textOf p ≠ textOf leftOver → atText text.p = true ∨ atText text.leftOver = true) := by
  induction p generalizing length leftOver with
  | nil => exact stay_spec (.inl rfl) length
  | cons ch p ih =>
    cases leftOver with
    | nil => exact stay_spec (.inr rfl) length
    | cons other leftOver =>
      rw [matchText]
      split
      case isTrue divides =>
        refine stay_spec ?_ length
        rcases divides with divides | divides
        · exact .inl (textOf_divider divides p)
        · exact .inr (textOf_divider divides leftOver)
      case isFalse plain =>
        rw [not_or, Bool.not_eq_true, Bool.not_eq_true] at plain
        obtain ⟨text, after⟩ := textOf_cons plain.1 p
        obtain ⟨other_text, other_after⟩ := textOf_cons plain.2 leftOver
        rw [text, after, other_text, other_after]
        split
        case isTrue same =>
          obtain ⟨matched, failed⟩ := ih (length + 1) leftOver
          constructor
          · intro same_text
            rw [matched (List.cons.inj same_text).2, List.length_cons, Nat.add_right_comm]
            rfl
          · intro differ
            exact failed fun same_text => differ (by rw [same, same_text])
        case isFalse differ =>
          constructor
          · intro same_text
            exact absurd (List.cons.inj same_text).1 differ
          · intro _
            refine .inl (atText_iff.mpr ?_)
            rw [text]
            nofun

/-- After a failed comparison of components the name does not match. -/
theorem skip_ne_nil {path : List Char} (text : atText path = true) : skipDividers path ≠ [] := by
  cases path with
  | nil => simp [atText] at text
  | cons ch path =>
    have plain : isPathDivider ch = false := by simpa [atText] using text
    simp [skipDividers, plain]

theorem atText_skipDividers {path : List Char} (some_path : skipDividers path ≠ []) :
    atText (skipDividers path) = true := by
  have stop := List.head?_dropWhile_not isPathDivider path
  simp only [skipDividers] at some_path ⊢
  cases rest : path.dropWhile isPathDivider with
  | nil => exact absurd rest some_path
  | cons ch others =>
    rw [rest] at stop
    simpa [atText] using stop

@[simp]
theorem components_skipDividers (path : List Char) :
    components (skipDividers path) = components path :=
  parts_dropWhile_sep path

theorem components_of_text {path : List Char} (text : atText path = true) :
    components path = textOf path :: components (skipDividers (afterText path)) := by
  rw [components_skipDividers]
  exact parts_of_text (atText_iff.mp text)

/-- The first component is taken off the path, with the dividers behind it. -/
theorem RestOf.cons {name path rest : List Char} (text : atText path = true)
    (name_text : atText name = true) (same : textOf name = textOf path)
    (restOf : RestOf (skipDividers (afterText name)) (skipDividers (afterText path)) rest) :
    RestOf name path rest where
  split := by
    obtain ⟨taken, eq, taken_components⟩ := restOf.split
    let dividers := (afterText path).takeWhile isPathDivider
    have after : afterText path = dividers ++ (taken ++ rest) := by
      rw [← eq]
      exact List.takeWhile_append_dropWhile.symm
    refine ⟨textOf path ++ (dividers ++ taken), ?_, ?_⟩
    · rw [List.append_assoc, List.append_assoc, ← after]
      exact (textOf_append_afterText path).symm
    · rw [components_of_text name_text, same, ← taken_components]
      have ends : ∀ ch ∈ (dividers ++ taken).head?, isPathDivider ch = true := by
        intro ch mem
        have first : ch ∈ (afterText path).head? := by
          rw [after, ← List.append_assoc]
          exact List.mem_head?_append_of_mem_head? mem
        have stop := atText_afterText path
        simpa [atText, Option.mem_def.mp first] using stop
      have whole : components (textOf path ++ (dividers ++ taken)) =
          textOf path :: components (dividers ++ taken) :=
        parts_append_text (atText_iff.mp text)
          (fun ch mem => by simpa using List.mem_takeWhile_imp mem) ends
      have skipped : components (dividers ++ taken) = components taken :=
        parts_append_seps (fun ch mem => List.mem_takeWhile_imp mem) taken
      rw [whole, skipped]
  remaining := by
    rw [components_of_text text, components_of_text name_text, restOf.remaining, same]
    rfl
  start := restOf.start

/-- A name without components stands in front of every path. -/
theorem RestOf.nil (path : List Char) : RestOf [] path (skipDividers path) where
  split := by
    refine ⟨path.takeWhile isPathDivider, List.takeWhile_append_dropWhile.symm, ?_⟩
    rw [← List.append_nil (path.takeWhile isPathDivider)]
    exact parts_append_seps (fun ch mem => List.mem_takeWhile_imp mem) []
  remaining := (components_skipDividers path).symm
  start := by
    intro ch mem
    have stop := List.head?_dropWhile_not isPathDivider path
    rw [skipDividers] at mem
    rw [Option.mem_def.mp mem] at stop
    simpa using stop

/-- Dividers in front of the name and of the path do not matter. -/
theorem RestOf.of_skipped {name path rest : List Char}
    (restOf : RestOf (skipDividers name) (skipDividers path) rest) : RestOf name path rest where
  split := by
    obtain ⟨taken, eq, taken_components⟩ := restOf.split
    refine ⟨path.takeWhile isPathDivider ++ taken, ?_, ?_⟩
    · rw [List.append_assoc, ← eq]
      exact List.takeWhile_append_dropWhile.symm
    · rw [← components_skipDividers name, ← taken_components]
      exact parts_append_seps (fun ch mem => List.mem_takeWhile_imp mem) taken
  remaining := by
    have remaining := restOf.remaining
    rwa [components_skipDividers, components_skipDividers] at remaining
  start := restOf.start

theorem skipDividers_idem (path : List Char) :
    skipDividers (skipDividers path) = skipDividers path :=
  List.dropWhile_idempotent _ path

/-- Where the loop ends: behind the whole name if its components begin the path, and nowhere else.
-/
structure LoopEnds (length : Nat) (p leftOver : List Char) (cursors : Cursors) : Prop where
  matched : components p <+: components leftOver →
    cursors.matching = true ∧ skipDividers cursors.p = [] ∧
      cursors.thisMatchLength = length + (components p).flatten.length ∧
      RestOf p leftOver (skipDividers cursors.leftOver)
  failed : ¬components p <+: components leftOver →
    ¬(cursors.matching = true ∧ skipDividers cursors.p = [])

/-- The name is at its end. -/
theorem LoopEnds.of_end (length : Nat) (leftOver : List Char) :
    LoopEnds length [] leftOver { p := [], leftOver, thisMatchLength := length } where
  matched := fun _ => ⟨rfl, rfl, rfl, RestOf.nil leftOver⟩
  failed := fun no_prefix => absurd List.nil_prefix no_prefix

/-- The first components of the name and of the path are compared, and on success the loop goes on.
-/
theorem LoopEnds.step {left length : Nat} {p leftOver : List Char} (text : atText p = true)
    (other_text : atText leftOver = true)
    (next : ∀ length, LoopEnds length (skipDividers (afterText p))
      (skipDividers (afterText leftOver))
      (matchLoop left
        { p := skipDividers (afterText p)
          leftOver := skipDividers (afterText leftOver)
          thisMatchLength := length })) :
    LoopEnds length p leftOver
      (matchLoop (left + 1) { p, leftOver, thisMatchLength := length }) := by
  have busy : ¬(¬(true : Bool) ∨ p = [] ∨ leftOver = []) := by
    rintro (no | rfl | rfl)
    · exact no rfl
    · cases text
    · cases other_text
  obtain ⟨same_text, other⟩ := matchText_spec length p leftOver
  have heads := components_of_text text
  have other_heads := components_of_text other_text
  have turn : matchLoop (left + 1) { p, leftOver, thisMatchLength := length } =
      let text := matchText length p leftOver
      if atText text.p ∨ atText text.leftOver then { text with matching := false }
      else
        matchLoop left
          { text with p := skipDividers text.p, leftOver := skipDividers text.leftOver } :=
    if_neg busy
  rw [turn]
  dsimp only
  by_cases same : textOf p = textOf leftOver
  · have going : ¬(atText (afterText p) ∨ atText (afterText leftOver)) := by
      rw [atText_afterText, atText_afterText]
      simp
    rw [same_text same]
    dsimp only
    rw [if_neg going]
    obtain ⟨matched, failed⟩ := next (length + (textOf p).length)
    constructor
    case matched =>
      intro is_prefix
      rw [heads, other_heads, same, List.prefix_cons_inj] at is_prefix
      obtain ⟨still, ended, total, restOf⟩ := matched is_prefix
      refine ⟨still, ended, ?_, RestOf.cons other_text text same restOf⟩
      rw [total, heads, List.flatten_cons, List.length_append, Nat.add_assoc]
    case failed =>
      intro no_prefix
      refine failed fun is_prefix => no_prefix ?_
      rw [heads, other_heads, same, List.prefix_cons_inj]
      exact is_prefix
  · rw [if_pos (other same)]
    constructor
    case matched =>
      intro is_prefix
      rw [heads, other_heads, List.cons_prefix_cons] at is_prefix
      exact absurd is_prefix.1 same
    case failed => exact fun _ ends => Bool.false_ne_true ends.1

theorem matchLoop_ends (left : Nat) :
    ∀ {p : List Char} (leftOver : List Char) (length : Nat), p.length ≤ left →
      skipDividers p = p → skipDividers leftOver = leftOver →
      LoopEnds length p leftOver
        (matchLoop left { p, leftOver, thisMatchLength := length }) := by
  induction left with
  | zero =>
    intro p leftOver length enough _ _
    obtain rfl := List.length_eq_zero_iff.mp (Nat.le_zero.mp enough)
    exact LoopEnds.of_end length leftOver
  | succ left ih =>
    intro p leftOver length enough start other_start
    by_cases ended : p = []
    · subst ended
      have stays : matchLoop (left + 1) { p := [], leftOver, thisMatchLength := length } =
          { p := [], leftOver, thisMatchLength := length } := by
        simp [matchLoop]
      rw [stays]
      exact LoopEnds.of_end length leftOver
    have text : atText p = true := by
      rw [← start] at ended ⊢
      exact atText_skipDividers ended
    by_cases none : leftOver = []
    · subst none
      have stays : matchLoop (left + 1) { p, leftOver := [], thisMatchLength := length } =
          { p, leftOver := [], thisMatchLength := length } := by
        simp [matchLoop]
      rw [stays]
      constructor
      case matched =>
        intro is_prefix
        rw [components_of_text text] at is_prefix
        exact absurd (List.prefix_nil.mp is_prefix) (List.cons_ne_nil _ _)
      case failed => exact fun _ ends => skip_ne_nil text ends.2
    have other_text : atText leftOver = true := by
      rw [← other_start] at none ⊢
      exact atText_skipDividers none
    refine LoopEnds.step text other_text fun length => ?_
    refine ih _ length ?_ (skipDividers_idem _) (skipDividers_idem _)
    have some_text := List.length_pos_iff.mpr (atText_iff.mp text)
    have whole := congrArg List.length (textOf_append_afterText p)
    rw [List.length_append] at whole
    have skipped : (skipDividers (afterText p)).length ≤ (afterText p).length :=
      List.length_dropWhile_le _ _
    omega

/-- A name matches if its components begin the path. -/
theorem matchDevice_some {name path : List Char} (begins : components name <+: components path) :
    ∃ rest, matchDevice name path = some ((components name).flatten.length, rest) ∧
      RestOf name path rest := by
  have enough : (skipDividers name).length ≤ name.length := List.length_dropWhile_le _ _
  obtain ⟨matched, -⟩ := matchLoop_ends name.length (skipDividers path) 0 enough
    (skipDividers_idem name) (skipDividers_idem path)
  rw [components_skipDividers, components_skipDividers, Nat.zero_add] at matched
  obtain ⟨still, ended, total, restOf⟩ := matched begins
  refine ⟨_, ?_, restOf.of_skipped⟩
  simp only [matchDevice, if_pos (And.intro still ended), total]

theorem matchDevice_none {name path : List Char}
    (begins : ¬components name <+: components path) : matchDevice name path = none := by
  have enough : (skipDividers name).length ≤ name.length := List.length_dropWhile_le _ _
  obtain ⟨-, failed⟩ := matchLoop_ends name.length (skipDividers path) 0 enough
    (skipDividers_idem name) (skipDividers_idem path)
  rw [components_skipDividers, components_skipDividers] at failed
  simp only [matchDevice, if_neg (failed begins)]

/-! ## The best of all devices -/

section

variable {Device : Type} {name : Device → Option (List Char)} {path : List Char}

/-- The components of the name of a device begin the path. -/
def MountedOn (name : Device → Option (List Char)) (path : List Char) (dev : Device)
    (mount : List Char) : Prop :=
  name dev = some mount ∧ components mount <+: components path

/-- The text in the components of a mount point. -/
abbrev textLength (mount : List Char) : Nat := (components mount).flatten.length

/-- A device and a rest of the path that nothing among the devices surpasses. -/
structure Longest (name : Device → Option (List Char)) (devices : List Device) (path : List Char)
    (dev : Device) (rest mount : List Char) : Prop where
  mem : dev ∈ devices
  mounted : MountedOn name path dev mount
  longest : ∀ other ∈ devices, ∀ otherMount, MountedOn name path other otherMount →
    textLength otherMount ≤ textLength mount
  restOf : RestOf mount path rest

theorem Longest.append {seen : List Device} {dev next : Device} {rest mount : List Char}
    (longest : Longest name seen path dev rest mount)
    (least : ∀ other, MountedOn name path next other → textLength other ≤ textLength mount) :
    Longest name (seen ++ [next]) path dev rest mount where
  mem := List.mem_append_left _ longest.mem
  mounted := longest.mounted
  longest := by
    intro other mem otherMount otherMounted
    rcases List.mem_append.mp mem with mem | mem
    · exact longest.longest other mem otherMount otherMounted
    · rw [List.mem_singleton.mp mem] at otherMounted
      exact least otherMount otherMounted
  restOf := longest.restOf

/-- What the best match says about the devices seen so far. -/
structure BestOf (name : Device → Option (List Char)) (path : List Char) (seen : List Device)
    (best : BestMatch Device) : Prop where
  fails : best.found = none → best.longestMatch = -1 ∧
    ∀ dev ∈ seen, ∀ mount, ¬MountedOn name path dev mount
  finds : ∀ dev rest, best.found = some (dev, rest) →
    ∃ mount, Longest name seen path dev rest mount ∧ best.longestMatch = textLength mount

theorem BestOf.nil : BestOf name path [] {} where
  fails := fun _ => ⟨rfl, nofun⟩
  finds := nofun

/-- A device that the path does not lead to changes nothing. -/
theorem BestOf.skip {seen : List Device} {best : BestMatch Device} {dev : Device}
    (bestOf : BestOf name path seen best) (apart : ∀ mount, ¬MountedOn name path dev mount) :
    BestOf name path (seen ++ [dev]) best where
  fails := by
    intro none
    obtain ⟨start, others⟩ := bestOf.fails none
    refine ⟨start, fun other mem => ?_⟩
    rcases List.mem_append.mp mem with mem | mem
    · exact others other mem
    · rw [List.mem_singleton.mp mem]
      exact apart
  finds := by
    intro found rest eq
    obtain ⟨mount, longest, length⟩ := bestOf.finds found rest eq
    exact ⟨mount, longest.append fun other mounted => absurd mounted (apart other), length⟩

/-- A device that matches more text than every one before it is the best. -/
theorem BestOf.replace {seen : List Device} {best : BestMatch Device} {dev : Device}
    {mount rest : List Char} (bestOf : BestOf name path seen best)
    (mounted : MountedOn name path dev mount) (restOf : RestOf mount path rest)
    (longer : best.longestMatch < textLength mount) :
    BestOf name path (seen ++ [dev])
      { longestMatch := textLength mount, found := some (dev, rest) } where
  fails := nofun
  finds := by
    rintro _ _ ⟨⟩
    refine ⟨mount, ⟨List.mem_append_right _ (List.mem_singleton_self dev), mounted,
      ?_, restOf⟩, rfl⟩
    intro other mem otherMount otherMounted
    rcases List.mem_append.mp mem with mem | mem
    · cases known : best.found with
      | none => exact absurd otherMounted ((bestOf.fails known).2 other mem otherMount)
      | some found =>
        obtain ⟨first, longest, length⟩ := bestOf.finds found.1 found.2 known
        have least := longest.longest other mem otherMount otherMounted
        omega
    · rw [List.mem_singleton.mp mem] at otherMounted
      obtain rfl := Option.some.inj (otherMounted.1.symm.trans mounted.1)
      exact Nat.le_refl _

/-- A device that matches no more text than the best one before it is passed over. -/
theorem BestOf.keep {seen : List Device} {best : BestMatch Device} {dev : Device}
    {mount : List Char} (bestOf : BestOf name path seen best)
    (mounted : MountedOn name path dev mount)
    (no_longer : ¬best.longestMatch < textLength mount) :
    BestOf name path (seen ++ [dev]) best where
  fails := by
    intro none
    obtain ⟨start, -⟩ := bestOf.fails none
    omega
  finds := by
    intro found rest eq
    obtain ⟨first, longest, length⟩ := bestOf.finds found rest eq
    refine ⟨first, longest.append fun other otherMounted => ?_, length⟩
    obtain rfl := Option.some.inj (otherMounted.1.symm.trans mounted.1)
    omega

theorem BestOf.tryDevice {seen : List Device} {best : BestMatch Device}
    (bestOf : BestOf name path seen best) (dev : Device) :
    BestOf name path (seen ++ [dev]) (tryDevice name path best dev) := by
  rw [Yaffs.tryDevice]
  cases named : name dev with
  | none => exact bestOf.skip fun mount mounted => nomatch named.symm.trans mounted.1
  | some mount =>
    rw [Option.bind_some]
    by_cases begins : components mount <+: components path
    · obtain ⟨rest, matched, restOf⟩ := matchDevice_some begins
      rw [matched]
      dsimp only
      split
      case isTrue longer => exact bestOf.replace ⟨named, begins⟩ restOf longer
      case isFalse no_longer => exact bestOf.keep ⟨named, begins⟩ no_longer
    · rw [matchDevice_none begins]
      refine bestOf.skip fun other mounted => begins ?_
      obtain rfl := Option.some.inj (named.symm.trans mounted.1)
      exact mounted.2

theorem bestOf_foldl (devices : List Device) :
    BestOf name path devices (devices.foldl (tryDevice name path) {}) := by
  induction devices using List.reverseRecOn with
  | nil => exact BestOf.nil
  | append_singleton seen dev ih =>
    rw [List.foldl_append]
    exact ih.tryDevice dev

end

/-- A path leads to a device exactly when the name of some device begins it, component for
component, and then to one with the most text in its name, with the rest of the path behind that. -/
theorem findDevice_longest {Device : Type} (name : Device → Option (List Char))
    (devices : List Device) (path : List Char) :
    ((findDevice name devices path).isSome = true ↔
        ∃ dev ∈ devices, ∃ mount, MountedOn name path dev mount) ∧
      ∀ dev rest, findDevice name devices path = some (dev, rest) →
        ∃ mount, Longest name devices path dev rest mount := by
  have best : BestOf name path devices (devices.foldl (tryDevice name path) {}) :=
    bestOf_foldl devices
  constructor
  · constructor
    · intro found
      obtain ⟨⟨dev, rest⟩, eq⟩ := Option.isSome_iff_exists.mp found
      obtain ⟨mount, longest, -⟩ := best.finds dev rest eq
      exact ⟨dev, longest.mem, mount, longest.mounted⟩
    · rintro ⟨dev, mem, mount, mounted⟩
      rw [Option.isSome_iff_ne_none]
      intro none
      exact (best.fails none).2 dev mem mount mounted
  · intro dev rest eq
    obtain ⟨mount, longest, -⟩ := best.finds dev rest eq
    exact ⟨mount, longest⟩

example :
    findDevice (fun mount : String => some mount.toList) ["/", "/a", "/a//b/"] "//a/b/c".toList =
      some ("/a//b/", "c".toList) := by
  decide +kernel

/-- A path is a mount point of a device exactly when nothing is left of it behind the longest name
that it begins with. -/
theorem findMountPoint_eq_some {Device : Type} (name : Device → Option (List Char))
    (devices : List Device) (path : List Char) (dev : Device) :
    findMountPoint name devices path = some dev ↔ findDevice name devices path = some
      (dev, []) := by
  rw [findMountPoint, Option.bind_eq_some_iff]
  constructor
  · rintro ⟨⟨found, rest⟩, eq, some_eq⟩
    dsimp only at some_eq
    split at some_eq
    case isTrue ended =>
      rw [eq, ended, Option.some.inj some_eq]
    case isFalse => cases some_eq
  · intro eq
    exact ⟨(dev, []), eq, if_pos rfl⟩

end Yaffs
