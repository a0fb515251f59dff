import Mathlib.Data.List.Nodup
import Mathlib.Logic.Function.Basic
import Mathlib.Tactic.Common

/-!
# Forests kept as parent pointers and child lists

Nodes are kept twice: each node points to its parent, and each node lists its children.  A forest is
sound if the two agree and every node reaches a top by following parents.  Moving a node with all
that hangs below it, adding a leaf and dropping a leaf keep a forest sound, where a node must not be
moved below itself.
-/

namespace Forest

variable {α : Type*}

/-! ## Ways up -/

/-- Following parents from the node reaches a top. -/
inductive Rooted (parent : α → Option α) (top : α → Prop) : α → Prop
  | top {node : α} (isTop : top node) : Rooted parent top node
  | child {node higher : α} (up : parent node = some higher) (rooted : Rooted parent top higher) :
      Rooted parent top node

/-- The node lies on the way up from `start`, which may be the node itself. -/
inductive Above (parent : α → Option α) (node : α) : α → Prop
  | refl : Above parent node node
  | step {start higher : α} (up : parent start = some higher) (above : Above parent node higher) :
      Above parent node start

variable {parent after : α → Option α} {top : α → Prop} {node start higher : α}

theorem Above.trans {high : α} (upper : Above parent high node) (lower : Above parent node start) :
    Above parent high start := by
  induction lower with
  | refl => exact upper
  | step up _ ih => exact .step up ih

/-- The way up depends on the parents of the nodes on it only. -/
theorem Above.of_agree (above : Above parent node start)
    (agree : ∀ mid, Above parent mid start → after mid = parent mid) : Above after node start := by
  induction above with
  | refl => exact .refl
  | step up _ ih =>
    refine .step (by rw [agree _ .refl, up]) (ih ?_)
    intro mid mid_above
    exact agree mid (mid_above.trans (.step up .refl))

/-- The same for a way up after a change that leaves the parents on the old way alone. -/
theorem Above.of_agree_after (above : Above after node start)
    (agree : ∀ mid, Above parent mid start → after mid = parent mid) : Above parent node start := by
  induction above with
  | refl => exact .refl
  | step up _ ih =>
    have up' := (agree _ .refl).symm.trans up
    exact .step up' (ih fun mid mid_above => agree mid (mid_above.trans (.step up' .refl)))

theorem Rooted.of_agree (rooted : Rooted parent top start)
    (agree : ∀ mid, Above parent mid start → after mid = parent mid) : Rooted after top start := by
  induction rooted with
  | top isTop => exact .top isTop
  | child up _ ih =>
    refine .child (by rw [agree _ .refl, up]) (ih ?_)
    intro mid mid_above
    exact agree mid (mid_above.trans (.step up .refl))

/-- A node that is rooted does not lie above its parent. -/
theorem Rooted.not_above_parent (rooted : Rooted parent top node)
    (orphan : ∀ node, top node → parent node = none) (up : parent node = some higher) :
    ¬Above parent node higher := by
  induction rooted generalizing higher with
  | top isTop => simp [orphan _ isTop] at up
  | @child node next up' _ ih =>
    obtain rfl : next = higher := Option.some.inj (up'.symm.trans up)
    intro above
    cases above with
    | refl => exact ih up .refl
    | @step _ higher' next_up above => exact ih next_up ((Above.step up .refl).trans above)

/-- A node that is its own parent reaches no top. -/
theorem not_rooted_of_loop (up : parent node = some node) (not_top : ¬top node) :
    ¬Rooted parent top node := by
  intro rooted
  induction rooted with
  | top isTop => exact not_top isTop
  | child up' _ ih =>
    obtain rfl := Option.some.inj (up.symm.trans up')
    exact ih up not_top

/-- Two nodes on one way up lie above each other in one order or the other. -/
theorem Above.total {other : α} (left : Above parent node start) (right : Above parent other start) :
    Above parent node other ∨ Above parent other node := by
  induction left with
  | refl => exact .inr right
  | step up above ih =>
    cases right with
    | refl => exact .inl (.step up above)
    | step up' above' =>
      obtain rfl := Option.some.inj (up'.symm.trans up)
      exact ih above'

variable [DecidableEq α]

/-- A node may be put below any node that it does not lie above. -/
theorem Rooted.relink (target : Rooted parent top higher) (away : ¬Above parent node higher)
    (rooted : Rooted parent top start) :
    Rooted (Function.update parent node (some higher)) top start := by
  have target' : Rooted (Function.update parent node (some higher)) top higher := by
    refine target.of_agree ?_
    intro mid mid_above
    exact Function.update_of_ne (by rintro rfl; exact away mid_above) _ _
  induction rooted with
  | top isTop => exact .top isTop
  | @child start next up _ ih =>
    by_cases same : start = node
    · subst same
      exact .child (Function.update_self ..) target'
    · exact .child (by rw [Function.update_of_ne same, up]) ih

/-! ## Parents and children -/

end Forest

/-- Parent pointers and child lists of the live nodes. -/
structure Forest (α : Type*) where
  live : α → Prop
  parent : α → Option α
  children : α → List α

namespace Forest

variable {α : Type*} {top : α → Prop} {forest : Forest α} {node higher : α}

/-- Parent pointers and child lists agree, and every live node that is no top hangs below one. -/
structure Sound (top : α → Prop) (forest : Forest α) : Prop where
  orphan : ∀ node, top node → forest.parent node = none
  has_parent : ∀ node, forest.live node → ¬top node → ∃ higher, forest.parent node = some higher
  listed : ∀ node higher, forest.parent node = some higher ↔ node ∈ forest.children higher
  nodup : ∀ higher, (forest.children higher).Nodup
  live_of_parent : ∀ node higher, forest.parent node = some higher → forest.live node
  live_parent : ∀ node higher, forest.parent node = some higher → forest.live higher
  rooted : ∀ node, forest.live node → Rooted forest.parent top node

/-- A node without children is above no other node. -/
theorem Sound.eq_of_above (sound : forest.Sound top) (leaf : forest.children node = [])
    {start : α} (above : Above forest.parent node start) : start = node := by
  induction above with
  | refl => rfl
  | @step start next up _ ih =>
    rw [ih] at up
    have listed := (sound.listed start node).mp up
    simp [leaf] at listed

theorem Sound.ne_of_above (sound : forest.Sound top) {dead start : α} (isDead : ¬forest.live dead)
    (isLive : forest.live start) : ¬Above forest.parent dead start := by
  intro above
  induction above with
  | refl => exact isDead isLive
  | step up _ ih => exact ih (sound.live_parent _ _ up)

variable [DecidableEq α]

/-- Hang a node below another one, at the front of its children. -/
def move (forest : Forest α) (node higher : α) : Forest α where
  live := forest.live
  parent := Function.update forest.parent node (some higher)
  children other :=
    if other = higher then node :: (forest.children other).erase node
    else (forest.children other).erase node

/-- Add a node below another one. -/
def insert (forest : Forest α) (node higher : α) : Forest α where
  live other := other = node ∨ forest.live other
  parent := Function.update forest.parent node (some higher)
  children := Function.update forest.children higher (node :: forest.children higher)

/-- Take a node out. -/
def drop (forest : Forest α) (node : α) : Forest α where
  live other := other ≠ node ∧ forest.live other
  parent := Function.update forest.parent node none
  children other := (forest.children other).erase node

theorem Sound.move (sound : forest.Sound top) (live : forest.live node) (not_top : ¬top node)
    (higher_live : forest.live higher) (away : ¬Above forest.parent node higher) :
    (forest.move node higher).Sound top where
  orphan other isTop := by
    have other_ne : other ≠ node := by rintro rfl; exact not_top isTop
    simpa [Forest.move, Function.update_of_ne other_ne] using sound.orphan other isTop
  has_parent other other_live other_not_top := by
    by_cases same : other = node
    · subst same
      exact ⟨higher, Function.update_self ..⟩
    · simpa [Forest.move, Function.update_of_ne same] using
        sound.has_parent other other_live other_not_top
  listed other under := by
    have erased := (sound.nodup under).mem_erase_iff (a := other) (b := node)
    have listed := sound.listed other under
    by_cases same : other = node
    · subst same
      by_cases target : under = higher
      · simp [Forest.move, target]
      · simp [Forest.move, target, erased, Ne.symm target]
    · by_cases target : under = higher
      · subst target
        simp [Forest.move, erased, listed, same]
      · simp [Forest.move, target, erased, listed, same]
  nodup other := by
    have nodup := (sound.nodup other).erase node
    have erased := (sound.nodup other).mem_erase_iff (a := node) (b := node)
    by_cases target : other = higher
    · simp [Forest.move, target] at nodup erased ⊢
      exact ⟨erased, nodup⟩
    · simpa [Forest.move, target] using nodup
  live_of_parent other under up := by
    by_cases same : other = node
    · exact same ▸ live
    · exact sound.live_of_parent other under
        (by simpa [Forest.move, Function.update_of_ne same] using up)
  live_parent other under up := by
    by_cases same : other = node
    · subst same
      obtain rfl : higher = under := by simpa [Forest.move] using up
      exact higher_live
    · exact sound.live_parent other under
        (by simpa [Forest.move, Function.update_of_ne same] using up)
  rooted other other_live :=
    (sound.rooted higher higher_live).relink away (sound.rooted other other_live)

theorem Sound.insert (sound : forest.Sound top) (fresh : ¬forest.live node) (not_top : ¬top node)
    (higher_live : forest.live higher) : (forest.insert node higher).Sound top where
  orphan other isTop := by
    have other_ne : other ≠ node := by rintro rfl; exact not_top isTop
    simpa [Forest.insert, Function.update_of_ne other_ne] using sound.orphan other isTop
  has_parent other other_live other_not_top := by
    by_cases same : other = node
    · subst same
      exact ⟨higher, Function.update_self ..⟩
    · simpa [Forest.insert, Function.update_of_ne same] using
        sound.has_parent other (other_live.resolve_left same) other_not_top
  listed other under := by
    have listed := sound.listed other under
    have not_child : node ∉ forest.children under := by
      intro child
      exact fresh (sound.live_of_parent node under ((sound.listed node under).mpr child))
    by_cases same : other = node
    · subst same
      by_cases target : under = higher
      · subst target
        simp [Forest.insert]
      · simp [Forest.insert, Function.update_of_ne target, not_child, Ne.symm target]
    · by_cases target : under = higher
      · subst target
        simp [Forest.insert, listed, same]
      · simp [Forest.insert, Function.update_of_ne same, Function.update_of_ne target, listed]
  nodup other := by
    by_cases target : other = higher
    · subst target
      have not_child : node ∉ forest.children other := by
        intro child
        exact fresh (sound.live_of_parent node other ((sound.listed node other).mpr child))
      simpa [Forest.insert, not_child] using sound.nodup other
    · simpa [Forest.insert, Function.update_of_ne target] using sound.nodup other
  live_of_parent other under up := by
    by_cases same : other = node
    · exact .inl same
    · exact .inr (sound.live_of_parent other under
        (by simpa [Forest.insert, Function.update_of_ne same] using up))
  live_parent other under up := by
    by_cases same : other = node
    · subst same
      obtain rfl : higher = under := by simpa [Forest.insert] using up
      exact .inr higher_live
    · exact .inr (sound.live_parent other under
        (by simpa [Forest.insert, Function.update_of_ne same] using up))
  rooted other other_live := by
    have higher_rooted := sound.rooted higher higher_live
    have away := sound.ne_of_above fresh higher_live
    rcases other_live with rfl | other_live
    · exact .child (Function.update_self ..) (higher_rooted.relink away higher_rooted)
    · exact higher_rooted.relink away (sound.rooted other other_live)

theorem Sound.drop (sound : forest.Sound top) (not_top : ¬top node)
    (leaf : forest.children node = []) : (forest.drop node).Sound top where
  orphan other isTop := by
    have other_ne : other ≠ node := by rintro rfl; exact not_top isTop
    simpa [Forest.drop, Function.update_of_ne other_ne] using sound.orphan other isTop
  has_parent other other_live other_not_top := by
    simpa [Forest.drop, Function.update_of_ne other_live.1] using
      sound.has_parent other other_live.2 other_not_top
  listed other under := by
    have erased := (sound.nodup under).mem_erase_iff (a := other) (b := node)
    have listed := sound.listed other under
    by_cases same : other = node
    · subst same
      simp [Forest.drop, erased]
    · simp [Forest.drop, erased, listed, same]
  nodup other := (sound.nodup other).erase node
  live_of_parent other under up := by
    by_cases same : other = node
    · subst same
      simp [Forest.drop] at up
    · exact ⟨same, sound.live_of_parent other under
        (by simpa [Forest.drop, Function.update_of_ne same] using up)⟩
  live_parent other under up := by
    by_cases same : other = node
    · subst same
      simp [Forest.drop] at up
    · have up' : forest.parent other = some under := by
        simpa [Forest.drop, Function.update_of_ne same] using up
      refine ⟨?_, sound.live_parent other under up'⟩
      rintro rfl
      have child := (sound.listed other under).mp up'
      simp [leaf] at child
  rooted other other_live := by
    refine (sound.rooted other other_live.2).of_agree ?_
    intro mid mid_above
    refine Function.update_of_ne ?_ _ _
    rintro rfl
    exact other_live.1 (sound.eq_of_above leaf mid_above)

end Forest
