import Mathlib.Tactic.Common

/-!
# Borrowing

A computation takes items out of a stock and gives them back.  What it owes at any time is a list
of items, and a predicate says which states go with which list.  A computation that is put together
from parts that settle what they take settles what it takes itself.
-/

namespace Borrowing

variable {State Item α β : Type}

/-- Go on for a number of rounds, or until a round says that it was the last. -/
def rounds : Nat → StateM State Bool → StateM State Unit
  | 0, _ => pure ()
  | left + 1, round => do
    let going ← round
    if going then rounds left round else pure ()

/-- Do something under a condition. -/
def onlyIf (condition : Bool) (act : StateM State Unit) : StateM State Unit :=
  if condition then act else pure ()

section Rules

variable (Owes : List Item → State → Prop)

/-- The computation owes as much after it as before. -/
def Settles (act : StateM State α) : Prop :=
  ∀ owed state, Owes owed state → Owes owed (act state).2

/-- The computation hands out an item. -/
def Lends (act : StateM State Item) : Prop :=
  ∀ owed state, Owes owed state → Owes ((act state).1 :: owed) (act state).2

/-- The computation clears the debt of one item. -/
def Clears (item : Item) (act : StateM State α) : Prop :=
  ∀ owed state, Owes (item :: owed) state → Owes owed (act state).2

variable {Owes} {item : Item}

/-! ## Computations that settle -/

theorem Settles.pure (value : α) : Settles Owes (pure value : StateM State α) :=
  fun _ _ owes => owes

theorem Settles.bind {first : StateM State α} {rest : α → StateM State β}
    (settles : Settles Owes first) (others : ∀ value, Settles Owes (rest value)) :
    Settles Owes (first >>= rest) :=
  fun owed state owes => others _ owed _ (settles owed state owes)

theorem Settles.ite {condition : Prop} [Decidable condition] {yes no : StateM State α}
    (settles : Settles Owes yes) (others : Settles Owes no) :
    Settles Owes (if condition then yes else no) := by
  split
  · exact settles
  · exact others

theorem Settles.onlyIf {condition : Bool} {act : StateM State Unit} (settles : Settles Owes act) :
    Settles Owes (onlyIf condition act) :=
  settles.ite (.pure ())

/-- What is borrowed first is cleared by the rest. -/
theorem Settles.borrow {take : StateM State Item} {rest : Item → StateM State β}
    (lends : Lends Owes take) (others : ∀ item, Clears Owes item (rest item)) :
    Settles Owes (take >>= rest) :=
  fun owed state owes => others _ owed _ (lends owed state owes)

theorem Settles.rounds {round : StateM State Bool} (settles : Settles Owes round) (left : Nat) :
    Settles Owes (rounds left round) := by
  induction left with
  | zero => exact .pure ()
  | succ left ih => exact settles.bind fun _ => ih.ite (.pure ())

/-! ## Computations that clear a debt -/

/-- A part that settles leaves the debt to the rest. -/
theorem Clears.after {first : StateM State α} {rest : α → StateM State β}
    (settles : Settles Owes first) (others : ∀ value, Clears Owes item (rest value)) :
    Clears Owes item (first >>= rest) :=
  fun owed state owes => others _ owed _ (settles (item :: owed) state owes)

/-- Once the debt is cleared the rest has to settle. -/
theorem Clears.bind {first : StateM State α} {rest : α → StateM State β}
    (clears : Clears Owes item first) (others : ∀ value, Settles Owes (rest value)) :
    Clears Owes item (first >>= rest) :=
  fun owed state owes => others _ owed _ (clears owed state owes)

theorem Clears.ite {condition : Prop} [Decidable condition] {yes no : StateM State α}
    (clears : Clears Owes item yes) (others : Clears Owes item no) :
    Clears Owes item (if condition then yes else no) := by
  split
  · exact clears
  · exact others

end Rules

end Borrowing
