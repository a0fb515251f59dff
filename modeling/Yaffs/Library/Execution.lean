import Mathlib.Tactic.Common

/-!
# Runs of a deterministic system

An operation set acts on states through one execution function.  A run is a list of operations, a
guarded run issues every operation in a state that meets the operation's guard, and an invariant
that one guarded step preserves is preserved by every guarded run.
-/

namespace Execution

variable {Op State : Type*} (exec : Op → State → State)

/-- State reached by issuing the operations in order. -/
def run : List Op → State → State
  | [], state => state
  | op :: ops, state => run ops (exec op state)

/-- Every operation of the run is issued in a state that meets `guard`. -/
def Guarded (guard : Op → State → Prop) : List Op → State → Prop
  | [], _ => True
  | op :: ops, state => guard op state ∧ Guarded guard ops (exec op state)

@[simp]
theorem run_nil (state : State) : run exec [] state = state := rfl

@[simp]
theorem run_cons (op : Op) (ops : List Op) (state : State) :
    run exec (op :: ops) state = run exec ops (exec op state) := rfl

theorem run_append (first second : List Op) (state : State) :
    run exec (first ++ second) state = run exec second (run exec first state) := by
  induction first generalizing state with
  | nil => rfl
  | cons op ops ih => exact ih (exec op state)

theorem guarded_append (guard : Op → State → Prop) (first second : List Op) (state : State) :
    Guarded exec guard (first ++ second) state ↔
      Guarded exec guard first state ∧ Guarded exec guard second (run exec first state) := by
  induction first generalizing state with
  | nil => simp [Guarded]
  | cons op ops ih => simp [Guarded, ih, and_assoc]

variable {exec} {guard : Op → State → Prop} {inv : State → Prop}

/-- An invariant preserved by every guarded step holds after every guarded run. -/
theorem run_invariant
    (step : ∀ op state, guard op state → inv state → inv (exec op state))
    {ops : List Op} {state : State} (guarded : Guarded exec guard ops state)
    (initial : inv state) : inv (run exec ops state) := by
  induction ops generalizing state with
  | nil => exact initial
  | cons op ops ih => exact ih guarded.2 (step op state guarded.1 initial)

/-- A relation to another system that one guarded step preserves is preserved by every guarded run. -/
theorem run_simulates {State' : Type*} {exec' : Op → State' → State'} {rel : State → State' → Prop}
    (step : ∀ op state state', guard op state → rel state state' →
      rel (exec op state) (exec' op state'))
    {ops : List Op} {state : State} {state' : State'} (guarded : Guarded exec guard ops state)
    (initial : rel state state') : rel (run exec ops state) (run exec' ops state') := by
  induction ops generalizing state state' with
  | nil => exact initial
  | cons op ops ih => exact ih guarded.2 (step op state state' guarded.1 initial)

theorem guarded_mono {guard' : Op → State → Prop}
    (weaker : ∀ op state, guard op state → guard' op state) {ops : List Op} {state : State}
    (guarded : Guarded exec guard ops state) : Guarded exec guard' ops state := by
  induction ops generalizing state with
  | nil => trivial
  | cons op ops ih => exact ⟨weaker op state guarded.1, ih guarded.2⟩

/-- An unguarded run is a guarded run whose guard is always met. -/
theorem guarded_true (ops : List Op) (state : State) :
    Guarded exec (fun _ _ => True) ops state := by
  induction ops generalizing state with
  | nil => trivial
  | cons op ops ih => exact ⟨trivial, ih (exec op state)⟩

/-- A guarded run splits at any of its operations into the guarded run before it, the guard of the
operation itself and the guarded run after it. -/
theorem guarded_at {first second : List Op} {op : Op} {state : State}
    (guarded : Guarded exec guard (first ++ op :: second) state) :
    Guarded exec guard first state ∧ guard op (run exec first state) := by
  rw [guarded_append] at guarded
  exact ⟨guarded.1, guarded.2.1⟩

end Execution
