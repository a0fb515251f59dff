import Yaffs.Library.Borrowing
import Mathlib.Data.Fintype.Basic

/-!
# Temporary buffers

A device has six page buffers for short use.  A function takes one, calls others that may take more,
and releases it.  When all are in use, further ones are allocated from the system.

The functions below are reduced to their flow of control around the buffers: a condition on data that
is not modelled, the number of rounds of a loop, and what the flash answers are chosen from outside.
-/

namespace Yaffs

/-- `YAFFS_N_TEMP_BUFFERS`. -/
def nTempBuffers : Nat := 6

/-- A buffer: one of the device, or the one of that number allocated from the system. -/
inductive TempBuffer
  | managed (index : Fin nTempBuffers)
  | unmanaged (number : Nat)
deriving DecidableEq

/-- The fields of the device record that keep track of the buffers. -/
structure TempPool where
  tempInUse : Int := 0
  inUse : Fin nTempBuffers → Bool := fun _ => false
  unmanagedBufferAllocs : Nat := 0

namespace TempPool

variable (pool : TempPool)

/-- The first buffer that is not in use, or none of the device. -/
def firstFree : Option (Fin nTempBuffers) :=
  (List.finRange nTempBuffers).find? fun index => !pool.inUse index

/-- `yaffs_get_temp_buffer`. -/
def getTempBuffer : TempBuffer × TempPool :=
  match pool.firstFree with
  | some index =>
    (.managed index,
      { pool with
        tempInUse := pool.tempInUse + 1
        inUse := Function.update pool.inUse index true })
  | none =>
    (.unmanaged pool.unmanagedBufferAllocs,
      { pool with
        tempInUse := pool.tempInUse + 1
        unmanagedBufferAllocs := pool.unmanagedBufferAllocs + 1 })

/-- `yaffs_release_temp_buffer`. -/
def releaseTempBuffer : TempBuffer → TempPool
  | .managed index =>
    { pool with
      tempInUse := pool.tempInUse - 1
      inUse := Function.update pool.inUse index false }
  | .unmanaged _ => { pool with tempInUse := pool.tempInUse - 1 }

/-- The buffer is in the hands of a caller, as far as the device knows. -/
def Taken : TempBuffer → Prop
  | .managed index => pool.inUse index = true
  | .unmanaged number => number < pool.unmanagedBufferAllocs

instance : DecidablePred pool.Taken
  | .managed index => inferInstanceAs (Decidable (pool.inUse index = true))
  | .unmanaged number => inferInstanceAs (Decidable (number < pool.unmanagedBufferAllocs))

variable {pool} {buffer : TempBuffer}

/-- A buffer that is handed out was free. -/
theorem free_getTempBuffer : ¬pool.Taken pool.getTempBuffer.1 := by
  rw [getTempBuffer]
  cases found : pool.firstFree with
  | some index =>
    have free := List.find?_some found
    simpa [Taken] using free
  | none => exact lt_irrefl _

/-- It is the only one that changes hands. -/
theorem taken_getTempBuffer :
    pool.getTempBuffer.2.Taken buffer ↔ buffer = pool.getTempBuffer.1 ∨ pool.Taken buffer := by
  rw [getTempBuffer]
  cases pool.firstFree with
  | some index =>
    cases buffer with
    | managed other =>
      simp only [Taken, Function.update_apply, TempBuffer.managed.injEq]
      split <;> simp_all
    | unmanaged number => simp [Taken]
  | none =>
    cases buffer with
    | managed other => simp [Taken]
    | unmanaged number =>
      simp only [Taken, TempBuffer.unmanaged.injEq]
      omega

theorem tempInUse_getTempBuffer : pool.getTempBuffer.2.tempInUse = pool.tempInUse + 1 := by
  rw [getTempBuffer]
  split <;> rfl

/-- Releasing one buffer leaves the others where they are. -/
theorem taken_releaseTempBuffer {other : TempBuffer} (differ : other ≠ buffer) :
    (pool.releaseTempBuffer buffer).Taken other ↔ pool.Taken other := by
  cases buffer with
  | managed index =>
    cases other with
    | managed other =>
      have index_ne : other ≠ index := fun same => differ (congrArg _ same)
      simp only [Taken, releaseTempBuffer, Function.update_of_ne index_ne]
    | unmanaged number => rfl
  | unmanaged number => cases other <;> rfl

theorem inUse_releaseTempBuffer (index : Fin nTempBuffers) :
    (pool.releaseTempBuffer (.managed index)).inUse index = false := by
  exact Function.update_self index false pool.inUse

theorem tempInUse_releaseTempBuffer :
    (pool.releaseTempBuffer buffer).tempInUse = pool.tempInUse - 1 := by
  cases buffer <;> rfl

end TempPool

/-- What the flash came to at the reads that a function may return from early. -/
inductive ReadAnswer
  /-- The header read of an object that was loaded lazily. -/
  | header (ok : Bool)
  /-- The driver's read of a page, into a buffer of the caller or, for its tags only, into a
  temporary one. -/
  | driver (localData ok : Bool)
deriving DecidableEq

/-- The function that gets this answer returns without releasing its buffer. -/
def ReadAnswer.Loses : ReadAnswer → Prop
  | .header ok => ok = false
  | .driver localData ok => localData = true ∧ ok = false

instance : DecidablePred ReadAnswer.Loses
  | .header ok => inferInstanceAs (Decidable (ok = false))
  | .driver localData ok => inferInstanceAs (Decidable (localData = true ∧ ok = false))

/-- A call under way. -/
structure TempState extends TempPool where
  /-- The buffers as they were when the call began. -/
  entry : TempPool
  /-- Buffers handed out during the call and not released. -/
  held : List TempBuffer := []
  /-- A buffer has been handed out while somebody had it. -/
  doubled : Bool := false
  /-- What is chosen from outside, in order. -/
  choices : Nat → Nat
  chosen : Nat := 0
  answers : List ReadAnswer := []

/-- A function that may take temporary buffers. -/
abbrev TempCall (α : Type) := StateM TempState α

namespace TempCall

/-- The next value chosen from outside. -/
def choose : TempCall Nat := fun state =>
  (state.choices state.chosen, { state with chosen := state.chosen + 1 })

/-- A condition that does not concern the buffers, or an answer of the flash. -/
def condition : TempCall Bool := do
  let value ← choose
  return decide (value ≠ 0)

/-- Record an answer of the flash. -/
def note (answer : ReadAnswer) : TempCall Unit := fun state =>
  ((), { state with answers := answer :: state.answers })

/-- Take a buffer. -/
def getTempBuffer : TempCall TempBuffer := fun state =>
  let taken := state.toTempPool.getTempBuffer
  (taken.1,
    { state with
      toTempPool := taken.2
      held := taken.1 :: state.held
      doubled := state.doubled || decide (taken.1 ∈ state.held ∨ state.entry.Taken taken.1) })

/-- Release a buffer. -/
def releaseTempBuffer (buffer : TempBuffer) : TempCall Unit := fun state =>
  ((), { state with
    toTempPool := state.toTempPool.releaseTempBuffer buffer
    held := state.held.erase buffer })

end TempCall

/-! ## What a call owes -/

/-- The call has taken and not released the buffers it owes and those it has lost, one for each
answer it returned early from. -/
structure OwingWith (lost owed : List TempBuffer) (state : TempState) : Prop where
  held : state.held.Perm (owed ++ lost)
  apart : (owed ++ lost).Nodup
  fresh : ∀ buffer ∈ owed ++ lost, ¬state.entry.Taken buffer
  taken : ∀ buffer, buffer ∈ owed ++ lost ∨ state.entry.Taken buffer → state.Taken buffer
  flagged : ∀ index, state.inUse index = true →
    .managed index ∈ owed ++ lost ∨ state.entry.inUse index = true
  counted : state.tempInUse = state.entry.tempInUse + (owed ++ lost).length
  explained : lost.length = state.answers.countP (·.Loses)
  once : state.doubled = false

/-- What a call that began with certain buffers in use owes. -/
def Owing (entry : TempPool) (owed : List TempBuffer) (state : TempState) : Prop :=
  state.entry = entry ∧ ∃ lost, OwingWith lost owed state

namespace TempCall

open Borrowing

variable {entry : TempPool} {buffer : TempBuffer}

/-- Taking a buffer puts it on the list of what is owed. -/
theorem lends_getTempBuffer : Lends (Owing entry) getTempBuffer := by
  rintro owed state ⟨same, lost, owing⟩
  let taken := state.toTempPool.getTempBuffer
  have free : ¬state.Taken taken.1 := TempPool.free_getTempBuffer
  have not_mem : taken.1 ∉ owed ++ lost := fun mem => free (owing.taken _ (.inl mem))
  have not_entry : ¬state.entry.Taken taken.1 := fun mem => free (owing.taken _ (.inr mem))
  refine ⟨same, lost, ?_⟩
  exact
    { held := owing.held.cons taken.1
      apart := List.nodup_cons.mpr ⟨not_mem, owing.apart⟩
      fresh := List.forall_mem_cons.mpr ⟨not_entry, owing.fresh⟩
      taken := by
        intro other outside
        refine TempPool.taken_getTempBuffer.mpr ?_
        rcases outside with mem | before
        · rcases List.mem_cons.mp mem with rfl | mem
          · exact .inl rfl
          · exact .inr (owing.taken other (.inl mem))
        · exact .inr (owing.taken other (.inr before))
      flagged := by
        intro index used
        have managed : taken.2.Taken (.managed index) := used
        rcases TempPool.taken_getTempBuffer.mp managed with this | before
        · exact .inl (this ▸ List.mem_cons_self)
        · exact (owing.flagged index before).imp (List.mem_cons_of_mem _) id
      counted := by
        have more : taken.2.tempInUse = state.tempInUse + 1 := TempPool.tempInUse_getTempBuffer
        change taken.2.tempInUse = state.entry.tempInUse + _
        rw [more, owing.counted, List.cons_append, List.length_cons]
        omega
      explained := owing.explained
      once := by
        have not_held : taken.1 ∉ state.held := fun mem => not_mem (owing.held.mem_iff.mp mem)
        change (state.doubled || decide _) = false
        rw [owing.once, Bool.false_or, decide_eq_false_iff_not]
        exact not_or.mpr ⟨not_held, not_entry⟩ }

/-- Releasing a buffer that is owed clears the debt. -/
theorem clears_releaseTempBuffer : Clears (Owing entry) buffer (releaseTempBuffer buffer) := by
  rintro owed state ⟨same, lost, owing⟩
  obtain ⟨not_mem, apart⟩ := List.nodup_cons.mp owing.apart
  have not_entry : ¬state.entry.Taken buffer := owing.fresh buffer List.mem_cons_self
  refine ⟨same, lost, ?_⟩
  exact
    { held := by
        have erased := owing.held.erase buffer
        rwa [List.cons_append, List.erase_cons_head] at erased
      apart := apart
      fresh := fun other mem => owing.fresh other (List.mem_cons_of_mem _ mem)
      taken := by
        intro other outside
        have differ : other ≠ buffer := by
          rintro rfl
          exact outside.elim not_mem not_entry
        refine (TempPool.taken_releaseTempBuffer differ).mpr (owing.taken other ?_)
        exact outside.imp (List.mem_cons_of_mem _) id
      flagged := by
        intro index used
        have differ : TempBuffer.managed index ≠ buffer := by
          rintro rfl
          exact absurd used (by simp [releaseTempBuffer, TempPool.inUse_releaseTempBuffer])
        have before := (TempPool.taken_releaseTempBuffer differ).mp used
        refine (owing.flagged index before).imp ?_ id
        exact fun mem => (List.mem_cons.mp mem).resolve_left differ
      counted := by
        have fewer : (state.releaseTempBuffer buffer).tempInUse = state.tempInUse - 1 :=
          TempPool.tempInUse_releaseTempBuffer
        change (state.releaseTempBuffer buffer).tempInUse = state.entry.tempInUse + _
        rw [fewer, owing.counted, List.cons_append, List.length_cons]
        omega
      explained := owing.explained
      once := owing.once }

theorem settles_choose : Settles (Owing entry) choose :=
  fun _ _ ⟨same, lost, owing⟩ => ⟨same, lost, { owing with }⟩

theorem settles_condition : Settles (Owing entry) condition :=
  settles_choose.bind fun _ => .pure _

/-- An answer that no function returns early from. -/
theorem settles_note {answer : ReadAnswer} (kept : ¬answer.Loses) :
    Settles (Owing entry) (note answer) := by
  rintro owed state ⟨same, lost, owing⟩
  refine ⟨same, lost, { owing with explained := ?_ }⟩
  rw [owing.explained]
  exact (List.countP_cons_of_neg (by simpa using kept)).symm

/-- A function that returns early keeps its buffer for good. -/
theorem clears_note {answer : ReadAnswer} (loses : answer.Loses) :
    Clears (Owing entry) buffer (note answer) := by
  rintro owed state ⟨same, lost, owing⟩
  have moved : (buffer :: owed ++ lost).Perm (owed ++ buffer :: lost) :=
    List.perm_middle.symm
  refine ⟨same, buffer :: lost, ?_⟩
  exact
    { held := owing.held.trans moved
      apart := moved.nodup_iff.mp owing.apart
      fresh := fun other mem => owing.fresh other (moved.mem_iff.mpr mem)
      taken := fun other outside =>
        owing.taken other (outside.imp (fun mem => moved.mem_iff.mpr mem) id)
      flagged := fun index used =>
        (owing.flagged index used).imp (fun mem => moved.mem_iff.mp mem) id
      counted := by rw [← moved.length_eq]; exact owing.counted
      explained := by
        rw [List.length_cons, owing.explained]
        exact (List.countP_cons_of_pos (by simpa using loses)).symm
      once := owing.once }

end TempCall

end Yaffs
