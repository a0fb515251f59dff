import Yaffs.FileTreeRuns

/-!
# The age of cache entries

Each use of an entry stamps it with a counter.  When the counter has become large, it starts again and
the stamps are reset, except for that of the first entry.  Here the uses since the last reset are kept
beside the files, so that the entry that is given up can be compared with the one that has not been used
for longest.
-/

namespace Yaffs

namespace Files

/-- The stamps of the cache are the same. -/
structure SameAges (before after : Files) : Prop where
  param : after.param = before.param
  counter : after.cacheLastUse = before.cacheLastUse
  stamp : ∀ i, (after.cache i).lastUse = (before.cache i).lastUse

variable {fs after last : Files} {number : Nat}

theorem SameAges.refl : SameAges fs fs := ⟨rfl, rfl, fun _ => rfl⟩

theorem SameAges.trans (first : SameAges fs after) (second : SameAges after last) :
    SameAges fs last :=
  ⟨second.param.trans first.param, second.counter.trans first.counter,
    fun i => (second.stamp i).trans (first.stamp i)⟩

/-! ## What is done between two uses -/

theorem writeNewChunk_ages (fs : Files) (page : Page) : SameAges fs (fs.writeNewChunk page).2 := by
  simp only [writeNewChunk]
  split
  · exact ⟨rfl, rfl, fun _ => rfl⟩
  · split <;> exact ⟨rfl, rfl, fun _ => rfl⟩

theorem chunkDel_ages (fs : Files) (chunk : Nat) : SameAges fs (fs.chunkDel chunk) := by
  rw [chunkDel]
  split
  · exact SameAges.refl
  · exact ⟨rfl, rfl, fun _ => rfl⟩

theorem modifyObj_ages (fs : Files) (number : Nat) (change : FileObj → FileObj) :
    SameAges fs (fs.modifyObj number change) :=
  ⟨rfl, rfl, fun _ => rfl⟩

theorem putChunkInFile_ages (fs : Files) (number inodeChunk nandChunk : Nat) :
    SameAges fs (fs.putChunkInFile number inodeChunk nandChunk).2 := by
  simp only [putChunkInFile]
  split
  · exact SameAges.refl
  · split
    · exact ⟨rfl, rfl, fun _ => rfl⟩
    · split <;> exact ⟨rfl, rfl, fun _ => rfl⟩

theorem invalidateWholeCache_ages (fs : Files) (number : Nat) :
    SameAges fs (fs.invalidateWholeCache number) := by
  refine ⟨rfl, rfl, fun i => ?_⟩
  simp only [invalidateWholeCache]
  split <;> rfl

variable {gc : Files → Files}

theorem updateOhWith_ages (gc_ages : ∀ fs, SameAges fs (gc fs)) (fs : Files) (number : Nat) :
    SameAges fs (fs.updateOhWith gc number).2 := by
  have collected := gc_ages fs
  simp only [updateOhWith]
  split
  case h_1 => exact collected
  case h_2 obj _ =>
    have written := collected.trans (writeNewChunk_ages (gc fs)
      { objId := number, chunkId := 0
        fileSize := if isHidden obj.parent then 0 else obj.storedSize })
    generalize (gc fs).writeNewChunk _ = page at written ⊢
    split
    · exact written
    · exact ((written.trans (modifyObj_ages _ _ _)).trans (chunkDel_ages _ _)).trans
        (modifyObj_ages _ _ _)

theorem freeObj_ages (fs : Files) (number : Nat) : SameAges fs (fs.freeObj number) := by
  rw [freeObj]
  split <;> exact ⟨rfl, rfl, fun _ => rfl⟩

theorem genericObjDelWith_ages (gc_ages : ∀ fs, SameAges fs (gc fs)) (fs : Files) (number : Nat) :
    SameAges fs (fs.genericObjDelWith gc number) := by
  have dropped := invalidateWholeCache_ages fs number
  have ended (fs : Files) : SameAges fs
      ((((fs.modifyObj number fun obj => { obj with parent := none }).chunkDel
        ((((fs.modifyObj number fun obj => { obj with parent := none }).objs number).map
          FileObj.hdrChunk).getD 0)).modifyObj number fun obj => { obj with hdrChunk := 0 }).freeObj
            number) :=
    (((modifyObj_ages _ _ _).trans (chunkDel_ages _ _)).trans (modifyObj_ages _ _ _)).trans
      (freeObj_ages _ _)
  simp only [genericObjDelWith]
  split
  · exact ((dropped.trans (modifyObj_ages _ _ _)).trans (updateOhWith_ages gc_ages _ _)).trans (ended _)
  · exact dropped.trans (ended _)

theorem freeTop_ages (fs : Files) (number : Nat) : SameAges fs (fs.freeTop number) := by
  rw [freeTop]
  split <;> exact ⟨rfl, rfl, fun _ => rfl⟩

theorem gcProcessChunk_ages (fs : Files) (collected : Collected) :
    SameAges fs (fs.gcProcessChunk collected) := by
  cases collected with
  | data number inodeChunk =>
    simp only [gcProcessChunk]
    split
    case h_2 => exact SameAges.refl
    case h_1 =>
      split
      · exact SameAges.refl
      · split
        · exact SameAges.refl
        · split
          · exact writeNewChunk_ages _ _
          · exact ((writeNewChunk_ages _ _).trans (putChunkInFile_ages _ _ _ _)).trans
              (chunkDel_ages _ _)
  | header number =>
    simp only [gcProcessChunk]
    split
    · exact SameAges.refl
    · split
      · exact SameAges.refl
      · split
        · exact writeNewChunk_ages _ _
        · exact ((writeNewChunk_ages _ _).trans (modifyObj_ages _ _ _)).trans (chunkDel_ages _ _)
  | softDeleted number =>
    simp only [gcProcessChunk]
    split
    · exact SameAges.refl
    · split
      case isFalse => exact SameAges.refl
      case isTrue =>
        have counted := modifyObj_ages fs number fun obj =>
          { obj with nDataChunks := obj.nDataChunks - 1 }
        split
        · have uncollected : ∀ fs, SameAges fs (id fs) := fun _ => SameAges.refl
          have deleted := (counted.trans (freeTop_ages _ number)).trans
            (genericObjDelWith_ages uncollected _ number)
          exact ⟨deleted.param, deleted.counter, deleted.stamp⟩
        · exact counted

theorem checkGc_ages (fs : Files) : SameAges fs fs.checkGc := by
  have swept (collections : List Collected) (fs : Files) :
      SameAges fs (collections.foldl gcProcessChunk fs) := by
    induction collections generalizing fs with
    | nil => exact SameAges.refl
    | cons collected collections ih => exact (gcProcessChunk_ages fs collected).trans (ih _)
  have begun : SameAges fs { fs with collections := fs.collections.tail } := ⟨rfl, rfl, fun _ => rfl⟩
  exact begun.trans (swept _ _)

/-- Writing a chunk is no use of an entry. -/
theorem wrDataObj_ages (fs : Files) (number inodeChunk : Nat) (data : Chunk) (nBytes : Nat) :
    SameAges fs (fs.wrDataObj number inodeChunk data nBytes).2 := by
  have made : SameAges fs (if (fs.checkGc.findChunkInFile number inodeChunk).isNone then
      fs.checkGc.putChunkInFile number inodeChunk 0 else (true, fs.checkGc)).2 := by
    refine (checkGc_ages fs).trans ?_
    split
    · exact putChunkInFile_ages _ _ _ _
    · exact SameAges.refl
  simp only [wrDataObj]
  generalize (if (fs.checkGc.findChunkInFile number inodeChunk).isNone then
    fs.checkGc.putChunkInFile number inodeChunk 0 else (true, fs.checkGc)) = room at made ⊢
  split
  case isTrue => exact made
  case isFalse =>
    let endpos := ((inodeChunk - 1) * room.2.param.dataBytesPerChunk + nBytes) % 2 ^ 32
    have sized := made.trans (modifyObj_ages room.2 number fun obj =>
      { obj with storedSize := max obj.storedSize endpos })
    have written := sized.trans (writeNewChunk_ages _
      { objId := number, chunkId := inodeChunk, nBytes, data })
    split
    · exact (written.trans (putChunkInFile_ages _ _ _ _)).trans (chunkDel_ages _ _)
    · exact written

/-- Nothing that is stored in an entry besides its stamp is a use of it. -/
theorem setCache_ages (fs : Files) (i : Nat) {entry : CacheEntry}
    (same : entry.lastUse = (fs.cache i).lastUse) : SameAges fs (fs.setCache i entry) := by
  refine ⟨rfl, rfl, fun j => ?_⟩
  by_cases eq : j = i
  · subst eq
    simpa [setCache] using same
  · simp [setCache, eq]

theorem flushSingleCache_ages (fs : Files) (i : Nat) (discard : Bool) :
    SameAges fs (fs.flushSingleCache i discard) := by
  have dropped (fs : Files) : SameAges fs
      (if discard then fs.setCache i { fs.cache i with object := none } else fs) := by
    split
    · exact setCache_ages fs i rfl
    · exact SameAges.refl
  simp only [flushSingleCache]
  refine SameAges.trans ?_ (dropped _)
  split
  · exact SameAges.refl
  · split
    · exact (wrDataObj_ages fs _ _ _ _).trans (setCache_ages _ i rfl)
    · exact SameAges.refl

theorem flushFileCache_ages (fs : Files) (number : Nat) (discard : Bool) :
    SameAges fs (fs.flushFileCache number discard) := by
  have flushed (entries : List Nat) (fs : Files) : SameAges fs (entries.foldl
      (fun fs i => if (fs.cache i).object = some number then fs.flushSingleCache i discard else fs)
      fs) := by
    induction entries generalizing fs with
    | nil => exact SameAges.refl
    | cons i entries ih =>
      refine SameAges.trans ?_ (ih _)
      show SameAges fs (if (fs.cache i).object = some number then _ else fs)
      split
      · exact flushSingleCache_ages fs i discard
      · exact SameAges.refl
  exact flushed _ _

theorem invalidateChunkCache_ages (fs : Files) (number inodeChunk : Nat) :
    SameAges fs (fs.invalidateChunkCache number inodeChunk) := by
  rw [invalidateChunkCache]
  split
  · exact SameAges.refl
  · exact setCache_ages fs _ rfl

/-- Loading a chunk into an entry leaves its stamp, which belongs to the chunk that was in it. -/
theorem loadChunkCache_ages (fs : Files) (number inodeChunk : Nat) :
    SameAges fs (fs.loadChunkCache number inodeChunk).2 := by
  have grabbed : SameAges fs fs.grabChunkCache.2 := by
    rw [grabChunkCache]
    split
    · exact SameAges.refl
    · exact flushSingleCache_ages fs _ true
  exact grabbed.trans (setCache_ages _ _ rfl)

/-- A use does not change what is in the entries. -/
theorem useCache_object (fs : Files) (i : Nat) (isWrite : Bool) (j : Nat) :
    ((fs.useCache i isWrite).cache j).object = (fs.cache j).object := by
  simp only [useCache, Function.update_apply]
  by_cases eq : j = i
  · subst eq
    simp [apply_ite]
  · simp [eq, apply_ite]

/-- The stamps of a device that has just been mounted. -/
structure Fresh (fs : Files) : Prop where
  counter : fs.cacheLastUse = 0
  stamp : ∀ i, (fs.cache i).lastUse = 0

end Files

/-- Files with the entries of the cache that have been used since the last reset, newest first. -/
structure Aged where
  files : Files
  uses : List Nat := []

/-- What happens to the cache. -/
inductive CacheTurn
  /-- An entry is used. -/
  | use (i : Nat) (isWrite : Bool)
  /-- Anything that is no use of an entry. -/
  | other (after : Files)

namespace Aged

open Files

variable {aged : Aged}

/-- A turn.  The reset is that of `yaffs_use_cache`. -/
def exec : CacheTurn → Aged → Aged
  | .use i isWrite, aged =>
    { files := aged.files.useCache i isWrite
      uses := if 100000000 < aged.files.cacheLastUse then [i] else i :: aged.uses }
  | .other after, aged => { aged with files := after }

/-- An entry that is used exists, and what is no use leaves the stamps alone. -/
def guard : CacheTurn → Aged → Prop
  | .use i _, aged => i < aged.files.param.nCaches
  | .other after, aged => aged.files.SameAges after

/-- The number of uses since the last use of an entry, or of all uses since the reset if there was
none of the entry. -/
def age (aged : Aged) (i : Nat) : Nat := aged.uses.idxOf i

/-- No entry has gone unused for longer. -/
structure Oldest (aged : Aged) (i : Nat) : Prop where
  /-- Another entry has not been used longer ago. -/
  of_used : ∀ j, j < aged.files.param.nCaches → i ∈ aged.uses → j ∈ aged.uses →
    aged.age j ≤ aged.age i
  /-- An entry that has not been used since the reset goes before one that has. -/
  of_unused : ∀ j, j < aged.files.param.nCaches → j ∉ aged.uses → i ∉ aged.uses

/-- The stamps tell the ages, except that the first entry may have an old stamp. -/
structure Dated (aged : Aged) : Prop where
  counter : aged.files.cacheLastUse = aged.uses.length
  used : ∀ i, i < aged.files.param.nCaches → i ∈ aged.uses →
    (aged.files.cache i).lastUse + aged.age i = aged.uses.length
  unused : ∀ i, i < aged.files.param.nCaches → i ≠ 0 → i ∉ aged.uses →
    (aged.files.cache i).lastUse = 0

theorem age_le (aged : Aged) (i : Nat) : aged.age i ≤ aged.uses.length := List.idxOf_le_length

theorem age_of_unused {i : Nat} (unused : i ∉ aged.uses) : aged.age i = aged.uses.length :=
  List.idxOf_of_notMem unused

theorem age_lt {i : Nat} (used : i ∈ aged.uses) : aged.age i < aged.uses.length :=
  List.idxOf_lt_length_of_mem used

theorem oldest_iff_age {i : Nat} :
    aged.Oldest i ↔ ∀ j, j < aged.files.param.nCaches → aged.age j ≤ aged.age i := by
  constructor
  · rintro ⟨of_used, of_unused⟩ j bound
    by_cases used : i ∈ aged.uses
    · by_cases other_used : j ∈ aged.uses
      · exact of_used j bound used other_used
      · exact absurd used (of_unused j bound other_used)
    · rw [age_of_unused used]
      exact aged.age_le j
  · intro oldest
    constructor
    · exact fun j bound _ _ => oldest j bound
    · intro j bound unused used
      have longest := oldest j bound
      rw [age_of_unused unused] at longest
      exact absurd (age_lt used) (not_lt.mpr longest)

theorem dated_of_fresh {fs : Files} (fresh : fs.Fresh) : Dated { files := fs } :=
  ⟨fresh.counter, nofun, fun i _ _ _ => fresh.stamp i⟩

/-- A use makes the entry the newest and all others older by one, unless the stamps are reset. -/
theorem Dated.use (dated : aged.Dated) {i : Nat} (exists_entry : i < aged.files.param.nCaches)
    (isWrite : Bool) : (exec (.use i isWrite) aged).Dated := by
  have at_entry : ((aged.files.useCache i isWrite).cache i).lastUse =
      (aged.files.useCache i isWrite).cacheLastUse := by
    simp [useCache]
  by_cases reset : 100000000 < aged.files.cacheLastUse
  · have others (j : Nat) (bound : j < aged.files.param.nCaches) (ne : j ≠ i) (first : j ≠ 0) :
        ((aged.files.useCache i isWrite).cache j).lastUse = 0 := by
      have later : 1 ≤ j := by omega
      simp [useCache, ne, reset, later, bound]
    have counter : (aged.files.useCache i isWrite).cacheLastUse = 1 := by simp [useCache, reset]
    refine ⟨?_, fun j bound used => ?_, fun j bound first unused => ?_⟩
    · simp [Aged.exec, reset, counter]
    · obtain rfl : j = i := by simpa [Aged.exec, reset] using used
      simp [Aged.exec, reset, age, at_entry, counter]
    · have ne : j ≠ i := by simpa [Aged.exec, reset] using unused
      exact others j bound ne first
  · have others (j : Nat) (ne : j ≠ i) :
        ((aged.files.useCache i isWrite).cache j).lastUse = (aged.files.cache j).lastUse := by
      simp [useCache, ne, reset]
    have counter : (aged.files.useCache i isWrite).cacheLastUse = aged.uses.length + 1 := by
      rw [← dated.counter]
      simp [useCache, reset]
    refine ⟨?_, fun j bound used => ?_, fun j bound first unused => ?_⟩
    · simp [Aged.exec, reset, counter]
    · by_cases eq : j = i
      · subst eq
        simp [Aged.exec, reset, age, at_entry, counter]
      · have used' : j ∈ aged.uses := by simpa [Aged.exec, reset, eq] using used
        have before := dated.used j bound used'
        simp only [Aged.exec, reset, if_false, age, others j eq,
          List.idxOf_cons_ne _ (Ne.symm eq), List.length_cons] at before ⊢
        omega
    · obtain ⟨ne, unused'⟩ : j ≠ i ∧ j ∉ aged.uses := by simpa [Aged.exec, reset] using unused
      exact (others j ne).trans (dated.unused j bound first unused')

theorem Dated.exec (dated : aged.Dated) (turn : CacheTurn) (guarded : guard turn aged) :
    (exec turn aged).Dated := by
  cases turn with
  | use i isWrite => exact dated.use guarded isWrite
  | other after =>
    obtain ⟨param, counter, stamp⟩ := guarded
    refine ⟨counter.trans dated.counter, fun i bound used => ?_, fun i bound ne unused => ?_⟩
    · exact (congrArg (· + _) (stamp i)).trans (dated.used i (param ▸ bound) used)
    · exact (stamp i).trans (dated.unused i (param ▸ bound) ne unused)

/-! ## The entry that is given up -/

end Aged

namespace Files

/-- The entry used least recently has a least stamp, and a smaller one than the first entry unless it is
the first entry. -/
theorem lruCache_least (fs : Files) :
    (∀ j, j < fs.param.nCaches → (fs.cache fs.lruCache).lastUse ≤ (fs.cache j).lastUse) ∧
      (fs.lruCache = 0 ∨ (fs.cache fs.lruCache).lastUse < (fs.cache 0).lastUse) := by
  rw [lruCache]
  generalize fs.param.nCaches = n
  induction n with
  | zero => exact ⟨nofun, .inl rfl⟩
  | succ n ih =>
    rw [List.range_succ, List.foldl_append]
    simp only [List.foldl_cons, List.foldl_nil]
    generalize (List.range n).foldl
      (fun best i => if (fs.cache i).lastUse < (fs.cache best).lastUse then i else best) 0 = best
      at ih ⊢
    obtain ⟨least, first⟩ := ih
    split
    case isTrue newer =>
      constructor
      · intro j bound
        obtain before | rfl := Nat.lt_succ_iff_lt_or_eq.mp bound
        · exact newer.le.trans (least j before)
        · exact le_rfl
      · right
        obtain rfl | smaller := first
        · exact newer
        · exact newer.trans smaller
    case isFalse older =>
      constructor
      · intro j bound
        obtain before | rfl := Nat.lt_succ_iff_lt_or_eq.mp bound
        · exact least j before
        · exact not_lt.mp older
      · exact first

/-- When all entries are in use, the one used least recently is given up. -/
theorem grabChunkCache_of_full {fs : Files}
    (full : ∀ i, i < fs.param.nCaches → (fs.cache i).object ≠ none) :
    fs.grabChunkCache.1 = fs.lruCache := by
  have none_free : (List.range fs.param.nCaches).find?
      (fun i => (fs.cache i).object.isNone) = none := by
    rw [List.find?_eq_none]
    intro i listed
    simpa using full i (List.mem_range.mp listed)
  rw [grabChunkCache, none_free]

end Files

namespace Aged

open Files

variable {aged : Aged}

/-- The stamp and the age of an entry add up to the number of uses, except for an unused first entry. -/
theorem Dated.stamp_add_age (dated : aged.Dated) {i : Nat} (bound : i < aged.files.param.nCaches)
    (known : i = 0 → 0 ∈ aged.uses) :
    (aged.files.cache i).lastUse + aged.age i = aged.uses.length := by
  by_cases used : i ∈ aged.uses
  · exact dated.used i bound used
  · have later : i ≠ 0 := by
      rintro rfl
      exact used (known rfl)
    rw [dated.unused i bound later used, age_of_unused used, zero_add]

/-- The entry that is given up has gone unused for longest if and only if the first entry has been used
since the reset, or another entry has not, or the old stamp of the first entry is no larger than any
other. -/
theorem Dated.oldest_iff (dated : aged.Dated) (some_cache : 0 < aged.files.param.nCaches) :
    aged.Oldest aged.files.lruCache ↔
      0 ∈ aged.uses ∨ (∃ j, 0 < j ∧ j < aged.files.param.nCaches ∧ j ∉ aged.uses) ∨
        ∀ j, j < aged.files.param.nCaches →
          (aged.files.cache 0).lastUse ≤ (aged.files.cache j).lastUse := by
  obtain ⟨least, first⟩ := aged.files.lruCache_least
  have bound : aged.files.lruCache < aged.files.param.nCaches :=
    aged.files.lruCache_lt some_cache
  generalize aged.files.lruCache = chosen at least first bound ⊢
  rw [oldest_iff_age]
  constructor
  · intro oldest
    by_contra! others
    obtain ⟨unused, used, j, j_bound, smaller⟩ := others
    -- The first entry is the only one that has not been used, and another one is chosen.
    have ne : chosen ≠ 0 := by
      rintro rfl
      exact absurd (least j j_bound) (not_le.mpr smaller)
    have chosen_used := used chosen (Nat.pos_of_ne_zero ne) bound
    have younger := age_lt chosen_used
    have longest := oldest 0 some_cache
    rw [age_of_unused unused] at longest
    omega
  · intro condition i i_bound
    by_cases used : 0 ∈ aged.uses
    · have chosen_stamp := dated.stamp_add_age bound fun _ => used
      have stamp := dated.stamp_add_age i_bound fun _ => used
      have smaller := least i i_bound
      omega
    · suffices longest : aged.age chosen = aged.uses.length from (aged.age_le i).trans longest.ge
      by_cases ne : chosen = 0
      · rw [ne]
        exact age_of_unused used
      · have below := first.resolve_left ne
        have stamp := dated.stamp_add_age bound fun zero => absurd zero ne
        obtain first_used | ⟨j, later, j_bound, unused⟩ | small := condition
        · exact absurd first_used used
        · have zero := dated.unused j j_bound later.ne' unused
          have smaller := least j j_bound
          omega
        · exact absurd (small chosen bound) (not_le.mpr below)

/-- A state after some turns on a device that has just been mounted. -/
def Reached (aged : Aged) : Prop :=
  ∃ fs turns, fs.Fresh ∧ Execution.Guarded exec guard turns { files := fs } ∧
    Execution.run exec turns { files := fs } = aged

theorem Reached.step (reached : aged.Reached) (turn : CacheTurn) (guarded : guard turn aged) :
    (Aged.exec turn aged).Reached := by
  obtain ⟨fs, turns, fresh, before, rfl⟩ := reached
  refine ⟨fs, turns ++ [turn], fresh, ?_, Execution.run_append ..⟩
  exact (Execution.guarded_append ..).mpr ⟨before, guarded, trivial⟩

theorem Reached.dated (reached : aged.Reached) : aged.Dated := by
  obtain ⟨fs, turns, fresh, guarded, rfl⟩ := reached
  have step (turn : CacheTurn) (aged : Aged) (guarded : guard turn aged) (dated : aged.Dated) :
      (exec turn aged).Dated := dated.exec turn guarded
  exact Execution.run_invariant step guarded (dated_of_fresh fresh)

/-- After any turns, with all entries in use, the entry that is given up has gone unused for longest if
and only if the first entry has been used since the reset, or another entry has not, or the old stamp of
the first entry is no larger than any other. -/
theorem oldest_grabbed_iff (reached : aged.Reached) (some_cache : 0 < aged.files.param.nCaches)
    (full : ∀ i, i < aged.files.param.nCaches → (aged.files.cache i).object ≠ none) :
    aged.Oldest aged.files.grabChunkCache.1 ↔
      0 ∈ aged.uses ∨ (∃ j, 0 < j ∧ j < aged.files.param.nCaches ∧ j ∉ aged.uses) ∨
        ∀ j, j < aged.files.param.nCaches →
          (aged.files.cache 0).lastUse ≤ (aged.files.cache j).lastUse := by
  rw [grabChunkCache_of_full full]
  exact reached.dated.oldest_iff some_cache

/-- A device with two entries that both hold a chunk of a file. -/
def twoEntries : Files where
  param := { dataBytesPerChunk := 512, nCaches := 2 }
  cache := fun i => { object := some 256, chunkId := i + 1 }

theorem fresh_twoEntries : twoEntries.Fresh := ⟨rfl, fun _ => rfl⟩

/-- Both entries are used, the second one first. -/
def bothUsed : Aged := Execution.run exec [.use 1 false, .use 0 false] { files := twoEntries }

theorem oldest_grabbed_iff_bothUsed :
    bothUsed.Oldest bothUsed.files.grabChunkCache.1 ↔
      0 ∈ bothUsed.uses ∨ (∃ j, 0 < j ∧ j < bothUsed.files.param.nCaches ∧ j ∉ bothUsed.uses) ∨
        ∀ j, j < bothUsed.files.param.nCaches →
          (bothUsed.files.cache 0).lastUse ≤ (bothUsed.files.cache j).lastUse :=
  oldest_grabbed_iff
    ⟨twoEntries, [.use 1 false, .use 0 false], fresh_twoEntries,
      ⟨Nat.one_lt_two, Nat.two_pos, trivial⟩, rfl⟩
    (by decide) (by decide)

/-! ## Past the reset -/

/-- One entry is used again and again. -/
def usedAgain (n : Nat) : Aged :=
  Execution.run exec (List.replicate n (.use 0 false)) { files := twoEntries }

theorem usedAgain_succ (n : Nat) : usedAgain (n + 1) = exec (.use 0 false) (usedAgain n) := by
  rw [usedAgain, List.replicate_succ', Execution.run_append]
  rfl

theorem guarded_usedAgain (n : Nat) :
    Execution.Guarded exec guard (List.replicate n (.use 0 false)) { files := twoEntries } ∧
      (usedAgain n).files.param = twoEntries.param ∧
      ∀ i, ((usedAgain n).files.cache i).object = some 256 := by
  induction n with
  | zero => exact ⟨trivial, rfl, fun _ => rfl⟩
  | succ n ih =>
    obtain ⟨guarded, param, object⟩ := ih
    rw [usedAgain_succ, List.replicate_succ', Execution.guarded_append]
    refine ⟨⟨guarded, ?_, trivial⟩, param, fun i => (useCache_object _ 0 false i).trans (object i)⟩
    show 0 < (usedAgain n).files.param.nCaches
    rw [param]
    decide

/-- The stamps count the uses until the reset. -/
theorem stamp_usedAgain (n : Nat) (room : n ≤ 100000001) :
    (usedAgain n).files.cacheLastUse = n ∧ ((usedAgain n).files.cache 0).lastUse = n := by
  induction n with
  | zero => exact ⟨rfl, rfl⟩
  | succ n ih =>
    obtain ⟨counter, -⟩ := ih (by omega)
    have no_reset : ¬100000000 < n := by omega
    rw [usedAgain_succ]
    simp [Aged.exec, useCache, no_reset, counter]

/-- After the reset the first entry has not been used, but it keeps its stamp and the second one is given
up, which has just been used. -/
theorem not_oldest_of_reset (n : Nat) (many : n = 100000001) :
    let aged := exec (.use 1 false) (usedAgain n)
    aged.Reached ∧ 0 < aged.files.param.nCaches ∧
      (∀ i, i < aged.files.param.nCaches → (aged.files.cache i).object ≠ none) ∧
      ¬aged.Oldest aged.files.grabChunkCache.1 := by
  obtain ⟨guarded, param, object⟩ := guarded_usedAgain n
  obtain ⟨counter, stamp⟩ := stamp_usedAgain n many.le
  have reset : 100000000 < (usedAgain n).files.cacheLastUse := by omega
  generalize eq : usedAgain n = before at guarded param object counter stamp reset
  intro aged
  have n_caches : aged.files.param.nCaches = 2 := congrArg FileParam.nCaches param
  have uses : aged.uses = [1] := if_pos reset
  have full (i : Nat) : (aged.files.cache i).object ≠ none := by
    have same : (aged.files.cache i).object = some 256 :=
      (useCache_object before.files 1 false i).trans (object i)
    rw [same]
    nofun
  have reached : aged.Reached := by
    refine ⟨twoEntries, List.replicate n (.use 0 false) ++ [.use 1 false], fresh_twoEntries, ?_, ?_⟩
    · rw [Execution.guarded_append]
      refine ⟨guarded, ?_, trivial⟩
      show 1 < (usedAgain n).files.param.nCaches
      rw [eq, param]
      decide
    · rw [Execution.run_append]
      exact congrArg (exec (.use 1 false)) eq
  refine ⟨reached, by omega, fun i _ => full i, ?_⟩
  rw [grabChunkCache_of_full fun i _ => full i, reached.dated.oldest_iff (by omega), uses, n_caches]
  rintro (used | ⟨j, later, bound, unused⟩ | small)
  · simp at used
  · obtain rfl : j = 1 := by omega
    simp at unused
  · have smaller := small 1 (by decide)
    have first : (aged.files.cache 0).lastUse = 100000001 := by
      simp [aged, Aged.exec, useCache, stamp, many]
    have second : (aged.files.cache 1).lastUse = 1 := by
      simp [aged, Aged.exec, useCache, reset]
    omega

theorem not_oldest_past_limit :
    ¬∀ aged : Aged, aged.Reached → 0 < aged.files.param.nCaches →
      (∀ i, i < aged.files.param.nCaches → (aged.files.cache i).object ≠ none) →
        aged.Oldest aged.files.grabChunkCache.1 := by
  intro always
  obtain ⟨reached, some_cache, full, not_oldest⟩ := not_oldest_of_reset 100000001 rfl
  exact not_oldest (always _ reached some_cache full)

end Aged

/-! ## What files do to the cache -/

namespace Files

variable {fs after last : Files}

/-- One state of the files comes from another one by uses of entries and by what is no use of one. -/
inductive Turns : Files → Files → Prop
  | same {fs after : Files} : SameAges fs after → Turns fs after
  | use {fs : Files} {i : Nat} : i < fs.param.nCaches → ∀ isWrite, Turns fs (fs.useCache i isWrite)
  | trans {fs after last : Files} : Turns fs after → Turns after last → Turns fs last

theorem Turns.refl : Turns fs fs := .same SameAges.refl

/-- What is reached by turns is reached by a run. -/
theorem Turns.reached (turned : Turns fs after) {uses : List Nat}
    (reached : Aged.Reached { files := fs, uses }) :
    ∃ uses', Aged.Reached { files := after, uses := uses' } := by
  induction turned generalizing uses with
  | same same => exact ⟨uses, reached.step (.other _) same⟩
  | use exists_entry isWrite => exact ⟨_, reached.step (.use _ isWrite) exists_entry⟩
  | trans _ _ first second =>
    obtain ⟨_, middle⟩ := first reached
    exact second middle

theorem findChunkCache_lt {number inodeChunk i : Nat}
    (found : fs.findChunkCache number inodeChunk = some i) : i < fs.param.nCaches :=
  List.mem_range.mp (List.mem_of_find?_eq_some found)

theorem grabChunkCache_lt (some_cache : 0 < fs.param.nCaches) :
    fs.grabChunkCache.1 < fs.param.nCaches := by
  rw [grabChunkCache]
  split
  case h_1 i found => exact List.mem_range.mp (List.mem_of_find?_eq_some found)
  case h_2 => exact fs.lruCache_lt some_cache

theorem loadChunkCache_lt (some_cache : 0 < fs.param.nCaches) (number inodeChunk : Nat) :
    (fs.loadChunkCache number inodeChunk).1 < (fs.loadChunkCache number inodeChunk).2.param.nCaches := by
  rw [(loadChunkCache_ages fs number inodeChunk).param]
  exact grabChunkCache_lt some_cache

theorem checkAllocAvailable_ages (fs : Files) : SameAges fs fs.checkAllocAvailable.2 :=
  ⟨rfl, rfl, fun _ => rfl⟩

/-- Reading through the cache uses the entry of the chunk. -/
theorem fileRd_turns (number fuel offset n : Nat) (fs : Files) :
    Turns fs (fileRd number fuel offset n fs).2 := by
  induction fuel generalizing offset n fs with
  | zero => exact Turns.refl
  | succ fuel ih =>
    cases n with
    | zero => exact Turns.refl
    | succ n =>
      simp only [fileRd]
      generalize (if (fs.param.addrToChunk offset).2 + (n + 1) < fs.param.dataBytesPerChunk then
        n + 1 else fs.param.dataBytesPerChunk - (fs.param.addrToChunk offset).2) = nCopy
      refine Turns.trans ?_ (ih _ _ _)
      cases found : fs.findChunkCache number ((fs.param.addrToChunk offset).1 + 1) with
      | some i =>
        simp only [Option.isSome_some, true_or, if_true]
        split
        · exact Turns.use (findChunkCache_lt found) false
        · exact Turns.refl
      | none =>
        by_cases some_cache : 0 < fs.param.nCaches
        · simp only [some_cache, if_true]
          split
          · have loaded := loadChunkCache_ages fs number ((fs.param.addrToChunk offset).1 + 1)
            have bound := loadChunkCache_lt some_cache number ((fs.param.addrToChunk offset).1 + 1)
            refine .trans (.same (loaded.trans (setCache_ages _ _ ?_))) (Turns.use ?_ false)
            · rfl
            · exact bound
          · exact Turns.refl
        · simp only [some_cache, if_false]
          split <;> exact Turns.refl

/-- Writing through the cache uses the entry of the chunk, unless there is no room for it. -/
theorem wrCached_turns (fs : Files) (some_cache : 0 < fs.param.nCaches)
    (number inodeChunk start : Nat) (bytes : List UInt8) (nWriteback : Nat) (writeThrough : Bool) :
    Turns fs (fs.wrCached number inodeChunk start bytes nWriteback writeThrough).2 := by
  have asked := checkAllocAvailable_ages fs
  have bound_asked : 0 < fs.checkAllocAvailable.2.param.nCaches := asked.param ▸ some_cache
  have used (before : Files) (i : Nat) (bound : i < before.param.nCaches) (data : Chunk) :
      Turns before ((before.useCache i true).setCache i
        { (before.useCache i true).cache i with data, nBytes := nWriteback }) :=
    by
    refine (Turns.use bound true).trans (.same (setCache_ages _ i ?_))
    rfl
  have written (before : Files) (i chunk : Nat) (data : Chunk) (nBytes : Nat) :
      Turns before ((before.wrDataObj number chunk data nBytes).2.setCache i
        { (before.wrDataObj number chunk data nBytes).2.cache i with dirty := false }) :=
    .same ((wrDataObj_ages ..).trans (setCache_ages _ i rfl))
  have done (before : Files) (i : Nat) (same : SameAges fs before) (bound : i < before.param.nCaches) :
      Turns fs (if writeThrough then
        let fs := (before.useCache i true).setCache i
          { (before.useCache i true).cache i with
            data := copyInto ((before.useCache i true).cache i).data start bytes
            nBytes := nWriteback }
        let written := fs.wrDataObj number inodeChunk (fs.cache i).data nWriteback
        let fs := written.2
        (written.1, fs.setCache i { fs.cache i with dirty := false })
        else ((0 : Int), (before.useCache i true).setCache i
          { (before.useCache i true).cache i with
            data := copyInto ((before.useCache i true).cache i).data start bytes
            nBytes := nWriteback })).2 := by
    split
    · exact (Turns.same same).trans ((used before i bound _).trans (written _ i _ _ _))
    · exact (Turns.same same).trans (used before i bound _)
  cases found : fs.findChunkCache number inodeChunk with
  | none =>
    by_cases available : fs.checkAllocAvailable.1
    · have loaded := asked.trans (loadChunkCache_ages _ number inodeChunk)
      have bound := loadChunkCache_lt bound_asked number inodeChunk
      simpa only [wrCached, found, available, if_true] using done _ _ loaded bound
    · simpa only [wrCached, found, available, Bool.false_eq_true, if_false] using Turns.same asked
  | some i =>
    have bound := findChunkCache_lt found
    by_cases dirty : (fs.cache i).dirty
    · simpa only [wrCached, found, dirty, if_true] using done fs i SameAges.refl bound
    · by_cases available : fs.checkAllocAvailable.1
      · simpa only [wrCached, found, dirty, available, Bool.false_eq_true, if_true, if_false] using
          done _ i asked bound
      · simpa only [wrCached, found, dirty, available, Bool.false_eq_true, if_false] using
          Turns.same asked

theorem wrChunk_turns (fs : Files) (number inodeChunk start : Nat) (bytes : List UInt8)
    (nWriteback : Nat) (writeThrough : Bool) :
    Turns fs (fs.wrChunk number inodeChunk start bytes nWriteback writeThrough).2 := by
  simp only [wrChunk]
  split
  · split
    case isTrue some_cache => exact wrCached_turns fs some_cache ..
    case isFalse => exact .same (wrDataObj_ages ..)
  · exact .same ((wrDataObj_ages ..).trans (invalidateChunkCache_ages ..))

theorem doFileWr_turns (fs : Files) (number offset : Nat) (buffer : List UInt8)
    (writeThrough : Bool) : Turns fs (fs.doFileWr number offset buffer writeThrough).2 := by
  have loop (fuel offset : Nat) (buffer : List UInt8) (fs : Files) :
      Turns fs (doFileWrLoop number writeThrough fuel offset buffer fs).2 := by
    induction fuel generalizing offset buffer fs with
    | zero => exact Turns.refl
    | succ fuel ih =>
      cases buffer with
      | nil => exact Turns.refl
      | cons byte buffer =>
        simp only [doFileWrLoop]
        generalize (if (fs.param.addrToChunk offset).2 + (byte :: buffer).length <
          fs.param.dataBytesPerChunk then (byte :: buffer).length else _) = nCopy
        generalize (if (fs.param.addrToChunk offset).2 + (byte :: buffer).length <
          fs.param.dataBytesPerChunk then max (_ : Nat) _ else _) = nWriteback
        split
        · exact wrChunk_turns ..
        · exact (wrChunk_turns ..).trans (ih ..)
  exact (loop _ _ _ fs).trans (.same (modifyObj_ages ..))

theorem pruneChunks_ages (fs : Files) (number newSize : Nat) :
    SameAges fs (fs.pruneChunks number newSize) := by
  have found (fs : Files) (i : Nat) : SameAges fs (fs.findDelFileChunk number i).2 := by
    simp only [findDelFileChunk]
    split
    · exact SameAges.refl
    · exact modifyObj_ages ..
  simp only [pruneChunks]
  generalize (List.range' ((fs.param.addrToChunk (newSize + fs.param.dataBytesPerChunk - 1)).1 + 1)
    _).reverse = chunks
  induction chunks generalizing fs with
  | nil => exact SameAges.refl
  | cons i chunks ih =>
    rw [List.foldl_cons]
    refine SameAges.trans ?_ (ih _)
    have gone := found fs i
    split
    · exact gone
    · split
      · exact gone
      · exact (gone.trans (modifyObj_ages ..)).trans (chunkDel_ages ..)

theorem pruneTree_ages (fs : Files) (number : Nat) : SameAges fs (fs.pruneTree number) := by
  simp only [pruneTree]
  split
  · exact SameAges.refl
  · exact ⟨rfl, rfl, fun _ => rfl⟩

theorem resizeFileDown_ages (fs : Files) (number newSize : Nat) :
    SameAges fs (fs.resizeFileDown number newSize) := by
  have pruned := pruneChunks_ages fs number newSize
  have cut : SameAges fs (if (fs.param.addrToChunk newSize).2 = 0 then fs.pruneChunks number newSize
      else ((fs.pruneChunks number newSize).wrDataObj number ((fs.param.addrToChunk newSize).1 + 1)
        (fun i => if i < (fs.param.addrToChunk newSize).2 then
          (fs.pruneChunks number newSize).rdDataObj number ((fs.param.addrToChunk newSize).1 + 1) i
        else 0) (fs.param.addrToChunk newSize).2).2) := by
    split
    · exact pruned
    · exact pruned.trans (wrDataObj_ages ..)
  have sized := cut.trans (modifyObj_ages _ number fun obj =>
    { obj with fileSize := newSize, storedSize := newSize })
  exact sized.trans (pruneTree_ages _ number)

theorem handleHole_turns (fs : Files) (number newSize : Nat) :
    Turns fs (fs.handleHole number newSize) := by
  have filling (fuel pos increase : Nat) (fs : Files) :
      Turns fs (fillHole number fuel pos increase fs).2 := by
    induction fuel generalizing pos increase fs with
    | zero => exact Turns.refl
    | succ fuel ih =>
      rw [fillHole]
      split
      · exact Turns.refl
      · dsimp only
        split
        · exact (doFileWr_turns ..).trans (ih ..)
        · exact doFileWr_turns ..
  simp only [handleHole]
  generalize ((fs.objs number).map FileObj.fileSize).getD 0 = oldSize
  split
  case isTrue => exact Turns.refl
  case isFalse =>
    have available : Turns fs (if newSize - oldSize < smallHoleThreshold * fs.param.dataBytesPerChunk
        then fs.checkAllocAvailable else (false, fs)).2 := by
      split
      · exact .same (checkAllocAvailable_ages fs)
      · exact Turns.refl
    generalize (if newSize - oldSize < smallHoleThreshold * fs.param.dataBytesPerChunk then
      fs.checkAllocAvailable else (false, fs)) = room at available ⊢
    have filled : Turns fs (if room.1 then
        ((fillHole number (newSize - oldSize) oldSize (newSize - oldSize) room.2).1,
          if (fillHole number (newSize - oldSize) oldSize (newSize - oldSize) room.2).1 then
            (fillHole number (newSize - oldSize) oldSize (newSize - oldSize) room.2).2
          else (fillHole number (newSize - oldSize) oldSize (newSize - oldSize)
            room.2).2.resizeFileDown number oldSize)
        else (false, room.2)).2 := by
      split
      case isTrue =>
        have tried := available.trans
          (filling (newSize - oldSize) oldSize (newSize - oldSize) room.2)
        dsimp only
        split
        · exact tried
        · exact tried.trans (.same (resizeFileDown_ages ..))
      case isFalse => exact available
    generalize (if room.1 then
      ((fillHole number (newSize - oldSize) oldSize (newSize - oldSize) room.2).1,
        if (fillHole number (newSize - oldSize) oldSize (newSize - oldSize) room.2).1 then
          (fillHole number (newSize - oldSize) oldSize (newSize - oldSize) room.2).2
        else (fillHole number (newSize - oldSize) oldSize (newSize - oldSize)
          room.2).2.resizeFileDown number oldSize)
      else (false, room.2)) = result at filled ⊢
    split
    · exact filled.trans (.same (updateOhWith_ages checkGc_ages ..))
    · exact filled

theorem recordResize_turns {fs resized : Files} (turned : Turns fs resized) (number : Nat) :
    Turns fs (resized.recordResize number) := by
  simp only [recordResize]
  split
  case h_1 => exact turned
  case h_2 =>
    split
    · exact turned.trans (.same (updateOhWith_ages checkGc_ages ..))
    · exact turned

theorem resizeFile_turns (fs : Files) (number newSize : Nat) :
    Turns fs (fs.resizeFile number newSize) := by
  have settled : Turns fs (fs.settle number) :=
    .same (((flushFileCache_ages ..).trans (invalidateWholeCache_ages ..)).trans (checkGc_ages _))
  rw [resizeFile_eq]
  split
  case isTrue => exact settled
  case isFalse =>
    refine recordResize_turns ?_ number
    split
    case isTrue =>
      exact settled.trans ((handleHole_turns ..).trans (.same (modifyObj_ages ..)))
    case isFalse => exact settled.trans (.same (resizeFileDown_ages ..))

theorem flushFile_ages (fs : Files) (number : Nat) (dataSync discardCache : Bool) :
    SameAges fs (fs.flushFile number dataSync discardCache).2 := by
  simp only [flushFile]
  split
  · exact SameAges.refl
  · split
    · exact flushFileCache_ages ..
    · exact (flushFileCache_ages ..).trans (updateOhWith_ages checkGc_ages ..)

/-! ## Deletion -/

theorem softDelFile_ages (fs : Files) (number : Nat) : SameAges fs (fs.softDelFile number) := by
  rw [softDelFile]
  split
  · exact SameAges.refl
  · split
    · exact SameAges.refl
    · split
      · exact (freeTop_ages ..).trans (genericObjDelWith_ages checkGc_ages ..)
      · exact ⟨rfl, rfl, fun _ => rfl⟩

theorem markDeleted_ages (fs : Files) (number : Nat) : SameAges fs (fs.markDeleted number) :=
  ⟨rfl, rfl, fun _ => rfl⟩

theorem changeObjName_ages (fs : Files) (number newDir : Nat) :
    SameAges fs (fs.changeObjNameWith checkGc number newDir).2 :=
  (modifyObj_ages ..).trans (updateOhWith_ages checkGc_ages ..)

/-- Data that is deleted is cut off first where the device needs that. -/
theorem cut_turns (fs : Files) (number : Nat) :
    Turns fs (if fs.resizesToDelete then fs.resizeFile number 0 else fs) := by
  split
  · exact resizeFile_turns ..
  · exact Turns.refl

theorem unlinkFileIfNeeded_turns (fs : Files) (number : Nat) :
    Turns fs (fs.unlinkFileIfNeeded number).2 := by
  simp only [unlinkFileIfNeeded]
  split
  · have moved := (changeObjName_ages fs number objectIdDeleted).trans (markDeleted_ages _ number)
    exact (Turns.same moved).trans ((cut_turns ..).trans (.same (softDelFile_ages ..)))
  · exact .same (changeObjName_ages ..)

theorem delFile_turns (fs : Files) (number : Nat) : Turns fs (fs.delFile number) := by
  have cut := cut_turns fs number
  simp only [delFile]
  generalize (if fs.resizesToDelete then fs.resizeFile number 0 else fs) = here at cut ⊢
  split
  case h_1 => exact cut
  case h_2 obj _ =>
    split
    case isFalse =>
      exact cut.trans (.same ((freeTop_ages ..).trans (genericObjDelWith_ages checkGc_ages ..)))
    case isTrue =>
      have needed : Turns fs (if ¬obj.unlinked then here.unlinkFileIfNeeded number
          else (true, here)).2 := by
        split
        · exact cut.trans (unlinkFileIfNeeded_turns ..)
        · exact cut
      generalize (if ¬obj.unlinked then here.unlinkFileIfNeeded number else (true, here)) = needed
        at needed ⊢
      split
      · exact needed
      · split
        · exact needed.trans (.same ((markDeleted_ages ..).trans (softDelFile_ages ..)))
        · exact needed

theorem createFile_turns (fs : Files) (number parent : Nat) :
    Turns fs (fs.createFile number parent).2 := by
  have made : SameAges fs (fs.newObj number).2 := by
    simp only [newObj]
    split
    · exact ⟨rfl, rfl, fun _ => rfl⟩
    · split <;> exact ⟨rfl, rfl, fun _ => rfl⟩
  simp only [createFile]
  split
  · exact .same made
  · have placed := made.trans (modifyObj_ages (fs.newObj number).2 number fun obj =>
      { obj with parent := some parent, dirty := true })
    have updated := placed.trans (updateOhWith_ages checkGc_ages _ number)
    split
    · exact (Turns.same updated).trans (delFile_turns ..)
    · exact .same updated

/-- What is done to files uses entries or leaves their stamps alone. -/
theorem exec_turns (turn : FileTurn) (fs : Files) : Turns fs (turn.exec fs) := by
  cases turn with
  | create number parent =>
    simp only [FileTurn.exec]
    split
    · exact Turns.refl
    · exact createFile_turns ..
  | hold number =>
    simp only [FileTurn.exec]
    split
    · exact .same (modifyObj_ages ..)
    · exact Turns.refl
  | release number =>
    simp only [FileTurn.exec]
    split
    · simp only [releaseInode]
      have released := modifyObj_ages fs number fun obj => { obj with hasInode := false }
      split
      · exact (Turns.same released).trans (delFile_turns ..)
      · exact .same released
    · exact Turns.refl
  | read number offset n =>
    simp only [FileTurn.exec]
    split
    · exact fileRd_turns ..
    · exact Turns.refl
  | write number offset buffer writeThrough =>
    simp only [FileTurn.exec]
    split
    · exact (handleHole_turns ..).trans (doFileWr_turns ..)
    · exact Turns.refl
  | truncate number newSize =>
    simp only [FileTurn.exec]
    split
    · exact resizeFile_turns ..
    · exact Turns.refl
  | flush number dataSync discardCache =>
    simp only [FileTurn.exec]
    split
    · exact .same (flushFile_ages ..)
    · exact Turns.refl
  | unlink number =>
    simp only [FileTurn.exec]
    split
    · simp only [unlinkObj]
      split
      · exact .same (changeObjName_ages ..)
      · exact delFile_turns ..
    · exact Turns.refl
  | collect => exact .same (checkGc_ages fs)

/-- The states that runs over files reach are reached by turns of the cache. -/
theorem reached_of_run {fs : Files} (fresh : fs.Fresh) (turns : List FileTurn) :
    ∃ uses, Aged.Reached { files := Execution.run FileTurn.exec turns fs, uses } := by
  have step (turn : FileTurn) (fs : Files) (_ : True)
      (reached : ∃ uses, Aged.Reached { files := fs, uses }) :
      ∃ uses, Aged.Reached { files := turn.exec fs, uses } := by
    obtain ⟨uses, reached⟩ := reached
    exact (exec_turns turn fs).reached reached
  exact Execution.run_invariant step (Execution.guarded_true turns fs)
    ⟨[], fs, [], fresh, trivial, rfl⟩

end Files

end Yaffs
