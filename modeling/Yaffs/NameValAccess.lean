import Yaffs.NameValMap

/-!
# Names and values in a corrupt area

What is found in the area of the extended attributes may be anything.  The sizes of the records are
only checked against the end of the area.  A comparison of names begins behind the size and goes on
for the size of the record, so that it may leave the area.  The size of a value may come out
negative when the name does not end within its record, and a new record is stored with up to four
zeros behind it.
-/

namespace Yaffs

/-- An access to bytes of the area or of the caller's buffer. -/
inductive NvalAccess
  | area (pos : Nat) (count : Int)
  | buffer (offset : Nat) (count : Int)
deriving DecidableEq, Repr

/-- The access stays within the area or the buffer, and its length is not negative. -/
def NvalAccess.Inside (xbSize bsize : Nat) : NvalAccess → Prop
  | area pos count => 0 ≤ count ∧ pos + count ≤ xbSize
  | buffer offset count => 0 ≤ count ∧ offset + count ≤ bsize

instance (xbSize bsize : Nat) : DecidablePred (NvalAccess.Inside xbSize bsize)
  | .area _ _ => inferInstanceAs (Decidable (_ ∧ _))
  | .buffer _ _ => inferInstanceAs (Decidable (_ ∧ _))

section Accesses

variable (swap : Bool) (xb : Buf) (xbSize : Nat)

/-! ## Accesses -/

/-- Read the size at the position after a record. -/
def nvalNextAccesses (pos : Nat) : List NvalAccess :=
  if (pos : Int) < xbSize - 4 then [.area pos 4] else []

/-- The accesses in the loop of `nvalFind`. -/
def nvalFindAccessLoop (name : List UInt8) : Nat → Nat → Int → List NvalAccess
  | 0, _, _ => []
  | fuel + 1, pos, size =>
    if 0 < size ∧ size < xbSize ∧ pos + size < xbSize then
      .area (pos + 4) (Memory.strncmpReads xb (pos + 4) name size.toNat) ::
        if Memory.strncmp xb (pos + 4) name size.toNat then []
        else
          let pos := pos + size.toNat
          nvalNextAccesses xbSize pos ++
            nvalFindAccessLoop name fuel pos (nvalNextSize swap xb xbSize pos)
    else []

def nvalFindAccesses (name : List UInt8) : List NvalAccess :=
  .area 0 4 :: nvalFindAccessLoop swap xb xbSize name (xbSize + 1) 0 (nvalSize swap xb 0)

/-- The accesses in the loop of `nvalUsed`. -/
def nvalUsedAccessLoop : Nat → Nat → Int → List NvalAccess
  | 0, _, _ => []
  | fuel + 1, pos, size =>
    if 0 < size ∧ size < xbSize ∧ pos + size < xbSize then
      let pos := pos + size.toNat
      nvalNextAccesses xbSize pos ++
        nvalUsedAccessLoop fuel pos (nvalNextSize swap xb xbSize pos)
    else []

def nvalUsedAccesses : List NvalAccess :=
  .area 0 4 :: nvalUsedAccessLoop swap xb xbSize (xbSize + 1) 0 (nvalSize swap xb 0)

def nvalDelAccesses (name : List UInt8) : List NvalAccess :=
  nvalFindAccesses swap xb xbSize name ++
    match nvalFind swap xb xbSize name with
    | none => []
    | some (pos, _) =>
      let size := nvalSize swap xb pos
      [.area pos 4, .area (pos + size.toNat) (xbSize - (pos + size)),
        .area pos (xbSize - (pos + size)), .area (xbSize - size.toNat) size]

/-- The accesses of storing a record. -/
def nvalPutAccesses (start : Nat) (name value : List UInt8) : List NvalAccess :=
  [.area start 4, .area (start + 4) (nvalReclen xbSize name value), .buffer 0 value.length,
    .area (start + 4 + (min name.length (xbSize + 1) + 1)) value.length]

def nvalSetAccesses (name value : List UInt8) (flags : Nat) : List NvalAccess :=
  let found := nvalFind swap xb xbSize name
  nvalFindAccesses swap xb xbSize name ++
    if flags &&& xattrCreate ≠ 0 ∧ found.isSome then []
    else if flags &&& xattrReplace ≠ 0 ∧ found.isNone then []
    else
      let start := nvalUsed swap xb xbSize
      let space : Int := xbSize - start + found.elim 0 Prod.snd
      nvalUsedAccesses swap xb xbSize ++
        if space < nvalReclen xbSize name value then []
        else if found.isSome then
          let deleted := (nvalDel swap xb xbSize name).2
          nvalDelAccesses swap xb xbSize name ++ nvalUsedAccesses swap deleted xbSize ++
            nvalPutAccesses xbSize (nvalUsed swap deleted xbSize) name value
        else nvalPutAccesses xbSize start name value

/-- The accesses of advancing over a name. -/
def nvalSkipAccesses : Nat → Nat → Int → List NvalAccess
  | 0, _, _ => []
  | fuel + 1, pos, size =>
    .area pos 1 ::
      if xb pos ≠ 0 ∧ 0 < size ∧ pos < xbSize then nvalSkipAccesses fuel (pos + 1) (size - 1)
      else []

def nvalGetAccesses (name : List UInt8) (bsize : Nat) : List NvalAccess :=
  nvalFindAccesses swap xb xbSize name ++
    match nvalFind swap xb xbSize name with
    | none => []
    | some (pos, _) =>
      let skipped := nvalSkipName xb xbSize xbSize (pos + 4) (nvalSize swap xb pos - 4)
      let size := skipped.2 - 1
      .area pos 4 ::
        (nvalSkipAccesses xb xbSize (xbSize + 1) (pos + 4) (nvalSize swap xb pos - 4) ++
          if bsize = 0 then []
          else if size ≤ bsize then [.area (skipped.1 + 1) size, .buffer 0 size]
          else [])

/-- The accesses in the loop of `nvalList`. -/
def nvalListAccessLoop (bsize : Nat) : Nat → Nat → Int → Nat → List NvalAccess
  | 0, _, _, _ => []
  | fuel + 1, pos, size, ncopied =>
    if 4 < size ∧ size ≤ xbSize ∧ pos + size < xbSize then
      let limit := (size - 4).toNat + 1
      let nameLen := Memory.strnlen xb (pos + 4) limit
      .area (pos + 4) (min (nameLen + 1) limit : Nat) ::
        if ncopied + nameLen + 1 < bsize then
          let next := pos + 4 + (size - 4).toNat
          [.area (pos + 4) nameLen, .buffer ncopied nameLen, .buffer (ncopied + nameLen) 1] ++
            nvalNextAccesses xbSize next ++
            nvalListAccessLoop bsize fuel next (nvalNextSize swap xb xbSize next)
              (ncopied + nameLen + 1)
        else
          nvalNextAccesses xbSize (pos + 4 + (size - 4).toNat)
    else []

def nvalListAccesses (bsize : Nat) : List NvalAccess :=
  .area 0 4 :: nvalListAccessLoop swap xb xbSize bsize (xbSize + 1) 0 (nvalSize swap xb 0) 0

/-! ## What is to hold -/

/-- The loops end by themselves: more fuel changes nothing. -/
structure NvalTerminates (name : List UInt8) (bsize : Int) : Prop where
  find : ∀ more, nvalFindLoop swap xb xbSize name (xbSize + 1 + more) 0 (nvalSize swap xb 0) =
    nvalFind swap xb xbSize name
  used : ∀ (area : Buf) more,
    nvalUsedLoop swap area xbSize (xbSize + 1 + more) 0 (nvalSize swap area 0) =
      nvalUsed swap area xbSize
  skip : ∀ record more, nvalFind swap xb xbSize name = some record →
    nvalSkipName xb xbSize (xbSize + more) (record.1 + 4) (nvalSize swap xb record.1 - 4) =
      nvalSkipName xb xbSize xbSize (record.1 + 4) (nvalSize swap xb record.1 - 4)
  list : ∀ more,
    nvalListLoop swap xb xbSize bsize (xbSize + 1 + more) 0 (nvalSize swap xb 0) [] =
      nvalList swap xb xbSize bsize

/-- The operations end, stay within the area and the caller's buffer, copy no negative number of
bytes, and no value has a negative size. -/
structure NvalHarmless (name : List UInt8) (bsize : Nat) (value : List UInt8) (flags : Nat) :
    Prop where
  find : ∀ access ∈ nvalFindAccesses swap xb xbSize name, access.Inside xbSize 0
  get : ∀ access ∈ nvalGetAccesses swap xb xbSize name bsize, access.Inside xbSize bsize
  getResult : ∀ result, nvalGet swap xb xbSize name bsize = .ok result → 0 ≤ result.1
  list : ∀ access ∈ nvalListAccesses swap xb xbSize bsize, access.Inside xbSize bsize
  del : ∀ access ∈ nvalDelAccesses swap xb xbSize name, access.Inside xbSize 0
  set : ∀ access ∈ nvalSetAccesses swap xb xbSize name value flags,
    access.Inside xbSize value.length
  terminates : NvalTerminates swap xb xbSize name bsize

/-! ## When it does -/

/-- The records that `nvalFind` looks at. -/
def nvalExamined (name : List UInt8) : Nat → Nat → Int → List (Nat × Int)
  | 0, _, _ => []
  | fuel + 1, pos, size =>
    if 0 < size ∧ size < xbSize ∧ pos + size < xbSize then
      (pos, size) ::
        if Memory.strncmp xb (pos + 4) name size.toNat then []
        else
          let pos := pos + size.toNat
          nvalExamined name fuel pos (nvalNextSize swap xb xbSize pos)
    else []

/-- A record ends four bytes before the area does, or the name there differs from a name or ends
with it before that. -/
def ComparesInside (name : List UInt8) (record : Nat × Int) : Prop :=
  record.1 + record.2 + 4 ≤ xbSize ∨
    ∃ j, record.1 + 4 + j < xbSize ∧
      (xb (record.1 + 4 + j) ≠ name.getD j 0 ∨ name.getD j 0 = 0)

/-- The name of a record ends within the record. -/
def NameEnds (record : Nat × Int) : Prop :=
  ∃ i : Nat, (i : Int) < record.2 - 4 ∧ xb (record.1 + 4 + i) = 0

/-- Where a record for a name is stored. -/
def nvalStart (name : List UInt8) : Nat :=
  if (nvalFind swap xb xbSize name).isSome then
    nvalUsed swap (nvalDel swap xb xbSize name).2 xbSize
  else nvalUsed swap xb xbSize

/-- The space for a record as `nvalSet` counts it. -/
def nvalSpace (name : List UInt8) : Int :=
  xbSize - nvalUsed swap xb xbSize + (nvalFind swap xb xbSize name).elim 0 Prod.snd

/-- Names are compared inside the area, the name that is found ends within its record, and a record
that is stored leaves four bytes free. -/
structure NvalInBounds (name value : List UInt8) (flags : Nat) : Prop where
  compares : ∀ record ∈ nvalExamined swap xb xbSize name (xbSize + 1) 0 (nvalSize swap xb 0),
    ComparesInside xb xbSize name record
  nameEnds : ∀ record, nvalFind swap xb xbSize name = some record → NameEnds xb record
  room : ¬(flags &&& xattrCreate ≠ 0 ∧ (nvalFind swap xb xbSize name).isSome) →
    ¬(flags &&& xattrReplace ≠ 0 ∧ (nvalFind swap xb xbSize name).isNone) →
    nvalReclen xbSize name value ≤ nvalSpace swap xb xbSize name →
      nvalStart swap xb xbSize name + (4 + min name.length (xbSize + 1) + 1 + value.length) + 4 ≤
        xbSize

end Accesses

section Loops

variable {swap : Bool} {xb : Buf} {xbSize : Nat}

/-! ## The loops end -/

theorem findLoop_more (name : List UInt8) {fuel pos : Nat} (enough : xbSize < pos + fuel)
    (size : Int) (more : Nat) :
    nvalFindLoop swap xb xbSize name (fuel + more) pos size =
      nvalFindLoop swap xb xbSize name fuel pos size := by
  induction fuel generalizing pos size with
  | zero =>
    cases more with
    | zero => rfl
    | succ more =>
      simp only [nvalFindLoop]
      exact if_neg (by omega)
  | succ fuel ih =>
    rw [Nat.succ_add, nvalFindLoop, nvalFindLoop]
    split
    case isTrue inside => rw [ih (by omega)]
    case isFalse => rfl

theorem usedLoop_more {fuel pos : Nat} (enough : xbSize < pos + fuel) (size : Int) (more : Nat) :
    nvalUsedLoop swap xb xbSize (fuel + more) pos size =
      nvalUsedLoop swap xb xbSize fuel pos size := by
  induction fuel generalizing pos size with
  | zero =>
    cases more with
    | zero => rfl
    | succ more =>
      simp only [nvalUsedLoop]
      exact if_neg (by omega)
  | succ fuel ih =>
    rw [Nat.succ_add, nvalUsedLoop, nvalUsedLoop]
    split
    case isTrue inside => exact ih (by omega) _
    case isFalse => rfl

theorem skipName_more {fuel pos : Nat} (enough : xbSize ≤ pos + fuel) (size : Int) (more : Nat) :
    nvalSkipName xb xbSize (fuel + more) pos size = nvalSkipName xb xbSize fuel pos size := by
  induction fuel generalizing pos size with
  | zero =>
    cases more with
    | zero => rfl
    | succ more =>
      simp only [nvalSkipName]
      exact if_neg (by omega)
  | succ fuel ih =>
    rw [Nat.succ_add, nvalSkipName, nvalSkipName]
    split
    case isTrue => exact ih (by omega) _
    case isFalse => rfl

theorem listLoop_more (bsize : Int) {fuel pos : Nat} (enough : xbSize < pos + fuel) (size : Int)
    (copied : List UInt8) (more : Nat) :
    nvalListLoop swap xb xbSize bsize (fuel + more) pos size copied =
      nvalListLoop swap xb xbSize bsize fuel pos size copied := by
  induction fuel generalizing pos size copied with
  | zero =>
    cases more with
    | zero => rfl
    | succ more =>
      simp only [nvalListLoop]
      exact if_neg (by omega)
  | succ fuel ih =>
    rw [Nat.succ_add, nvalListLoop, nvalListLoop]
    split
    case isTrue =>
      dsimp only
      split
      · exact ih (by omega) _ _
      · rfl
    case isFalse => rfl

theorem nval_terminates (name : List UInt8) (bsize : Int) : NvalTerminates swap xb xbSize
    name bsize where
  find := findLoop_more name (by omega) _
  used area := usedLoop_more (by omega) _
  skip record more _ := skipName_more (by omega) _ more
  list := listLoop_more bsize (by omega) _ []

/-! ## Accesses of the loops -/

theorem nextAccesses_inside (pos bsize : Nat) :
    ∀ access ∈ nvalNextAccesses xbSize pos, access.Inside xbSize bsize := by
  intro access member
  rw [nvalNextAccesses] at member
  split at member
  case isTrue before =>
    obtain rfl := List.mem_singleton.1 member
    exact ⟨by omega, by omega⟩
  case isFalse => exact absurd member List.not_mem_nil

/-- A comparison is inside just when its record may be compared. -/
theorem compare_inside_iff (name : List UInt8) {pos bsize : Nat} {size : Int}
    (positive : 0 < size) :
    (NvalAccess.area (pos + 4)
        (Memory.strncmpReads xb (pos + 4) name size.toNat)).Inside xbSize bsize ↔
      ComparesInside xb xbSize name (pos, size) := by
  have reads := @Memory.strncmpReads_le_iff xb (pos + 4) name size.toNat xbSize
  have lasts : pos + 4 + size.toNat ≤ xbSize ↔ (pos : Int) + size + 4 ≤ xbSize := by omega
  rw [ComparesInside, ← lasts, ← reads]
  exact ⟨fun inside => by have := inside.2; omega, fun le => ⟨by omega, by omega⟩⟩

/-- The search stays inside just when all records that it looks at may be compared. -/
theorem findLoop_inside_iff (name : List UInt8) (bsize fuel pos : Nat) (size : Int) :
    (∀ access ∈ nvalFindAccessLoop swap xb xbSize name fuel pos size,
        access.Inside xbSize bsize) ↔
      ∀ record ∈ nvalExamined swap xb xbSize name fuel pos size,
        ComparesInside xb xbSize name record := by
  induction fuel generalizing pos size with
  | zero => exact iff_of_true (List.forall_mem_nil _) (List.forall_mem_nil _)
  | succ fuel ih =>
    rw [nvalFindAccessLoop, nvalExamined]
    split
    case isTrue inside =>
      rw [List.forall_mem_cons, List.forall_mem_cons, compare_inside_iff name inside.1]
      refine and_congr Iff.rfl ?_
      split
      case isTrue => exact iff_of_true (List.forall_mem_nil _) (List.forall_mem_nil _)
      case isFalse =>
        dsimp only
        rw [List.forall_mem_append, ih]
        exact and_iff_right (nextAccesses_inside _ bsize)
    case isFalse => exact iff_of_true (List.forall_mem_nil _) (List.forall_mem_nil _)

theorem usedLoop_inside (bsize fuel pos : Nat) (size : Int) :
    ∀ access ∈ nvalUsedAccessLoop swap xb xbSize fuel pos size, access.Inside xbSize bsize := by
  induction fuel generalizing pos size with
  | zero => exact List.forall_mem_nil _
  | succ fuel ih =>
    rw [nvalUsedAccessLoop]
    split
    case isTrue =>
      exact List.forall_mem_append.2 ⟨nextAccesses_inside _ bsize, ih _ _⟩
    case isFalse => exact List.forall_mem_nil _

theorem listLoop_inside (bsize fuel pos : Nat) (size : Int) (ncopied : Nat) :
    ∀ access ∈ nvalListAccessLoop swap xb xbSize bsize fuel pos size ncopied,
      access.Inside xbSize bsize := by
  induction fuel generalizing pos size ncopied with
  | zero => exact List.forall_mem_nil _
  | succ fuel ih =>
    rw [nvalListAccessLoop]
    split
    case isTrue inside =>
      have length_le := Memory.strnlen_le xb (pos + 4) ((size - 4).toNat + 1)
      dsimp only
      refine List.forall_mem_cons.2 ⟨⟨by omega, by omega⟩, ?_⟩
      split
      case isTrue room =>
        refine List.forall_mem_append.2 ⟨List.forall_mem_append.2 ⟨?_, nextAccesses_inside _ bsize⟩,
          ih _ _ _⟩
        simp only [List.forall_mem_cons, List.not_mem_nil, false_imp_iff, implies_true, and_true]
        exact ⟨⟨by omega, by omega⟩, ⟨by omega, by omega⟩, ⟨by omega, by omega⟩⟩
      case isFalse => exact nextAccesses_inside _ bsize
    case isFalse => exact List.forall_mem_nil _

/-- Reading the first size is inside. -/
theorem first_inside (room : 4 ≤ xbSize) (bsize : Nat) :
    (NvalAccess.area 0 4).Inside xbSize bsize :=
  ⟨by decide, by simpa using Int.ofNat_le.2 room⟩

/-! ## The record that is found -/

/-- What the search knows of the record that it returns. -/
structure FoundRecord (swap : Bool) (xb : Buf) (xbSize : Nat) (record : Nat × Int) : Prop where
  size_eq : nvalSize swap xb record.1 = record.2
  header : record.1 + 4 ≤ xbSize
  positive : 0 < record.2
  smaller : record.2 < xbSize
  ends : record.1 + record.2 < xbSize

theorem findLoop_found {name : List UInt8} {fuel pos : Nat} {size : Int} {record : Nat × Int}
    (read : 0 < size → nvalSize swap xb pos = size ∧ pos + 4 ≤ xbSize)
    (found : nvalFindLoop swap xb xbSize name fuel pos size = some record) :
    FoundRecord swap xb xbSize record ∧
      record ∈ nvalExamined swap xb xbSize name fuel pos size := by
  induction fuel generalizing pos size with
  | zero => simp [nvalFindLoop] at found
  | succ fuel ih =>
    rw [nvalFindLoop] at found
    rw [nvalExamined]
    split at found
    case isFalse => exact absurd found (by simp)
    case isTrue inside =>
      rw [if_pos inside]
      split at found
      case isTrue =>
        obtain rfl := Option.some.inj found
        obtain ⟨size_eq, header⟩ := read inside.1
        exact ⟨⟨size_eq, header, inside.1, inside.2.1, inside.2.2⟩, List.mem_cons_self⟩
      case isFalse differs =>
        have next : 0 < nvalNextSize swap xb xbSize (pos + size.toNat) →
            nvalSize swap xb (pos + size.toNat) = nvalNextSize swap xb xbSize (pos + size.toNat) ∧
              pos + size.toNat + 4 ≤ xbSize := by
          intro positive
          rw [nvalNextSize] at positive ⊢
          split at positive
          case isTrue before => exact ⟨(if_pos before).symm, by omega⟩
          case isFalse => exact absurd positive (Int.lt_irrefl 0)
        obtain ⟨record_found, member⟩ := ih next found
        rw [if_neg differs]
        exact ⟨record_found, List.mem_cons_of_mem _ member⟩

theorem nvalFind_found (room : 4 ≤ xbSize) {name : List UInt8} {record : Nat × Int}
    (found : nvalFind swap xb xbSize name = some record) :
    FoundRecord swap xb xbSize record ∧
      record ∈ nvalExamined swap xb xbSize name (xbSize + 1) 0 (nvalSize swap xb 0) :=
  findLoop_found (fun _ => ⟨rfl, by omega⟩) found

/-- A record that is compared inside has a byte behind its header. -/
theorem ComparesInside.header_lt {name : List UInt8} {record : Nat × Int}
    (compares : ComparesInside xb xbSize name record) (positive : 0 < record.2) :
    record.1 + 4 < xbSize := by
  obtain ends | ⟨j, lt, -⟩ := compares
  · omega
  · omega

/-! ## Advancing over a name -/

/-- Position and size move together, and some of the size is left just when the name ends before. -/
theorem skipName_spec {fuel pos : Nat} {size : Int} (inside : pos + size < xbSize)
    (enough : size ≤ fuel) :
    (nvalSkipName xb xbSize fuel pos size).1 + (nvalSkipName xb xbSize fuel pos size).2 =
        pos + size ∧
      (0 < (nvalSkipName xb xbSize fuel pos size).2 ↔
        ∃ i : Nat, (i : Int) < size ∧ xb (pos + i) = 0) := by
  induction fuel generalizing pos size with
  | zero =>
    refine ⟨rfl, iff_of_false (Int.not_lt.mpr enough) ?_⟩
    rintro ⟨i, lt, -⟩
    exact absurd lt (by omega)
  | succ fuel ih =>
    rw [nvalSkipName]
    split
    case isTrue goes_on =>
      have inside' : ((pos + 1 : Nat) : Int) + (size - 1) < xbSize := by omega
      obtain ⟨sum, left⟩ := ih inside' (by omega)
      refine ⟨by rw [sum]; omega, left.trans ⟨?_, ?_⟩⟩
      · rintro ⟨i, lt, zero⟩
        refine ⟨i + 1, by omega, ?_⟩
        rw [← zero]
        congr 1
        omega
      · rintro ⟨i, lt, zero⟩
        cases i with
        | zero => exact absurd zero goes_on.1
        | succ i =>
          refine ⟨i, by omega, ?_⟩
          rw [← zero]
          congr 1
          omega
    case isFalse stops =>
      refine ⟨rfl, fun positive => ⟨0, positive, ?_⟩, ?_⟩
      · exact by_contra fun nonzero => stops ⟨nonzero, positive, by omega⟩
      · rintro ⟨i, lt, -⟩
        show 0 < size
        omega

theorem skipAccesses_inside (bsize : Nat) {fuel pos : Nat} {size : Int} (first : pos < xbSize)
    (inside : pos + size < xbSize) :
    ∀ access ∈ nvalSkipAccesses xb xbSize fuel pos size, access.Inside xbSize bsize := by
  induction fuel generalizing pos size with
  | zero => exact List.forall_mem_nil _
  | succ fuel ih =>
    rw [nvalSkipAccesses]
    refine List.forall_mem_cons.2 ⟨⟨by omega, by omega⟩, ?_⟩
    split
    case isTrue goes_on => exact ih (by omega) (by omega)
    case isFalse => exact List.forall_mem_nil _

/-! ## The operations -/

theorem findAccesses_inside_iff (room : 4 ≤ xbSize) (name : List UInt8) (bsize : Nat) :
    (∀ access ∈ nvalFindAccesses swap xb xbSize name, access.Inside xbSize bsize) ↔
      ∀ record ∈ nvalExamined swap xb xbSize name (xbSize + 1) 0 (nvalSize swap xb 0),
        ComparesInside xb xbSize name record := by
  rw [nvalFindAccesses, List.forall_mem_cons, findLoop_inside_iff]
  exact and_iff_right (first_inside room bsize)

theorem usedAccesses_inside (room : 4 ≤ xbSize) (bsize : Nat) :
    ∀ access ∈ nvalUsedAccesses swap xb xbSize, access.Inside xbSize bsize :=
  List.forall_mem_cons.2 ⟨first_inside room bsize, usedLoop_inside bsize _ _ _⟩

/-- Deleting adds no accesses outside to those of the search. -/
theorem delAccesses_inside_iff (room : 4 ≤ xbSize) (name : List UInt8) (bsize : Nat) :
    (∀ access ∈ nvalDelAccesses swap xb xbSize name, access.Inside xbSize bsize) ↔
      ∀ access ∈ nvalFindAccesses swap xb xbSize name, access.Inside xbSize bsize := by
  rw [nvalDelAccesses, List.forall_mem_append]
  refine and_iff_left ?_
  cases found : nvalFind swap xb xbSize name with
  | none => exact List.forall_mem_nil _
  | some record =>
    obtain ⟨⟨size_eq, header, positive, smaller, ends⟩, -⟩ := nvalFind_found room found
    simp only [size_eq, List.forall_mem_cons, List.not_mem_nil, false_imp_iff, implies_true,
      and_true]
    exact ⟨⟨by omega, by omega⟩, ⟨by omega, by omega⟩, ⟨by omega, by omega⟩,
      ⟨by omega, by omega⟩⟩

/-- The size of the value in a record. -/
def nvalValueSize (swap : Bool) (xb : Buf) (xbSize : Nat) (record : Nat × Int) : Int :=
  (nvalSkipName xb xbSize xbSize (record.1 + 4) (nvalSize swap xb record.1 - 4)).2 - 1

/-- The value reaches to the end of the record, and its size is not negative just when the name ends
within the record. -/
theorem FoundRecord.value {record : Nat × Int} (found : FoundRecord swap xb xbSize record) :
    (nvalSkipName xb xbSize xbSize (record.1 + 4) (nvalSize swap xb record.1 - 4)).1 + 1 +
        nvalValueSize swap xb xbSize record = record.1 + record.2 ∧
      (0 ≤ nvalValueSize swap xb xbSize record ↔ NameEnds xb record) := by
  obtain ⟨size_eq, header, positive, smaller, ends⟩ := found
  have inside : ((record.1 + 4 : Nat) : Int) + (nvalSize swap xb record.1 - 4) < xbSize := by omega
  have enough : nvalSize swap xb record.1 - 4 ≤ xbSize := by omega
  obtain ⟨sum, left⟩ := @skipName_spec xb xbSize xbSize (record.1 + 4) _ inside enough
  rw [NameEnds, ← size_eq, ← left, nvalValueSize]
  exact ⟨by omega, by omega⟩

/-- Reading a value is safe just when the search is and the name that is found ends in its record.
-/
theorem get_harmless_iff (room : 4 ≤ xbSize) (name : List UInt8) (bsize : Nat) :
    ((∀ access ∈ nvalGetAccesses swap xb xbSize name bsize, access.Inside xbSize bsize) ∧
        ∀ result, nvalGet swap xb xbSize name bsize = .ok result → 0 ≤ result.1) ↔
      (∀ access ∈ nvalFindAccesses swap xb xbSize name, access.Inside xbSize bsize) ∧
        ∀ record, nvalFind swap xb xbSize name = some record → NameEnds xb record := by
  rw [nvalGetAccesses, List.forall_mem_append, nvalGet, and_assoc]
  refine and_congr_right fun find_inside => ?_
  cases found : nvalFind swap xb xbSize name with
  | none =>
    exact iff_of_true ⟨List.forall_mem_nil _, fun _ ok => absurd ok nofun⟩
      fun _ other => absurd other nofun
  | some record =>
    obtain ⟨record_found, member⟩ := nvalFind_found room found
    have compares := (findAccesses_inside_iff room name bsize).1 find_inside record member
    have header_lt := compares.header_lt record_found.positive
    have skip_inside : ∀ access ∈ nvalSkipAccesses xb xbSize (xbSize + 1) (record.1 + 4)
        (nvalSize swap xb record.1 - 4), access.Inside xbSize bsize :=
      skipAccesses_inside bsize header_lt
        (by have := record_found.ends; have := record_found.size_eq; omega)
    have header_inside : (NvalAccess.area record.1 4).Inside xbSize bsize :=
      ⟨by decide, by have := record_found.header; omega⟩
    obtain ⟨sum, value_iff⟩ := record_found.value
    simp only [Option.some.injEq, forall_eq', ← value_iff, List.forall_mem_cons,
      List.forall_mem_append]
    simp only [header_inside, true_and, nvalValueSize] at sum ⊢
    rw [and_iff_right skip_inside]
    generalize (nvalSkipName xb xbSize xbSize (record.1 + 4) (nvalSize swap xb record.1 - 4)) =
      skipped at sum ⊢
    by_cases query : bsize = 0
    · -- the size is only asked for
      rw [if_pos query, if_pos (Int.natCast_eq_zero.2 query)]
      refine ⟨fun both => both.2 _ rfl, fun nonneg => ⟨List.forall_mem_nil _, ?_⟩⟩
      rintro result ok
      exact Except.ok.inj ok ▸ nonneg
    · rw [if_neg query, if_neg (mt Int.natCast_eq_zero.1 query)]
      by_cases fits : skipped.2 - 1 ≤ bsize
      · rw [if_pos fits, if_pos fits]
        refine ⟨fun both => both.2 _ rfl, fun nonneg => ⟨?_, ?_⟩⟩
        · have ends := record_found.ends
          simp only [List.forall_mem_cons, List.not_mem_nil, false_imp_iff, implies_true,
            and_true]
          exact ⟨⟨nonneg, by omega⟩, ⟨nonneg, by omega⟩⟩
        · rintro result ok
          exact Except.ok.inj ok ▸ nonneg
      · rw [if_neg fits, if_neg fits]
        exact iff_of_true ⟨List.forall_mem_nil _, fun _ ok => absurd ok nofun⟩ (by omega)

/-- A record is stored inside just when it leaves four bytes free. -/
theorem putAccesses_inside_iff (small : xbSize < 2 ^ 31) (start : Nat) (name value : List UInt8) :
    (∀ access ∈ nvalPutAccesses xbSize start name value, access.Inside xbSize value.length) ↔
      start + (4 + min name.length (xbSize + 1) + 1 + value.length) + 4 ≤ xbSize := by
  simp only [nvalPutAccesses, List.forall_mem_cons, List.not_mem_nil, false_imp_iff, implies_true,
    and_true, NvalAccess.Inside]
  constructor
  · rintro ⟨-, ⟨-, name_inside⟩, -, -, value_inside⟩
    rw [nvalReclen_eq (by omega)] at name_inside
    omega
  · intro room
    rw [nvalReclen_eq (by omega)]
    omega

/-- Storing a value is safe just when the search is and the record that is stored leaves four bytes
free. -/
theorem setAccesses_inside_iff (room : 4 ≤ xbSize) (small : xbSize < 2 ^ 31)
    (name value : List UInt8) (flags : Nat) :
    (∀ access ∈ nvalSetAccesses swap xb xbSize name value flags,
        access.Inside xbSize value.length) ↔
      (∀ access ∈ nvalFindAccesses swap xb xbSize name, access.Inside xbSize value.length) ∧
        (¬(flags &&& xattrCreate ≠ 0 ∧ (nvalFind swap xb xbSize name).isSome) →
          ¬(flags &&& xattrReplace ≠ 0 ∧ (nvalFind swap xb xbSize name).isNone) →
          nvalReclen xbSize name value ≤ nvalSpace swap xb xbSize name →
            nvalStart swap xb xbSize name +
              (4 + min name.length (xbSize + 1) + 1 + value.length) + 4 ≤ xbSize) := by
  rw [nvalSetAccesses, List.forall_mem_append]
  refine and_congr_right fun find_inside => ?_
  split
  case isTrue exists_already =>
    exact iff_of_true (List.forall_mem_nil _) fun no => absurd exists_already no
  case isFalse create =>
  split
  case isTrue nothing =>
    exact iff_of_true (List.forall_mem_nil _) fun _ no => absurd nothing no
  case isFalse replace =>
  dsimp only
  rw [List.forall_mem_append, and_iff_right (usedAccesses_inside room _), imp_iff_right create,
    imp_iff_right replace]
  split
  case isTrue full =>
    exact iff_of_true (List.forall_mem_nil _) fun fits => absurd full (Int.not_lt.mpr fits)
  case isFalse fits =>
    have stored : nvalReclen xbSize name value ≤ nvalSpace swap xb xbSize name :=
      Int.not_lt.mp fits
    rw [imp_iff_right stored, nvalStart]
    split
    case isTrue found =>
      rw [List.forall_mem_append, List.forall_mem_append, putAccesses_inside_iff small]
      exact and_iff_right ⟨(delAccesses_inside_iff room name _).2 find_inside,
        usedAccesses_inside room _⟩
    case isFalse => exact putAccesses_inside_iff small _ name value

/-- The operations do no harm just when names are compared inside the area, the name that is found
ends within its record, and a record that is stored leaves four bytes free. -/
theorem nval_harmless_iff (room : 4 ≤ xbSize) (small : xbSize < 2 ^ 31) (name : List UInt8)
    (bsize : Nat) (value : List UInt8) (flags : Nat) :
    NvalHarmless swap xb xbSize name bsize value flags ↔
      NvalInBounds swap xb xbSize name value flags := by
  have find_iff := @findAccesses_inside_iff swap xb xbSize room name
  have get_iff := @get_harmless_iff swap xb xbSize room name bsize
  have set_iff := @setAccesses_inside_iff swap xb xbSize room small name value flags
  constructor
  · intro harmless
    exact ⟨(find_iff 0).1 harmless.find, (get_iff.1 ⟨harmless.get, harmless.getResult⟩).2,
      (set_iff.1 harmless.set).2⟩
  · intro bounds
    have find_inside := fun bsize => (find_iff bsize).2 bounds.compares
    obtain ⟨get, getResult⟩ := get_iff.2 ⟨find_inside bsize, bounds.nameEnds⟩
    exact
      { find := find_inside 0
        get
        getResult
        list := List.forall_mem_cons.2 ⟨first_inside room bsize, listLoop_inside bsize _ _ _ _⟩
        del := (delAccesses_inside_iff room name 0).2 (find_inside 0)
        set := set_iff.2 ⟨find_inside value.length, bounds.room⟩
        terminates := nval_terminates name bsize }

end Loops

/-! ## Two areas -/

/-- An erased area does no harm. -/
theorem nval_harmless_erased : NvalHarmless false (fun _ => 0xff) 16 [97] 4 [1, 2, 3] 0 :=
  (nval_harmless_iff (by decide) (by decide) [97] 4 [1, 2, 3] 0).2
    { compares := by
        have nothing : nvalExamined false (fun _ => 0xff) 16 [97] 17 0
            (nvalSize false (fun _ => 0xff) 0) = [] := by decide +kernel
        rw [nothing]
        exact List.forall_mem_nil _
      nameEnds := by
        have absent : nvalFind false (fun _ => 0xff) 16 [97] = none := by decide +kernel
        exact fun _ found => absurd (absent.symm.trans found) nofun
      room := fun _ _ _ => by decide +kernel }

/-- A record of six bytes: its size and the first two letters of a name that goes on behind it. -/
def unendedName : Buf := fun i => [6, 0, 0, 0, 97, 98].getD i 0

/-- The value under that name has the size minus one, and so many bytes are copied. -/
theorem not_harmless_unended : ¬NvalHarmless false unendedName 16 [97, 98] 4 [] 0 := by
  intro harmless
  exact absurd (harmless.get (.area 7 (-1)) (by decide +kernel)) (by decide)

end Yaffs
