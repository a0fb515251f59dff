import Yaffs.NameValMap

/-!
# Changes of names and values

The records are changed any number of times, beginning with an erased area.  They stand for the map
of all values stored, and nothing outside the area is written, as long as each record that is stored
leaves four bytes of the area free.
-/

namespace Yaffs

open NvalRecord

/-- The records in the area, which may be erased before the first one is stored. -/
structure Packed (swap : Bool) (xb : Buf) (xbSize : Nat) (records : List NvalRecord) : Prop where
  ok : ∀ record ∈ records, NameOk record.name
  nodup : (records.map NvalRecord.name).Nodup
  lie : RecordsAt swap xb xbSize 0 records ∨ records = [] ∧ ∀ i < xbSize, xb i = 0xff

namespace Packed

variable {swap : Bool} {xb : Buf} {xbSize : Nat} {records before after : List NvalRecord}
  {record : NvalRecord} {name value : List UInt8}

/-! ## Searches -/

theorem nvalSize_erased (swap : Bool) (erased : ∀ i < xbSize, xb i = 0xff)
    (small : xbSize < 2 ^ 31) :
    ¬(0 < nvalSize swap xb 0 ∧ nvalSize swap xb 0 < xbSize) := by
  rintro ⟨positive, lt⟩
  have first : xb 0 = 0xff := erased 0 (by omega)
  have first_value : (xb 0).toNat = 255 := by
    rw [first]
    rfl
  have last : 4 ≤ xbSize → (xb 3).toNat = 255 := by
    intro le
    rw [erased 3 (by omega)]
    rfl
  have bound (i : Nat) : (xb i).toNat < 256 := (xb i).toNat_lt
  have bound_1 := bound 1
  have bound_2 := bound 2
  have bound_3 := bound 3
  cases swap
  all_goals
    simp only [nvalSize, s32OfWord, Memory.load, Words.value, Words.lowValue, List.reverse_cons,
      List.reverse_nil, List.nil_append, List.cons_append, Bool.false_eq_true, if_true, if_false,
      Nat.zero_add, Nat.reduceAdd]
      at positive lt
    split at positive <;> omega

theorem find_absent (packed : Packed swap xb xbSize records) (small : xbSize < 2 ^ 31)
    (name_ok : NameOk name) (absent : ∀ record ∈ records, record.name ≠ name) :
    nvalFind swap xb xbSize name = none := by
  rcases packed.lie with at' | ⟨-, erased⟩
  · rw [nvalFind, at'.nvalSize_eq small]
    exact at'.findLoop_absent small packed.ok name_ok absent _
  · have stops := nvalSize_erased swap erased small
    rw [nvalFind, nvalFindLoop, if_neg (fun inside => stops ⟨inside.1, inside.2.1⟩)]

theorem lies (packed : Packed swap xb xbSize (before ++ record :: after)) :
    RecordsAt swap xb xbSize 0 (before ++ record :: after) :=
  packed.lie.resolve_right fun erased => by simpa using erased.1

/-- The other records have other names. -/
theorem others (packed : Packed swap xb xbSize (before ++ record :: after)) :
    ∀ other ∈ before ++ after, other.name ≠ record.name := by
  have nodup := packed.nodup
  rw [List.map_append, List.map_cons, List.nodup_middle, List.nodup_cons, ← List.map_append]
    at nodup
  exact fun other mem same => nodup.1 (same ▸ List.mem_map_of_mem mem)

theorem find_present (packed : Packed swap xb xbSize (before ++ record :: after))
    (small : xbSize < 2 ^ 31) :
    nvalFind swap xb xbSize record.name = some (used before, (record.size : Int)) := by
  have at' := packed.lies
  have le := length_le_used (before ++ record :: after)
  have room := at'.room
  have enough : before.length < xbSize + 1 := by
    rw [List.length_append] at le
    omega
  have absent : ∀ other ∈ before, other.name ≠ record.name := fun other mem =>
    packed.others other (List.mem_append_left after mem)
  rw [nvalFind, at'.nvalSize_eq small, at'.findLoop_present small packed.ok absent enough,
    Nat.zero_add]

theorem used_eq (packed : Packed swap xb xbSize records) (small : xbSize < 2 ^ 31) :
    nvalUsed swap xb xbSize = used records := by
  rcases packed.lie with at' | ⟨rfl, erased⟩
  · have le := length_le_used records
    have room := at'.room
    rw [nvalUsed, at'.nvalSize_eq small, at'.usedLoop_eq small (by omega), Nat.zero_add]
  · have stops := nvalSize_erased swap erased small
    rw [nvalUsed, nvalUsedLoop, if_neg (fun inside => stops ⟨inside.1, inside.2.1⟩)]
    rfl

theorem list_eq (packed : Packed swap xb xbSize records) (small : xbSize < 2 ^ 31) {bsize : Int}
    (room : records = [] ∨ ((names records).length : Int) < bsize) :
    nvalList swap xb xbSize bsize = names records := by
  rcases packed.lie with at' | ⟨rfl, erased⟩
  · have le := length_le_used records
    have fits := at'.room
    rw [nvalList, at'.nvalSize_eq small, at'.listLoop_eq small packed.ok (by simpa using room)
      (by omega), List.nil_append]
  · have stops := nvalSize_erased swap erased small
    rw [nvalList, nvalListLoop, if_neg]
    · rfl
    · intro inside
      exact stops ⟨by omega, by omega⟩

/-- A name is there in one record, or in none. -/
theorem absent_or_present (name : List UInt8) (records : List NvalRecord) :
    (∀ record ∈ records, record.name ≠ name) ∨
      ∃ before record after, records = before ++ record :: after ∧ record.name = name := by
  by_cases present : ∃ record ∈ records, record.name = name
  · obtain ⟨record, mem, same⟩ := present
    obtain ⟨before, after, eq⟩ := List.append_of_mem mem
    exact .inr ⟨before, record, after, eq, same⟩
  · exact .inl fun record mem same => present ⟨record, mem, same⟩

theorem get_absent (packed : Packed swap xb xbSize records) (small : xbSize < 2 ^ 31)
    (name_ok : NameOk name) (absent : ∀ record ∈ records, record.name ≠ name) (bsize : Int) :
    nvalGet swap xb xbSize name bsize = .error .enodata := by
  rw [nvalGet, packed.find_absent small name_ok absent]

theorem get_present (packed : Packed swap xb xbSize (before ++ record :: after))
    (small : xbSize < 2 ^ 31) (bsize : Int) :
    nvalGet swap xb xbSize record.name bsize =
      if bsize = 0 then .ok ((record.value.length : Int), [])
      else if (record.value.length : Int) ≤ bsize then
        .ok ((record.value.length : Int), record.value)
      else .error .erange := by
  have at' := packed.lies.drop
  obtain ⟨-, name_holds, value_holds⟩ := at'.record_holds
  have fits := at'.record_fits
  have name_ok := packed.ok record (by simp)
  have size_eq : record.size = 4 + record.name.length + 1 + record.value.length := rfl
  have skip : nvalSkipName xb xbSize xbSize (used before + 4) ((record.size : Int) - 4) =
      (used before + 4 + record.name.length, (record.size : Int) - 4 - record.name.length) :=
    RecordsAt.skipName_eq name_holds name_ok.2 (by omega) (by omega) (by omega)
  have left : (record.size : Int) - 4 - record.name.length - 1 = record.value.length := by omega
  rw [nvalGet, packed.find_present small]
  dsimp only
  rw [at'.nvalSize_eq small, headSize, skip]
  dsimp only
  rw [left, Int.toNat_natCast, value_holds.load]

/-! ## Changes -/

theorem ok_sub (packed : Packed swap xb xbSize (before ++ record :: after)) :
    (∀ other ∈ before ++ after, NameOk other.name) ∧
      ((before ++ after).map NvalRecord.name).Nodup := by
  have sub : (before ++ after).Sublist (before ++ record :: after) :=
    (List.Sublist.refl before).append (List.sublist_cons_self record after)
  exact ⟨fun other mem => packed.ok other (sub.subset mem), packed.nodup.sublist (sub.map _)⟩

theorem del_absent (packed : Packed swap xb xbSize records) (small : xbSize < 2 ^ 31)
    (name_ok : NameOk name) (absent : ∀ record ∈ records, record.name ≠ name) :
    nvalDel swap xb xbSize name = (some .enodata, xb) := by
  rw [nvalDel, packed.find_absent small name_ok absent]

theorem del_present (packed : Packed swap xb xbSize (before ++ record :: after))
    (small : xbSize < 2 ^ 31) :
    (nvalDel swap xb xbSize record.name).1 = none ∧
      Packed swap (nvalDel swap xb xbSize record.name).2 xbSize (before ++ after) ∧
      ∀ i, xbSize ≤ i → (nvalDel swap xb xbSize record.name).2 i = xb i := by
  have at' := packed.lies
  have size_eq : nvalSize swap xb (used before) = record.size := at'.drop.nvalSize_eq small
  have room := at'.room
  rw [used_append, used_cons] at room
  rw [nvalDel, packed.find_present small]
  dsimp only
  rw [size_eq, Int.toNat_natCast]
  refine ⟨rfl, ⟨packed.ok_sub.1, packed.ok_sub.2, .inl at'.del⟩, fun i outside => ?_⟩
  rw [Memory.put_of_ge (by rw [List.length_replicate]; omega), Memory.moveDown_of_ge (by omega)]

theorem put (packed : Packed swap xb xbSize records) (small : xbSize < 2 ^ 31)
    (name_ok : NameOk name) (absent : ∀ record ∈ records, record.name ≠ name)
    (fits : used records + (NvalRecord.mk name value).size + 4 ≤ xbSize) :
    Packed swap (nvalPutRecord swap xb xbSize (used records) name value) xbSize
      (records ++ [⟨name, value⟩]) := by
  have holds : Memory.Holds xb 0 (image swap records) := by
    rcases packed.lie with at' | ⟨rfl, -⟩
    · exact (Memory.holds_append.mp at'.holds).1
    · trivial
  constructor
  case ok =>
    intro record mem
    rcases List.mem_append.mp mem with old | new
    · exact packed.ok record old
    · rw [List.mem_singleton.mp new]
      exact name_ok
  case nodup =>
    rw [List.map_append, List.map_singleton, ← List.concat_eq_append]
    refine List.Nodup.concat (fun mem => ?_) packed.nodup
    obtain ⟨record, mem, same⟩ := List.mem_map.mp mem
    exact absent record mem same
  case lie => exact .inl (RecordsAt.put holds fits small)

end Packed

/-- The record of a value leaves four bytes free, when an old one with its name has made way.  If it
does not fit at all, it is not stored. -/
def NvalStep.Fits (swap : Bool) (xbSize : Nat) (xb : Buf) : NvalStep → Prop
  | .set name value flags =>
    let found := nvalFind swap xb xbSize name
    let size := 4 + min name.length (xbSize + 1) + 1 + value.length
    let space : Int := xbSize - nvalUsed swap xb xbSize + found.elim 0 Prod.snd
    (flags &&& xattrCreate ≠ 0 ∧ found.isSome) ∨ (flags &&& xattrReplace ≠ 0 ∧ found.isNone) ∨
      size < 2 ^ 31 ∧ (space < size ∨ size + 4 ≤ space)
  | .del _ => True

/-- The name of a step is one that can be stored. -/
def NvalStep.NameOk : NvalStep → Prop
  | .set name _ _ => Yaffs.NameOk name
  | .del name => Yaffs.NameOk name

instance (swap : Bool) (xbSize : Nat) (xb : Buf) : DecidablePred (NvalStep.Fits swap xbSize xb)
  | .set _ _ _ => inferInstanceAs (Decidable (_ ∨ _ ∨ _))
  | .del _ => isTrue trivial

instance : DecidablePred NvalStep.NameOk
  | .set name _ _ => inferInstanceAs (Decidable (Yaffs.NameOk name))
  | .del name => inferInstanceAs (Decidable (Yaffs.NameOk name))

namespace Packed

variable {swap : Bool} {xb : Buf} {xbSize : Nat} {records before after : List NvalRecord}
  {record : NvalRecord} {name value : List UInt8} {flags : Nat}

/-- What is stored leaves four bytes free. -/
theorem size_le_of_fits {space : Int}
    (fits : 4 + min name.length (xbSize + 1) + 1 + value.length < 2 ^ 31 ∧
      (space < (4 + min name.length (xbSize + 1) + 1 + value.length : Nat) ∨
        ((4 + min name.length (xbSize + 1) + 1 + value.length : Nat) : Int) + 4 ≤ space))
    (le : space ≤ xbSize) (stored : ¬space < nvalReclen xbSize name value) :
    ((NvalRecord.mk name value).size : Int) + 4 ≤ space := by
  obtain ⟨lt, room⟩ := fits
  rw [nvalReclen_eq lt] at stored
  have room := room.resolve_left stored
  have size_eq : (NvalRecord.mk name value).size = 4 + name.length + 1 + value.length := rfl
  omega

/-- A new name is stored unless the flags or the space forbid it. -/
theorem set_absent (packed : Packed swap xb xbSize records) (small : xbSize < 2 ^ 31)
    (name_ok : Yaffs.NameOk name) (absent : ∀ record ∈ records, record.name ≠ name)
    (fits : NvalStep.Fits swap xbSize xb (.set name value flags))
    (stored : (nvalSet swap xb xbSize name value flags).1 = none) :
    Packed swap (nvalSet swap xb xbSize name value flags).2 xbSize (records ++ [⟨name, value⟩]) ∧
      ∀ i, xbSize ≤ i → (nvalSet swap xb xbSize name value flags).2 i = xb i := by
  have find := packed.find_absent small name_ok absent
  have used := packed.used_eq small
  simp only [NvalStep.Fits, find, used, Option.elim_none] at fits
  simp only [nvalSet, find, used] at stored ⊢
  split at stored
  case isTrue => simp at stored
  case isFalse create =>
  split at stored
  case isTrue => simp at stored
  case isFalse replace =>
  split at stored
  case isTrue => simp at stored
  case isFalse space =>
    rw [if_neg create, if_neg replace, if_neg space]
    have fits := (fits.resolve_left (by simp)).resolve_left replace
    have le := size_le_of_fits fits (by omega) space
    have room : NvalRecord.used records + (NvalRecord.mk name value).size + 4 ≤ xbSize := by omega
    refine ⟨packed.put small name_ok absent room, fun i outside => ?_⟩
    exact putRecord_outside room small outside

/-- A new value takes the place of an old one unless the flags or the space forbid it. -/
theorem set_present (packed : Packed swap xb xbSize (before ++ record :: after))
    (small : xbSize < 2 ^ 31)
    (fits : NvalStep.Fits swap xbSize xb (.set record.name value flags))
    (stored : (nvalSet swap xb xbSize record.name value flags).1 = none) :
    Packed swap (nvalSet swap xb xbSize record.name value flags).2 xbSize
        (before ++ after ++ [⟨record.name, value⟩]) ∧
      ∀ i, xbSize ≤ i → (nvalSet swap xb xbSize record.name value flags).2 i = xb i := by
  have find := packed.find_present small
  have used := packed.used_eq small
  have name_ok := packed.ok record (by simp)
  obtain ⟨-, deleted, outside⟩ := packed.del_present small
  simp only [NvalStep.Fits, find, used, Option.elim_some] at fits
  simp only [nvalSet, find, used] at stored ⊢
  split at stored
  case isTrue => simp at stored
  case isFalse create =>
  split at stored
  case isTrue => simp at stored
  case isFalse replace =>
  split at stored
  case isTrue => simp at stored
  case isFalse space =>
    rw [if_neg create, if_neg replace, if_neg space, if_pos Option.isSome_some]
    have fits := (fits.resolve_left create).resolve_left replace
    have all := packed.lies.room
    rw [used_append, used_cons] at all fits space
    have le := size_le_of_fits fits (by omega) space
    have room : NvalRecord.used (before ++ after) + (NvalRecord.mk record.name value).size + 4 ≤
        xbSize := by
      rw [used_append]
      omega
    dsimp only
    rw [deleted.used_eq small]
    refine ⟨deleted.put small name_ok packed.others room, fun i beyond => ?_⟩
    rw [putRecord_outside room small beyond, outside i beyond]

end Packed

/-! ## Runs -/

/-- The area, with what has been stored in it. -/
structure NvalState where
  xb : Buf
  values : List UInt8 → Option (List UInt8)

/-- Note a step that has succeeded. -/
def NvalStep.note (values : List UInt8 → Option (List UInt8)) :
    NvalStep → List UInt8 → Option (List UInt8)
  | .set name value _ => Function.update values name (some value)
  | .del name => Function.update values name none

/-- Carry out a step and note it. -/
def NvalState.next (swap : Bool) (xbSize : Nat) (step : NvalStep) (state : NvalState) : NvalState :=
  let result := step.exec swap xbSize state.xb
  ⟨result.2, if result.1 = none then step.note state.values else state.values⟩

/-- The area stands for the map of all values stored. -/
structure NvalState.IsMap (swap : Bool) (xbSize : Nat) (initial : Buf) (state : NvalState) :
    Prop where
  get : ∀ name, NameOk name → ∀ bsize, nvalGet swap state.xb xbSize name bsize =
    match state.values name with
    | none => .error .enodata
    | some value =>
      if bsize = 0 then .ok ((value.length : Int), [])
      else if (value.length : Int) ≤ bsize then .ok ((value.length : Int), value)
      else .error .erange
  create : ∀ name value flags, NameOk name →
    ((nvalSet swap state.xb xbSize name value flags).1 = some .eexist ↔
      flags &&& xattrCreate ≠ 0 ∧ (state.values name).isSome)
  replace : ∀ name value flags, NameOk name →
    ((nvalSet swap state.xb xbSize name value flags).1 = some .enodata ↔
      flags &&& xattrReplace ≠ 0 ∧ state.values name = none)
  del : ∀ name, NameOk name → ((nvalDel swap state.xb xbSize name).1 = some .enodata ↔
    state.values name = none)
  failed : ∀ step : NvalStep, (step.exec swap xbSize state.xb).1 ≠ none →
    (step.exec swap xbSize state.xb).2 = state.xb
  list : ∃ names : List (List UInt8), names.Nodup ∧
    (∀ name, name ∈ names ↔ (state.values name).isSome) ∧
    ∀ bsize, nvalList swap state.xb xbSize bsize = (names.flatMap fun name => name ++ [0]) ↔
      names = [] ∨ ((names.flatMap fun name => name ++ [0]).length : Int) < bsize
  outside : ∀ i, xbSize ≤ i → state.xb i = initial i

/-- The records in the area are the values stored. -/
def NvalState.Holds (swap : Bool) (xbSize : Nat) (initial : Buf) (state : NvalState) : Prop :=
  (∃ records, Packed swap state.xb xbSize records ∧
    ∀ name value, state.values name = some value ↔ ⟨name, value⟩ ∈ records) ∧
  ∀ i, xbSize ≤ i → state.xb i = initial i

section Failures

variable {swap : Bool} {xb : Buf} {xbSize : Nat} {name value : List UInt8} {flags : Nat}

/-- The ways in which a value is stored or refused. -/
theorem nvalSet_cases (swap : Bool) (xb : Buf) (xbSize : Nat) (name value : List UInt8)
    (flags : Nat) :
    let result := nvalSet swap xb xbSize name value flags
    let create := flags &&& xattrCreate ≠ 0 ∧ (nvalFind swap xb xbSize name).isSome
    let replace := flags &&& xattrReplace ≠ 0 ∧ (nvalFind swap xb xbSize name).isNone
    result = (some .eexist, xb) ∧ create ∨ result = (some .enodata, xb) ∧ replace ∧ ¬create ∨
      (result = (some .enospc, xb) ∨ result.1 = none) ∧ ¬create ∧ ¬replace := by
  dsimp only
  by_cases create : flags &&& xattrCreate ≠ 0 ∧ (nvalFind swap xb xbSize name).isSome
  · exact .inl ⟨by rw [nvalSet, if_pos create], create⟩
  by_cases replace : flags &&& xattrReplace ≠ 0 ∧ (nvalFind swap xb xbSize name).isNone
  · exact .inr (.inl ⟨by rw [nvalSet, if_neg create, if_pos replace], replace, create⟩)
  · refine .inr (.inr ⟨?_, create, replace⟩)
    rw [nvalSet, if_neg create, if_neg replace]
    cases nvalFind swap xb xbSize name
    all_goals
      dsimp only
      split
      case isTrue => exact .inl rfl
      case isFalse => exact .inr rfl

theorem nvalSet_eexist_iff :
    (nvalSet swap xb xbSize name value flags).1 = some .eexist ↔
      flags &&& xattrCreate ≠ 0 ∧ (nvalFind swap xb xbSize name).isSome := by
  obtain ⟨eq, create⟩ | ⟨eq, -, create⟩ | ⟨eq | eq, create, -⟩ :=
    nvalSet_cases swap xb xbSize name value flags
  · exact iff_of_true (by rw [eq]) create
  all_goals exact iff_of_false (by simp [eq]) create

theorem nvalSet_enodata_iff :
    (nvalSet swap xb xbSize name value flags).1 = some .enodata ↔
      flags &&& xattrReplace ≠ 0 ∧ (nvalFind swap xb xbSize name).isNone := by
  obtain ⟨eq, create⟩ | ⟨eq, replace, -⟩ | ⟨eq | eq, -, replace⟩ :=
    nvalSet_cases swap xb xbSize name value flags
  · refine iff_of_false (by simp [eq]) fun absent => ?_
    simp [Option.isNone_iff_eq_none.mp absent.2] at create
  · exact iff_of_true (by rw [eq]) replace
  all_goals exact iff_of_false (by simp [eq]) replace

theorem nvalDel_fst :
    (nvalDel swap xb xbSize name).1 =
      if (nvalFind swap xb xbSize name).isSome then none else some .enodata := by
  rw [nvalDel]
  cases nvalFind swap xb xbSize name with
  | none => rfl
  | some found => rfl

/-- A change that fails changes nothing. -/
theorem NvalStep.exec_of_failed {step : NvalStep} (failed : (step.exec swap xbSize xb).1 ≠ none) :
    (step.exec swap xbSize xb).2 = xb := by
  cases step with
  | set name value flags =>
    obtain ⟨eq, -⟩ | ⟨eq, -⟩ | ⟨eq | eq, -⟩ := nvalSet_cases swap xb xbSize name value flags
    case inr.inr.inr => exact absurd eq failed
    all_goals
      rw [NvalStep.exec, eq]
  | del name =>
    rw [NvalStep.exec, nvalDel] at failed ⊢
    cases found : nvalFind swap xb xbSize name with
    | none => rfl
    | some => simp [found] at failed

end Failures

namespace NvalState

variable {swap : Bool} {xbSize : Nat} {initial : Buf} {state : NvalState}
  {records : List NvalRecord} {name : List UInt8}

theorem eq_none_iff {values : List UInt8 → Option (List UInt8)}
    (stored : ∀ name value, values name = some value ↔ ⟨name, value⟩ ∈ records) :
    values name = none ↔ ∀ record ∈ records, record.name ≠ name := by
  constructor
  · intro none record mem same
    subst same
    have some := (stored record.name record.value).mpr mem
    simp [none] at some
  · intro absent
    refine Option.eq_none_iff_forall_ne_some.mpr fun value eq => ?_
    exact absent _ ((stored name value).mp eq) rfl

theorem find_isSome {xb : Buf} (packed : Packed swap xb xbSize records) (small : xbSize < 2 ^ 31)
    (name_ok : NameOk name) :
    (nvalFind swap xb xbSize name).isSome ↔ ¬∀ record ∈ records, record.name ≠ name := by
  rcases Packed.absent_or_present name records with absent | ⟨before, record, after, rfl, rfl⟩
  · simpa [packed.find_absent small name_ok absent] using absent
  · rw [packed.find_present small]
    exact iff_of_true rfl fun absent => absent record (by simp) rfl

theorem Holds.isMap (holds : state.Holds swap xbSize initial) (small : xbSize < 2 ^ 31) :
    state.IsMap swap xbSize initial := by
  obtain ⟨⟨records, packed, stored⟩, outside⟩ := holds
  have found (name : List UInt8) (name_ok : NameOk name) :
      (nvalFind swap state.xb xbSize name).isSome = (state.values name).isSome := by
    rw [Bool.eq_iff_iff, find_isSome packed small name_ok, ← eq_none_iff stored]
    exact Option.isSome_iff_ne_none.symm
  constructor
  case get =>
    intro name name_ok bsize
    rcases Packed.absent_or_present name records with absent | ⟨before, record, after, rfl, rfl⟩
    · rw [(eq_none_iff stored).mpr absent]
      exact packed.get_absent small name_ok absent bsize
    · have value : state.values record.name = some record.value :=
        (stored record.name record.value).mpr (by simp)
      rw [value]
      exact packed.get_present small bsize
  case create =>
    intro name value flags name_ok
    rw [nvalSet_eexist_iff, found name name_ok]
  case replace =>
    intro name value flags name_ok
    rw [nvalSet_enodata_iff, ← Option.not_isSome, found name name_ok]
    simp
  case del =>
    intro name name_ok
    rw [nvalDel_fst, found name name_ok]
    cases state.values name <;> simp
  case failed => exact fun step failed => NvalStep.exec_of_failed failed
  case list =>
    have names_eq : ((records.map NvalRecord.name).flatMap fun name => name ++ [0]) =
        names records := by
      rw [List.flatMap_map]
      rfl
    refine ⟨records.map NvalRecord.name, packed.nodup, fun name => ?_, fun bsize => ?_⟩
    · rw [Option.isSome_iff_ne_none, Ne, eq_none_iff stored, List.mem_map]
      push Not
      rfl
    · rw [names_eq, List.map_eq_nil_iff]
      constructor
      · intro list_eq
        have short : nvalList swap state.xb xbSize bsize = [] ∨
            ((nvalList swap state.xb xbSize bsize).length : Int) < bsize :=
          length_listLoop bsize _ _ [] (.inl rfl)
        rw [list_eq] at short
        refine short.imp_left fun none => ?_
        cases records with
        | nil => rfl
        | cons record records => simp [names] at none
      · exact packed.list_eq small
  case outside => exact outside

theorem holds_initial (erased : ∀ i < xbSize, initial i = 0xff) :
    Holds swap xbSize initial ⟨initial, fun _ => none⟩ :=
  ⟨⟨[], ⟨by simp, by simp, .inr ⟨rfl, erased⟩⟩, by simp⟩, fun _ _ => rfl⟩

/-- The values without one are those of the other records. -/
theorem eq_some_iff_of_remove {values : List UInt8 → Option (List UInt8)} {xb : Buf}
    {before after : List NvalRecord} {record : NvalRecord}
    (packed : Packed swap xb xbSize (before ++ record :: after))
    (stored : ∀ name value, values name = some value ↔ ⟨name, value⟩ ∈ before ++ record :: after)
    (other value : List UInt8) :
    Function.update values record.name none other = some value ↔
      ⟨other, value⟩ ∈ before ++ after := by
  by_cases same : other = record.name
  · rw [same, Function.update_self]
    exact iff_of_false (by simp) fun mem => packed.others _ mem rfl
  · have ne : NvalRecord.mk other value ≠ record := fun eq => same (eq ▸ rfl)
    rw [Function.update_of_ne same, stored, List.mem_append, List.mem_cons, List.mem_append,
      or_iff_right ne]

/-- The values with one more are those of the records with one more. -/
theorem eq_some_iff_of_append {values : List UInt8 → Option (List UInt8)}
    (stored : ∀ name value, values name = some value ↔ ⟨name, value⟩ ∈ records)
    (absent : ∀ record ∈ records, record.name ≠ name) (new other value : List UInt8) :
    Function.update values name (some new) other = some value ↔
      ⟨other, value⟩ ∈ records ++ [⟨name, new⟩] := by
  rw [List.mem_append, List.mem_singleton, NvalRecord.mk.injEq, ← stored]
  by_cases same : other = name
  · subst same
    have none : values other = none := (eq_none_iff stored).mpr absent
    simp [none, eq_comm]
  · rw [Function.update_of_ne same]
    simp [same]

/-- A step that leaves enough space keeps the records those of the values stored. -/
theorem Holds.next (holds : state.Holds swap xbSize initial) (small : xbSize < 2 ^ 31)
    {step : NvalStep} (name_ok : step.NameOk) (fits : step.Fits swap xbSize state.xb) :
    (state.next swap xbSize step).Holds swap xbSize initial := by
  obtain ⟨⟨records, packed, stored⟩, outside⟩ := holds
  by_cases failed : (step.exec swap xbSize state.xb).1 = none
  case neg =>
    have same := NvalStep.exec_of_failed failed
    simp only [Holds, NvalState.next, if_neg failed, same]
    exact ⟨⟨records, packed, stored⟩, outside⟩
  case pos =>
    simp only [Holds, NvalState.next, if_pos failed]
    cases step with
    | set name value flags =>
      rcases Packed.absent_or_present name records with absent | ⟨before, record, after, rfl, rfl⟩
      · obtain ⟨packed', outside'⟩ := packed.set_absent small name_ok absent fits failed
        exact ⟨⟨_, packed', eq_some_iff_of_append stored absent value⟩,
          fun i beyond => (outside' i beyond).trans (outside i beyond)⟩
      · obtain ⟨packed', outside'⟩ := packed.set_present small fits failed
        have added :=
          eq_some_iff_of_append (eq_some_iff_of_remove packed stored) packed.others value
        rw [Function.update_idem] at added
        exact ⟨⟨_, packed', added⟩, fun i beyond => (outside' i beyond).trans (outside i beyond)⟩
    | del name =>
      rcases Packed.absent_or_present name records with absent | ⟨before, record, after, rfl, rfl⟩
      · have del := packed.del_absent small name_ok absent
        simp [NvalStep.exec, del] at failed
      · obtain ⟨-, packed', outside'⟩ := packed.del_present small
        exact ⟨⟨_, packed', eq_some_iff_of_remove packed stored⟩,
          fun i beyond => (outside' i beyond).trans (outside i beyond)⟩

/-- The area stands for the map of all values stored, after any changes that leave enough space. -/
theorem isMap_of_fits (swap : Bool) {xbSize : Nat} (small : xbSize < 2 ^ 31) {initial : Buf}
    (erased : ∀ i < xbSize, initial i = 0xff) (steps : List NvalStep)
    (fits : Execution.Guarded (NvalState.next swap xbSize)
      (fun step state => step.NameOk ∧ step.Fits swap xbSize state.xb) steps
      ⟨initial, fun _ => none⟩) :
    (Execution.run (NvalState.next swap xbSize) steps ⟨initial, fun _ => none⟩).IsMap swap xbSize
      initial := by
  have step (step : NvalStep) (state : NvalState)
      (guard : step.NameOk ∧ step.Fits swap xbSize state.xb)
      (holds : state.Holds swap xbSize initial) :
      (state.next swap xbSize step).Holds swap xbSize initial :=
    holds.next small guard.1 guard.2
  exact (Execution.run_invariant step fits (holds_initial erased)).isMap small

/-- Values are stored, changed and deleted in an area of forty bytes. -/
theorem isMap_after_changes : NvalState.IsMap true 40 (fun _ => 0xff)
    (Execution.run (NvalState.next true 40)
      [.set [97] [1, 2, 3] 0, .set [98, 99] [4] xattrCreate, .set [97] [5, 6] xattrReplace,
        .set [97] [7] xattrCreate, .del [98, 99], .set [100] [8] 0]
      ⟨fun _ => 0xff, fun _ => none⟩) := by
  refine isMap_of_fits true (by decide) (fun _ _ => rfl) _ ⟨?_, ?_, ?_, ?_, ?_, ?_, trivial⟩
  all_goals exact ⟨by decide, by decide +kernel⟩

/-- A record that fills the area to the end is not found again, and one that leaves two bytes free
makes the byte behind the area zero. -/
theorem not_isMap_of_full_area :
    let first := NvalStep.set [97] (List.replicate 10 1) 0
    let second := NvalStep.set [97] (List.replicate 8 1) 0
    first.NameOk ∧ second.NameOk ∧
      ¬NvalState.IsMap false 16 (fun _ => 0xff)
        (Execution.run (NvalState.next false 16) [first] ⟨fun _ => 0xff, fun _ => none⟩) ∧
      ¬NvalState.IsMap false 16 (fun _ => 0xff)
        (Execution.run (NvalState.next false 16) [second] ⟨fun _ => 0xff, fun _ => none⟩) := by
  refine ⟨by decide, by decide, fun isMap => ?_, fun isMap => ?_⟩
  · have value := isMap.get [97] (by decide) 10
    revert value
    decide +kernel
  · have outside := isMap.outside 16 (Nat.le_refl 16)
    revert outside
    decide +kernel

end NvalState

end Yaffs
