import Yaffs.Transfers

/-!
# Seeking

The type of an offset is an `unsigned long` of 32 or 64 bits.  A displacement is meant to be signed: a
negative one arrives as a number of the upper half of the type.
-/

namespace Yaffs

namespace Yaffsfs

/-- What a displacement counts from. -/
def seekBase (position length : Nat) : Whence → Nat
  | .set => 0
  | .cur => position
  | .end => length

/-- Is a seek exact?  It comes to the base plus the displacement if this lies within a file of the greatest
size, and fails otherwise. -/
def SeekExact (long position length : Nat) (offset : Int) (whence : Whence)
    (moved : Option Nat) : Prop :=
  let pos : Int := seekBase position length whence + offset
  moved = if 0 ≤ pos ∧ pos ≤ maxFileSizeOf long then some pos.toNat else none

/-- Is a displacement one that the unsigned arithmetic gets right?  A negative one has to lead out of the
range of positions, and one that is accepted must not wrap around. -/
def Seekable (long base : Nat) (offset : Int) : Prop :=
  (offset < 0 → base + offset < 0 ∨ maxFileSizeOf long < base + offset) ∧
    (0 ≤ offset → offset ≤ maxFileSizeOf long → base + offset < 2 ^ long)

variable {long : Nat}

theorem maxFileSizeOf_lt (word : long = 32 ∨ long = 64) :
    2 * maxFileSizeOf long < 2 ^ long := by
  rcases word with rfl | rfl <;> decide

theorem half_lt (word : long = 32 ∨ long = 64) : 2 ^ long = 2 * 2 ^ (long - 1) ∧
    maxFileSizeOf long < 2 ^ (long - 1) := by
  rcases word with rfl | rfl <;> decide

/-- The position that is tried is the base plus the displacement as it arrives, up to a multiple of the
range of the type. -/
theorem seekPos_eq {position length : Nat} {offset : Int} {whence : Whence}
    (word : long = 32 ∨ long = 64) :
    seekPos long position length offset whence =
      let arrived := (offset % 2 ^ long).toNat
      if maxFileSizeOf long < arrived then none
      else
        let pos := (seekBase position length whence + arrived) % 2 ^ long
        if pos ≤ maxFileSizeOf long then some pos else none := by
  have max_lt := maxFileSizeOf_lt word
  simp only [seekPos]
  split
  case isTrue => rfl
  case isFalse in_file =>
    cases whence with
    | set =>
      have arrived_lt : (offset % 2 ^ long).toNat < 2 ^ long := by omega
      simp only [seekBase, Nat.zero_add, Nat.mod_eq_of_lt arrived_lt]
    | cur => rfl
    | «end» => rfl

/-- A displacement that is not negative arrives as it is. -/
theorem seekExact_of_nonneg {position length : Nat} {offset : Int} {whence : Whence}
    (word : long = 32 ∨ long = 64) (base_lt : seekBase position length whence < 2 ^ long)
    (nonneg : 0 ≤ offset) (offset_lt : offset < 2 ^ (long - 1)) :
    SeekExact long position length offset whence (seekPos long position length offset whence) ↔
      (offset ≤ maxFileSizeOf long → seekBase position length whence + offset < 2 ^ long) := by
  obtain ⟨double, max_lt⟩ := half_lt word
  generalize base_eq : seekBase position length whence = base at base_lt ⊢
  lift offset to Nat using nonneg
  have offset_lt' : offset < 2 ^ (long - 1) := by exact_mod_cast offset_lt
  have arrived : ((offset : Int) % 2 ^ long).toNat = offset := by
    have same : ((offset : Int) % 2 ^ long) = ((offset % 2 ^ long : Nat) : Int) := by push_cast; rfl
    rw [same, Int.toNat_natCast, Nat.mod_eq_of_lt (by omega)]
  simp only [SeekExact, seekPos_eq word, base_eq, arrived]
  have cast : (base : Int) + offset = ((base + offset : Nat) : Int) := by push_cast; rfl
  have bound : ((base + offset : Nat) : Int) < 2 ^ long ↔ base + offset < 2 ^ long := by
    norm_cast
  rw [cast, bound, Int.toNat_natCast]
  simp only [Int.natCast_nonneg, true_and, Nat.cast_le]
  by_cases large : maxFileSizeOf long < offset
  · rw [if_pos large, if_neg (by omega)]
    exact iff_of_true rfl fun small => absurd small (by omega)
  rw [if_neg large]
  by_cases wraps : base + offset < 2 ^ long
  · rw [Nat.mod_eq_of_lt wraps]
    exact iff_of_true rfl fun _ => wraps
  · have rest : (base + offset) % 2 ^ long = base + offset - 2 ^ long := by
      rw [Nat.mod_eq_sub_mod (by omega), Nat.mod_eq_of_lt (by omega)]
    rw [rest, if_pos (by omega), if_neg (by omega)]
    exact iff_of_false (by simp) fun small => wraps (small (by omega))

/-- A negative displacement arrives as a number beyond the greatest size. -/
theorem seekExact_of_neg {position length : Nat} {offset : Int} {whence : Whence}
    (word : long = 32 ∨ long = 64) (neg : offset < 0) (offset_ge : -(2 ^ (long - 1)) ≤ offset) :
    SeekExact long position length offset whence (seekPos long position length offset whence) ↔
      (seekBase position length whence + offset < 0 ∨
        maxFileSizeOf long < seekBase position length whence + offset) := by
  obtain ⟨double, max_lt⟩ := half_lt word
  have double' : (2 : Int) ^ long = 2 * 2 ^ (long - 1) := by exact_mod_cast double
  have max_lt' : (maxFileSizeOf long : Int) < 2 ^ (long - 1) := by exact_mod_cast max_lt
  have arrived : offset % 2 ^ long = offset + 2 ^ long := by
    rw [← Int.add_emod_right, Int.emod_eq_of_lt (by omega) (by omega)]
  have refused : seekPos long position length offset whence = none := by
    rw [seekPos_eq word]
    dsimp only
    rw [if_pos]
    rw [arrived]
    omega
  simp only [SeekExact, refused]
  split
  case isTrue within => exact iff_of_false (by simp) (by omega)
  case isFalse outside => exact iff_of_true rfl (by omega)

theorem seekExact_iff {position length : Nat} {offset : Int} {whence : Whence}
    (word : long = 32 ∨ long = 64) (base_lt : seekBase position length whence < 2 ^ long)
    (offset_ge : -(2 ^ (long - 1)) ≤ offset) (offset_lt : offset < 2 ^ (long - 1)) :
    SeekExact long position length offset whence (seekPos long position length offset whence) ↔
      Seekable long (seekBase position length whence) offset := by
  rcases lt_or_ge offset 0 with neg | nonneg
  · rw [seekExact_of_neg word neg offset_ge]
    exact ⟨fun exact_out => ⟨fun _ => exact_out, fun nonneg => absurd neg (by omega)⟩,
      fun seekable => seekable.1 neg⟩
  · rw [seekExact_of_nonneg word base_lt nonneg offset_lt]
    exact ⟨fun no_wrap => ⟨fun neg => absurd nonneg (by omega), fun _ => no_wrap⟩,
      fun seekable => seekable.2 nonneg⟩

/-! ## Seeking in an open file -/

variable (fs : Yaffsfs)

/-- What a seek answers and does when it comes to a position. -/
def sought (fdId : Nat) : Option Nat → Int × Yaffsfs
  | some pos => (pos, fs.setFd fdId { fs.fd fdId with position := pos })
  | none => (-1, fs)

/-- Does a seek set the position to the base plus the displacement and return it if this lies within a
file of the greatest size, and else return -1 and leave the position? -/
def LseekExact (long : Nat) (handle : Int) (fdId : Nat) (node : FsObj) (offset : Int)
    (whence : Whence) : Prop :=
  let pos : Int := seekBase (fs.fd fdId).position node.fileSize whence + offset
  fs.yaffsLseekOf long handle offset whence =
    if 0 ≤ pos ∧ pos ≤ maxFileSizeOf long then
      (pos, fs.setFd fdId { fs.fd fdId with position := pos.toNat })
    else (-1, fs)

variable {fs}

theorem sought_injective (fdId : Nat) : Function.Injective (fs.sought fdId) := by
  intro first second same
  have answers := congrArg Prod.fst same
  cases first <;> cases second <;> simp only [sought] at answers ⊢ <;> grind

theorem yaffsLseekOf_eq {handle : Int} {fdId obj : Nat} {node : FsObj}
    (opened : fs.handleToFileDes handle = some fdId)
    (refers : fs.handleToObject handle = some obj) (found : fs.objs obj = some node)
    (offset : Int) (whence : Whence) :
    fs.yaffsLseekOf long handle offset whence =
      fs.sought fdId (seekPos long (fs.fd fdId).position node.fileSize offset whence) := by
  have reached : (fs.handleToObject handle).bind fs.objs = some node := by
    rw [refers]
    exact found
  simp only [yaffsLseekOf, opened, reached]
  cases seekPos long (fs.fd fdId).position node.fileSize offset whence <;> rfl

/-- A seek in an open file is exact for those displacements that the unsigned arithmetic gets right, and
only for those. -/
theorem lseekExact_iff {handle : Int} {fdId obj : Nat} {node : FsObj}
    (word : long = 32 ∨ long = 64) (opened : fs.handleToFileDes handle = some fdId)
    (refers : fs.handleToObject handle = some obj) (found : fs.objs obj = some node)
    {offset : Int} {whence : Whence}
    (base_lt : seekBase (fs.fd fdId).position node.fileSize whence < 2 ^ long)
    (offset_ge : -(2 ^ (long - 1)) ≤ offset) (offset_lt : offset < 2 ^ (long - 1)) :
    fs.LseekExact long handle fdId node offset whence ↔
      Seekable long (seekBase (fs.fd fdId).position node.fileSize whence) offset := by
  rw [← seekExact_iff word base_lt offset_ge offset_lt, SeekExact,
    ← (@sought_injective fs fdId).eq_iff, ← yaffsLseekOf_eq opened refers found, LseekExact]
  dsimp only
  split
  case isTrue within =>
    rw [sought, Int.toNat_of_nonneg within.1]
  case isFalse => rfl

/-- A file of ten bytes that is open through handle 0. -/
def tenBytes : Yaffsfs where
  handle := fun _ => { fdId := 0, useCount := 1 }
  fd := fun _ => { reading := true, inodeId := 0, handleCount := 1, position := 4 }
  inode := fun _ => { count := 1, iObj := some 0 }
  objs := fun _ => some { myDev := 0, fileSize := 10 }

theorem tenBytes_opened : tenBytes.handleToFileDes 0 = some 0 := by decide

theorem tenBytes_refers : tenBytes.handleToObject 0 = some 0 := by decide

theorem lseekExact_tenBytes : tenBytes.LseekExact 32 0 0 { myDev := 0, fileSize := 10 } 3 .cur :=
  (lseekExact_iff (Or.inl rfl) tenBytes_opened tenBytes_refers rfl (by decide) (by decide)
    (by decide)).mpr ⟨by decide, by decide⟩

/-- The last byte of a file cannot be reached from its end. -/
theorem lseek_back_fails :
    ¬tenBytes.LseekExact 32 0 0 { myDev := 0, fileSize := 10 } (-1) .end ∧
      ¬tenBytes.LseekExact 64 0 0 { myDev := 0, fileSize := 10 } (-1) .end := by
  constructor
  · intro exact_seek
    have result := congrArg Prod.fst exact_seek
    revert result
    decide
  · intro exact_seek
    have result := congrArg Prod.fst exact_seek
    revert result
    decide

end Yaffsfs

end Yaffs
