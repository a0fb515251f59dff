import Yaffs.CacheAges

/-!
# Offsets in large files

A chunk number and an offset in the chunk are computed from the address of a byte, and addresses from
chunk numbers.  File offsets have 64 bits, but some of the steps between are made in 32.
-/

namespace Yaffs

/-! ## Addresses -/

/-- Greatest size of a file, with file offsets of 64 bits. -/
def FileParam.maxFileSize (param : FileParam) : Nat := maxChunkId * param.dataBytesPerChunk

namespace FileParam

variable (param : FileParam)

/-- Size of a chunk without its powers of two. -/
def chunkDiv : Nat := param.dataBytesPerChunk >>> calcShifts 32 param.dataBytesPerChunk

/-- Are the chunk and the offset of an address the true ones?  The chunk number is an `int`. -/
def AddrExact (addr : Nat) : Prop :=
  let place := param.addrToChunk addr
  place.1 * param.dataBytesPerChunk + place.2 = addr ∧ place.2 < param.dataBytesPerChunk ∧
    place.1 < 2 ^ 31

/-- Are the steps from an address to a chunk free of a cut to 32 bits that matters? -/
def AddrFits (addr : Nat) : Prop :=
  param.chunkDiv = 1 ∨ addr >>> calcShifts 32 param.dataBytesPerChunk < 2 ^ 32

end FileParam

/-- A value is a multiple of the power of two that it is shifted by. -/
theorem calcShifts_dvd (fuel value : Nat) : 2 ^ calcShifts fuel value ∣ value := by
  induction fuel generalizing value with
  | zero => exact Nat.one_dvd _
  | succ fuel ih =>
    rw [calcShifts]
    split
    case isTrue => exact Nat.one_dvd _
    case isFalse even =>
      obtain ⟨rest, rest_eq⟩ := ih (value / 2)
      refine ⟨rest, ?_⟩
      rw [Nat.pow_succ, Nat.mul_right_comm, ← rest_eq]
      omega

namespace FileParam

variable {param : FileParam} {addr : Nat}

theorem chunkDiv_mul (param : FileParam) :
    2 ^ calcShifts 32 param.dataBytesPerChunk * param.chunkDiv = param.dataBytesPerChunk := by
  rw [chunkDiv, Nat.shiftRight_eq_div_pow]
  exact Nat.mul_div_cancel' (calcShifts_dvd 32 _)

theorem chunkDiv_pos (size_pos : 0 < param.dataBytesPerChunk) : 0 < param.chunkDiv := by
  apply Nat.pos_of_ne_zero
  intro zero
  have product := param.chunkDiv_mul
  rw [zero, Nat.mul_zero] at product
  omega

/-- Shifting and dividing is dividing by the size of a chunk. -/
theorem shift_div (param : FileParam) (addr : Nat) :
    addr >>> calcShifts 32 param.dataBytesPerChunk / param.chunkDiv =
      addr / param.dataBytesPerChunk := by
  rw [Nat.shiftRight_eq_div_pow, Nat.div_div_eq_div_mul, param.chunkDiv_mul]

/-- The chunk of an address inside a file. -/
theorem chunk_lt (size_pos : 0 < param.dataBytesPerChunk) (inside : addr < param.maxFileSize) :
    addr / param.dataBytesPerChunk < 2 ^ 28 := by
  have below : addr / param.dataBytesPerChunk < maxChunkId := by
    rw [Nat.div_lt_iff_lt_mul size_pos]
    exact inside
  exact below.trans (by decide)

/-- An exact place is the one that division gives. -/
theorem exact_iff (size_pos : 0 < param.dataBytesPerChunk) (inside : addr < param.maxFileSize) :
    param.AddrExact addr ↔ param.addrToChunk addr =
      (addr / param.dataBytesPerChunk, addr % param.dataBytesPerChunk) := by
  have chunk_lt := chunk_lt size_pos inside
  simp only [AddrExact]
  constructor
  · generalize param.addrToChunk addr = place
    rintro ⟨rfl, offset_lt, -⟩
    have chunk_eq : (place.1 * param.dataBytesPerChunk + place.2) / param.dataBytesPerChunk =
        place.1 := by
      rw [Nat.mul_comm, Nat.mul_add_div size_pos, Nat.div_eq_of_lt offset_lt, Nat.add_zero]
    have offset_eq : (place.1 * param.dataBytesPerChunk + place.2) % param.dataBytesPerChunk =
        place.2 := by
      rw [Nat.mul_comm, Nat.mul_add_mod, Nat.mod_eq_of_lt offset_lt]
    rw [chunk_eq, offset_eq]
  · intro place_eq
    rw [place_eq]
    exact ⟨Nat.div_add_mod' addr _, Nat.mod_lt _ size_pos, chunk_lt.trans (by decide)⟩

/-- The offset that is left of an address behind the start of its chunk. -/
theorem offset_eq (size_pos : 0 < param.dataBytesPerChunk)
    (size_lt : param.dataBytesPerChunk < 2 ^ 32) (addr : Nat) :
    (((addr : Int) - ((addr / param.dataBytesPerChunk : Nat) : Int) * param.dataBytesPerChunk) %
      2 ^ 32).toNat = addr % param.dataBytesPerChunk := by
  have sum := Nat.div_add_mod' addr param.dataBytesPerChunk
  have left : (addr : Int) - ((addr / param.dataBytesPerChunk : Nat) : Int) *
      param.dataBytesPerChunk = ((addr % param.dataBytesPerChunk : Nat) : Int) := by
    rw [← Nat.cast_mul]
    omega
  have small : addr % param.dataBytesPerChunk < 2 ^ 32 := (Nat.mod_lt _ size_pos).trans size_lt
  rw [left]
  omega

/-- The place of an address is exact if no cut matters, and only then. -/
theorem addrExact_iff (size_pos : 0 < param.dataBytesPerChunk)
    (size_lt : param.dataBytesPerChunk < 2 ^ 32) (inside : addr < param.maxFileSize) :
    param.AddrExact addr ↔ param.AddrFits addr := by
  rw [exact_iff size_pos inside]
  have product := param.chunkDiv_mul
  have div_eq := param.shift_div addr
  have div_pos := chunkDiv_pos size_pos
  have chunk_lt := chunk_lt size_pos inside
  have div_lt : param.chunkDiv < 2 ^ 32 := by
    refine lt_of_le_of_lt ?_ size_lt
    rw [chunkDiv, Nat.shiftRight_eq_div_pow]
    exact Nat.div_le_self _ _
  simp only [AddrFits, addrToChunk]
  change _ ↔ param.chunkDiv = 1 ∨ _
  by_cases power : param.chunkDiv = 1
  · have size_eq : 2 ^ calcShifts 32 param.dataBytesPerChunk = param.dataBytesPerChunk := by
      rw [power, Nat.mul_one] at product
      exact product
    have chunk_eq : addr >>> calcShifts 32 param.dataBytesPerChunk % 2 ^ 32 =
        addr / param.dataBytesPerChunk := by
      rw [power, Nat.div_one] at div_eq
      rw [div_eq, Nat.mod_eq_of_lt (by omega)]
    have offset_eq : addr % 2 ^ calcShifts 32 param.dataBytesPerChunk % 2 ^ 32 =
        addr % param.dataBytesPerChunk := by
      rw [size_eq, Nat.mod_eq_of_lt ((Nat.mod_lt _ size_pos).trans size_lt)]
    rw [chunkDiv] at power
    rw [if_pos power, chunk_eq, offset_eq]
    exact iff_of_true rfl (Or.inl power)
  · have not_power : ¬param.dataBytesPerChunk >>> calcShifts 32 param.dataBytesPerChunk = 1 := power
    rw [if_neg not_power]
    generalize addr >>> calcShifts 32 param.dataBytesPerChunk = shifted at div_eq
    by_cases fits : shifted < 2 ^ 32
    · have chunk_eq : shifted % 2 ^ 32 / param.chunkDiv = addr / param.dataBytesPerChunk := by
        rw [Nat.mod_eq_of_lt fits, div_eq]
      rw [chunkDiv] at chunk_eq
      rw [chunk_eq, offset_eq size_pos size_lt]
      exact iff_of_true rfl (Or.inr fits)
    · refine iff_of_false (fun place_eq => ?_) (by tauto)
      have chunk_eq : shifted % 2 ^ 32 / param.chunkDiv = shifted / param.chunkDiv :=
        (congrArg Prod.fst place_eq).trans div_eq.symm
      -- What is cut off is more than the divisor.
      have cut : shifted % 2 ^ 32 + param.chunkDiv ≤ shifted := by omega
      have less : (shifted % 2 ^ 32 + param.chunkDiv) / param.chunkDiv ≤
          shifted / param.chunkDiv := Nat.div_le_div_right cut
      rw [Nat.add_div_right _ div_pos] at less
      omega

end FileParam

/-! ## Stored sizes -/

namespace Files

/-- Every object of the second state comes from one of the first with the same stored size. -/
def KeepsStored (fs fs' : Files) : Prop :=
  ∀ number obj', fs'.objs number = some obj' →
    ∃ obj, fs.objs number = some obj ∧ obj'.storedSize = obj.storedSize

variable {fs fs' fs'' : Files}

theorem KeepsStored.refl (fs : Files) : KeepsStored fs fs := fun _ obj found => ⟨obj, found, rfl⟩

theorem KeepsStored.trans (first : KeepsStored fs fs') (second : KeepsStored fs' fs'') :
    KeepsStored fs fs'' := by
  intro number obj'' found''
  obtain ⟨obj', found', same'⟩ := second number obj'' found''
  obtain ⟨obj, found, same⟩ := first number obj' found'
  exact ⟨obj, found, same'.trans same⟩

theorem keepsStored_of_objs (same : fs'.objs = fs.objs) : KeepsStored fs fs' :=
  fun _ obj found => ⟨obj, by rw [← same]; exact found, rfl⟩

/-- Replacing one object. -/
theorem keepsStored_update {number : Nat} {changed : Option FileObj}
    (same : ∀ obj', changed = some obj' →
      ∃ obj, fs.objs number = some obj ∧ obj'.storedSize = obj.storedSize)
    (objs_eq : fs'.objs = Function.update fs.objs number changed) : KeepsStored fs fs' := by
  intro other obj' found
  rw [objs_eq, Function.update_apply] at found
  split at found
  case isTrue is_number =>
    subst is_number
    exact same obj' found
  case isFalse => exact ⟨obj', found, rfl⟩

theorem modifyObj_stored (fs : Files) (number : Nat) {change : FileObj → FileObj}
    (same : ∀ obj, (change obj).storedSize = obj.storedSize) :
    KeepsStored fs (fs.modifyObj number change) := by
  refine keepsStored_update (fun obj' changed => ?_) rfl
  obtain ⟨obj, found, rfl⟩ := Option.map_eq_some_iff.mp changed
  exact ⟨obj, found, same obj⟩

theorem writeNewChunk_objs (fs : Files) (page : Page) : (fs.writeNewChunk page).2.objs = fs.objs := by
  simp only [writeNewChunk]
  split
  · rfl
  · split <;> rfl

theorem chunkDel_objs (fs : Files) (chunk : Nat) : (fs.chunkDel chunk).objs = fs.objs := by
  rw [chunkDel]
  split <;> rfl

theorem putChunkInFile_stored (fs : Files) (number inodeChunk nandChunk : Nat) :
    KeepsStored fs (fs.putChunkInFile number inodeChunk nandChunk).2 := by
  simp only [putChunkInFile]
  split
  case h_1 => exact KeepsStored.refl fs
  case h_2 obj found =>
    have grown (memory : TnodeMemory) (tree : FileTree) : KeepsStored fs
        { fs with
          memory
          objs := Function.update fs.objs number (some { obj with tree }) } :=
      keepsStored_update (fun obj' changed => by
        obtain rfl := Option.some.inj changed
        exact ⟨obj, found, rfl⟩) rfl
    split
    · exact grown _ _
    · split
      · exact grown _ _
      · refine (grown _ _).trans (modifyObj_stored _ number ?_)
        exact fun _ => rfl

variable {gc : Files → Files}

theorem updateOhWith_stored (gc_stored : ∀ fs, KeepsStored fs (gc fs)) (fs : Files) (number : Nat) :
    KeepsStored fs (fs.updateOhWith gc number).2 := by
  have collected := gc_stored fs
  simp only [updateOhWith]
  split
  case h_1 => exact collected
  case h_2 obj _ =>
    have written := collected.trans (keepsStored_of_objs (writeNewChunk_objs (gc fs)
      { objId := number, chunkId := 0
        fileSize := if isHidden obj.parent then 0 else obj.storedSize }))
    generalize (gc fs).writeNewChunk _ = page at written ⊢
    split
    · exact written
    · refine ((written.trans (modifyObj_stored _ number ?_)).trans
        (keepsStored_of_objs (chunkDel_objs _ _))).trans (modifyObj_stored _ number ?_)
      · exact fun _ => rfl
      · exact fun _ => rfl

theorem freeObj_stored (fs : Files) (number : Nat) : KeepsStored fs (fs.freeObj number) := by
  rw [freeObj]
  split
  · refine modifyObj_stored fs number ?_
    exact fun _ => rfl
  · exact keepsStored_update (fun _ gone => by cases gone) rfl

theorem genericObjDelWith_stored (gc_stored : ∀ fs, KeepsStored fs (gc fs)) (fs : Files)
    (number : Nat) : KeepsStored fs (fs.genericObjDelWith gc number) := by
  have dropped : KeepsStored fs (fs.invalidateWholeCache number) := keepsStored_of_objs rfl
  have ended (fs : Files) : KeepsStored fs
      ((((fs.modifyObj number fun obj => { obj with parent := none }).chunkDel
        ((((fs.modifyObj number fun obj => { obj with parent := none }).objs number).map
          FileObj.hdrChunk).getD 0)).modifyObj number fun obj => { obj with hdrChunk := 0 }).freeObj
            number) := by
    refine (((modifyObj_stored fs number ?_).trans (keepsStored_of_objs (chunkDel_objs _ _))).trans
      (modifyObj_stored _ number ?_)).trans (freeObj_stored _ _)
    · exact fun _ => rfl
    · exact fun _ => rfl
  simp only [genericObjDelWith]
  split
  · refine ((dropped.trans (modifyObj_stored _ number ?_)).trans
      (updateOhWith_stored gc_stored _ _)).trans (ended _)
    exact fun _ => rfl
  · exact dropped.trans (ended _)

theorem freeTop_stored (fs : Files) (number : Nat) : KeepsStored fs (fs.freeTop number) := by
  rw [freeTop]
  split
  case h_1 => exact KeepsStored.refl fs
  case h_2 obj found =>
    exact keepsStored_update (fun obj' changed => by
      obtain rfl := Option.some.inj changed
      exact ⟨obj, found, rfl⟩) rfl

theorem gcProcessChunk_stored (fs : Files) (collected : Collected) :
    KeepsStored fs (fs.gcProcessChunk collected) := by
  have wrote (fs : Files) (page : Page) : KeepsStored fs (fs.writeNewChunk page).2 :=
    keepsStored_of_objs (writeNewChunk_objs fs page)
  have freed (fs : Files) (chunk : Nat) : KeepsStored fs (fs.chunkDel chunk) :=
    keepsStored_of_objs (chunkDel_objs fs chunk)
  cases collected with
  | data number inodeChunk =>
    simp only [gcProcessChunk]
    split
    case h_2 => exact KeepsStored.refl fs
    case h_1 =>
      split
      · exact KeepsStored.refl fs
      · split
        · exact KeepsStored.refl fs
        · split
          · exact wrote _ _
          · exact ((wrote _ _).trans (putChunkInFile_stored _ _ _ _)).trans (freed _ _)
  | header number =>
    simp only [gcProcessChunk]
    split
    · exact KeepsStored.refl fs
    · split
      · exact KeepsStored.refl fs
      · split
        · exact wrote _ _
        · refine ((wrote _ _).trans (modifyObj_stored _ number ?_)).trans (freed _ _)
          exact fun _ => rfl
  | softDeleted number =>
    simp only [gcProcessChunk]
    split
    · exact KeepsStored.refl fs
    · split
      case isFalse => exact KeepsStored.refl fs
      case isTrue =>
        have counted : KeepsStored fs (fs.modifyObj number fun obj =>
            { obj with nDataChunks := obj.nDataChunks - 1 }) :=
          modifyObj_stored fs number fun _ => rfl
        split
        · have deleted := (counted.trans (freeTop_stored _ number)).trans
            (genericObjDelWith_stored (fun fs => KeepsStored.refl fs) _ number)
          exact deleted.trans (keepsStored_of_objs rfl)
        · exact counted

theorem checkGc_stored (fs : Files) : KeepsStored fs fs.checkGc := by
  have swept (collections : List Collected) (fs : Files) :
      KeepsStored fs (collections.foldl gcProcessChunk fs) := by
    induction collections generalizing fs with
    | nil => exact KeepsStored.refl fs
    | cons collected collections ih => exact (gcProcessChunk_stored fs collected).trans (ih _)
  have begun : KeepsStored fs { fs with collections := fs.collections.tail } :=
    keepsStored_of_objs rfl
  exact begun.trans (swept _ _)

/-- A chunk that is put into a file leaves the file in memory. -/
theorem putChunkInFile_there (fs : Files) (number inodeChunk nandChunk : Nat)
    (there : (fs.objs number).isSome) :
    ((fs.putChunkInFile number inodeChunk nandChunk).2.objs number).isSome := by
  simp only [putChunkInFile]
  split
  case h_1 => exact there
  case h_2 =>
    split
    · simp
    · split
      · simp
      · simp [modifyObj]

/-- There is a tnode for the chunk, so that there is a file. -/
theorem room_there (fs : Files) (number inodeChunk : Nat)
    (made : (if (fs.findChunkInFile number inodeChunk).isNone then
      fs.putChunkInFile number inodeChunk 0 else (true, fs)).1 = true) :
    ((if (fs.findChunkInFile number inodeChunk).isNone then
      fs.putChunkInFile number inodeChunk 0 else (true, fs)).2.objs number).isSome := by
  cases found : fs.objs number with
  | none =>
    have nothing : fs.findChunkInFile number inodeChunk = none := by
      simp only [findChunkInFile, found, Option.bind_none]
    simp only [nothing, Option.isNone_none, if_true, putChunkInFile, found] at made
    cases made
  | some obj =>
    have there : (fs.objs number).isSome := by rw [found]; rfl
    split
    · exact putChunkInFile_there fs number inodeChunk 0 there
    · exact there

/-- Where a chunk ends, as it is computed. -/
def endpos (param : FileParam) (inodeChunk nBytes : Nat) : Nat :=
  ((inodeChunk - 1) * param.dataBytesPerChunk + nBytes) % 2 ^ 32

/-- The stored size after a chunk has been written. -/
theorem wrDataObj_stored {number : Nat} {obj : FileObj} (found : fs.objs number = some obj)
    {inodeChunk nBytes : Nat} {data : Chunk}
    (written : 0 < (fs.wrDataObj number inodeChunk data nBytes).1) :
    ((fs.wrDataObj number inodeChunk data nBytes).2.objs number).map FileObj.storedSize =
      some (max obj.storedSize (endpos fs.param inodeChunk nBytes)) := by
  have stored : KeepsStored fs (if (fs.checkGc.findChunkInFile number inodeChunk).isNone then
      fs.checkGc.putChunkInFile number inodeChunk 0 else (true, fs.checkGc)).2 := by
    refine (checkGc_stored fs).trans ?_
    split
    · exact putChunkInFile_stored _ _ _ _
    · exact KeepsStored.refl _
  have param_eq : (if (fs.checkGc.findChunkInFile number inodeChunk).isNone then
      fs.checkGc.putChunkInFile number inodeChunk 0 else (true, fs.checkGc)).2.param = fs.param := by
    have collected := (checkGc_ages fs).param
    split
    · exact (putChunkInFile_ages _ _ _ _).param.trans collected
    · exact collected
  have there := room_there fs.checkGc number inodeChunk
  simp only [wrDataObj] at written ⊢
  generalize (if (fs.checkGc.findChunkInFile number inodeChunk).isNone then
    fs.checkGc.putChunkInFile number inodeChunk 0 else (true, fs.checkGc)) = room
    at stored param_eq there written ⊢
  split at written
  case isTrue => exact absurd written (lt_irrefl 0)
  case isFalse made =>
    obtain ⟨before, before_eq⟩ := Option.isSome_iff_exists.mp (there (not_not.mp made))
    obtain ⟨obj', found', same⟩ := stored number before before_eq
    obtain rfl : obj = obj' := Option.some.inj (found.symm.trans found')
    rw [if_neg made]
    rw [param_eq] at written ⊢
    let sized := room.2.modifyObj number fun obj =>
      { obj with storedSize := max obj.storedSize (endpos fs.param inodeChunk nBytes) }
    let page : Page := { objId := number, chunkId := inodeChunk, nBytes, data }
    have sized_eq : sized.objs number =
        some { before with
          storedSize := max before.storedSize (endpos fs.param inodeChunk nBytes) } := by
      simp only [sized, modifyObj, before_eq, Function.update_self, Option.map_some]
    have page_eq : (sized.writeNewChunk page).2.objs = sized.objs := writeNewChunk_objs _ _
    change 0 < (if 0 < (sized.writeNewChunk page).1 then _ else _ : Int × Files).1 at written
    change ((if 0 < (sized.writeNewChunk page).1 then _ else _ : Int × Files).2.objs number).map _ = _
    split at written
    case isFalse no_page => exact absurd written no_page
    case isTrue has_page =>
      rw [if_pos has_page]
      dsimp only
      rw [chunkDel_objs]
      change (((sized.writeNewChunk page).2.putChunkInFile number inodeChunk
        (sized.writeNewChunk page).1.toNat).2.objs number).map FileObj.storedSize = _
      have kept := putChunkInFile_stored (sized.writeNewChunk page).2 number inodeChunk
        (sized.writeNewChunk page).1.toNat
      have there' : ((sized.writeNewChunk page).2.objs number).isSome := by
        rw [page_eq, sized_eq]
        rfl
      obtain ⟨after, after_eq⟩ := Option.isSome_iff_exists.mp
        (putChunkInFile_there _ number inodeChunk (sized.writeNewChunk page).1.toNat there')
      obtain ⟨last, last_eq, last_size⟩ := kept number after after_eq
      rw [page_eq, sized_eq] at last_eq
      rw [after_eq, Option.map_some, last_size, ← Option.some.inj last_eq, same]

/-- Does writing a chunk advance the stored size to where the chunk ends? -/
def StoredExact (fs : Files) (number : Nat) (obj : FileObj) (inodeChunk : Nat) (data : Chunk)
    (nBytes : Nat) : Prop :=
  ((fs.wrDataObj number inodeChunk data nBytes).2.objs number).map FileObj.storedSize =
    some (max obj.storedSize ((inodeChunk - 1) * fs.param.dataBytesPerChunk + nBytes))

theorem storedExact_iff {number : Nat} {obj : FileObj} (found : fs.objs number = some obj)
    {inodeChunk nBytes : Nat} {data : Chunk}
    (written : 0 < (fs.wrDataObj number inodeChunk data nBytes).1) :
    fs.StoredExact number obj inodeChunk data nBytes ↔
      (inodeChunk - 1) * fs.param.dataBytesPerChunk + nBytes < 2 ^ 32 ∨
        (inodeChunk - 1) * fs.param.dataBytesPerChunk + nBytes ≤ obj.storedSize := by
  rw [StoredExact, wrDataObj_stored found written, Option.some_inj, endpos]
  generalize (inodeChunk - 1) * fs.param.dataBytesPerChunk + nBytes = end'
  omega

end Files

/-! ## Sizes found by a scan -/

/-- What a scan knows of the object of a data page. -/
structure ScannedFile where
  isFile : Bool := true
  /-- Has the header been seen? -/
  valid : Bool := false
  shrinkSize : Nat
  storedSize : Nat := 0
  fileSize : Nat := 0
deriving DecidableEq, Repr

/-- Deal with a data page of a chunk that starts at a position: put it into the file, or delete it if
the file has been cut off before it. -/
def ScannedFile.scanAt (file : ScannedFile) (chunkBase nBytes : Nat) : Bool × ScannedFile :=
  if file.isFile ∧ chunkBase < file.shrinkSize then
    let endpos := chunkBase + nBytes
    (true,
      if ¬file.valid ∧ file.storedSize < endpos then
        { file with storedSize := endpos, fileSize := endpos }
      else file)
  else (false, file)

/-- Deal with a data page.  The start of its chunk is computed in 32 bits. -/
def ScannedFile.scanChunk (param : FileParam) (chunkId nBytes : Nat) (file : ScannedFile) :
    Bool × ScannedFile :=
  file.scanAt ((chunkId - 1) * param.dataBytesPerChunk % 2 ^ 32) nBytes

/-- Does a scan compare and extend the sizes of all files with the true start of a chunk? -/
def FileParam.ScanExact (param : FileParam) (chunkId nBytes : Nat) : Prop :=
  ∀ file : ScannedFile, file.scanChunk param chunkId nBytes =
    file.scanAt ((chunkId - 1) * param.dataBytesPerChunk) nBytes

theorem FileParam.scanExact_iff (param : FileParam) (chunkId nBytes : Nat) :
    param.ScanExact chunkId nBytes ↔ (chunkId - 1) * param.dataBytesPerChunk < 2 ^ 32 := by
  simp only [ScanExact, ScannedFile.scanChunk]
  generalize (chunkId - 1) * param.dataBytesPerChunk = base
  constructor
  · intro same
    -- A file that has been cut off just there tells the two starts apart.
    have outcome := congrArg Prod.fst (same { shrinkSize := base })
    simp only [ScannedFile.scanAt, true_and, lt_irrefl, if_false] at outcome
    split at outcome
    case isTrue => cases outcome
    case isFalse not_less => omega
  · intro fits file
    rw [Nat.mod_eq_of_lt fits]

/-! ## File offsets -/

/-- Addresses, stored sizes and the sizes found by a scan are exact just as long as no cut to 32 bits
matters. -/
theorem offsets_exact_iff {fs : Files} {number : Nat} {obj : FileObj}
    (found : fs.objs number = some obj) (size_pos : 0 < fs.param.dataBytesPerChunk)
    (size_lt : fs.param.dataBytesPerChunk < 2 ^ 32) {addr : Nat} (inside : addr < fs.param.maxFileSize)
    {inodeChunk nBytes : Nat} {data : Chunk}
    (written : 0 < (fs.wrDataObj number inodeChunk data nBytes).1) :
    (fs.param.AddrExact addr ↔ fs.param.AddrFits addr) ∧
      (fs.StoredExact number obj inodeChunk data nBytes ↔
        (inodeChunk - 1) * fs.param.dataBytesPerChunk + nBytes < 2 ^ 32 ∨
          (inodeChunk - 1) * fs.param.dataBytesPerChunk + nBytes ≤ obj.storedSize) ∧
      (fs.param.ScanExact inodeChunk nBytes ↔
        (inodeChunk - 1) * fs.param.dataBytesPerChunk < 2 ^ 32) :=
  ⟨FileParam.addrExact_iff size_pos size_lt inside, Files.storedExact_iff found written,
    fs.param.scanExact_iff inodeChunk nBytes⟩

/-- A file with the tnode that it is made with. -/
def emptyFile : FileObj where
  tree := { top := .leaf 99 fun _ => 0 }

/-- A device with chunks of 2032 bytes, as tags in the data leave them, and a file. -/
def inbandFile : Files where
  param := { inbandTags := true, dataBytesPerChunk := 2032 }
  objs := fun number => if number = 257 then some emptyFile else none
  programs := [some 70]

theorem offsets_exact_small :
    (inbandFile.param.AddrExact 5000 ↔ inbandFile.param.AddrFits 5000) ∧
      (inbandFile.StoredExact 257 emptyFile 1 (fun _ => 0) 10 ↔
        (1 - 1) * inbandFile.param.dataBytesPerChunk + 10 < 2 ^ 32 ∨
          (1 - 1) * inbandFile.param.dataBytesPerChunk + 10 ≤ emptyFile.storedSize) ∧
      (inbandFile.param.ScanExact 1 10 ↔ (1 - 1) * inbandFile.param.dataBytesPerChunk < 2 ^ 32) :=
  offsets_exact_iff rfl (by decide) (by decide) (by decide) (by decide +kernel)

/-- Beyond 64 GB the chunk of an address is a wrong one, beyond 4 GB the stored size of a file falls
behind, and a scan takes a page for one near the start of its file. -/
theorem offsets_cut :
    ¬inbandFile.param.AddrExact (2 ^ 36) ∧
      ¬inbandFile.StoredExact 257 emptyFile 2113667 (fun _ => 0) 2032 ∧
      ¬inbandFile.param.ScanExact 2113667 2032 := by
  refine ⟨?_, ?_, ?_⟩
  · intro exact_place
    have start := exact_place.1
    revert start
    decide +kernel
  · intro exact_size
    revert exact_size
    simp only [Files.StoredExact]
    decide +kernel
  · intro exact_scan
    have outcome := exact_scan { shrinkSize := 2113666 * 2032 }
    revert outcome
    decide +kernel

end Yaffs
