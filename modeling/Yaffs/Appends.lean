import Yaffs.DescriptorRuns

/-!
# Appending

A write to a descriptor that is open for appending starts at the end of the file.  The end is looked
up once, and the bytes are written in pieces with other threads between them, so that two such writes
that overlap in time overlap in the file.
-/

namespace Yaffs

namespace FsObj

variable (node : FsObj)

theorem contents_length : node.contents.length = node.fileSize := by
  simp [contents, fileRd]

/-- Bytes written at the end of a file come after its contents. -/
theorem contents_wrFile_end (bytes : List UInt8) :
    (node.wrFile node.fileSize bytes).contents = node.contents ++ bytes := by
  refine List.ext_getElem ?_ fun i i_lt _ => ?_
  · simp [contents_length, wrFile]
  · simp only [contents_length, wrFile] at i_lt
    simp only [contents, fileRd, wrFile, List.getElem_map, List.getElem_range, Nat.zero_add]
    by_cases before : i < node.fileSize
    · rw [if_pos before, if_pos before, List.getElem_append_left (by simpa using before)]
      simp
    · have inside : i - node.fileSize < bytes.length := by omega
      rw [if_neg before, List.getElem_append_right (by simp; omega)]
      simp [List.getElem?_eq_getElem inside]

end FsObj

namespace Yaffsfs

variable {fs fs' : Yaffsfs}

/-! ## One piece -/

theorem pieceLength_le (tr : Transfer) : pieceLength tr ≤ tr.nbyte := Nat.min_le_left ..

theorem pieceLength_le_rwSize (tr : Transfer) : pieceLength tr ≤ rwSize :=
  (Nat.min_le_right ..).trans (Nat.sub_le ..)

theorem pieceLength_pos {tr : Transfer} (some_left : 0 < tr.nbyte) : 0 < pieceLength tr := by
  have rwSize_pos : 0 < rwSize := by decide
  have in_piece : tr.pos % rwSize < rwSize := Int.emod_lt_of_pos _ (by decide)
  refine lt_min some_left ?_
  omega

/-- A change that leaves open what is open, with the same flags. -/
structure KeepsOpen (fs fs' : Yaffsfs) : Prop where
  same : SameTables fs fs'
  writing : ∀ f, (fs'.fd f).writing = (fs.fd f).writing
  append : ∀ f, (fs'.fd f).append = (fs.fd f).append
  readOnly : fs'.readOnly = fs.readOnly

theorem SameTables.trans {fs'' : Yaffsfs} (first : SameTables fs fs')
    (second : SameTables fs' fs'') : SameTables fs fs'' where
  use := fun h => (second.use h).trans (first.use h)
  fdId := fun h used => by
    rw [second.fdId h ((first.use h).mpr used), first.fdId h used]
  handleCount := fun f => (second.handleCount f).trans (first.handleCount f)
  inodeId := fun f => (second.inodeId f).trans (first.inodeId f)
  inode := second.inode.trans first.inode

theorem KeepsOpen.trans {fs'' : Yaffsfs} (first : KeepsOpen fs fs') (second : KeepsOpen fs' fs'') :
    KeepsOpen fs fs'' where
  same := first.same.trans second.same
  writing := fun f => (second.writing f).trans (first.writing f)
  append := fun f => (second.append f).trans (first.append f)
  readOnly := second.readOnly.trans first.readOnly

/-- A handle that is open for appending to a file. -/
structure AppendHandle (file : Nat) (fs : Yaffsfs) (handle : Int) : Prop where
  object : fs.handleToObject handle = some file
  writing : ∀ f, fs.handleToFileDes handle = some f → (fs.fd f).writing = true
  append : ∀ f, fs.handleToFileDes handle = some f → (fs.fd f).append = true

theorem KeepsOpen.appendHandle (keeps : KeepsOpen fs fs') {file : Nat} {handle : Int}
    (opened : AppendHandle file fs handle) : AppendHandle file fs' handle where
  object := by
    rw [keeps.same.handleToObject]
    exact opened.object
  writing := fun f f_eq => by
    rw [keeps.same.handleToFileDes] at f_eq
    rw [keeps.writing]
    exact opened.writing f f_eq
  append := fun f f_eq => by
    rw [keeps.same.handleToFileDes] at f_eq
    rw [keeps.append]
    exact opened.append f f_eq

/-- Number of reads and writes in flight on a handle. -/
def flightOn (fs : Yaffsfs) (h : Nat) : Nat :=
  fs.flight.countP fun tr => decide (tr.handle = (h : Int))

/-- Setting the use count of a handle that stays in use. -/
theorem keepsOpen_useCount {h : Nat} (used : 0 < (fs.handle h).useCount) {useCount : Int}
    (stays : 0 < useCount) : KeepsOpen fs (fs.setHandle h { fs.handle h with useCount }) where
  same :=
    { use := fun k => by
        simp only [setHandle, Function.update_apply]
        split
        case isTrue same =>
          subst same
          exact iff_of_true stays used
        case isFalse => rfl
      fdId := fun k _ => by
        simp only [setHandle, Function.update_apply]
        split
        case isTrue same => rw [same]
        case isFalse => rfl
      handleCount := fun _ => rfl
      inodeId := fun _ => rfl
      inode := rfl }
  writing := fun _ => rfl
  append := fun _ => rfl
  readOnly := rfl

theorem keepsOpen_position (fdId position : Nat) :
    KeepsOpen fs (fs.setFd fdId { fs.fd fdId with position }) where
  same := sameTables_position fdId position
  writing := fun g => by
    simp only [setFd, Function.update_apply]
    split
    case isTrue same => rw [same]
    case isFalse => rfl
  append := fun g => by
    simp only [setFd, Function.update_apply]
    split
    case isTrue same => rw [same]
    case isFalse => rfl
  readOnly := rfl

theorem keepsOpen_rest (fs : Yaffsfs) (objs : Nat → Option FsObj) (flight : List Transfer) :
    KeepsOpen fs { fs with objs, flight } where
  same := ⟨fun _ => Iff.rfl, fun _ _ => rfl, fun _ => rfl, fun _ => rfl, rfl⟩
  writing := fun _ => rfl
  append := fun _ => rfl
  readOnly := rfl

/-- Letting go of a handle that stays in use. -/
theorem putHandle_of_shared {h : Nat} (h_lt : h < nHandles)
    (shared : 1 < (fs.handle h).useCount) :
    fs.putHandle h =
      fs.setHandle h { fs.handle h with useCount := (fs.handle h).useCount - 1 } := by
  have used : 0 < (fs.handle h).useCount := by omega
  have not_last : ¬(fs.handle h).useCount - 1 < 1 := by omega
  simp only [putHandle, Vfs.handleToPointer, if_pos ((inTable_natCast h).mpr h_lt),
    Int.toNat_natCast, if_pos used, if_neg not_last]

/-- What one piece of an append does. -/
structure PieceWritten (file : Nat) (node : FsObj) (tr : Transfer) (fs fs' : Yaffsfs) : Prop where
  keeps : KeepsOpen fs fs'
  file : fs'.objs file =
    some (node.wrFile tr.pos.toNat (tr.buf.take (pieceLength tr)))
  flight : fs'.flight = fs.flight ++
    if pieceLength tr < tr.nbyte then [wrote tr (pieceLength tr)] else []
  useCount : ∀ k : Nat, (fs'.handle k).useCount = (fs.handle k).useCount -
    if ¬pieceLength tr < tr.nbyte ∧ tr.handle = k then 1 else 0

/-- With room for it, a piece is written as a whole. -/
theorem advance_written {file h : Nat} {node : FsObj} {tr : Transfer}
    (opened : AppendHandle file fs h) (shared : 1 < (fs.handle h).useCount)
    (found : fs.objs file = some node) (writable : fs.readOnly node.myDev = false)
    (handle_eq : tr.handle = (h : Nat)) (isWrite : tr.isWrite = true)
    (some_left : 0 < tr.nbyte) :
    PieceWritten file node tr fs (fs.advance rwSize tr) := by
  obtain ⟨h', f, index, h_eq, refers⟩ := handleToObject_iff_refers.mp opened.object
  obtain rfl : h = h' := by omega
  have n_pos := pieceLength_pos some_left
  have n_le := pieceLength_le tr
  have n_eq : min (pieceLength tr) rwSize = pieceLength tr :=
    Nat.min_eq_left (pieceLength_le_rwSize tr)
  have dev_eq : (fs.devOf file).all fs.readOnly = false := by
    rw [devOf, found]
    exact writable
  let written := fs.modify file fun node =>
    node.wrFile tr.pos.toNat (tr.buf.take (pieceLength tr))
  have piece : fs.writePiece rwSize tr = (wrote tr (pieceLength tr), written) := by
    simp only [writePiece, handle_eq, opened.object, dev_eq, n_eq]
    rfl
  have written_keeps : KeepsOpen fs written := keepsOpen_rest fs _ _
  have file_eq : written.objs file =
      some (node.wrFile tr.pos.toNat (tr.buf.take (pieceLength tr))) := by
    simp only [written, modify, Function.update_self, found, Option.map_some]
  have left_eq : (wrote tr (pieceLength tr)).nbyte = tr.nbyte - pieceLength tr := by
    simp only [wrote, if_true]
  simp only [advance, if_neg (Nat.ne_of_gt some_left), isWrite, if_true, piece, left_eq]
  by_cases more : pieceLength tr < tr.nbyte
  · rw [if_pos (by omega)]
    exact
      { keeps := written_keeps.trans (keepsOpen_rest written _ _)
        file := file_eq
        flight := by rw [if_pos more]; rfl
        useCount := fun k => by
          rw [if_neg fun both => both.1 more, Int.sub_zero]
          rfl }
  · rw [if_neg (by omega)]
    have put_eq : written.putHandle (wrote tr (pieceLength tr)).handle =
        written.setHandle h { fs.handle h with useCount := (fs.handle h).useCount - 1 } := by
      change written.putHandle tr.handle = _
      have shared' : 1 < (written.handle h).useCount := shared
      rw [handle_eq, putHandle_of_shared refers.h_lt shared']
      rfl
    have put_keeps : KeepsOpen written (written.putHandle (wrote tr (pieceLength tr)).handle) := by
      have used' : 0 < (written.handle h).useCount := refers.used
      have stays : 0 < (fs.handle h).useCount - 1 := by omega
      rw [put_eq]
      exact keepsOpen_useCount used' stays
    have put_objs : (written.putHandle (wrote tr (pieceLength tr)).handle).objs = written.objs := by
      rw [put_eq]
      rfl
    have put_flight : (written.putHandle (wrote tr (pieceLength tr)).handle).flight = fs.flight := by
      rw [put_eq]
      rfl
    have put_use : ∀ k : Nat,
        ((written.putHandle (wrote tr (pieceLength tr)).handle).handle k).useCount =
          (fs.handle k).useCount - if ¬pieceLength tr < tr.nbyte ∧ tr.handle = k then 1 else 0 := by
      intro k
      rw [put_eq, handle_eq]
      simp only [setHandle, Function.update_apply, more, not_false_eq_true, true_and,
        Nat.cast_inj]
      by_cases same : k = h
      · rw [if_pos same, if_pos same.symm, same]
      · rw [if_neg same, if_neg (Ne.symm same), Int.sub_zero]
        rfl
    have put_written : PieceWritten file node tr fs
        (written.putHandle (wrote tr (pieceLength tr)).handle) :=
      { keeps := written_keeps.trans put_keeps
        file := by rw [put_objs, file_eq]
        flight := by rw [if_neg more, List.append_nil, put_flight]
        useCount := put_use }
    obtain same | ⟨position, moved⟩ := finish_cases written (wrote tr (pieceLength tr))
    · rw [same]
      exact put_written
    · rw [moved]
      exact
        { keeps := put_written.keeps.trans (keepsOpen_position _ _)
          file := put_written.file
          flight := put_written.flight
          useCount := put_written.useCount }

/-! ## Appends in flight -/

/-- Appends to one file, through handles that are open for it, are all that is in flight. -/
structure Appending (file : Nat) (handles : Int → Prop) (fs : Yaffsfs) : Prop where
  opened : ∀ handle, handles handle → AppendHandle file fs handle
  counted : ∀ h : Nat, handles h → (fs.flightOn h : Int) < (fs.handle h).useCount
  flights : ∀ tr ∈ fs.flight, handles tr.handle ∧ tr.isWrite = true ∧ 0 < tr.nbyte ∧
    tr.buf.length = tr.nbyte ∧ 0 ≤ tr.pos
  writable : ∀ node, fs.objs file = some node → fs.readOnly node.myDev = false

/-- Where the pieces in flight are to be written. -/
def pieces (fs : Yaffsfs) : List (Nat × List UInt8) :=
  fs.flight.map fun tr => (tr.pos.toNat, tr.buf)

/-- Some bytes of a buffer have been written at a position, and the rest is in flight. -/
def Wrote (node : FsObj) (rest : List (Nat × List UInt8)) (pos : Nat) (buf : List UInt8)
    (node' : FsObj) (pieces' : List (Nat × List UInt8)) : Prop :=
  ∃ n, 0 < n ∧ n ≤ buf.length ∧ node' = node.wrFile pos (buf.take n) ∧
    pieces' = rest ++ if n < buf.length then [(pos + n, buf.drop n)] else []

/-- A piece keeps what the next one needs. -/
theorem PieceWritten.appending {file : Nat} {handles : Int → Prop} {node : FsObj} {tr : Transfer}
    (step : PieceWritten file node tr fs fs') (opened : ∀ handle, handles handle →
      AppendHandle file fs handle)
    (counted : ∀ h : Nat, handles h → (fs.flightOn h : Int) < (fs.handle h).useCount -
      if tr.handle = h then 1 else 0)
    (flights : ∀ tr ∈ fs.flight, handles tr.handle ∧ tr.isWrite = true ∧ 0 < tr.nbyte ∧
      tr.buf.length = tr.nbyte ∧ 0 ≤ tr.pos)
    (writable : fs.readOnly node.myDev = false)
    (own : handles tr.handle) (isWrite : tr.isWrite = true) (some_left : 0 < tr.nbyte)
    (buf_length : tr.buf.length = tr.nbyte) (pos_nonneg : 0 ≤ tr.pos) :
    Appending file handles fs' ∧ ∃ node', fs'.objs file = some node' ∧
      Wrote node fs.pieces tr.pos.toNat tr.buf node' fs'.pieces := by
  have n_pos := pieceLength_pos some_left
  have n_le := pieceLength_le tr
  constructor
  · refine
      { opened := fun handle is_one => step.keeps.appendHandle (opened handle is_one)
        counted := fun h is_one => ?_
        flights := fun other other_mem => ?_
        writable := fun node' found' => ?_ }
    · have before := counted h is_one
      have use_eq := step.useCount h
      have flight_eq : fs'.flightOn h = fs.flightOn h +
          if pieceLength tr < tr.nbyte ∧ tr.handle = h then 1 else 0 := by
        simp only [flightOn, step.flight, List.countP_append]
        by_cases more : pieceLength tr < tr.nbyte
        · simp [more, wrote, List.countP_cons]
        · simp [more]
      rw [use_eq, flight_eq]
      by_cases more : pieceLength tr < tr.nbyte
      · by_cases same : tr.handle = h
        · simp only [more, same, if_true, not_true_eq_false, false_and, if_false, true_and] at before ⊢
          push_cast
          omega
        · simp only [same, if_false, and_false] at before ⊢
          push_cast
          omega
      · by_cases same : tr.handle = h
        · simp only [more, same, if_true, not_false_eq_true, true_and, false_and, if_false] at before ⊢
          push_cast
          omega
        · simp only [same, if_false, and_false] at before ⊢
          push_cast
          omega
    · rw [step.flight] at other_mem
      rcases List.mem_append.mp other_mem with before | new
      · exact flights other before
      · by_cases more : pieceLength tr < tr.nbyte
        · rw [if_pos more] at new
          obtain rfl := List.mem_singleton.mp new
          refine ⟨own, isWrite, ?_, ?_, ?_⟩
          · simp only [wrote, if_true]
            omega
          · simp only [wrote, if_true, List.length_drop, buf_length]
          · simp only [wrote]
            omega
        · rw [if_neg more] at new
          cases new
    · rw [step.file] at found'
      obtain rfl := Option.some.inj found'
      rw [step.keeps.readOnly]
      exact writable
  · refine ⟨_, step.file, pieceLength tr, n_pos, by omega, rfl, ?_⟩
    simp only [pieces, step.flight, List.map_append, buf_length]
    by_cases more : pieceLength tr < tr.nbyte
    · simp only [if_pos more, List.map_cons, List.map_nil, wrote]
      rw [Int.toNat_add pos_nonneg (Int.natCast_nonneg _), Int.toNat_natCast]
    · simp only [if_neg more, List.map_nil]

theorem getHandle_of_used {h : Nat} (h_lt : h < nHandles) (used : 0 < (fs.handle h).useCount) :
    fs.getHandle h =
      fs.setHandle h { fs.handle h with useCount := (fs.handle h).useCount + 1 } := by
  simp only [getHandle, Vfs.handleToPointer, if_pos ((inTable_natCast h).mpr h_lt),
    Int.toNat_natCast, if_pos used]

/-- The bytes that a write accepts: none of a buffer that is too long. -/
def accepted (buf : List UInt8) : List UInt8 := if buf.length ≤ maxRwSize then buf else []

/-- An append writes its first piece at the end of the file. -/
theorem Appending.start {file : Nat} {handles : Int → Prop} {node : FsObj}
    (appending : Appending file handles fs) {handle : Int} (is_one : handles handle)
    (found : fs.objs file = some node) (buf : List UInt8)
    (space : node.fileSize + (accepted buf).length ≤ maxFileSize) :
    let fs' := fs.startWrite handle buf false 0 rwSize
    Appending file handles fs' ∧ ∃ node', fs'.objs file = some node' ∧
      (accepted buf = [] ∧ node' = node ∧ fs'.pieces = fs.pieces ∨
        accepted buf ≠ [] ∧ Wrote node fs.pieces node.fileSize (accepted buf) node' fs'.pieces) := by
  intro fs'
  have opened := appending.opened handle is_one
  obtain ⟨h, f, index, rfl, refers⟩ := handleToObject_iff_refers.mp opened.object
  have writable := appending.writable node found
  have dev_eq : (fs.devOf file).all fs.readOnly = false := by
    rw [devOf, found]
    exact writable
  have append := opened.append f refers.handleToFileDes
  have writing := opened.writing f refers.handleToFileDes
  have length_eq : ((fs.objs file).map FsObj.fileSize).getD 0 = node.fileSize := by
    rw [found]
    rfl
  let taken := fs.setHandle h { fs.handle h with useCount := (fs.handle h).useCount + 1 }
  have taken_eq : fs.getHandle h = taken := getHandle_of_used refers.h_lt refers.used
  have taken_keeps : KeepsOpen fs taken := keepsOpen_useCount refers.used (by have := refers.used; omega)
  have use_taken : ∀ k : Nat, (taken.handle k).useCount = (fs.handle k).useCount +
      if (h : Int) = k then 1 else 0 := by
    intro k
    simp only [taken, setHandle, Function.update_apply, Nat.cast_inj]
    by_cases same : k = h
    · rw [if_pos same, if_pos same.symm, same]
    · rw [if_neg same, if_neg (Ne.symm same), Int.add_zero]
  let bad := outOfRange node.fileSize buf.length
  let tr : Transfer :=
    { isWrite := true
      handle := h
      fdId := f
      file
      isP := false
      startPos := node.fileSize
      pos := node.fileSize
      nbyte := if bad then 0 else buf.length
      total := if bad then -1 else 0
      buf }
  have fs'_eq : fs' = taken.advance rwSize tr := by
    simp only [fs', startWrite, refers.handleToFileDes, opened.object, writing, dev_eq, append,
      length_eq, taken_eq]
    rfl
  have bad_iff : bad = decide (maxRwSize < buf.length) := by
    simp only [bad, outOfRange, decide_eq_decide]
    constructor
    · rintro (neg | big | long | far)
      · omega
      · omega
      · exact long
      · by_contra short
        rw [accepted, if_pos (by omega)] at space
        omega
    · exact fun long => Or.inr (Or.inr (Or.inl long))
  have length_tr : tr.nbyte = (accepted buf).length := by
    simp only [tr, bad_iff, accepted, decide_eq_true_eq]
    by_cases long : maxRwSize < buf.length
    · rw [if_pos long, if_neg (by omega)]
      rfl
    · rw [if_neg long, if_pos (by omega)]
  by_cases empty : accepted buf = []
  · -- Nothing is written, and the handle is let go of at once.
    rw [empty, List.length_nil] at length_tr
    have put_eq : taken.putHandle tr.handle = fs := by
      have shared : 1 < (taken.handle h).useCount := by
        have := use_taken h
        have used := refers.used
        rw [if_pos rfl] at this
        omega
      change taken.putHandle h = fs
      rw [putHandle_of_shared refers.h_lt shared]
      simp [taken, setHandle]
    have no_move : ¬(¬tr.isP ∧ if tr.isWrite then 0 < tr.total else 0 ≤ tr.total) := by
      have total_le : tr.total ≤ 0 := by
        simp only [tr]
        split <;> decide
      rintro ⟨-, moved⟩
      have moved' : 0 < tr.total := moved
      omega
    have same : fs' = fs := by
      rw [fs'_eq]
      simp only [advance, if_pos length_tr, finish, put_eq]
      exact if_neg no_move
    rw [same]
    exact ⟨appending, node, found, Or.inl ⟨empty, rfl, rfl⟩⟩
  · have accepted_eq : accepted buf = buf := by
      rw [accepted] at empty ⊢
      split at empty
      case isTrue short => rw [if_pos short]
      case isFalse => exact absurd rfl empty
    rw [accepted_eq] at length_tr
    have some_left : 0 < tr.nbyte := by
      rw [length_tr]
      exact List.length_pos_of_ne_nil (accepted_eq ▸ empty)
    have shared : 1 < (taken.handle h).useCount := by
      have := use_taken h
      have used := refers.used
      rw [if_pos rfl] at this
      omega
    have step : PieceWritten file node tr taken fs' := by
      rw [fs'_eq]
      exact advance_written (taken_keeps.appendHandle opened) shared found writable rfl rfl some_left
    obtain ⟨after, node', found', wrote_eq⟩ := step.appending
      (fun other is_other => taken_keeps.appendHandle (appending.opened other is_other))
      (fun k is_k => by
        rw [use_taken k]
        have before := appending.counted k is_k
        have same : taken.flightOn k = fs.flightOn k := rfl
        rw [same]
        change _ < _ - if (h : Int) = k then 1 else 0
        omega)
      appending.flights writable is_one rfl some_left length_tr.symm (Int.natCast_nonneg _)
    refine ⟨after, node', found', Or.inr ⟨empty, ?_⟩⟩
    rw [accepted_eq]
    exact wrote_eq

/-- The next piece of an append is written where the one before it has ended. -/
theorem Appending.resume {file : Nat} {handles : Int → Prop} {node : FsObj}
    (appending : Appending file handles fs) (found : fs.objs file = some node) (index : Nat) :
    let fs' := fs.resume index rwSize
    fs' = fs ∨ Appending file handles fs' ∧ ∃ node', fs'.objs file = some node' ∧
      ∃ before pos buf after, fs.pieces = before ++ (pos, buf) :: after ∧
        Wrote node (before ++ after) pos buf node' fs'.pieces := by
  intro fs'
  cases picked : fs.flight[index]? with
  | none =>
    left
    simp only [fs', Yaffsfs.resume, picked]
  | some tr =>
    right
    obtain ⟨i_lt, tr_eq⟩ := List.getElem?_eq_some_iff.mp picked
    have parts : fs.flight = fs.flight.take index ++ tr :: fs.flight.drop (index + 1) := by
      rw [← tr_eq, List.getElem_cons_drop, List.take_append_drop]
    have rest_eq : fs.flight.eraseIdx index =
        fs.flight.take index ++ fs.flight.drop (index + 1) := List.eraseIdx_eq_take_drop_succ ..
    have tr_mem : tr ∈ fs.flight := List.mem_of_getElem? picked
    obtain ⟨own, isWrite, some_left, buf_length, pos_nonneg⟩ := appending.flights tr tr_mem
    have opened := appending.opened tr.handle own
    obtain ⟨h, f, i, h_eq, refers⟩ := handleToObject_iff_refers.mp opened.object
    let picking := { fs with flight := fs.flight.eraseIdx index }
    have keeps : KeepsOpen fs picking := keepsOpen_rest fs _ _
    have count_eq : ∀ k : Nat, (fs.flightOn k : Int) =
        picking.flightOn k + if tr.handle = k then 1 else 0 := by
      intro k
      have eq : fs.flightOn k = picking.flightOn k + if tr.handle = k then 1 else 0 := by
        simp only [flightOn, picking, rest_eq]
        conv_lhs => rw [parts]
        simp only [List.countP_append, List.countP_cons, decide_eq_true_eq]
        omega
      rw [eq]
      push_cast
      rfl
    have shared : 1 < (picking.handle h).useCount := by
      have before := appending.counted h (h_eq ▸ own)
      have := count_eq h
      rw [if_pos h_eq] at this
      change 1 < (fs.handle h).useCount
      omega
    have step : PieceWritten file node tr picking fs' := by
      have fs'_eq : fs' = picking.advance rwSize tr := by
        simp only [fs', Yaffsfs.resume, picked, picking]
      rw [fs'_eq]
      exact advance_written (keeps.appendHandle (h_eq ▸ opened)) shared found
        (appending.writable node found) h_eq isWrite some_left
    obtain ⟨after, node', found', wrote_eq⟩ := step.appending
      (fun other is_other => keeps.appendHandle (appending.opened other is_other))
      (fun k is_k => by
        have before := appending.counted k is_k
        have := count_eq k
        change _ < (fs.handle k).useCount - _
        omega)
      (fun other other_mem => appending.flights other (List.mem_of_mem_eraseIdx other_mem))
      (appending.writable node found) own isWrite some_left buf_length pos_nonneg
    refine ⟨after, node', found', (fs.flight.take index).map fun tr => (tr.pos.toNat, tr.buf),
      tr.pos.toNat, tr.buf, (fs.flight.drop (index + 1)).map fun tr => (tr.pos.toNat, tr.buf),
      ?_, ?_⟩
    · rw [pieces]
      conv_lhs => rw [parts]
      simp only [List.map_append, List.map_cons]
    · have pieces_eq : picking.pieces = (fs.flight.take index).map (fun tr => (tr.pos.toNat, tr.buf)) ++
          (fs.flight.drop (index + 1)).map fun tr => (tr.pos.toNat, tr.buf) := by
        simp only [pieces, picking, rest_eq, List.map_append]
      rw [← pieces_eq]
      exact wrote_eq

/-! ## One append at a time -/

/-- What is in the file and what is still to be written come to `expected`.  There is one append in
flight at most, and it goes on at the end of the file. -/
def InOrder (expected : List UInt8) (node : FsObj) (pieces : List (Nat × List UInt8)) : Prop :=
  pieces = [] ∧ node.contents = expected ∨
    ∃ buf, pieces = [(node.fileSize, buf)] ∧ buf ≠ [] ∧ node.contents ++ buf = expected

/-- The file stays shorter than `length`, whatever is in flight. -/
def Short (length : Nat) (node : FsObj) (pieces : List (Nat × List UInt8)) : Prop :=
  node.fileSize < length ∧ ∀ piece ∈ pieces, piece.1 + piece.2.length < length

theorem Wrote.inOrder {node node' : FsObj} {pos : Nat} {buf expected : List UInt8}
    {pieces' : List (Nat × List UInt8)} (wrote : Wrote node [] pos buf node' pieces')
    (at_end : pos = node.fileSize) (expected_eq : node.contents ++ buf = expected) :
    InOrder expected node' pieces' := by
  obtain ⟨n, n_pos, n_le, rfl, rfl⟩ := wrote
  subst at_end
  have contents_eq := node.contents_wrFile_end (buf.take n)
  have size_eq : (node.wrFile node.fileSize (buf.take n)).fileSize = node.fileSize + n := by
    simp only [FsObj.wrFile, List.length_take]
    omega
  by_cases more : n < buf.length
  · right
    refine ⟨buf.drop n, ?_, ?_, ?_⟩
    · rw [if_pos more, size_eq]
      rfl
    · intro nothing
      have := congrArg List.length nothing
      rw [List.length_drop, List.length_nil] at this
      omega
    · rw [contents_eq, List.append_assoc, List.take_append_drop]
      exact expected_eq
  · left
    refine ⟨by rw [if_neg more]; rfl, ?_⟩
    rw [contents_eq, List.take_of_length_le (by omega)]
    exact expected_eq

theorem Wrote.short {node node' : FsObj} {pos length : Nat} {buf : List UInt8}
    {rest pieces' : List (Nat × List UInt8)} (wrote : Wrote node rest pos buf node' pieces')
    (size_lt : node.fileSize < length) (rest_lt : ∀ piece ∈ rest, piece.1 + piece.2.length < length)
    (end_lt : pos + buf.length < length) : Short length node' pieces' := by
  obtain ⟨n, n_pos, n_le, rfl, rfl⟩ := wrote
  constructor
  · simp only [FsObj.wrFile, List.length_take]
    omega
  · intro piece piece_mem
    rcases List.mem_append.mp piece_mem with before | new
    · exact rest_lt piece before
    · split at new
      · obtain rfl := List.mem_singleton.mp new
        rw [List.length_drop]
        dsimp only
        omega
      · cases new

/-- A turn of one of the appending threads. -/
inductive Append
  | start (handle : Int) (buf : List UInt8)
  | resume (index : Nat)
deriving DecidableEq, Repr

namespace Append

/-- A turn with room for all that it writes. -/
def turn : Append → Turn
  | .start handle buf => .write handle buf false 0 rwSize
  | .resume index => .resume index rwSize

def exec (append : Append) (fs : Yaffsfs) : Yaffsfs := Yaffsfs.exec append.turn fs

/-- The bytes that a turn adds to those to be written. -/
def bytes : Append → List UInt8
  | .start _ buf => accepted buf
  | .resume _ => []

/-- No append that has bytes to write starts while another one is in flight. -/
def Alone : Append → Yaffsfs → Prop
  | .start _ buf, fs => accepted buf ≠ [] → fs.flight = []
  | .resume _, _ => True

end Append

theorem pieces_eq_nil_iff : fs.pieces = [] ↔ fs.flight = [] := List.map_eq_nil_iff

/-- A file that is too short stays too short. -/
theorem short_run {file : Nat} {handles : Int → Prop} (appends : List Append)
    (own : ∀ handle buf, .start handle buf ∈ appends → handles handle) :
    ∀ {fs : Yaffsfs} {node : FsObj} {length : Nat}, Appending file handles fs →
      fs.objs file = some node → Short length node fs.pieces →
      (length + (appends.map Append.bytes).flatten.length : Int) ≤ maxFileSize + 1 →
      ∃ node', (Execution.run Append.exec appends fs).objs file = some node' ∧
        node'.fileSize < length + (appends.map Append.bytes).flatten.length := by
  induction appends with
  | nil => exact fun _ found short _ => ⟨_, found, short.1⟩
  | cons append appends ih =>
    intro fs node length appending found short space
    have own' : ∀ handle buf, .start handle buf ∈ appends → handles handle :=
      fun handle buf mem => own handle buf (List.mem_cons_of_mem _ mem)
    simp only [List.map_cons, List.flatten_cons, List.length_append] at space ⊢
    cases append with
    | start handle buf =>
      have size_lt := short.1
      obtain ⟨appending', node', found', ⟨empty, rfl, pieces_eq⟩ | ⟨-, wrote_eq⟩⟩ :=
        appending.start (own handle buf List.mem_cons_self) found buf (by
          simp only [Append.bytes] at space
          push_cast at space
          omega)
      · simp only [Append.bytes, empty, List.length_nil, Nat.zero_add] at space ⊢
        exact ih own' appending' found' (pieces_eq ▸ short) space
      · have short' : Short (length + (accepted buf).length) node'
            (fs.startWrite handle buf false 0 rwSize).pieces := by
          refine wrote_eq.short (by omega) (fun piece piece_mem => ?_) (by omega)
          have := short.2 piece piece_mem
          omega
        have done := ih own' appending' found' short' (by
          simp only [Append.bytes] at space
          push_cast at space ⊢
          omega)
        rw [Nat.add_assoc] at done
        exact done
    | resume index =>
      simp only [Append.bytes, List.length_nil, Nat.zero_add] at space ⊢
      obtain same | ⟨appending', node', found', before, pos, buf, after, pieces_eq, wrote_eq⟩ :=
        appending.resume found index
      · change ∃ node', (Execution.run Append.exec appends (fs.resume index rwSize)).objs file =
          some node' ∧ _
        rw [same]
        exact ih own' appending found short space
      · have in_flight := short.2
        rw [pieces_eq] at in_flight
        have short' : Short length node' (fs.resume index rwSize).pieces := by
          refine wrote_eq.short short.1 (fun piece piece_mem => in_flight piece ?_)
            (in_flight (pos, buf) (by simp))
          rcases List.mem_append.mp piece_mem with in_before | in_after
          · exact List.mem_append_left _ in_before
          · exact List.mem_append_right _ (List.mem_cons_of_mem _ in_after)
        exact ih own' appending' found' short' space

theorem InOrder.length_le {expected : List UInt8} {node : FsObj} {pieces : List (Nat × List UInt8)}
    (inOrder : InOrder expected node pieces) : node.fileSize ≤ expected.length := by
  rw [← node.contents_length]
  obtain ⟨-, eq⟩ | ⟨buf, -, -, eq⟩ := inOrder
  · rw [eq]
  · rw [← eq, List.length_append]
    omega

/-- An append that starts while another one is in flight makes the file too short. -/
theorem InOrder.short {expected buf : List UInt8} {node node' : FsObj}
    {pieces pieces' : List (Nat × List UInt8)} (inOrder : InOrder expected node pieces)
    (in_flight : pieces ≠ []) (some_bytes : buf ≠ [])
    (wrote : Wrote node pieces node.fileSize buf node' pieces') :
    Short (expected.length + buf.length) node' pieces' := by
  obtain ⟨nothing, -⟩ | ⟨first, pieces_eq, first_ne, eq⟩ := inOrder
  · exact absurd nothing in_flight
  have length_eq : node.fileSize + first.length = expected.length := by
    rw [← eq, List.length_append, node.contents_length]
  have first_pos := List.length_pos_of_ne_nil first_ne
  have bytes_pos := List.length_pos_of_ne_nil some_bytes
  refine wrote.short (by omega) (fun piece piece_mem => ?_) (by omega)
  rw [pieces_eq] at piece_mem
  obtain rfl := List.mem_singleton.mp piece_mem
  dsimp only
  omega

/-- Either every append is alone, and the file ends as it should, or the file ends too short. -/
theorem append_run {file : Nat} {handles : Int → Prop} (appends : List Append)
    (own : ∀ handle buf, .start handle buf ∈ appends → handles handle) :
    ∀ {fs : Yaffsfs} {node : FsObj} {expected : List UInt8}, Appending file handles fs →
      fs.objs file = some node → InOrder expected node fs.pieces →
      (expected.length + (appends.map Append.bytes).flatten.length : Int) ≤ maxFileSize →
      (Execution.run Append.exec appends fs).flight = [] →
      (Execution.Guarded Append.exec Append.Alone appends fs ∧
        ∃ node', (Execution.run Append.exec appends fs).objs file = some node' ∧
          node'.contents = expected ++ (appends.map Append.bytes).flatten) ∨
      (¬Execution.Guarded Append.exec Append.Alone appends fs ∧
        ∃ node', (Execution.run Append.exec appends fs).objs file = some node' ∧
          node'.fileSize < expected.length + (appends.map Append.bytes).flatten.length) := by
  induction appends with
  | nil =>
    intro fs node expected _ found inOrder _ done
    left
    refine ⟨trivial, node, found, ?_⟩
    obtain ⟨-, eq⟩ | ⟨buf, pieces_eq, -⟩ := inOrder
    · simpa using eq
    · have nothing : fs.pieces = [] := pieces_eq_nil_iff.mpr done
      rw [nothing] at pieces_eq
      cases pieces_eq
  | cons append appends ih =>
    intro fs node expected appending found inOrder space done
    have own' : ∀ handle buf, .start handle buf ∈ appends → handles handle :=
      fun handle buf mem => own handle buf (List.mem_cons_of_mem _ mem)
    simp only [List.map_cons, List.flatten_cons, List.length_append] at space ⊢
    cases append with
    | start handle buf =>
      have size_le := inOrder.length_le
      obtain ⟨appending', node', found', ⟨empty, rfl, pieces_eq⟩ | ⟨some_bytes, wrote_eq⟩⟩ :=
        appending.start (own handle buf List.mem_cons_self) found buf (by
          simp only [Append.bytes] at space
          push_cast at space
          omega)
      · simp only [Append.bytes, empty, List.length_nil, Nat.zero_add, List.nil_append] at space ⊢
        have rest := ih own' appending' found' (pieces_eq ▸ inOrder) space done
        have alone : Append.Alone (.start handle buf) fs := fun absurd_ne => absurd empty absurd_ne
        simp only [Execution.Guarded, alone, true_and]
        exact rest
      · by_cases in_flight : fs.flight = []
        · have pieces_nil := pieces_eq_nil_iff.mpr in_flight
          have contents_eq : node.contents = expected := by
            obtain ⟨-, eq⟩ | ⟨_, absurd_eq, -⟩ := inOrder
            · exact eq
            · rw [pieces_nil] at absurd_eq
              cases absurd_eq
          rw [pieces_nil] at wrote_eq
          have inOrder' := wrote_eq.inOrder rfl (congrArg (· ++ accepted buf) contents_eq)
          have rest := ih own' appending' found' inOrder' (by
            simp only [Append.bytes] at space
            rw [List.length_append]
            push_cast at space ⊢
            omega) done
          have alone : Append.Alone (.start handle buf) fs := fun _ => in_flight
          simp only [Execution.Guarded, alone, true_and, Append.bytes]
          simp only [List.append_assoc, List.length_append] at rest
          rw [← Nat.add_assoc]
          exact rest
        · right
          have not_alone : ¬Append.Alone (.start handle buf) fs :=
            fun alone => in_flight (alone some_bytes)
          have short := inOrder.short (fun nothing => in_flight (pieces_eq_nil_iff.mp nothing))
            some_bytes wrote_eq
          refine ⟨fun guarded => not_alone guarded.1, ?_⟩
          have shorter := short_run appends own' appending' found' short (by
            simp only [Append.bytes] at space
            push_cast at space ⊢
            omega)
          rw [Nat.add_assoc] at shorter
          exact shorter
    | resume index =>
      simp only [Append.bytes, List.length_nil, Nat.zero_add, List.nil_append] at space ⊢
      simp only [Execution.Guarded, Append.Alone, true_and]
      obtain same | ⟨appending', node', found', before, pos, buf, after, pieces_eq, wrote_eq⟩ :=
        appending.resume found index
      · have same' : Append.exec (.resume index) fs = fs := same
        rw [Execution.run_cons, same'] at done ⊢
        exact ih own' appending found inOrder space done
      · obtain ⟨nothing, -⟩ | ⟨left, pieces_one, -, eq⟩ := inOrder
        · rw [nothing] at pieces_eq
          simp at pieces_eq
        · rw [pieces_one] at pieces_eq
          obtain ⟨rfl, rest_eq⟩ : before = [] ∧ [(node.fileSize, left)] = (pos, buf) :: after := by
            cases before with
            | nil => exact ⟨rfl, pieces_eq⟩
            | cons _ _ => simp at pieces_eq
          obtain ⟨piece_eq, rfl⟩ := List.cons.inj rest_eq
          obtain ⟨rfl, rfl⟩ := Prod.mk.inj piece_eq
          exact ih own' appending' found' (wrote_eq.inOrder rfl eq) space done

/-- The file holds what it has held before, followed by the bytes of all appends in some order. -/
def KeepsAll (file : Nat) (node : FsObj) (appends : List Append) (fs : Yaffsfs) : Prop :=
  ∃ order : List (List UInt8), order.Perm (appends.map Append.bytes) ∧
    ((Execution.run Append.exec appends fs).objs file).map FsObj.contents =
      some (node.contents ++ order.flatten)

theorem Appending.of_idle {file : Nat} {node : FsObj} (found : fs.objs file = some node)
    (idle : fs.flight = []) (writable : fs.readOnly node.myDev = false) :
    Appending file (AppendHandle file fs) fs where
  opened := fun _ opened => opened
  counted := fun h opened => by
    obtain ⟨k, f, index, k_eq, refers⟩ := handleToObject_iff_refers.mp opened.object
    obtain rfl : h = k := by omega
    have none_in_flight : fs.flightOn h = 0 := by
      rw [flightOn, idle]
      rfl
    rw [none_in_flight]
    exact refers.used
  flights := fun tr tr_mem => by
    rw [idle] at tr_mem
    cases tr_mem
  writable := fun node' found' => by
    rw [found] at found'
    rw [← Option.some.inj found']
    exact writable

/-- Appends are kept exactly when they do not overlap in time: when nothing is in flight at first, all
handles are open for appending to the file, there is enough space and all appends are carried through,
the file ends with all their bytes if and only if none of them that has bytes to write has started
between the pieces of another one. -/
theorem keepsAll_iff_alone {file : Nat} {node : FsObj} {appends : List Append}
    (found : fs.objs file = some node) (idle : fs.flight = [])
    (writable : fs.readOnly node.myDev = false)
    (own : ∀ handle buf, .start handle buf ∈ appends → AppendHandle file fs handle)
    (space : (node.fileSize + (appends.map Append.bytes).flatten.length : Int) ≤ maxFileSize)
    (done : (Execution.run Append.exec appends fs).flight = []) :
    KeepsAll file node appends fs ↔ Execution.Guarded Append.exec Append.Alone appends fs := by
  have appending := Appending.of_idle found idle writable
  have inOrder : InOrder node.contents node fs.pieces :=
    Or.inl ⟨pieces_eq_nil_iff.mpr idle, rfl⟩
  obtain ⟨alone, node', found', contents_eq⟩ | ⟨not_alone, node', found', short⟩ :=
    append_run appends own appending found inOrder (by rwa [node.contents_length]) done
  · refine iff_of_true ⟨appends.map Append.bytes, List.Perm.refl _, ?_⟩ alone
    rw [found', Option.map_some, contents_eq]
  · refine iff_of_false ?_ not_alone
    rintro ⟨order, perm, eq⟩
    rw [found', Option.map_some] at eq
    have length_eq := congrArg List.length (Option.some.inj eq)
    have order_length : order.flatten.length = (appends.map Append.bytes).flatten.length := by
      rw [List.length_flatten, List.length_flatten]
      exact (perm.map List.length).sum_eq
    rw [node'.contents_length, List.length_append, order_length] at length_eq
    omega

/-- Open for appending. -/
def appendFlags : OpenFlags := OpenFlags.of (oRdWr ||| oAppend) (shareReadFlag ||| shareWriteFlag)

/-- A file that ends two bytes before the end of a piece is open twice for appending. -/
def openTwice : Yaffsfs :=
  Execution.run exec
    [.mount 0 false, .load 7 { myDev := 0, fileSize := 8190 },
      .openFile { obj := some 7 } 0 appendFlags, .openFile { obj := some 7 } 0 appendFlags] {}

theorem keepsAll_of_turns :
    KeepsAll 7 { myDev := 0, fileSize := 8190, myInode := some 0 }
      [.start 0 [1, 2, 3], .resume 0, .start 1 [4]] openTwice := by
  have found : openTwice.objs 7 = some { myDev := 0, fileSize := 8190, myInode := some 0 } := rfl
  have opened : ∀ h : Nat, h < 2 → AppendHandle 7 openTwice h := by
    intro h h_lt
    obtain ⟨f_eq, object, flags⟩ : openTwice.handleToFileDes h = some h ∧
        openTwice.handleToObject h = some 7 ∧
        (openTwice.fd h).writing = true ∧ (openTwice.fd h).append = true := by
      revert h
      decide +kernel
    exact
      { object
        writing := fun f found' => by
          obtain rfl := Option.some.inj (f_eq.symm.trans found')
          exact flags.1
        append := fun f found' => by
          obtain rfl := Option.some.inj (f_eq.symm.trans found')
          exact flags.2 }
  refine (keepsAll_iff_alone found (by decide +kernel) (by decide +kernel) ?_
    (by decide +kernel) (by decide +kernel)).mpr
      ⟨fun _ => by decide +kernel, trivial, fun _ => by decide +kernel, trivial⟩
  intro handle buf mem
  simp only [List.mem_cons, Append.start.injEq, reduceCtorEq, List.not_mem_nil, or_false,
    false_or] at mem
  rcases mem with ⟨rfl, -⟩ | ⟨rfl, -⟩
  · exact opened 0 (by decide)
  · exact opened 1 (by decide)

/-- An append that starts between the two pieces of another one loses a byte. -/
theorem not_keepsAll_of_overlap :
    ¬KeepsAll 7 { myDev := 0, fileSize := 8190, myInode := some 0 }
      [.start 0 [1, 2, 3], .start 1 [4], .resume 0] openTwice := by
  rintro ⟨order, perm, eq⟩
  obtain ⟨node', found', contents_eq⟩ := Option.map_eq_some_iff.mp eq
  have size_eq : ((Execution.run Append.exec [.start 0 [1, 2, 3], .start 1 [4], .resume 0]
      openTwice).objs 7).map FsObj.fileSize = some 8193 := by decide +kernel
  rw [found', Option.map_some] at size_eq
  have length_eq := congrArg List.length contents_eq
  have order_length : order.flatten.length = 4 := by
    rw [List.length_flatten]
    exact (perm.map List.length).sum_eq
  rw [FsObj.contents_length, List.length_append, FsObj.contents_length, order_length,
    Option.some.inj size_eq] at length_eq
  exact absurd length_eq (by decide)

end Yaffsfs

end Yaffs
