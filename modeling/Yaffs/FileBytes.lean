import Yaffs.FileContents

/-!
# Bytes of files

Reading, writing, resizing and flushing in terms of the bytes of the files: each loop goes over the
chunks that a range of bytes is in, and what it does to the chunks adds up to what it should do to the
range.
-/

namespace Yaffs

/-! ## Places -/

/-- The bytes of a chunk have successive places. -/
theorem place_add {size addr i : Nat} (inside : addr % size + i < size) :
    (addr + i) / size = addr / size ∧ (addr + i) % size = addr % size + i := by
  have pos : 0 < size := Nat.zero_lt_of_lt inside
  have sum := Nat.div_add_mod addr size
  have whole : addr + i = size * (addr / size) + (addr % size + i) := by omega
  rw [whole, Nat.mul_add_div pos, Nat.mul_add_mod, Nat.div_eq_of_lt inside,
    Nat.mod_eq_of_lt inside, Nat.add_zero]
  exact ⟨rfl, rfl⟩

namespace Files

open WriteBack

variable {fs fs' fs'' : Files} {number inodeChunk limit : Nat}

/-- The part of a transfer that goes into one chunk. -/
structure Portion (size offset n nCopy : Nat) : Prop where
  pos : 0 < nCopy
  le : nCopy ≤ n
  inside : offset % size + nCopy ≤ size
  /-- A part that is not the last one goes up to the end of its chunk. -/
  whole : nCopy = n ∨ offset % size + nCopy = size

theorem copySize_portion (spans : fs.param.Spans limit) {offset n : Nat} (positive : 0 < n)
    (inside : offset + n ≤ limit) :
    Portion fs.param.dataBytesPerChunk offset n (fs.copySize offset n) := by
  have rest := Nat.mod_lt offset spans.size_pos
  rw [copySize, spans.addrToChunk_eq (by omega)]
  dsimp only
  split
  case isTrue => exact ⟨positive, le_rfl, by omega, Or.inl rfl⟩
  case isFalse => exact ⟨by omega, by omega, by omega, Or.inr (by omega)⟩

/-! ## Reading -/

/-- What is read of a chunk are the bytes of the file there. -/
theorem copyFrom_eq (fs : Files) (number : Nat) {offset nCopy : Nat}
    (inside : offset % fs.param.dataBytesPerChunk + nCopy ≤ fs.param.dataBytesPerChunk) :
    copyFrom (fs.view.shown (number, offset / fs.param.dataBytesPerChunk + 1))
      (offset % fs.param.dataBytesPerChunk) nCopy =
        (List.range' offset nCopy).map (fs.byteAt number) := by
  rw [copyFrom, List.range'_eq_map_range, List.map_map]
  refine List.map_congr_left fun i i_mem => ?_
  have i_lt := List.mem_range.mp i_mem
  obtain ⟨chunk, start⟩ := place_add (show offset % fs.param.dataBytesPerChunk + i <
    fs.param.dataBytesPerChunk by omega)
  rw [Function.comp_apply, byteAt, chunk, start]

/-- Reading gets the bytes of the file and is not seen. -/
theorem fileRd_reads (limit : Nat) (fuel : Nat) {offset n : Nat} {fs : Files}
    (enough : n ≤ fuel) (inside : offset + n ≤ limit) (there : (fs.objs number).isSome) :
    Keeps limit fs (fileRd number fuel offset n fs).2 ∧
      (fs.Coherent limit → fs.Supplied → (fileRd number fuel offset n fs).2.programs ≠ [] →
        (fileRd number fuel offset n fs).1 = (List.range' offset n).map (fs.byteAt number)) := by
  induction fuel generalizing offset n fs with
  | zero =>
    obtain rfl := Nat.le_zero.mp enough
    exact ⟨Keeps.refl limit fs, fun _ _ _ => rfl⟩
  | succ fuel ih =>
    cases n with
    | zero => exact ⟨Keeps.refl limit fs, fun _ _ _ => rfl⟩
    | succ n =>
      have step (coherent : fs.Coherent limit) :
          Keeps limit fs (fileRd number (fuel + 1) offset (n + 1) fs).2 ∧
            (fs.Supplied → (fileRd number (fuel + 1) offset (n + 1) fs).2.programs ≠ [] →
              (fileRd number (fuel + 1) offset (n + 1) fs).1 =
                (List.range' offset (n + 1)).map (fs.byteAt number)) := by
        have portion := copySize_portion coherent.spans n.succ_pos inside
        rw [fileRd_succ, coherent.spans.addrToChunk_eq (by omega)]
        dsimp only
        generalize fs.copySize offset (n + 1) = nCopy at portion ⊢
        have small := coherent.spans.chunk_le (show offset < limit by omega)
        obtain ⟨read, shown⟩ := readChunk_shown limit there (Nat.succ_pos _) small nCopy
        generalize fs.readChunk number (offset / fs.param.dataBytesPerChunk + 1) nCopy = loaded
          at read shown ⊢
        have there' : (loaded.2.objs number).isSome := by
          rw [read.same_objs coherent.toProper]
          exact there
        obtain ⟨rest, rest_reads⟩ := @ih (offset + nCopy) (n + 1 - nCopy) loaded.2
          (by have := portion.pos; omega) (by have := portion.le; omega) there'
        refine ⟨read.trans rest, fun supplied left => ?_⟩
        have left' := rest.left (read.proper coherent.toProper) left
        obtain ⟨coherent', sizes, same⟩ := read.keeps coherent supplied left'
        have bytes : loaded.2.byteAt number = fs.byteAt number := by
          funext addr
          rw [byteAt, byteAt, read.param coherent.toProper, same]
        rw [rest_reads coherent' ((read.spends coherent.toProper).supplied supplied) left,
          shown coherent supplied left', bytes, copyFrom_eq fs number portion.inside,
          ← List.map_append, List.range'_append_1, Nat.add_sub_cancel' portion.le]
      exact ⟨keeps_of_coherent (fileRd_safe number _ _ _ fs) fun coherent => (step coherent).1,
        fun coherent => (step coherent).2⟩

/-! ## Writing chunks -/

/-- Bytes of a file have been overwritten from an address on, and nothing else is different. -/
structure Laid (limit : Nat) (fs fs' : Files) (number addr : Nat) (buffer : List UInt8) : Prop where
  coherent : fs'.Coherent limit
  sizes : SameSizes fs fs'
  others : ∀ n, n ≠ number → fs'.byteAt n = fs.byteAt n
  bytes : fs'.byteAt number = copyInto (fs.byteAt number) addr buffer

/-- Bytes of a file are overwritten from an address on, if there is what that asks for. -/
structure Lays (limit : Nat) (fs fs' : Files) (number addr : Nat) (buffer : List UInt8) : Prop
    extends Safe fs fs' where
  lays : fs.Coherent limit → fs.Supplied → fs'.programs ≠ [] → Laid limit fs fs' number addr buffer

theorem copyInto_nil (data : Chunk) (start : Nat) : copyInto data start [] = data := by
  funext i
  rw [copyInto, List.getElem?_nil, Option.getD_none, ite_self]

theorem copyInto_append (data : Chunk) (start : Nat) (first second : List UInt8) :
    copyInto (copyInto data start first) (start + first.length) second =
      copyInto data start (first ++ second) := by
  funext i
  simp only [copyInto, List.getElem?_append]
  by_cases before : i < start
  · rw [if_neg (by omega), if_neg (by omega), if_neg (by omega)]
  · rw [if_pos (show start ≤ i by omega), if_pos (show start ≤ i by omega)]
    by_cases in_first : i - start < first.length
    · rw [if_neg (show ¬start + first.length ≤ i by omega), if_pos in_first]
    · rw [if_pos (show start + first.length ≤ i by omega), if_neg in_first,
        List.getElem?_eq_none (show first.length ≤ i - start by omega), Option.getD_none,
        Nat.sub_add_eq]

theorem Keeps.bytes (keeps : Keeps limit fs fs') (coherent : fs.Coherent limit)
    (supplied : fs.Supplied) (left : fs'.programs ≠ []) (n : Nat) :
    fs'.byteAt n = fs.byteAt n := by
  funext addr
  rw [byteAt, byteAt, keeps.param coherent.toProper, (keeps.keeps coherent supplied left).2.2]

theorem Keeps.lays (keeps : Keeps limit fs fs') (number addr : Nat) :
    Lays limit fs fs' number addr [] := by
  refine ⟨keeps.toSafe, fun coherent supplied left => ?_⟩
  have bytes := keeps.bytes coherent supplied left
  obtain ⟨coherent', sizes, -⟩ := keeps.keeps coherent supplied left
  exact ⟨coherent', sizes, fun n _ => bytes n, by rw [bytes, copyInto_nil]⟩

theorem Lays.trans {addr addr' : Nat} {first second : List UInt8}
    (before : Lays limit fs fs' number addr first)
    (after : Lays limit fs' fs'' number addr' second) (next : addr' = addr + first.length) :
    Lays limit fs fs'' number addr (first ++ second) := by
  refine ⟨before.toSafe.trans after.toSafe, fun coherent supplied left => ?_⟩
  have left' := after.left (before.proper coherent.toProper) left
  have laid := before.lays coherent supplied left'
  have laid' := after.lays laid.coherent ((before.spends coherent.toProper).supplied supplied) left
  refine ⟨laid'.coherent, fun n => (laid'.sizes n).trans (laid.sizes n),
    fun n other => (laid'.others n other).trans (laid.others n other), ?_⟩
  rw [laid'.bytes, laid.bytes, next, copyInto_append]

theorem lays_of_coherent {addr : Nat} {buffer : List UInt8} (safe : Safe fs fs')
    (lays : fs.Coherent limit → Lays limit fs fs' number addr buffer) :
    Lays limit fs fs' number addr buffer :=
  ⟨safe, fun coherent => (lays coherent).lays coherent⟩

/-- New data of one chunk, as the bytes of the file. -/
theorem bytes_of_update {addr : Nat} {buffer : List UInt8} {data : Chunk}
    (param : fs'.param = fs.param)
    (shown : fs'.view.shown = Function.update fs.view.shown
      (number, addr / fs.param.dataBytesPerChunk + 1) data)
    (inside : addr % fs.param.dataBytesPerChunk + buffer.length ≤ fs.param.dataBytesPerChunk)
    (size_pos : 0 < fs.param.dataBytesPerChunk)
    (filled : ∀ i, i < fs.param.dataBytesPerChunk → data i =
      copyInto (fs.view.shown (number, addr / fs.param.dataBytesPerChunk + 1))
        (addr % fs.param.dataBytesPerChunk) buffer i) :
    (∀ n, n ≠ number → fs'.byteAt n = fs.byteAt n) ∧
      fs'.byteAt number = copyInto (fs.byteAt number) addr buffer := by
  constructor
  · intro n other
    funext a
    rw [byteAt, byteAt, param, shown, Function.update_of_ne fun same => other (congrArg Prod.fst same)]
  · funext a
    have start_lt := Nat.mod_lt a size_pos
    have whole := Nat.div_add_mod a fs.param.dataBytesPerChunk
    have whole' := Nat.div_add_mod addr fs.param.dataBytesPerChunk
    rw [byteAt, param, shown]
    by_cases here : a / fs.param.dataBytesPerChunk = addr / fs.param.dataBytesPerChunk
    · rw [here, Function.update_self, filled _ start_lt, copyInto, copyInto, byteAt, here]
      rw [here] at whole
      have same_side : addr % fs.param.dataBytesPerChunk ≤ a % fs.param.dataBytesPerChunk ↔
          addr ≤ a := by omega
      have same_index : a % fs.param.dataBytesPerChunk - addr % fs.param.dataBytesPerChunk =
          a - addr := by omega
      rw [if_congr same_side rfl rfl, same_index]
    · rw [Function.update_of_ne fun same => here (Nat.succ_inj.mp (congrArg Prod.snd same)),
        copyInto]
      change fs.byteAt number a = _
      split
      case isFalse => rfl
      case isTrue after =>
        -- An address in a later chunk is behind the end of the buffer.
        have later : addr / fs.param.dataBytesPerChunk + 1 ≤ a / fs.param.dataBytesPerChunk :=
          Nat.lt_of_le_of_ne (Nat.div_le_div_right after) (Ne.symm here)
        have ends := Nat.mul_le_mul_left fs.param.dataBytesPerChunk later
        rw [Nat.mul_add, Nat.mul_one] at ends
        rw [List.getElem?_eq_none (by omega), Option.getD_none]

theorem checkAllocAvailable_keeps (limit : Nat) (fs : Files) :
    Keeps limit fs fs.checkAllocAvailable.2 :=
  .of_view (checkAllocAvailable_safe fs) fun coherent _ _ => by
    have view : fs.checkAllocAvailable.2.view = fs.view :=
      Cache.ext rfl (stored_congr rfl rfl fun _ => rfl)
    rw [view]
    exact ⟨fun _ => rfl, coherent.cached, rfl, coherent.held⟩

theorem Supplied.available (supplied : fs.Supplied) : fs.checkAllocAvailable.1 = true := by
  rw [checkAllocAvailable]
  cases answers : fs.allocAvailable with
  | nil => rfl
  | cons answer rest => exact supplied.room answer (by rw [answers]; exact List.mem_cons_self)

/-- An entry to write to is got without that being seen. -/
theorem writeEntry_keeps (limit : Nat) (some_cache : 0 < fs.param.nCaches)
    (there : (fs.objs number).isSome) (positive : 0 < inodeChunk) (small : inodeChunk ≤ maxChunkId) :
    Keeps limit fs (fs.writeEntry number inodeChunk).2 ∧
      (fs.Proper → ∀ i, (fs.writeEntry number inodeChunk).1 = some i →
        (fs.writeEntry number inodeChunk).2.InSlot i number inodeChunk) ∧
      (fs.Supplied → (fs.writeEntry number inodeChunk).1.isSome) := by
  have available := checkAllocAvailable_keeps limit fs
  simp only [writeEntry]
  cases found : fs.findChunkCache number inodeChunk with
  | none =>
    have missing := not_caches_of_findChunkCache found
    dsimp only
    split
    case isFalse refused =>
      exact ⟨available, by simp, fun supplied => absurd supplied.available refused⟩
    case isTrue =>
      have loaded : Keeps limit fs.checkAllocAvailable.2
          (fs.checkAllocAvailable.2.loadChunkCache number inodeChunk).2 :=
        loadChunkCache_keeps limit some_cache missing there positive small
      refine ⟨available.trans loaded, fun proper i same => ?_, fun _ => rfl⟩
      obtain rfl := Option.some.inj same
      exact loadChunkCache_inSlot (available.proper proper) some_cache number inodeChunk
  | some i =>
    have in_slot : fs.InSlot i number inodeChunk := line_of_findChunkCache found
    dsimp only
    split
    case isTrue =>
      refine ⟨Keeps.refl limit fs, fun _ j same => ?_, fun _ => rfl⟩
      obtain rfl := Option.some.inj same
      exact in_slot
    case isFalse =>
      split
      case isFalse refused =>
        exact ⟨available, by simp, fun supplied => absurd supplied.available refused⟩
      case isTrue =>
        refine ⟨available, fun _ j same => ?_, fun _ => rfl⟩
        obtain rfl := Option.some.inj same
        exact in_slot

theorem fillEntry_slot (fs : Files) (i start : Nat) (bytes : List UInt8) (nWriteback : Nat) :
    lineOf ((fs.fillEntry i start bytes nWriteback).cache i) =
        (lineOf (fs.cache i)).map (fun line =>
          { line with data := copyInto line.data start bytes, dirty := true }) ∧
      ((fs.fillEntry i start bytes nWriteback).cache i).nBytes = nWriteback := by
  simp only [fillEntry, setCache, useCache, Function.update_self, lineOf, Option.map_map, Bool.or_true]
  refine ⟨?_, trivial⟩
  split <;> rfl

/-- The chunk of an entry shows what has been filled in. -/
theorem fillEntry_fills (coherent : fs.Coherent limit) {i : Nat}
    (in_slot : fs.InSlot i number inodeChunk) (start : Nat) (bytes : List UInt8) (nWriteback : Nat) :
    let filled := fs.fillEntry i start bytes nWriteback
    filled.Coherent limit ∧ SameSizes fs filled ∧
      filled.view.shown = Function.update fs.view.shown (number, inodeChunk)
        (copyInto (fs.view.shown (number, inodeChunk)) start bytes) := by
  dsimp only
  obtain ⟨i_lt, line, in_use, key⟩ := in_slot
  have safe := fillEntry_safe fs i start bytes nWriteback
  have slot := (fillEntry_slot fs i start bytes nWriteback).1
  rw [in_use, Option.map_some] at slot
  have found := lines_eq_some.mpr ⟨i_lt, in_use⟩
  have shows := coherent.cached.shown_of_line found
  obtain ⟨cached, shown⟩ := coherent.cached.fill found (copyInto line.data start bytes)
  have lines : (fs.fillEntry i start bytes nWriteback).view.lines = Function.update fs.view.lines i
      (some { line with data := copyInto line.data start bytes, dirty := true }) := by
    rw [← slot]
    simp only [fillEntry]
    rw [@setCache_lines (fs.useCache i true) i i_lt, useCache_lines fs i_lt, Function.update_idem]
    simp only [setCache, Function.update_self]
  have view : (fs.fillEntry i start bytes nWriteback).view = fs.view.setLine i
      { line with data := copyInto line.data start bytes, dirty := true } :=
    Cache.ext lines (stored_congr rfl rfl fun _ => rfl)
  rw [← view] at cached shown
  refine ⟨coherent.of_view (safe.proper coherent.toProper) rfl (fun _ => rfl) cached
    fun {j line'} there => ?_, fun _ => rfl, ?_⟩
  · rw [lines] at there
    by_cases here : j = i
    · rw [here, Function.update_self] at there
      obtain rfl := Option.some.inj there
      have before := coherent.held found
      exact before
    · rw [Function.update_of_ne here] at there
      exact coherent.held there
  · rw [shown, ← key, shows]

/-- Part of a chunk is written through the cache. -/
theorem wrCached_laid (coherent : fs.Coherent limit) (supplied : fs.Supplied)
    (some_cache : 0 < fs.param.nCaches) (there : (fs.objs number).isSome) {addr : Nat}
    {buffer : List UInt8} (small : addr / fs.param.dataBytesPerChunk + 1 ≤ maxChunkId)
    (inside : addr % fs.param.dataBytesPerChunk + buffer.length ≤ fs.param.dataBytesPerChunk)
    (nWriteback : Nat) (writeThrough : Bool)
    (left : (fs.wrCached number (addr / fs.param.dataBytesPerChunk + 1)
      (addr % fs.param.dataBytesPerChunk) buffer nWriteback writeThrough).2.programs ≠ []) :
    let written := fs.wrCached number (addr / fs.param.dataBytesPerChunk + 1)
      (addr % fs.param.dataBytesPerChunk) buffer nWriteback writeThrough
    Laid limit fs written.2 number addr buffer ∧ 0 ≤ written.1 := by
  dsimp only
  obtain ⟨entered, in_slot, got⟩ := writeEntry_keeps limit some_cache there (Nat.succ_pos _) small
  obtain ⟨i, i_eq⟩ := Option.isSome_iff_exists.mp (got supplied)
  have in_slot := in_slot coherent.toProper i i_eq
  have param := entered.param coherent.toProper
  have keeps := entered.keeps coherent supplied
  have spends := entered.spends coherent.toProper
  have proper := entered.proper coherent.toProper
  have there' : ((fs.writeEntry number (addr / fs.param.dataBytesPerChunk + 1)).2.objs
      number).isSome := by
    rw [entered.same_objs coherent.toProper]
    exact there
  rw [wrCached_eq] at left ⊢
  simp only [i_eq] at left ⊢
  generalize (fs.writeEntry number (addr / fs.param.dataBytesPerChunk + 1)).2 = mid
    at in_slot param keeps spends proper there' left ⊢
  generalize start_eq : addr % fs.param.dataBytesPerChunk = start at inside left ⊢
  have fills (left : mid.programs ≠ []) :=
    fillEntry_fills (keeps left).1 in_slot start buffer nWriteback
  have slot := fillEntry_slot mid i start buffer nWriteback
  have filled_proper := (fillEntry_safe mid i start buffer nWriteback).proper proper
  have filled_objs : (mid.fillEntry i start buffer nWriteback).objs = mid.objs := rfl
  have filled_programs : (mid.fillEntry i start buffer nWriteback).programs = mid.programs := rfl
  have filled_param : (mid.fillEntry i start buffer nWriteback).param = mid.param := rfl
  have filled_supplied : Spends mid (mid.fillEntry i start buffer nWriteback) :=
    .of_pages (List.suffix_refl _) id rfl fun _ _ free _ => free
  generalize mid.fillEntry i start buffer nWriteback = filled
    at fills slot filled_proper filled_objs filled_programs filled_param filled_supplied left ⊢
  -- What has been filled in is laid in the file.
  have laid {last : Files} (left : mid.programs ≠ []) (kept : Keeps limit filled last)
      (left' : last.programs ≠ []) : Laid limit fs last number addr buffer := by
    obtain ⟨-, sizes, shown⟩ := keeps left
    obtain ⟨coherent₁, sizes₁, shown₁⟩ := fills left
    obtain ⟨coherent₂, sizes₂, shown₂⟩ := kept.keeps coherent₁
      (filled_supplied.supplied (spends.supplied supplied)) left'
    have param' := (kept.param coherent₁.toProper).trans (filled_param.trans param)
    have updated : last.view.shown = Function.update fs.view.shown
        (number, addr / fs.param.dataBytesPerChunk + 1)
        (copyInto (fs.view.shown (number, addr / fs.param.dataBytesPerChunk + 1)) start buffer) := by
      rw [shown₂, shown₁, shown]
    obtain ⟨others, bytes⟩ := bytes_of_update param' updated (start_eq ▸ inside)
      coherent.spans.size_pos fun j _ => by rw [start_eq]
    exact ⟨coherent₂, fun n => (sizes₂ n).trans ((sizes₁ n).trans (sizes n)), others, bytes⟩
  obtain ⟨i_lt, line, in_use, key⟩ := in_slot
  rw [in_use, Option.map_some] at slot
  obtain ⟨object, chunkId, data, -⟩ := lineOf_eq_some.mp slot.1
  dsimp only at object chunkId
  rw [key] at object chunkId
  cases writeThrough with
  | false =>
    simp only [Bool.false_eq_true, if_false] at left ⊢
    have left' : mid.programs ≠ [] := filled_programs ▸ left
    exact ⟨laid left' (Keeps.refl limit filled) left, le_rfl⟩
  | true =>
    simp only [if_true] at left ⊢
    have i_lt' : i < filled.param.nCaches := filled_param ▸ i_lt
    have stored := storeEntry_keeps limit filled i_lt' object
    rw [storeEntry, chunkId, slot.2] at stored
    have left' := stored.left filled_proper left
    rw [filled_programs] at left'
    refine ⟨laid left' stored left, le_of_lt ?_⟩
    exact wrDataObj_ok filled_proper.owned (filled_supplied.supplied (spends.supplied supplied))
      (filled_objs ▸ there') small left

theorem filter_of_forall {α : Type*} {found : Option α} {keeps : α → Bool}
    (kept : ∀ a, found = some a → keeps a = true) : found = found.filter keeps := by
  cases found with
  | none => rfl
  | some a => rw [Option.filter_some, if_pos (kept a rfl)]

theorem invalidateChunkCache_rest (fs : Files) (number inodeChunk : Nat) :
    fs.invalidateChunkCache number inodeChunk =
      { fs with cache := (fs.invalidateChunkCache number inodeChunk).cache } := by
  simp only [invalidateChunkCache]
  split <;> rfl

/-- Dropping a chunk from the cache takes its line away. -/
theorem invalidateChunkCache_lines
    (single : ∀ {i j line line'}, fs.view.lines i = some line → fs.view.lines j = some line' →
      line.key = line'.key → i = j) (i : Nat) :
    (fs.invalidateChunkCache number inodeChunk).view.lines i =
      (fs.view.lines i).filter fun line => decide (line.key ≠ (number, inodeChunk)) := by
  rw [invalidateChunkCache]
  cases found : fs.findChunkCache number inodeChunk with
  | none =>
    refine filter_of_forall fun line there => ?_
    rw [decide_eq_true_eq]
    exact fun same => not_caches_of_findChunkCache found ⟨i, line, there, same⟩
  | some j =>
    obtain ⟨j_lt, line, in_use, key⟩ := line_of_findChunkCache found
    have there := lines_eq_some.mpr ⟨j_lt, in_use⟩
    dsimp only
    rw [setCache_lines j_lt]
    by_cases here : i = j
    · rw [here, Function.update_self, there, Option.filter_some, decide_eq_false (not_not.mpr key)]
      rfl
    · rw [Function.update_of_ne here]
      refine filter_of_forall fun other there' => ?_
      rw [decide_eq_true_eq]
      exact fun same => here (single there' there (same.trans key.symm))

/-- A chunk is written past the cache, which does not hold it afterwards. -/
theorem around_laid (coherent : fs.Coherent limit) {mid last : Files} {addr : Nat}
    {buffer : List UInt8} {data : Chunk}
    (rewrites : Rewrites fs mid number (addr / fs.param.dataBytesPerChunk + 1) (some data))
    (owned : mid.Owned) (proper : last.Proper) (param : last.param = mid.param)
    (stored : last.view.stored = mid.view.stored) (sizes : SameSizes mid last)
    (lines : ∀ i, last.view.lines i = (fs.view.lines i).filter fun line =>
      decide (line.key ≠ (number, addr / fs.param.dataBytesPerChunk + 1)))
    (inside : addr % fs.param.dataBytesPerChunk + buffer.length ≤ fs.param.dataBytesPerChunk)
    (filled : ∀ i, i < fs.param.dataBytesPerChunk → data i =
      copyInto (fs.view.shown (number, addr / fs.param.dataBytesPerChunk + 1))
        (addr % fs.param.dataBytesPerChunk) buffer i) :
    Laid limit fs last number addr buffer := by
  have behind := (rewrites.view coherent.owned owned (Nat.succ_pos _)).2
  obtain ⟨cached, shown⟩ := coherent.cached.writeAround (stored.trans behind) lines
  have same_sizes : SameSizes fs last := fun n => (sizes n).trans (rewrites.sizes n)
  have same_param := param.trans rewrites.param
  obtain ⟨others, bytes⟩ := bytes_of_update same_param shown inside coherent.spans.size_pos filled
  refine ⟨coherent.of_view proper same_param same_sizes cached fun {i line} there => ?_, same_sizes,
    others, bytes⟩
  rw [lines, Option.filter_eq_some_iff] at there
  exact coherent.held there.1

/-- Part of a chunk, or all of it, is written. -/
theorem wrChunk_laid (coherent : fs.Coherent limit) (supplied : fs.Supplied)
    (there : (fs.objs number).isSome) {addr : Nat} {buffer : List UInt8}
    (small : addr / fs.param.dataBytesPerChunk + 1 ≤ maxChunkId)
    (inside : addr % fs.param.dataBytesPerChunk + buffer.length ≤ fs.param.dataBytesPerChunk)
    (nWriteback : Nat) (writeThrough : Bool)
    (left : (fs.wrChunk number (addr / fs.param.dataBytesPerChunk + 1)
      (addr % fs.param.dataBytesPerChunk) buffer nWriteback writeThrough).2.programs ≠ []) :
    let written := fs.wrChunk number (addr / fs.param.dataBytesPerChunk + 1)
      (addr % fs.param.dataBytesPerChunk) buffer nWriteback writeThrough
    Laid limit fs written.2 number addr buffer ∧ 0 ≤ written.1 := by
  have safe := wrChunk_safe fs number (Nat.succ_pos (addr / fs.param.dataBytesPerChunk))
    (addr % fs.param.dataBytesPerChunk) buffer nWriteback writeThrough
  dsimp only
  rw [wrChunk] at left safe ⊢
  have rewritten (data : Chunk) (nBytes : Nat)
      (left : (fs.wrDataObj number (addr / fs.param.dataBytesPerChunk + 1) data
        nBytes).2.programs ≠ []) :
      (fs.wrDataObj number (addr / fs.param.dataBytesPerChunk + 1) data nBytes).2.Owned ∧
      0 ≤ (fs.wrDataObj number (addr / fs.param.dataBytesPerChunk + 1) data nBytes).1 ∧
        Rewrites fs (fs.wrDataObj number (addr / fs.param.dataBytesPerChunk + 1) data nBytes).2
          number (addr / fs.param.dataBytesPerChunk + 1) (some data) := by
    have ok := wrDataObj_ok coherent.owned supplied there small left
    obtain ⟨owned, outcome⟩ := wrDataObj_owned coherent.owned number
      (Nat.succ_pos (addr / fs.param.dataBytesPerChunk)) data nBytes
    rcases outcome with ⟨-, rewrites⟩ | ⟨failed, -⟩
    · exact ⟨owned, ok.le, rewrites⟩
    · exact absurd ok (not_lt.mpr failed)
  split at left
  case isTrue partly =>
    rw [if_pos partly] at safe ⊢
    split at left
    case isTrue some_cache =>
      rw [if_pos some_cache]
      exact wrCached_laid coherent supplied some_cache there small inside nWriteback writeThrough left
    case isFalse no_cache =>
      rw [if_neg no_cache] at safe ⊢
      obtain ⟨owned, ok, rewrites⟩ := rewritten _ _ left
      have missing (i : Nat) : fs.view.lines i = none := if_neg (by omega)
      refine ⟨around_laid coherent rewrites owned (safe.proper coherent.toProper) rfl rfl
        (fun _ => rfl) (fun i => ?_) inside fun j _ => ?_, ok⟩
      · rw [(rewrites.view coherent.owned owned (Nat.succ_pos _)).1, missing]
        rfl
      · rw [Cache.shown_of_not_caches]
        · rfl
        · rintro ⟨i, line, found, -⟩
          rw [missing] at found
          cases found
  case isFalse wholly =>
    rw [if_neg wholly] at safe ⊢
    dsimp only at left safe ⊢
    simp only [not_or, not_not] at wholly
    have mid_safe := wrDataObj_safe fs number (Nat.succ_pos (addr / fs.param.dataBytesPerChunk))
      (copyInto (fun _ => 0) 0 buffer) fs.param.dataBytesPerChunk
    have left' := (invalidateChunkCache_safe _ number _).left (mid_safe.proper coherent.toProper) left
    obtain ⟨owned, ok, rewrites⟩ := rewritten _ _ left'
    have mid_lines := (rewrites.view coherent.owned owned (Nat.succ_pos _)).1
    generalize fs.wrDataObj number (addr / fs.param.dataBytesPerChunk + 1)
      (copyInto (fun _ => 0) 0 buffer) fs.param.dataBytesPerChunk = written
      at safe left' owned ok rewrites mid_lines ⊢
    have rest := invalidateChunkCache_rest written.2 number
      (addr / fs.param.dataBytesPerChunk + 1)
    have lines := @invalidateChunkCache_lines written.2 number
      (addr / fs.param.dataBytesPerChunk + 1) (by rw [mid_lines]; exact coherent.cached.single)
    rw [mid_lines] at lines
    have start : addr % fs.param.dataBytesPerChunk = 0 := by omega
    refine ⟨around_laid coherent rewrites owned (safe.proper coherent.toProper) (by rw [rest])
      (stored_congr (by rw [rest]) (by rw [rest]) fun n => by rw [rest]) (fun n => by rw [rest]) lines
      inside fun j j_lt => ?_, ok⟩
    have there : j < buffer.length := by omega
    simp only [start, copyInto, Nat.zero_le, if_true, Nat.sub_zero, List.getElem?_eq_getElem there,
      Option.getD_some]

/-- All of a buffer is written. -/
theorem doFileWrLoop_lays (limit : Nat) (writeThrough : Bool) (fuel : Nat) {offset : Nat}
    {buffer : List UInt8} {fs : Files} (enough : buffer.length ≤ fuel)
    (inside : offset + buffer.length ≤ limit) (there : (fs.objs number).isSome) :
    Lays limit fs (doFileWrLoop number writeThrough fuel offset buffer fs).2 number offset buffer ∧
      (fs.Coherent limit → fs.Supplied →
        (doFileWrLoop number writeThrough fuel offset buffer fs).2.programs ≠ [] →
          (doFileWrLoop number writeThrough fuel offset buffer fs).1 = buffer.length) := by
  induction fuel generalizing offset buffer fs with
  | zero =>
    obtain rfl := List.length_eq_zero_iff.mp (Nat.le_zero.mp enough)
    exact ⟨(Keeps.refl limit fs).lays number offset, fun _ _ _ => rfl⟩
  | succ fuel ih =>
    cases buffer with
    | nil => exact ⟨(Keeps.refl limit fs).lays number offset, fun _ _ _ => rfl⟩
    | cons byte bytes =>
      have safe := doFileWrLoop_safe number writeThrough (fuel + 1) offset (byte :: bytes) fs
      have step (coherent : fs.Coherent limit) (supplied : fs.Supplied)
          (left : (doFileWrLoop number writeThrough (fuel + 1) offset (byte :: bytes)
            fs).2.programs ≠ []) :
          Laid limit fs (doFileWrLoop number writeThrough (fuel + 1) offset (byte :: bytes) fs).2
            number offset (byte :: bytes) ∧
          (doFileWrLoop number writeThrough (fuel + 1) offset (byte :: bytes) fs).1 =
            (byte :: bytes).length := by
        rw [List.length_cons] at inside
        have portion := copySize_portion coherent.spans bytes.length.succ_pos inside
        rw [doFileWrLoop_succ, coherent.spans.addrToChunk_eq (by omega)] at left ⊢
        generalize fs.copySize offset (bytes.length + 1) = nCopy at portion left ⊢
        generalize fs.writeBack number offset (bytes.length + 1) = nWriteback at left ⊢
        have small := coherent.spans.chunk_le (show offset < limit by omega)
        have taken : ((byte :: bytes).take nCopy).length = nCopy := by
          rw [List.length_take, List.length_cons]
          exact min_eq_left portion.le
        have first := wrChunk_safe fs number
          (Nat.succ_pos (offset / fs.param.dataBytesPerChunk))
          (offset % fs.param.dataBytesPerChunk) ((byte :: bytes).take nCopy) nWriteback writeThrough
        have laid := @wrChunk_laid fs number limit coherent supplied there offset
          ((byte :: bytes).take nCopy) small (by rw [taken]; exact portion.inside) nWriteback
          writeThrough
        dsimp only at left laid first ⊢
        generalize fs.wrChunk number (offset / fs.param.dataBytesPerChunk + 1)
          (offset % fs.param.dataBytesPerChunk) ((byte :: bytes).take nCopy) nWriteback
          writeThrough = written at left laid first ⊢
        split at left
        case isTrue failed => exact absurd (laid left).2 (not_le.mpr failed)
        case isFalse ok =>
          rw [if_neg ok]
          dsimp only at left ⊢
          have there' : (written.2.objs number).isSome := by
            rw [first.same_objs coherent.toProper]
            exact there
          have dropped : ((byte :: bytes).drop nCopy).length = bytes.length + 1 - nCopy := by
            rw [List.length_drop, List.length_cons]
          obtain ⟨rest, all⟩ := @ih (offset + nCopy) ((byte :: bytes).drop nCopy) written.2
            (by rw [dropped]; have := portion.pos; rw [List.length_cons] at enough; omega)
            (by rw [dropped]; have := portion.le; omega) there'
          have left' := rest.left (first.proper coherent.toProper) left
          have begun : Lays limit fs written.2 number offset ((byte :: bytes).take nCopy) :=
            ⟨first, fun _ _ left => (laid left).1⟩
          have both := begun.trans rest (by rw [taken])
          rw [List.take_append_drop] at both
          refine ⟨both.lays coherent supplied left, ?_⟩
          rw [all (laid left').1.coherent ((first.spends coherent.toProper).supplied supplied) left,
            dropped, List.length_cons]
          have := portion.le
          omega
      exact ⟨⟨safe, fun coherent supplied left => (step coherent supplied left).1⟩,
        fun coherent supplied left => (step coherent supplied left).2⟩

end Files

end Yaffs
