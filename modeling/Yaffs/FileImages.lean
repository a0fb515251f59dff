import Yaffs.FileBytes

/-!
# Files before and after a call

A call on a file changes the image of that file and of no other one.  What it does to the image does
not depend on the cache, on the pages, on the garbage that is collected or on whether a hole is filled
or left open.
-/

namespace Yaffs

namespace Files

open WriteBack

variable {fs fs' fs'' : Files} {number limit : Nat} {change change' : Image → Image → Prop}

/-- The image of one file is changed, if there is what the change asks for. -/
structure Acts (limit : Nat) (fs fs' : Files) (number : Nat) (change : Image → Image → Prop) : Prop
    extends Safe fs fs' where
  acts : ∀ {image}, fs.Coherent limit → fs.image number = some image → fs.Supplied →
    fs'.programs ≠ [] → fs'.Coherent limit ∧ ∃ image', change image image' ∧
      fs'.image = Function.update fs.image number (some image')

theorem isSome_of_image {image : Image} (there : fs.image number = some image) :
    (fs.objs number).isSome := by
  rw [← Option.isSome_map, ← Files.image, there]
  rfl

theorem size_of_image {image : Image} (there : fs.image number = some image) :
    ((fs.objs number).map FileObj.fileSize).getD 0 = image.size := by
  obtain ⟨obj, found, rfl⟩ := Option.map_eq_some_iff.mp there
  rw [found]
  rfl

theorem Keeps.image (keeps : Keeps limit fs fs') (coherent : fs.Coherent limit)
    (supplied : fs.Supplied) (left : fs'.programs ≠ []) : fs'.image = fs.image := by
  obtain ⟨-, sizes, shown⟩ := keeps.keeps coherent supplied left
  exact sizes.image (keeps.param coherent.toProper) shown

theorem Acts.mono (acts : Acts limit fs fs' number change)
    (weaker : ∀ image image', change image image' → change' image image') :
    Acts limit fs fs' number change' := by
  refine ⟨acts.toSafe, fun {image} coherent there supplied left => ?_⟩
  obtain ⟨coherent', image', changed, same⟩ := acts.acts coherent there supplied left
  exact ⟨coherent', image', weaker image image' changed, same⟩

theorem Keeps.acts (keeps : Keeps limit fs fs') (number : Nat) :
    Acts limit fs fs' number fun image image' => image' = image := by
  refine ⟨keeps.toSafe, fun {image} coherent there supplied left => ?_⟩
  refine ⟨(keeps.keeps coherent supplied left).1, image, rfl, ?_⟩
  rw [keeps.image coherent supplied left, ← there, Function.update_eq_self]

theorem Acts.trans (first : Acts limit fs fs' number change)
    (second : Acts limit fs' fs'' number change') :
    Acts limit fs fs'' number (Relation.Comp change change') := by
  refine ⟨first.toSafe.trans second.toSafe, fun {image} coherent there supplied left => ?_⟩
  have left' := second.left (first.proper coherent.toProper) left
  obtain ⟨coherent', image', changed, same⟩ := first.acts coherent there supplied left'
  have there' : fs'.image number = some image' := by rw [same, Function.update_self]
  obtain ⟨coherent'', image'', changed', same'⟩ := second.acts coherent' there'
    ((first.spends coherent.toProper).supplied supplied) left
  refine ⟨coherent'', image'', ⟨image', changed, changed'⟩, ?_⟩
  rw [same', same, Function.update_idem]

theorem Acts.after (acts : Acts limit fs' fs'' number change) (keeps : Keeps limit fs fs') :
    Acts limit fs fs'' number change :=
  ((keeps.acts number).trans acts).mono fun image image' changed => by
    obtain ⟨_, rfl, changed⟩ := changed
    exact changed

theorem Acts.then (acts : Acts limit fs fs' number change) (keeps : Keeps limit fs' fs'') :
    Acts limit fs fs'' number change :=
  (acts.trans (keeps.acts number)).mono fun image image' changed => by
    obtain ⟨_, changed, rfl⟩ := changed
    exact changed

/-- What is done may depend on the state before. -/
theorem acts_of_image (safe : Safe fs fs')
    (acts : ∀ image, fs.Coherent limit → fs.image number = some image →
      Acts limit fs fs' number change) : Acts limit fs fs' number change :=
  ⟨safe, fun {image} coherent there => (acts image coherent there).acts coherent there⟩

/-! ## Sizes -/

/-- Only the size of a file is set. -/
theorem modifyObj_acts (number : Nat) {change : FileObj → FileObj} {size : Nat → Nat}
    (same : ∀ obj, FileObj.SamePages obj (change obj))
    (fileSize : ∀ obj, (change obj).fileSize = size obj.fileSize)
    (inside : ∀ before, before ≤ limit → size before ≤ limit) :
    Acts limit fs (fs.modifyObj number change) number
      fun image image' => image' = ⟨size image.size, image.bytes⟩ := by
  have safe := modifyObj_safe fs number same
  refine ⟨safe, fun {image} coherent there _ _ => ?_⟩
  have objs (n : Nat) : (fs.modifyObj number change).objs n =
      if n = number then (fs.objs n).map change else fs.objs n := by
    simp only [modifyObj, Function.update_apply]
    split
    case isTrue here => rw [here]
    case isFalse => rfl
  have view : (fs.modifyObj number change).view = fs.view := by
    refine Cache.ext rfl (stored_congr rfl rfl fun n => ?_)
    rw [objs]
    split
    · rw [Option.map_map]
      exact congrArg (fun f => (fs.objs n).map f) (funext fun obj => (same obj).tree)
    · rfl
  have bytes (n : Nat) : (fs.modifyObj number change).byteAt n = fs.byteAt n := by
    funext addr
    rw [byteAt, byteAt, view]
    rfl
  refine ⟨⟨safe.proper coherent.toProper, coherent.spans, view ▸ coherent.cached,
    fun {i line} found => ?_, fun {n obj} found => ?_⟩, ⟨size image.size, image.bytes⟩, rfl, ?_⟩
  · rw [view] at found
    rw [safe.same_objs coherent.toProper]
    exact coherent.held found
  · rw [objs] at found
    split at found
    · obtain ⟨before, found', rfl⟩ := Option.map_eq_some_iff.mp found
      rw [fileSize]
      exact inside _ (coherent.sizes found')
    · exact coherent.sizes found
  · funext n
    obtain ⟨obj, found, rfl⟩ := Option.map_eq_some_iff.mp there
    by_cases here : n = number
    · rw [here, Function.update_self, Files.image, objs, if_pos rfl, found, Option.map_some,
        Option.map_some, fileSize, bytes]
    · rw [Function.update_of_ne here, Files.image, Files.image, objs, if_neg here, bytes]

/-- Bytes that have been laid, in the image of the file. -/
theorem Lays.acts {addr : Nat} {buffer : List UInt8} (lays : Lays limit fs fs' number addr buffer) :
    Acts limit fs fs' number
      fun image image' => image' = ⟨image.size, copyInto image.bytes addr buffer⟩ := by
  refine ⟨lays.toSafe, fun {image} coherent there supplied left => ?_⟩
  have laid := lays.lays coherent supplied left
  refine ⟨laid.coherent, _, rfl, funext fun n => ?_⟩
  have sizes := congrArg (Option.map fun size => (⟨size, fs'.byteAt n⟩ : Image)) (laid.sizes n)
  rw [Option.map_map, Option.map_map] at sizes
  refine sizes.trans ?_
  by_cases here : n = number
  · subst here
    obtain ⟨obj, found, rfl⟩ := Option.map_eq_some_iff.mp there
    rw [Function.update_self, found, laid.bytes]
    rfl
  · rw [Function.update_of_ne here, laid.others n here]
    rfl

/-! ## Writing -/

/-- The file after bytes have been written. -/
def Image.write (image : Image) (offset : Nat) (buffer : List UInt8) : Image :=
  ⟨max image.size (offset + buffer.length), copyInto image.bytes offset buffer⟩

theorem doFileWr_acts (limit : Nat) {offset : Nat} {buffer : List UInt8}
    (inside : offset + buffer.length ≤ limit) (there : (fs.objs number).isSome)
    (writeThrough : Bool) :
    Acts limit fs (fs.doFileWr number offset buffer writeThrough).2 number
        (fun image image' => image' = image.write offset buffer) ∧
      (fs.Coherent limit → fs.Supplied →
        (fs.doFileWr number offset buffer writeThrough).2.programs ≠ [] →
          (fs.doFileWr number offset buffer writeThrough).1 = buffer.length) := by
  obtain ⟨lays, all⟩ := doFileWrLoop_lays limit writeThrough buffer.length le_rfl inside there
  rw [doFileWr]
  generalize doFileWrLoop number writeThrough buffer.length offset buffer fs = done at lays all ⊢
  have grown := lays.acts.trans (@modifyObj_acts done.2 limit number
    (fun obj => { obj with fileSize := max obj.fileSize (offset + buffer.length), dirty := true })
    (fun size => max size (offset + buffer.length)) (fun _ => ⟨rfl, rfl, rfl, rfl⟩)
    (fun _ => rfl) fun before before_le => max_le before_le inside)
  refine ⟨⟨lays.toSafe.trans (modifyObj_safe _ number fun _ => ⟨rfl, rfl, rfl, rfl⟩),
    fun {image} coherent image_eq supplied left => ?_⟩, all⟩
  have length := all coherent supplied left
  dsimp only at left ⊢
  rw [length] at left ⊢
  obtain ⟨coherent', image', ⟨_, rfl, rfl⟩, same⟩ := grown.acts coherent image_eq supplied left
  exact ⟨coherent', _, rfl, same⟩

theorem Image.write_append (image : Image) (offset : Nat) (first second : List UInt8) :
    (image.write offset first).write (offset + first.length) second =
      image.write offset (first ++ second) := by
  simp only [Image.write, copyInto_append, List.length_append]
  congr 1
  omega

/-- Writing nothing inside a file, or at its end. -/
theorem Image.write_nil {image : Image} {offset : Nat} (inside : offset ≤ image.size) :
    image.write offset [] = image := by
  rw [Image.write, copyInto_nil, List.length_nil, Nat.add_zero, max_eq_left inside]

/-! ## Holes -/

theorem write_nothing (limit : Nat) (fs : Files) (number pos : Nat) :
    Acts limit fs fs number fun image image' =>
      pos ≤ image.size → image' = image.write pos (List.replicate 0 0) :=
  ((Keeps.refl limit fs).acts number).mono fun image image' same from_end => by
    rw [same, List.replicate_zero, Image.write_nil from_end]

/-- A hole is filled with zeros. -/
theorem fillHole_acts (limit : Nat) (fuel : Nat) {pos increase : Nat} {fs : Files}
    (enough : increase ≤ fuel) (inside : pos + increase ≤ limit) (there : (fs.objs number).isSome) :
    Acts limit fs (fillHole number fuel pos increase fs).2 number (fun image image' =>
        pos ≤ image.size → image' = image.write pos (List.replicate increase 0)) ∧
      (fs.Coherent limit → fs.Supplied →
        (fillHole number fuel pos increase fs).2.programs ≠ [] →
          (fillHole number fuel pos increase fs).1 = true) := by
  induction fuel generalizing pos increase fs with
  | zero =>
    obtain rfl := Nat.le_zero.mp enough
    exact ⟨write_nothing limit fs number pos, fun _ _ _ => rfl⟩
  | succ fuel ih =>
    have safe := fillHole_safe number (fuel + 1) pos increase fs
    rw [fillHole] at safe ⊢
    split
    case isTrue done =>
      subst done
      exact ⟨write_nothing limit fs number pos, fun _ _ _ => rfl⟩
    case isFalse more =>
      rw [if_neg more] at safe
      dsimp only at safe ⊢
      generalize this_eq : min increase fs.param.dataBytesPerChunk = thisWrite at safe ⊢
      have this_le : thisWrite ≤ increase := this_eq ▸ min_le_left ..
      obtain ⟨wrote, all⟩ := @doFileWr_acts fs number limit pos (List.replicate thisWrite 0)
        (by rw [List.length_replicate]; omega) there false
      rw [List.length_replicate] at all
      generalize fs.doFileWr number pos (List.replicate thisWrite 0) false = written
        at wrote all safe ⊢
      have step (coherent : fs.Coherent limit) (supplied : fs.Supplied)
          (left : (if written.1 = thisWrite then
              fillHole number fuel (pos + thisWrite) (increase - thisWrite) written.2
            else (false, written.2)).2.programs ≠ []) :
          written.1 = thisWrite ∧ 0 < thisWrite ∧
            (fillHole number fuel (pos + thisWrite) (increase - thisWrite) written.2).2.programs ≠
              [] := by
        have size_pos := coherent.spans.size_pos
        split at left
        case isTrue same => exact ⟨same, by omega, left⟩
        case isFalse short => exact absurd (all coherent supplied left) short
      have rest (coherent : fs.Coherent limit) (positive : 0 < thisWrite) :=
        @ih (pos + thisWrite) (increase - thisWrite) written.2 (by omega) (by omega) (by
          rw [wrote.same_objs coherent.toProper]
          exact there)
      constructor
      · refine ⟨safe, fun {image} coherent image_eq supplied left => ?_⟩
        obtain ⟨same, positive, left'⟩ := step coherent supplied left
        rw [if_pos same]
        obtain ⟨coherent', last, ⟨_, rfl, changed⟩, image'⟩ :=
          (wrote.trans (rest coherent positive).1).acts coherent image_eq supplied left'
        refine ⟨coherent', last, fun from_end => ?_, image'⟩
        have whole : increase = thisWrite + (increase - thisWrite) := by omega
        have length : (List.replicate thisWrite (0 : UInt8)).length = thisWrite :=
          List.length_replicate
        rw [changed (by simp only [Image.write, length]; omega)]
        rw [whole, List.replicate_add, ← Image.write_append, length]
        congr 3
        omega
      · intro coherent supplied left
        obtain ⟨same, positive, left'⟩ := step coherent supplied left
        rw [if_pos same]
        have left'' := (rest coherent positive).1.left (wrote.proper coherent.toProper) left'
        obtain ⟨image, image_eq⟩ : ∃ image, fs.image number = some image := by
          obtain ⟨obj, found⟩ := Option.isSome_iff_exists.mp there
          exact ⟨_, by rw [Files.image, found]; rfl⟩
        obtain ⟨coherent', -⟩ := wrote.acts coherent image_eq supplied left''
        exact (rest coherent positive).2 coherent'
          ((wrote.spends coherent.toProper).supplied supplied) left'

/-- Behind the end of a file there are zeros. -/
def Image.Ends (image : Image) : Prop := ∀ addr, image.size ≤ addr → image.bytes addr = 0

/-- A file that may have been extended with zeros, up to a size. -/
def Image.Padded (newSize : Nat) (image image' : Image) : Prop :=
  image.Ends → image'.bytes = image.bytes ∧ image.size ≤ image'.size ∧
    image'.size ≤ max image.size newSize

theorem Image.padded_refl (newSize : Nat) (image : Image) : image.Padded newSize image :=
  fun _ => ⟨rfl, le_rfl, le_max_left ..⟩

/-- Zeros that are written at the end of a file are not seen. -/
theorem Image.padded_write {image : Image} {newSize : Nat} (larger : image.size ≤ newSize) :
    image.Padded newSize
      (image.write image.size (List.replicate (newSize - image.size) 0)) := by
  intro ends
  refine ⟨funext fun addr => ?_, le_max_left .., ?_⟩
  · simp only [Image.write, copyInto]
    split
    case isTrue after =>
      rw [ends addr after, List.getElem?_replicate]
      split <;> rfl
    case isFalse => rfl
  · simp only [Image.write, List.length_replicate]
    omega

/-- A hole is filled, or left open. -/
theorem handleHole_acts {newSize : Nat} (inside : newSize ≤ limit)
    (there : (fs.objs number).isSome) :
    Acts limit fs (fs.handleHole number newSize) number (Image.Padded newSize) := by
  have stays (fs : Files) : Acts limit fs fs number (Image.Padded newSize) :=
    ((Keeps.refl limit fs).acts number).mono fun image image' same =>
      same ▸ image.padded_refl newSize
  have safe := handleHole_safe fs number newSize
  refine acts_of_image safe fun image coherent image_eq => ?_
  have size := size_of_image image_eq
  simp only [handleHole, size]
  split
  case isTrue => exact stays fs
  case isFalse hole =>
    rw [not_or, not_le] at hole
    have available : Keeps limit fs (if newSize - image.size <
          smallHoleThreshold * fs.param.dataBytesPerChunk then fs.checkAllocAvailable
          else (false, fs)).2 := by
      split
      · exact checkAllocAvailable_keeps limit fs
      · exact Keeps.refl limit fs
    generalize (if newSize - image.size < smallHoleThreshold * fs.param.dataBytesPerChunk then
      fs.checkAllocAvailable else (false, fs)) = room at available ⊢
    have there' : (room.2.objs number).isSome := by
      rw [available.same_objs coherent.toProper]
      exact there
    obtain ⟨fills, all⟩ := @fillHole_acts number limit (newSize - image.size) image.size
      (newSize - image.size) room.2 le_rfl (by omega) there'
    generalize fillHole number (newSize - image.size) image.size (newSize - image.size) room.2 = fill
      at fills all ⊢
    have cut := resizeFileDown_safe fill.2 number image.size
    have filled : Acts limit fs (if room.1 then (fill.1, if fill.1 then fill.2
        else fill.2.resizeFileDown number image.size) else (false, room.2) : Bool × Files).2 number
          (Image.Padded newSize) := by
      split
      case isFalse =>
        exact (available.acts number).mono fun im im' same => same ▸ im.padded_refl newSize
      case isTrue =>
        refine ⟨available.toSafe.trans ?_, fun {im} coherent im_eq supplied left => ?_⟩
        · dsimp only
          split
          · exact fills.toSafe
          · exact fills.toSafe.trans cut
        dsimp only at left ⊢
        have proper := available.proper coherent.toProper
        split at left
        case isTrue ok =>
          rw [if_pos ok]
          obtain ⟨coherent', im', changed, same⟩ :=
            (fills.after available).acts coherent im_eq supplied left
          refine ⟨coherent', im', ?_, same⟩
          obtain rfl := Option.some.inj (image_eq.symm.trans im_eq)
          rw [changed le_rfl]
          exact Image.padded_write hole.2.le
        case isFalse failed =>
          -- With pages left, the hole has been filled.
          have left' := cut.left (fills.proper proper) left
          have left'' := fills.left proper left'
          obtain ⟨coherent', -⟩ := available.keeps coherent supplied left''
          exact absurd (all coherent' ((available.spends coherent.toProper).supplied supplied) left')
            failed
    generalize (if room.1 then (fill.1, if fill.1 then fill.2
      else fill.2.resizeFileDown number image.size) else (false, room.2) : Bool × Files) = result
      at filled ⊢
    split
    · exact filled.then (updateOh_keeps limit _ number)
    · exact filled

/-- A file is written after a hole that reads as zeros. -/
theorem wrFile_acts (limit : Nat) {offset : Nat} {buffer : List UInt8}
    (inside : offset + buffer.length ≤ limit) (there : (fs.objs number).isSome)
    (writeThrough : Bool) :
    Acts limit fs (fs.wrFile number offset buffer writeThrough).2 number
        (fun image image' => image.Ends → image' = image.write offset buffer) ∧
      (fs.Coherent limit → fs.Supplied →
        (fs.wrFile number offset buffer writeThrough).2.programs ≠ [] →
          (fs.wrFile number offset buffer writeThrough).1 = buffer.length) := by
  have hole := @handleHole_acts fs number limit offset (by omega) there
  have written (proper : fs.Proper) := @doFileWr_acts (fs.handleHole number offset) number limit
    offset buffer inside (by rw [hole.same_objs proper]; exact there) writeThrough
  rw [wrFile]
  constructor
  · refine acts_of_image (wrFile_safe fs number offset buffer writeThrough) fun im coherent _ => ?_
    refine (hole.trans (written coherent.toProper).1).mono fun first last both ends => ?_
    obtain ⟨mid, padded, rfl⟩ := both
    obtain ⟨bytes, larger, smaller⟩ := padded ends
    rw [Image.write, Image.write, bytes]
    congr 1
    omega
  · intro coherent supplied left
    obtain ⟨wrote, all⟩ := written coherent.toProper
    obtain ⟨image, image_eq⟩ : ∃ image, fs.image number = some image := by
      obtain ⟨obj, found⟩ := Option.isSome_iff_exists.mp there
      exact ⟨_, by rw [Files.image, found]; rfl⟩
    have left' := wrote.left (hole.proper coherent.toProper) left
    exact all (hole.acts coherent image_eq supplied left').1
      ((hole.spends coherent.toProper).supplied supplied) left

/-! ## Cutting off -/

theorem Uncached.not_caches (uncached : fs.Uncached number) (inodeChunk : Nat) :
    ¬fs.view.Caches (number, inodeChunk) := by
  rintro ⟨i, line, there, key⟩
  obtain ⟨i_lt, in_use⟩ := lines_eq_some.mp there
  refine uncached i i_lt ?_
  rw [(lineOf_eq_some.mp in_use).1, key]

/-- What is read of a file that is not cached is stored. -/
theorem Uncached.shown (uncached : fs.Uncached number) (inodeChunk : Nat) :
    fs.view.shown (number, inodeChunk) = fs.rdDataObj number inodeChunk :=
  Cache.shown_of_not_caches (uncached.not_caches inodeChunk)

theorem Uncached.congr (uncached : fs.Uncached number) (param : fs'.param = fs.param)
    (cache : fs'.cache = fs.cache) : fs'.Uncached number := by
  rw [Uncached, param, cache]
  exact uncached

/-- The chunks of a file from a new end on are dropped. -/
theorem pruneChunks_acts (limit : Nat) {newSize : Nat} (inside : newSize ≤ limit)
    (uncached : fs.Uncached number) :
    Acts limit fs (fs.pruneChunks number newSize) number fun image image' =>
      image.Ends → image' = ⟨image.size, fun addr =>
        if (newSize + fs.param.dataBytesPerChunk - 1) / fs.param.dataBytesPerChunk ≤
          addr / fs.param.dataBytesPerChunk then 0 else image.bytes addr⟩ := by
  have safe := pruneChunks_safe fs number newSize
  refine ⟨safe, fun {image} coherent image_eq _ _ => ?_⟩
  obtain ⟨owned, clears⟩ := pruneChunks_owned coherent.owned number newSize
  rw [size_of_image image_eq] at clears
  have size_le : image.size ≤ limit := by
    obtain ⟨obj, found, rfl⟩ := Option.map_eq_some_iff.mp image_eq
    exact coherent.sizes found
  have pos := coherent.spans.size_pos
  rw [coherent.spans.addrToChunk_eq (show newSize + fs.param.dataBytesPerChunk - 1 <
      limit + fs.param.dataBytesPerChunk by omega),
    coherent.spans.addrToChunk_eq (show image.size - 1 < limit + fs.param.dataBytesPerChunk by
      omega)] at clears
  have proper := safe.proper coherent.toProper
  generalize fs.pruneChunks number newSize = pruned at owned clears proper ⊢
  have lines : pruned.view.lines = fs.view.lines := by
    funext i
    simp only [view, clears.param, clears.cache]
  have stored (n k : Nat) (positive : 0 < k) := @Clears.reads _ _ _ _ clears n k positive
  have other (n k : Nat) (elsewhere : n ≠ number) :
      pruned.view.stored (n, k) = fs.view.stored (n, k) := by
    change pruned.rdDataObj n k = fs.rdDataObj n k
    rcases Nat.eq_zero_or_pos k with rfl | positive
    · rw [owned.rdDataObj_zero, coherent.owned.rdDataObj_zero]
    · rw [stored n k positive, if_neg fun both => elsewhere both.1]
  obtain ⟨cached, shown⟩ := coherent.cached.behind lines fun key caches =>
    other key.1 key.2 fun same => uncached.not_caches key.2 (same ▸ caches)
  have uncached' := uncached.congr clears.param clears.cache
  refine ⟨coherent.of_view proper clears.param clears.sizes cached
    fun there => coherent.held (lines ▸ there), ⟨image.size, pruned.byteAt number⟩, fun ends => ?_,
    funext fun n => ?_⟩
  · obtain ⟨obj, found, rfl⟩ := Option.map_eq_some_iff.mp image_eq
    congr 1
    funext addr
    have before : fs.byteAt number addr = fs.rdDataObj number
        (addr / fs.param.dataBytesPerChunk + 1) (addr % fs.param.dataBytesPerChunk) := by
      rw [byteAt, uncached.shown]
    rw [byteAt, clears.param, uncached'.shown, stored _ _ (Nat.succ_pos _)]
    dsimp only at size_le ends ⊢
    by_cases gone : (newSize + fs.param.dataBytesPerChunk - 1) / fs.param.dataBytesPerChunk ≤
        addr / fs.param.dataBytesPerChunk
    · rw [if_pos gone]
      by_cases beyond : obj.fileSize ≤ addr
      · have zero : fs.byteAt number addr = 0 := ends addr beyond
        rw [ite_apply, ← before, zero, ite_self]
      · -- The chunk is one of those up to the last one of the file.
        have last : addr / fs.param.dataBytesPerChunk ≤
            (obj.fileSize - 1) / fs.param.dataBytesPerChunk := Nat.div_le_div_right (by omega)
        rw [if_pos]
        refine ⟨rfl, ?_⟩
        rw [List.mem_reverse, List.mem_range'_1, if_pos (show 0 < obj.fileSize by omega)]
        omega
    · rw [if_neg gone, if_neg, before]
      rintro ⟨-, dropped⟩
      rw [List.mem_reverse, List.mem_range'_1] at dropped
      omega
  · have sizes := congrArg (Option.map fun size => (⟨size, pruned.byteAt n⟩ : Image)) (clears.sizes n)
    rw [Option.map_map, Option.map_map] at sizes
    refine sizes.trans ?_
    by_cases here : n = number
    · subst here
      obtain ⟨obj, found, rfl⟩ := Option.map_eq_some_iff.mp image_eq
      rw [Function.update_self, found]
      rfl
    · have bytes : pruned.byteAt n = fs.byteAt n := by
        funext addr
        rw [byteAt, byteAt, clears.param, shown _ (other n _ here)]
      rw [Function.update_of_ne here, bytes]
      rfl

/-- The rest of the last chunk of a file that is cut off is zeroed. -/
theorem cutChunk_lays (limit : Nat) {newSize : Nat} (inside : newSize < limit)
    (uncached : fs.Uncached number) (there : (fs.objs number).isSome) :
    Lays limit fs (fs.cutChunk number (newSize / fs.param.dataBytesPerChunk,
        newSize % fs.param.dataBytesPerChunk)) number newSize
      (List.replicate (if newSize % fs.param.dataBytesPerChunk = 0 then 0
        else fs.param.dataBytesPerChunk - newSize % fs.param.dataBytesPerChunk) 0) := by
  rw [cutChunk]
  dsimp only
  split
  case isTrue => exact (Keeps.refl limit fs).lays number newSize
  case isFalse partly =>
    have safe := wrDataObj_safe fs number (Nat.succ_pos (newSize / fs.param.dataBytesPerChunk))
      (fun i => if i < newSize % fs.param.dataBytesPerChunk then
        fs.rdDataObj number (newSize / fs.param.dataBytesPerChunk + 1) i else 0)
      (newSize % fs.param.dataBytesPerChunk)
    refine ⟨safe, fun coherent supplied left => ?_⟩
    have small := coherent.spans.chunk_le inside
    have pos := coherent.spans.size_pos
    have start_lt := Nat.mod_lt newSize pos
    have ok := wrDataObj_ok coherent.owned supplied there small left
    obtain ⟨owned, outcome⟩ := wrDataObj_owned coherent.owned number
      (Nat.succ_pos (newSize / fs.param.dataBytesPerChunk))
      (fun i => if i < newSize % fs.param.dataBytesPerChunk then
        fs.rdDataObj number (newSize / fs.param.dataBytesPerChunk + 1) i else 0)
      (newSize % fs.param.dataBytesPerChunk)
    have rewrites := (outcome.resolve_right fun failed => absurd ok (not_lt.mpr failed.1)).2
    refine around_laid coherent rewrites owned (safe.proper coherent.toProper) rfl rfl
      (fun _ => rfl) (fun i => ?_) (by rw [List.length_replicate]; omega) fun i i_lt => ?_
    · rw [(rewrites.view coherent.owned owned (Nat.succ_pos _)).1]
      refine filter_of_forall fun line found => ?_
      rw [decide_eq_true_eq]
      exact fun same => uncached.not_caches _ ⟨i, line, found, same⟩
    · rw [uncached.shown, copyInto]
      by_cases before : i < newSize % fs.param.dataBytesPerChunk
      · rw [if_pos before, if_neg (not_le.mpr before)]
      · rw [if_neg before, if_pos (not_lt.mp before), List.getElem?_replicate, if_pos (by omega)]
        rfl

/-- The end of the last chunk of a file of some size. -/
theorem rounded_up {size : Nat} (pos : 0 < size) (n : Nat) :
    n + (if n % size = 0 then 0 else size - n % size) = (n + size - 1) / size * size := by
  have sum := Nat.div_add_mod n size
  have start_lt := Nat.mod_lt n pos
  split
  case isTrue whole =>
    have split_up : n + size - 1 = size * (n / size) + (size - 1) := by omega
    have up : (n + size - 1) / size = n / size := by
      rw [split_up, Nat.mul_add_div pos, Nat.div_eq_of_lt (show size - 1 < size by omega),
        Nat.add_zero]
    rw [up, Nat.mul_comm]
    omega
  case isFalse partly =>
    have split_up : n + size - 1 = size * (n / size + 1) + (n % size - 1) := by
      rw [Nat.mul_add, Nat.mul_one]
      omega
    have up : (n + size - 1) / size = n / size + 1 := by
      rw [split_up, Nat.mul_add_div pos, Nat.div_eq_of_lt (show n % size - 1 < size by omega),
        Nat.add_zero]
    rw [up, Nat.mul_comm, Nat.mul_add, Nat.mul_one]
    omega

/-- A file cut off at a size. -/
def Image.cut (image : Image) (newSize : Nat) : Image :=
  ⟨newSize, fun addr => if addr < newSize then image.bytes addr else 0⟩

theorem resizeFileDown_acts (limit : Nat) {newSize : Nat} (inside : newSize < limit)
    (uncached : fs.Uncached number) (there : (fs.objs number).isSome) :
    Acts limit fs (fs.resizeFileDown number newSize) number fun image image' =>
      image.Ends → image' = image.cut newSize := by
  refine acts_of_image (resizeFileDown_safe fs number newSize) fun _ coherent _ => ?_
  have pos := coherent.spans.size_pos
  have pruned := pruneChunks_acts limit inside.le uncached
  obtain ⟨-, clears⟩ := pruneChunks_owned coherent.owned number newSize
  have param := clears.param
  have uncached' := uncached.congr clears.param clears.cache
  rw [resizeFileDown_eq, coherent.spans.addrToChunk_eq (by omega), ← param]
  have cut := @cutChunk_lays (fs.pruneChunks number newSize) number limit newSize inside uncached'
    (by rw [pruned.same_objs coherent.toProper]; exact there)
  have sized := @modifyObj_acts ((fs.pruneChunks number newSize).cutChunk number
      (newSize / (fs.pruneChunks number newSize).param.dataBytesPerChunk,
        newSize % (fs.pruneChunks number newSize).param.dataBytesPerChunk)) limit number
    (fun obj => { obj with fileSize := newSize, storedSize := newSize }) (fun _ => newSize)
    (fun _ => ⟨rfl, rfl, rfl, rfl⟩) (fun _ => rfl) fun _ _ => inside.le
  have all := ((pruned.trans cut.acts).trans sized).then (pruneTree_keeps limit _ number)
  refine all.mono fun first last both ends => ?_
  obtain ⟨_, ⟨second, dropped, rfl⟩, rfl⟩ := both
  rw [dropped ends, Image.cut, param]
  dsimp only
  congr 1
  funext addr
  have whole := rounded_up pos newSize
  generalize (if newSize % fs.param.dataBytesPerChunk = 0 then 0
    else fs.param.dataBytesPerChunk - newSize % fs.param.dataBytesPerChunk) = rest at whole ⊢
  have beyond : (newSize + fs.param.dataBytesPerChunk - 1) / fs.param.dataBytesPerChunk ≤
      addr / fs.param.dataBytesPerChunk ↔ newSize + rest ≤ addr := by
    rw [Nat.le_div_iff_mul_le pos, whole]
  simp only [copyInto, List.getElem?_replicate, beyond]
  by_cases before : addr < newSize
  · rw [if_neg (not_le.mpr before), if_neg (by omega), if_pos before]
  · rw [if_pos (not_lt.mp before), if_neg before]
    by_cases last : addr - newSize < rest
    · rw [if_pos last]
      rfl
    · rw [if_neg last, if_pos (by omega)]
      rfl

/-! ## Resizing and flushing -/

theorem Image.cut_of_le {image : Image} {newSize : Nat} (ends : image.Ends)
    (larger : image.size ≤ newSize) : image.cut newSize = ⟨newSize, image.bytes⟩ := by
  rw [Image.cut]
  congr 1
  funext addr
  split
  case isTrue => rfl
  case isFalse after => exact (ends addr (larger.trans (not_lt.mp after))).symm

/-- Before a file is resized, its cached part is written and garbage is collected. -/
theorem settled_keeps (limit : Nat) (fs : Files) (number : Nat) :
    Keeps limit fs ((fs.flushFileCache number true).invalidateWholeCache number).checkGc ∧
      (fs.Proper → ((fs.flushFileCache number true).invalidateWholeCache number).checkGc.Uncached
        number) := by
  have flushed := flushFileCache_keeps limit fs number true
  have written (proper : fs.Proper) (i : Nat)
      (i_lt : i < (fs.flushFileCache number true).param.nCaches)
      (object : ((fs.flushFileCache number true).cache i).object = some number) :
      ((fs.flushFileCache number true).cache i).dirty = false :=
    (flushFileCache_written proper number true (flushed.param proper ▸ i_lt) object).2
  constructor
  · exact keeps_of_proper fun proper =>
      (flushed.trans (invalidateWholeCache_keeps limit _ number (written proper))).trans
        (checkGc_keeps limit _)
  · intro proper
    have proper' := (invalidateWholeCache_safe (fs.flushFileCache number true) number).proper
      (flushed.proper proper)
    have collected := (checkGc_owned proper'.owned).2
    exact (invalidateWholeCache_uncached _ number).congr collected.param collected.cache

/-- A file is cut off, or extended with zeros. -/
theorem resizeFile_acts (limit : Nat) {newSize : Nat} (inside : newSize ≤ limit)
    (there : (fs.objs number).isSome) :
    Acts limit fs (fs.resizeFile number newSize) number fun image image' =>
      image.Ends → image' = image.cut newSize := by
  refine acts_of_image (resizeFile_safe fs number newSize) fun image coherent image_eq => ?_
  obtain ⟨settled, uncached⟩ := settled_keeps limit fs number
  have uncached := uncached coherent.toProper
  have size_le : image.size ≤ limit := by
    obtain ⟨obj, found, rfl⟩ := Option.map_eq_some_iff.mp image_eq
    exact coherent.sizes found
  have size := size_of_image image_eq
  have there' := there
  rw [← settled.same_objs coherent.toProper] at there'
  simp only [resizeFile, size]
  generalize ((fs.flushFileCache number true).invalidateWholeCache number).checkGc = first
    at settled uncached there' ⊢
  split
  case isTrue same =>
    refine ⟨settled.toSafe, fun {im} coherent im_eq supplied left => ?_⟩
    obtain rfl := Option.some.inj (image_eq.symm.trans im_eq)
    obtain ⟨coherent', im', rfl, same'⟩ := (settled.acts number).acts coherent im_eq supplied left
    exact ⟨coherent', _, fun ends => by rw [Image.cut_of_le ends same.ge, same], same'⟩
  case isFalse other =>
    have resized : Acts limit fs (if image.size < newSize then
        (first.handleHole number newSize).modifyObj number fun obj => { obj with fileSize := newSize }
        else first.resizeFileDown number newSize) number fun im im' =>
          im = image → im.Ends → im' = im.cut newSize := by
      refine Acts.after ?_ settled
      split
      case isTrue larger =>
        have sized := @modifyObj_acts (first.handleHole number newSize) limit number
          (fun obj => { obj with fileSize := newSize }) (fun _ => newSize)
          (fun _ => ⟨rfl, rfl, rfl, rfl⟩) (fun _ => rfl) fun _ _ => inside
        refine ((handleHole_acts inside there').trans sized).mono fun im im' both same ends => ?_
        obtain ⟨mid, padded, rfl⟩ := both
        rw [Image.cut_of_le ends (same ▸ larger.le), (padded ends).1]
      case isFalse smaller =>
        exact (resizeFileDown_acts limit (by omega) uncached there').mono
          fun im im' cut _ ends => cut ends
    generalize (if image.size < newSize then
      (first.handleHole number newSize).modifyObj number fun obj => { obj with fileSize := newSize }
      else first.resizeFileDown number newSize) = second at resized ⊢
    have cut {last : Files} (acts : Acts limit fs last number fun im im' =>
        im = image → im.Ends → im' = im.cut newSize) : Acts limit fs last number fun im im' =>
          im.Ends → im' = im.cut newSize := by
      refine ⟨acts.toSafe, fun {im} coherent im_eq supplied left => ?_⟩
      obtain ⟨coherent', im', changed, same⟩ := acts.acts coherent im_eq supplied left
      exact ⟨coherent', im', changed (Option.some.inj (im_eq.symm.trans image_eq)), same⟩
    split
    · exact cut resized
    · split
      · exact cut (resized.then (updateOh_keeps limit _ number))
      · exact cut resized

theorem flushFile_keeps (limit : Nat) (fs : Files) (number : Nat) (dataSync discardCache : Bool) :
    Keeps limit fs (fs.flushFile number dataSync discardCache).2 := by
  simp only [flushFile]
  split
  · exact Keeps.refl limit fs
  · split
    · exact flushFileCache_keeps limit fs number discardCache
    · exact (flushFileCache_keeps limit fs number discardCache).trans
        (updateOh_keeps limit _ number)

end Files

end Yaffs
