import Yaffs.FileImages
import Yaffs.FileRuns

/-!
# Files as byte arrays

To its callers a file is an array of bytes.  Writing behind the end of it fills up with zeros, and
cutting it off forgets what is cut.  A run of calls on files with a cache, tnodes, pages and garbage
does to the files what the same run does to byte arrays.
-/

namespace Yaffs

/-! ## Byte arrays -/

namespace PlainFile

/-- Write bytes at an offset, after zeros if the offset is behind the end. -/
def write (file : List UInt8) (offset : Nat) (buffer : List UInt8) : List UInt8 :=
  file.takeD offset 0 ++ buffer ++ file.drop (offset + buffer.length)

/-- Cut a file off, or extend it with zeros. -/
def resize (file : List UInt8) (newSize : Nat) : List UInt8 := file.takeD newSize 0

/-- Read bytes from an offset on, which are zeros behind the end. -/
def read (file : List UInt8) (offset n : Nat) : List UInt8 := (file.drop offset).takeD n 0

example : read (write [1, 2] 4 [7]) 0 6 = [1, 2, 0, 0, 7, 0] := rfl

theorem getD_takeD (file : List UInt8) (n i : Nat) :
    (file.takeD n 0).getD i 0 = if i < n then file.getD i 0 else 0 := by
  induction n generalizing file i with
  | zero => rfl
  | succ n ih =>
    rw [List.takeD_succ]
    cases i with
    | zero => cases file <;> rfl
    | succ i =>
      rw [List.getD_cons_succ, ih]
      cases file with
      | nil => simp
      | cons byte file => simp

theorem length_write (file : List UInt8) (offset : Nat) (buffer : List UInt8) :
    (write file offset buffer).length = max file.length (offset + buffer.length) := by
  rw [write, List.length_append, List.length_append, List.takeD_length, List.length_drop]
  omega

theorem getD_write (file : List UInt8) (offset : Nat) (buffer : List UInt8) (i : Nat) :
    (write file offset buffer).getD i 0 =
      if offset ≤ i then (buffer[i - offset]?).getD (file.getD i 0) else file.getD i 0 := by
  have length : (file.takeD offset 0).length = offset := List.takeD_length ..
  rw [write, List.append_assoc]
  by_cases before : i < offset
  · rw [List.getD_append _ _ _ _ (by rw [length]; exact before), getD_takeD, if_pos before,
      if_neg (not_le.mpr before)]
  · rw [List.getD_append_right _ _ _ _ (by rw [length]; exact not_lt.mp before), length,
      if_pos (not_lt.mp before)]
    by_cases inside : i - offset < buffer.length
    · rw [List.getD_append _ _ _ _ inside, List.getElem?_eq_getElem inside, Option.getD_some,
        List.getD_eq_getElem _ _ inside]
    · rw [List.getD_append_right _ _ _ _ (not_lt.mp inside),
        List.getElem?_eq_none (not_lt.mp inside), Option.getD_none]
      simp only [List.getD_eq_getElem?_getD, List.getElem?_drop]
      congr 2
      omega

theorem read_eq_map (file : List UInt8) (offset n : Nat) :
    read file offset n = (List.range' offset n).map fun i => file.getD i 0 := by
  induction n generalizing offset with
  | zero => rfl
  | succ n ih =>
    rw [read, List.takeD_succ, List.range'_succ, List.map_cons, ← ih, read, List.tail_drop]
    congr 1
    simp [List.head?_drop, List.getD_eq_getElem?_getD]

end PlainFile

namespace Files

variable {fs fs' : Files} {number limit : Nat}

/-- The image of a byte array. -/
def Image.ofFile (file : List UInt8) : Image := ⟨file.length, fun i => file.getD i 0⟩

theorem Image.ofFile_ends (file : List UInt8) : (Image.ofFile file).Ends := fun addr after => by
  simp only [ofFile, List.getD_eq_getElem?_getD, List.getElem?_eq_none after, Option.getD_none]

theorem Image.ofFile_write (file : List UInt8) (offset : Nat) (buffer : List UInt8) :
    ofFile (PlainFile.write file offset buffer) = (ofFile file).write offset buffer := by
  rw [ofFile, PlainFile.length_write, Image.write]
  congr 1
  funext i
  exact PlainFile.getD_write file offset buffer i

theorem Image.ofFile_resize (file : List UInt8) (newSize : Nat) :
    ofFile (PlainFile.resize file newSize) = (ofFile file).cut newSize := by
  rw [ofFile, PlainFile.resize, List.takeD_length, Image.cut]
  congr 1
  funext i
  exact PlainFile.getD_takeD file newSize i

/-! ## New files -/

variable {obj : FileObj}

/-- A new file is empty, and the others are not concerned. -/
theorem Adopted.image (adopted : Adopted fs fs' number obj) (coherent : fs.Coherent limit)
    (fresh : fs.objs number = none) :
    fs'.Coherent limit ∧
      fs'.image = Function.update fs.image number (some (Image.ofFile [])) := by
  have proper := adopted.proper coherent.toProper fresh
  have same_objs (n : Nat) : fs'.objs n = if n = number then some obj else fs.objs n := by
    rw [adopted.objs, Function.update_apply]
  have view : fs'.view = fs.view := by
    refine WriteBack.Cache.ext (funext fun i => ?_) (funext fun key => ?_)
    · simp only [Files.view, adopted.param, adopted.cache]
    · change fs'.rdDataObj key.1 key.2 = fs.rdDataObj key.1 key.2
      rcases Nat.eq_zero_or_pos key.2 with zero | positive
      · rw [zero, proper.owned.rdDataObj_zero, coherent.owned.rdDataObj_zero]
      · exact coherent.owned.rdDataObj_congr proper.owned positive fun _ _ => by rw [adopted.pages]
  have bytes (n : Nat) : fs'.byteAt n = fs.byteAt n := by
    funext addr
    rw [byteAt, byteAt, view, adopted.param]
  have nothing : fs.byteAt number = fun _ => 0 := by
    funext addr
    have missing : ¬fs.view.Caches (number, addr / fs.param.dataBytesPerChunk + 1) := by
      rintro ⟨i, line, there, key⟩
      have known := (coherent.held there).1
      rw [key, fresh] at known
      cases known
    rw [byteAt, WriteBack.Cache.shown_of_not_caches missing]
    change fs.rdDataObj number _ _ = 0
    rw [rdDataObj, findChunkInFile, fresh, Option.bind_none, Option.bind_none]
  refine ⟨⟨proper, adopted.param ▸ coherent.spans, view ▸ coherent.cached,
    fun {i line} there => ?_, fun {n o} found => ?_⟩, funext fun n => ?_⟩
  · rw [view] at there
    rw [same_objs]
    refine ⟨?_, (coherent.held there).2⟩
    split
    · rfl
    · exact (coherent.held there).1
  · rw [same_objs] at found
    split at found
    · obtain rfl := Option.some.inj found
      rw [adopted.fileSize]
      exact Nat.zero_le limit
    · exact coherent.sizes found
  · rw [Files.image, same_objs, Function.update_apply]
    split
    case isTrue here =>
      rw [here, Option.map_some, adopted.fileSize, bytes, nothing]
      rfl
    case isFalse => rw [bytes, Files.image]

theorem Coherent.restock (coherent : fs.Coherent limit) {supply : Supply}
    (pages : ∀ chunk, some chunk ∈ supply.programs → fs.param.HasPage chunk) :
    (fs.restock supply).Coherent limit ∧ (fs.restock supply).image = fs.image := by
  have view : (fs.restock supply).view = fs.view :=
    WriteBack.Cache.ext rfl (stored_congr rfl rfl fun _ => rfl)
  have same : SameSizes fs (fs.restock supply) := fun _ => rfl
  exact ⟨coherent.of_view (coherent.toProper.restock pages) rfl same (view ▸ coherent.cached)
    fun there => coherent.held (view ▸ there), same.image rfl (congrArg WriteBack.Cache.shown view)⟩

/-- The files without what is in the cache. -/
def loseCache (fs : Files) : Files := { fs with cache := fun _ => {} }

end Files

/-! ## Calls -/

namespace FileCall

/-- What a call does to byte arrays. -/
def perform : FileCall → (Nat → Option (List UInt8)) → Nat → Option (List UInt8)
  | create number _, files =>
    if (files number).isSome then files else Function.update files number (some [])
  | write number offset buffer _, files =>
    Function.update files number ((files number).map fun file => PlainFile.write file offset buffer)
  | resize number newSize, files =>
    Function.update files number ((files number).map fun file => PlainFile.resize file newSize)
  | _, files => files

/-- Does a call stay below a limit? -/
def Inside (limit : Nat) : FileCall → Prop
  | read _ offset n => offset + n ≤ limit
  | write _ offset buffer _ => offset + buffer.length ≤ limit
  | resize _ newSize => newSize ≤ limit
  | _ => True

end FileCall

namespace FileStep

open Files

/-- There are pages, tnodes and room for all that the step asks for, and addresses stay below a
limit. -/
structure Provided (limit : Nat) (step : FileStep) (fs : Files) : Prop extends step.Sound fs where
  supplied : (fs.restock step.supply).Supplied
  left : (step.exec fs).programs ≠ []
  inside : step.call.Inside limit

instance (limit : Nat) (call : FileCall) : Decidable (call.Inside limit) :=
  match call with
  | .read _ offset n => inferInstanceAs (Decidable (offset + n ≤ limit))
  | .write _ offset buffer _ => inferInstanceAs (Decidable (offset + buffer.length ≤ limit))
  | .resize _ newSize => inferInstanceAs (Decidable (newSize ≤ limit))
  | .create .. | .flush .. | .updateHeader _ | .collect => .isTrue trivial

instance (limit : Nat) (step : FileStep) (fs : Files) : Decidable (step.Provided limit fs) :=
  decidable_of_iff (step.Sound fs ∧ (fs.restock step.supply).Supplied ∧
      (step.exec fs).programs ≠ [] ∧ step.call.Inside limit)
    ⟨fun ⟨sound, supplied, left, inside⟩ => ⟨sound, supplied, left, inside⟩,
      fun provided => ⟨provided.toSound, provided.supplied, provided.left, provided.inside⟩⟩

variable {fs : Files} {limit : Nat}

/-! ## Refinement -/

/-- The files are these byte arrays. -/
structure Represents (limit : Nat) (fs : Files) (files : Nat → Option (List UInt8)) : Prop where
  coherent : fs.Coherent limit
  image : ∀ number, fs.image number = (files number).map Image.ofFile

variable {files : Nat → Option (List UInt8)}

theorem Represents.hasFile (represents : Represents limit fs files) (number : Nat) :
    fs.HasFile number = (files number).isSome := by
  have isSome := congrArg Option.isSome (represents.image number)
  rw [Files.image, Option.isSome_map, Option.isSome_map] at isSome
  exact isSome

theorem Represents.of_keeps {last : Files} (represents : Represents limit fs files)
    (keeps : Keeps limit fs last) (supplied : fs.Supplied) (left : last.programs ≠ []) :
    Represents limit last files :=
  ⟨(keeps.keeps represents.coherent supplied left).1, fun number => by
    rw [keeps.image represents.coherent supplied left, represents.image]⟩

theorem Represents.of_acts {last : Files} {number : Nat} {change : Image → Image → Prop}
    {file after : List UInt8} (represents : Represents limit fs files)
    (acts : Acts limit fs last number change) (found : files number = some file)
    (supplied : fs.Supplied) (left : last.programs ≠ [])
    (same : ∀ image, change (Image.ofFile file) image → image = Image.ofFile after) :
    Represents limit last (Function.update files number (some after)) := by
  have there : fs.image number = some (Image.ofFile file) := by
    rw [represents.image, found, Option.map_some]
  obtain ⟨coherent, image, changed, images⟩ :=
    acts.acts represents.coherent there supplied left
  refine ⟨coherent, fun n => ?_⟩
  rw [images, Function.update_apply, Function.update_apply]
  split
  · rw [same image changed, Option.map_some]
  · exact represents.image n

theorem Represents.restock (represents : Represents limit fs files) {supply : Supply}
    (pages : ∀ chunk, some chunk ∈ supply.programs → fs.param.HasPage chunk) :
    Represents limit (fs.restock supply) files := by
  obtain ⟨coherent, images⟩ := represents.coherent.restock pages
  exact ⟨coherent, fun number => by rw [images, represents.image]⟩

/-- A file that is created is empty. -/
theorem Represents.createFile (represents : Represents limit fs files) {number parent : Nat}
    (fresh : fs.objs number = none) (made : (fs.createFile number parent).1 = true)
    (supplied : fs.Supplied) (left : (fs.createFile number parent).2.programs ≠ []) :
    Represents limit (fs.createFile number parent).2 (Function.update files number (some [])) := by
  obtain ⟨tnode, created⟩ := createFile_made made
  have adopted := adoptFile_adopted fs number parent tnode
  obtain ⟨coherent, images⟩ := adopted.image represents.coherent fresh
  rw [created] at left ⊢
  have kept := updateOh_keeps limit (fs.adoptFile number parent tnode) number
  have supplied' := adopted.spends.supplied supplied
  refine ⟨(kept.keeps coherent supplied' left).1, fun n => ?_⟩
  rw [kept.image coherent supplied' left, images, Function.update_apply, Function.update_apply]
  split
  · rfl
  · exact represents.image n

/-- Every step does to the files what it should do to byte arrays. -/
theorem exec_represents (step : FileStep) (provided : step.Provided limit fs)
    (represents : Represents limit fs files) :
    Represents limit (step.exec fs) (step.call.perform files) := by
  obtain ⟨call, supply⟩ := step
  have stocked := represents.coherent.toProper.restock provided.pages
  have supplied := provided.supplied
  have left := provided.left
  have inside := provided.inside
  have creates := provided.creates
  simp only [exec] at supplied left inside creates ⊢
  have begun := represents.restock provided.pages
  generalize fs.restock supply = start at stocked supplied left creates begun ⊢
  have kept {last : Files} {number : Nat}
      (keeps : start.HasFile number = true → Keeps limit start last)
      (left : (if start.HasFile number then last else start).programs ≠ []) :
      Represents limit (if start.HasFile number then last else start) files := by
    split at left
    case isTrue there =>
      rw [if_pos there]
      exact begun.of_keeps (keeps there) supplied left
    case isFalse missing =>
      rw [if_neg missing]
      exact begun
  have changed {last : Files} {number : Nat} {change : Image → Image → Prop}
      {after : List UInt8 → List UInt8}
      (acts : start.HasFile number = true → Acts limit start last number change)
      (left : (if start.HasFile number then last else start).programs ≠ [])
      (same : ∀ file image, change (Image.ofFile file) image → image = Image.ofFile (after file)) :
      Represents limit (if start.HasFile number then last else start)
        (Function.update files number ((files number).map after)) := by
    cases found : files number with
    | none =>
      have missing : ¬start.HasFile number = true := by
        rw [begun.hasFile, found]
        exact Bool.false_ne_true
      rw [if_neg missing, Option.map_none, ← found, Function.update_eq_self]
      exact begun
    | some file =>
      have there : start.HasFile number = true := by rw [begun.hasFile, found]; rfl
      rw [if_pos there] at left ⊢
      exact begun.of_acts (acts there) found supplied left (same file)
  cases call with
  | create number parent =>
    simp only [FileCall.exec, FileCall.perform] at left ⊢
    rw [← begun.hasFile]
    split at left
    case isTrue there =>
      rw [if_pos there, if_pos there]
      exact begun
    case isFalse missing =>
      rw [if_neg missing, if_neg missing]
      have fresh := Bool.eq_false_of_not_eq_true missing
      refine begun.createFile ?_ (creates fresh) supplied left
      rw [← Option.isNone_iff_eq_none, ← Option.not_isSome, Bool.not_eq_true']
      exact fresh
  | read number offset n =>
    exact kept (fun there => (fileRd_reads limit n le_rfl inside there).1) left
  | write number offset buffer writeThrough =>
    refine changed (fun there => (wrFile_acts limit inside there writeThrough).1) left
      fun file image wrote => ?_
    rw [Image.ofFile_write]
    exact wrote (Image.ofFile_ends file)
  | resize number newSize =>
    refine changed (fun there => resizeFile_acts limit inside there) left fun file image cut => ?_
    rw [Image.ofFile_resize]
    exact cut (Image.ofFile_ends file)
  | flush number dataSync discardCache =>
    exact kept (fun _ => flushFile_keeps limit start number dataSync discardCache) left
  | updateHeader number => exact kept (fun _ => updateOh_keeps limit start number) left
  | collect => exact begun.of_keeps (checkGc_keeps limit start) supplied left

theorem represents_blank (blank : fs.Blank) (fit : fs.param.EntriesFit)
    (spans : fs.param.Spans limit) : Represents limit fs fun _ => none := by
  have lines (i : Nat) : fs.view.lines i = none := by
    simp only [view, Files.lineOf, blank.cache, Option.map_none, ite_self]
  have gone {i : Nat} {line : WriteBack.Line (Nat × Nat) Chunk} : fs.view.lines i ≠ some line := by
    rw [lines]
    exact (Option.some_ne_none line).symm
  refine ⟨⟨blank.proper fit, spans, ⟨fun there => absurd there gone, fun there => absurd there gone⟩,
    fun there => absurd there gone, fun {n obj} found => ?_⟩, fun number => ?_⟩
  · rw [blank.objs] at found
    cases found
  · rw [Files.image, blank.objs]
    rfl

/-- The byte arrays after a run. -/
def plainFiles (steps : List FileStep) : Nat → Option (List UInt8) :=
  Execution.run (fun step : FileStep => step.call.perform) steps fun _ => none

theorem run_represents (blank : fs.Blank) (fit : fs.param.EntriesFit) (spans : fs.param.Spans limit)
    {steps : List FileStep} (guarded : Execution.Guarded exec (Provided limit) steps fs) :
    Represents limit (Execution.run exec steps fs) (plainFiles steps) :=
  Execution.run_simulates (fun step _ _ provided => exec_represents step provided) guarded
    (represents_blank blank fit spans)

theorem spans_tinyDevice : tinyDevice.param.Spans 100 := by
  refine ⟨by decide, by decide, by decide, fun addr addr_lt => ?_⟩
  rw [Nat.shiftRight_eq_div_pow]
  exact lt_of_le_of_lt (Nat.div_le_self ..) (addr_lt.trans (by decide))

/-- A file is written at two places, cut off and extended again, and garbage is collected. -/
def tinySteps : List FileStep :=
  [⟨.create 256 objectIdRoot, { programs := [some 4, some 5] }⟩,
    ⟨.write 256 2 [1, 2, 3, 4, 5] false, { programs := [some 6, some 7] }⟩,
    ⟨.write 256 9 [6, 7, 8, 9] true, { programs := [some 8, some 9, some 10, some 11, some 12] }⟩,
    ⟨.resize 256 5, { programs := [some 13, some 14, some 15, some 16, some 17] }⟩,
    ⟨.collect, { programs := [some 18, some 19], collections := [[.data 256 1]] }⟩,
    ⟨.resize 256 40, { programs := [some 20, some 21, some 22] }⟩]

theorem guarded_tinySteps : Execution.Guarded exec (Provided 100) tinySteps tinyDevice := by
  refine ⟨?_, ?_, ?_, ?_, ?_, ?_, trivial⟩ <;> decide +kernel

/-! ## Results -/

theorem Provided.left_of_read {last : Files} {number offset n : Nat} {supply : Supply}
    (provided : Provided limit ⟨.read number offset n, supply⟩ last)
    (there : (last.objs number).isSome) :
    (fileRd number n offset n (last.restock supply)).2.programs ≠ [] := by
  have hasFile : (last.restock supply).HasFile number = true := there
  have left := provided.left
  simp only [exec, FileCall.exec, hasFile, if_true] at left
  exact left

/-- What is read of a file that looks like a byte array. -/
theorem reads_of_image (coherent : fs.Coherent limit) {number offset n : Nat} {file : List UInt8}
    (image : fs.image number = some (Image.ofFile file)) (supplied : fs.Supplied)
    (left : (fileRd number n offset n fs).2.programs ≠ []) (inside : offset + n ≤ limit) :
    (fileRd number n offset n fs).1 = PlainFile.read file offset n := by
  obtain ⟨obj, found, obj_image⟩ := Option.map_eq_some_iff.mp image
  have there : (fs.objs number).isSome := by rw [found]; rfl
  have bytes : fs.byteAt number = fun i => file.getD i 0 := congrArg Image.bytes obj_image
  rw [(fileRd_reads limit n le_rfl inside there).2 coherent supplied left, bytes,
    PlainFile.read_eq_map]

/-- A file of which nothing is unwritten looks the same without the cache. -/
theorem Represents.uncached (represents : Represents limit fs files) {number : Nat}
    (written : ¬∃ i, fs.Unwritten i number) :
    (loseCache fs).Coherent limit ∧ (loseCache fs).image number = fs.image number := by
  have coherent := represents.coherent
  have owned := coherent.owned
  have stored : (loseCache fs).view.stored = fs.view.stored := stored_congr rfl rfl fun _ => rfl
  have no_line {i : Nat} {line : WriteBack.Line (Nat × Nat) Chunk} :
      (loseCache fs).view.lines i ≠ some line := by
    have lines : (loseCache fs).view.lines i = none := by
      simp only [view, Files.loseCache, Files.lineOf, Option.map_none]
      exact ite_self _
    rw [lines]
    exact (Option.some_ne_none line).symm
  have proper : (loseCache fs).Proper :=
    ⟨owned.congr rfl (fun _ => id) rfl (fun _ _ => rfl) (fun _ => rfl) owned.live,
      fun _ _ held => by cases held⟩
  refine ⟨coherent.of_view proper rfl (fun _ => rfl)
    ⟨fun there => absurd there no_line, fun there => absurd there no_line⟩
    fun there => absurd there no_line, ?_⟩
  have shown (inodeChunk : Nat) : (loseCache fs).view.shown (number, inodeChunk) =
      fs.view.shown (number, inodeChunk) := by
    have uncached : ¬(loseCache fs).view.Caches (number, inodeChunk) := by
      rintro ⟨_, _, there, _⟩
      exact no_line there
    rw [WriteBack.Cache.shown_of_not_caches uncached, stored]
    refine (coherent.cached.shown_of_clean fun i line there same => ?_).symm
    obtain ⟨i_lt, slot⟩ := Option.ite_none_right_eq_some.mp there
    obtain ⟨object, -, -, dirty⟩ := lineOf_eq_some.mp slot
    rw [← dirty, ← Bool.not_eq_true]
    exact fun is_dirty => written ⟨i, i_lt, object.trans (congrArg some (congrArg Prod.fst same)),
      is_dirty⟩
  have bytes : (loseCache fs).byteAt number = fs.byteAt number :=
    funext fun addr => congrFun (shown _) _
  rw [Files.image, Files.image, bytes]
  rfl

/-- As long as there are pages, what is read after a run is what would be read from byte arrays, and
files have the sizes of these. -/
theorem fileRd_of_run (blank : fs.Blank) (fit : fs.param.EntriesFit) (spans : fs.param.Spans limit)
    {steps : List FileStep} (guarded : Execution.Guarded exec (Provided limit) steps fs)
    {number offset n : Nat} {file : List UInt8} (found : plainFiles steps number = some file)
    {supply : Supply}
    (provided : Provided limit ⟨.read number offset n, supply⟩ (Execution.run exec steps fs)) :
    (fileRd number n offset n ((Execution.run exec steps fs).restock supply)).1 =
        PlainFile.read file offset n ∧
      ((Execution.run exec steps fs).objs number).map FileObj.fileSize = some file.length := by
  have represents := run_represents blank fit spans guarded
  generalize Execution.run exec steps fs = last at represents provided ⊢
  have image := represents.image number
  rw [found, Option.map_some] at image
  have stocked := represents.coherent.restock provided.pages
  refine ⟨?_, ?_⟩
  · have there := isSome_of_image image
    rw [← stocked.2] at image
    exact reads_of_image stocked.1 image provided.supplied (provided.left_of_read there)
      provided.inside
  · have size := congrArg (Option.map Image.size) image
    rw [Files.image, Option.map_map] at size
    exact size

/-- The file reads as zeros, the bytes that are left of the first write, and zeros again. -/
theorem fileRd_of_tinySteps :
    (fileRd 256 9 1 9 ((Execution.run exec tinySteps tinyDevice).restock
        { programs := [some 30] })).1 = PlainFile.read ([0, 0, 1, 2, 3] ++ List.replicate 35 0) 1 9 ∧
      ((Execution.run exec tinySteps tinyDevice).objs 256).map FileObj.fileSize =
        some ([0, 0, 1, 2, 3] ++ List.replicate 35 (0 : UInt8)).length :=
  fileRd_of_run blank_tinyDevice fit_tinyDevice spans_tinyDevice guarded_tinySteps
    (by decide +kernel) (by decide +kernel)

/-- A file that has been flushed is on the flash: after a run that ends with the flush, and in which
there are pages for all that is asked for, it reads the same without the cache. -/
theorem fileRd_uncached_of_run (blank : fs.Blank) (fit : fs.param.EntriesFit)
    (spans : fs.param.Spans limit) {steps : List FileStep} {number offset n : Nat}
    {dataSync discardCache : Bool} {supply supply' : Supply}
    (guarded : Execution.Guarded exec (Provided limit)
      (steps ++ [⟨.flush number dataSync discardCache, supply⟩]) fs)
    {file : List UInt8} (found : plainFiles steps number = some file)
    (provided : Provided limit ⟨.read number offset n, supply'⟩ (loseCache
      (Execution.run exec (steps ++ [⟨.flush number dataSync discardCache, supply⟩]) fs))) :
    (fileRd number n offset n ((loseCache (Execution.run exec
      (steps ++ [⟨.flush number dataSync discardCache, supply⟩]) fs)).restock supply')).1 =
        PlainFile.read file offset n := by
  have represents := run_represents blank fit spans guarded
  have written := flushed_of_run blank fit
    (Execution.guarded_mono (fun _ _ provided => provided.toSound) guarded)
  have same : plainFiles (steps ++ [⟨.flush number dataSync discardCache, supply⟩]) =
      plainFiles steps := by
    rw [plainFiles, Execution.run_append]
    rfl
  rw [same] at represents
  generalize Execution.run exec
    (steps ++ [⟨.flush number dataSync discardCache, supply⟩]) fs = last
    at represents written provided ⊢
  obtain ⟨coherent, image⟩ := represents.uncached written
  rw [represents.image, found, Option.map_some] at image
  have there := isSome_of_image image
  have stocked := coherent.restock provided.pages
  rw [← stocked.2] at image
  exact reads_of_image stocked.1 image provided.supplied (provided.left_of_read there)
    provided.inside

/-- The second write is only in the cache before the flush. -/
theorem fileRd_uncached_of_flush :
    (fileRd 256 9 1 9 ((loseCache (Execution.run exec
        ([⟨.create 256 objectIdRoot, { programs := [some 4, some 5] }⟩,
          ⟨.write 256 2 [1, 2, 3, 4, 5] true, { programs := [some 6, some 7, some 8] }⟩,
          ⟨.write 256 5 [6, 7] false, { programs := [some 9] }⟩] ++
          [⟨.flush 256 false false, { programs := [some 10, some 11, some 12] }⟩])
        tinyDevice)).restock { programs := [some 30] })).1 =
      PlainFile.read [0, 0, 1, 2, 3, 6, 7] 1 9 :=
  @fileRd_uncached_of_run tinyDevice 100 blank_tinyDevice fit_tinyDevice spans_tinyDevice _ _ _ _ _
    _ _ _ (by refine ⟨?_, ?_, ?_, ?_, trivial⟩ <;> decide +kernel) _ (by decide +kernel)
    (by decide +kernel)

/-- The cache is coherent in every run in which there are pages for all that is asked for: no chunk is
cached twice, only chunks of files that exist are cached, and an entry that is not dirty holds what
is on the flash. -/
theorem cache_coherent_of_run (blank : fs.Blank) (fit : fs.param.EntriesFit)
    (spans : fs.param.Spans limit) {steps : List FileStep}
    (guarded : Execution.Guarded exec (Provided limit) steps fs) :
    let last := Execution.run exec steps fs
    ∀ i number, i < last.param.nCaches → (last.cache i).object = some number →
      (last.objs number).isSome ∧ 0 < (last.cache i).chunkId ∧
      ((last.cache i).dirty = false →
        (last.cache i).data = last.rdDataObj number (last.cache i).chunkId) ∧
      ∀ j, j < last.param.nCaches → (last.cache j).object = some number →
        (last.cache j).chunkId = (last.cache i).chunkId → j = i := by
  dsimp only
  have coherent := (run_represents blank fit spans guarded).coherent
  generalize Execution.run exec steps fs = last at coherent ⊢
  intro i number i_lt object
  have line {j : Nat} (j_lt : j < last.param.nCaches)
      (object : (last.cache j).object = some number) : last.view.lines j =
        some ⟨(number, (last.cache j).chunkId), (last.cache j).data, (last.cache j).dirty⟩ := by
    rw [view]
    dsimp only
    rw [if_pos j_lt, Files.lineOf, object, Option.map_some]
  refine ⟨(coherent.held (line i_lt object)).1, coherent.slots i i_lt (by rw [object]; rfl),
    coherent.cached.clean (line i_lt object), fun j j_lt object' same => ?_⟩
  exact coherent.cached.single (line j_lt object') (line i_lt object) (by rw [same])

/-- The last run leaves a chunk in the cache that is not on the flash. -/
theorem cache_coherent_of_tinySteps :
    let last := Execution.run exec tinySteps tinyDevice
    ∀ i number, i < last.param.nCaches → (last.cache i).object = some number →
      (last.objs number).isSome ∧ 0 < (last.cache i).chunkId ∧
      ((last.cache i).dirty = false →
        (last.cache i).data = last.rdDataObj number (last.cache i).chunkId) ∧
      ∀ j, j < last.param.nCaches → (last.cache j).object = some number →
        (last.cache j).chunkId = (last.cache i).chunkId → j = i :=
  cache_coherent_of_run blank_tinyDevice fit_tinyDevice spans_tinyDevice guarded_tinySteps

end FileStep

end Yaffs
