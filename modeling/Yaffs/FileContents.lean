import Yaffs.FileSafety
import Yaffs.Offsets
import Yaffs.Library.WriteBack

/-!
# Contents of files

What a file reads as: the data of the cache where a chunk is in it, that of its page otherwise, and
zeros where there is no page.  With pages and tnodes to be had, the steps that reading, writing,
resizing and flushing are made of change the contents as they should, and garbage is collected, chunks
are cached and written back without it being seen.
-/

namespace Yaffs

/-- Are the places of all bytes exact, up to the end of the chunk that the last one is in? -/
structure FileParam.Spans (param : FileParam) (limit : Nat) : Prop where
  size_pos : 0 < param.dataBytesPerChunk
  size_lt : param.dataBytesPerChunk < 2 ^ 32
  inside : limit ≤ param.maxFileSize
  exact : ∀ addr, addr < limit + param.dataBytesPerChunk →
    addr >>> calcShifts 32 param.dataBytesPerChunk < 2 ^ 32

namespace FileParam.Spans

variable {param : FileParam} {limit addr : Nat}

theorem addrToChunk_eq (spans : param.Spans limit) (addr_lt : addr < limit + param.dataBytesPerChunk) :
    param.addrToChunk addr = (addr / param.dataBytesPerChunk, addr % param.dataBytesPerChunk) := by
  have fits := spans.exact addr addr_lt
  have div_eq := param.shift_div addr
  simp only [addrToChunk, Nat.mod_eq_of_lt fits]
  by_cases power : param.chunkDiv = 1
  · have product := param.chunkDiv_mul
    rw [power, Nat.mul_one] at product
    rw [power, Nat.div_one] at div_eq
    rw [chunkDiv] at power
    rw [if_pos power, div_eq, product,
      Nat.mod_eq_of_lt ((Nat.mod_lt _ spans.size_pos).trans spans.size_lt)]
  · rw [chunkDiv] at power div_eq
    rw [if_neg power, div_eq, offset_eq spans.size_pos spans.size_lt]

/-- The chunk of a byte is one that a file may have. -/
theorem chunk_le (spans : param.Spans limit) (addr_lt : addr < limit) :
    addr / param.dataBytesPerChunk + 1 ≤ maxChunkId := by
  have below : addr / param.dataBytesPerChunk < maxChunkId := by
    rw [Nat.div_lt_iff_lt_mul spans.size_pos]
    exact addr_lt.trans_le spans.inside
  exact below

end FileParam.Spans

namespace Files

open WriteBack

variable {fs fs' fs'' : Files} {number inodeChunk limit : Nat}

/-! ## What files look like -/

/-- An entry of the cache that is in use. -/
def lineOf (slot : CacheEntry) : Option (Line (Nat × Nat) Chunk) :=
  slot.object.map fun number => ⟨(number, slot.chunkId), slot.data, slot.dirty⟩

/-- The cache of chunks, in front of the pages. -/
def view (fs : Files) : Cache (Nat × Nat) Chunk where
  lines i := if i < fs.param.nCaches then lineOf (fs.cache i) else none
  stored key := fs.rdDataObj key.1 key.2

/-- A file to its users: its size, and the bytes at all addresses. -/
structure Image where
  size : Nat
  bytes : Nat → UInt8

/-- The byte of a file at an address. -/
noncomputable def byteAt (fs : Files) (number addr : Nat) : UInt8 :=
  fs.view.shown (number, addr / fs.param.dataBytesPerChunk + 1) (addr % fs.param.dataBytesPerChunk)

/-- What a file looks like. -/
noncomputable def image (fs : Files) (number : Nat) : Option Image :=
  (fs.objs number).map fun obj => ⟨obj.fileSize, fs.byteAt number⟩

/-- The cache agrees with the pages, and files are not larger than a limit. -/
structure Coherent (limit : Nat) (fs : Files) : Prop extends Proper fs where
  spans : fs.param.Spans limit
  cached : fs.view.Coherent
  held : ∀ {i line}, fs.view.lines i = some line →
    (fs.objs line.key.1).isSome ∧ line.key.2 ≤ maxChunkId
  sizes : ∀ {n obj}, fs.objs n = some obj → obj.fileSize ≤ limit

theorem lineOf_eq_some {slot : CacheEntry} {line : Line (Nat × Nat) Chunk} :
    lineOf slot = some line ↔ slot.object = some line.key.1 ∧ slot.chunkId = line.key.2 ∧
      slot.data = line.data ∧ slot.dirty = line.dirty := by
  rw [lineOf, Option.map_eq_some_iff]
  constructor
  · rintro ⟨n, object, rfl⟩
    exact ⟨object, rfl, rfl, rfl⟩
  · rintro ⟨object, chunkId, data, dirty⟩
    exact ⟨line.key.1, object, by rw [chunkId, data, dirty]⟩

theorem lines_eq_some {i : Nat} {line : Line (Nat × Nat) Chunk} :
    fs.view.lines i = some line ↔ i < fs.param.nCaches ∧ lineOf (fs.cache i) = some line := by
  simp only [view]
  split
  case isFalse outside => exact iff_of_false nofun fun inside => outside inside.1
  case isTrue inside => rw [and_iff_right inside]

theorem lines_eq_none {i : Nat} (i_lt : i < fs.param.nCaches) :
    fs.view.lines i = none ↔ (fs.cache i).object = none := by
  simp only [view, if_pos i_lt, lineOf, Option.map_eq_none_iff]

theorem setCache_lines {i : Nat} (i_lt : i < fs.param.nCaches) (slot : CacheEntry) :
    (fs.setCache i slot).view.lines = Function.update fs.view.lines i (lineOf slot) := by
  funext j
  simp only [view, setCache]
  by_cases here : j = i
  · subst here
    rw [Function.update_self, Function.update_self]
    exact if_pos i_lt
  · rw [Function.update_of_ne here, Function.update_of_ne here]
    rfl

/-- What is stored only depends on pages and trees. -/
theorem stored_congr (param : fs'.param = fs.param) (pages : fs'.pages = fs.pages)
    (trees : ∀ n, (fs'.objs n).map FileObj.tree = (fs.objs n).map FileObj.tree) :
    fs'.view.stored = fs.view.stored := by
  have in_group (n k count start : Nat) :
      fs'.findChunkInGroup n k count start = fs.findChunkInGroup n k count start := by
    induction count generalizing start with
    | zero => rfl
    | succ count ih => simp only [findChunkInGroup, param, pages, ih]
  have found (n k : Nat) : ((fs'.objs n).bind fun obj => obj.tree.findTnode0 k) =
      (fs.objs n).bind fun obj => obj.tree.findTnode0 k := by
    have same := congrArg (fun tree => tree.bind fun tree => tree.findTnode0 k) (trees n)
    rw [Option.bind_map, Option.bind_map] at same
    exact same
  funext key
  simp only [view, rdDataObj, findChunkInFile, getGroupBase, param, pages, found, in_group]

theorem setCache_stored (i : Nat) (slot : CacheEntry) :
    (fs.setCache i slot).view.stored = fs.view.stored := stored_congr rfl rfl fun _ => rfl

/-- A chunk that there cannot be reads as zeros. -/
theorem Owned.rdDataObj_zero (owned : fs.Owned) (number : Nat) :
    fs.rdDataObj number 0 = fun _ => 0 := by
  have nothing : fs.findChunkInFile number 0 = none := by
    have zero : fs.entry number 0 = 0 := by
      by_contra stored
      exact lt_irrefl 0 (owned.page_of_entry stored).1
    rw [findChunkInFile_eq, zero, findChunkInGroup_zero]
  rw [rdDataObj, nothing, Option.bind_none]

/-! ## Frames -/

/-- The files have their sizes still. -/
def SameSizes (fs fs' : Files) : Prop :=
  ∀ number, (fs'.objs number).map FileObj.fileSize = (fs.objs number).map FileObj.fileSize

theorem SameOutlines.sizes (same : SameOutlines fs fs') : SameSizes fs fs' := fun number => by
  have sizes := congrArg (Option.map FileObj.fileSize) (same.outlines number)
  rw [Option.map_map, Option.map_map] at sizes
  exact sizes

theorem SameSizes.isSome (same : SameSizes fs fs') (number : Nat) :
    (fs'.objs number).isSome = (fs.objs number).isSome := by
  have isSome := congrArg Option.isSome (same number)
  rw [Option.isSome_map, Option.isSome_map] at isSome
  exact isSome

/-- Files of the same sizes that show the same chunks look the same. -/
theorem SameSizes.image (same : SameSizes fs fs') (param : fs'.param = fs.param)
    (shown : fs'.view.shown = fs.view.shown) : fs'.image = fs.image := by
  funext number
  have bytes : fs'.byteAt number = fs.byteAt number := by
    funext addr
    rw [byteAt, byteAt, param, shown]
  have sizes := congrArg (Option.map fun size => (⟨size, fs.byteAt number⟩ : Image)) (same number)
  rw [Option.map_map, Option.map_map] at sizes
  rw [Files.image, bytes]
  exact sizes

/-- Coherence only depends on the cache, the sizes and what is stored. -/
theorem Coherent.of_view (coherent : fs.Coherent limit) (proper : fs'.Proper)
    (param : fs'.param = fs.param) (sizes : SameSizes fs fs') (cached : fs'.view.Coherent)
    (held : ∀ {i line}, fs'.view.lines i = some line →
      (fs.objs line.key.1).isSome ∧ line.key.2 ≤ maxChunkId) : fs'.Coherent limit where
  toProper := proper
  spans := param ▸ coherent.spans
  cached := cached
  held := fun there => by
    rw [sizes.isSome]
    exact held there
  sizes := fun {n obj} found => by
    have size := sizes n
    rw [found, Option.map_some, eq_comm, Option.map_eq_some_iff] at size
    obtain ⟨before, found', same⟩ := size
    exact same ▸ coherent.sizes found'

/-- Nothing is seen of a change of pages. -/
theorem Unseen.view (unseen : Unseen fs fs') (owned : fs.Owned) (owned' : fs'.Owned) :
    fs'.view = fs.view := by
  have stored : fs'.view.stored = fs.view.stored := by
    funext key
    change fs'.rdDataObj key.1 key.2 = fs.rdDataObj key.1 key.2
    rcases Nat.eq_zero_or_pos key.2 with zero | positive
    · rw [zero, owned.rdDataObj_zero, owned'.rdDataObj_zero]
    · exact unseen.reads positive
  have lines : fs'.view.lines = fs.view.lines := by
    funext i
    simp only [Files.view, unseen.param, unseen.cache]
  exact Cache.ext lines stored

/-- A chunk that is rewritten has other data behind the cache. -/
theorem Rewrites.view {data : Chunk}
    (rewrites : Rewrites fs fs' number inodeChunk (some data)) (owned : fs.Owned)
    (owned' : fs'.Owned) (positive : 0 < inodeChunk) :
    fs'.view.lines = fs.view.lines ∧
      fs'.view.stored = Function.update fs.view.stored (number, inodeChunk) data := by
  constructor
  · funext i
    simp only [Files.view, rewrites.param, rewrites.cache]
  · funext key
    change fs'.rdDataObj key.1 key.2 = _
    by_cases here : key = (number, inodeChunk)
    · rw [here, Function.update_self, rewrites.reads positive, if_pos ⟨rfl, rfl⟩, Option.getD_some]
    · rw [Function.update_of_ne here]
      change _ = fs.rdDataObj key.1 key.2
      rcases Nat.eq_zero_or_pos key.2 with zero | positive'
      · rw [zero, owned.rdDataObj_zero, owned'.rdDataObj_zero]
      · rw [rewrites.reads positive', if_neg fun both => here (Prod.ext both.1 both.2)]

/-! ## Steps that are not seen -/

/-- The cache stays coherent and no file looks different, if there is what the step asks for. -/
structure Keeps (limit : Nat) (fs fs' : Files) : Prop extends Safe fs fs' where
  keeps : fs.Coherent limit → fs.Supplied → fs'.programs ≠ [] →
    fs'.Coherent limit ∧ SameSizes fs fs' ∧ fs'.view.shown = fs.view.shown

theorem Safe.left (safe : Safe fs fs') (proper : fs.Proper) (left : fs'.programs ≠ []) :
    fs.programs ≠ [] := by
  rintro none_left
  have suffix := (safe.spends proper).programs
  rw [none_left, List.suffix_nil] at suffix
  exact left suffix

theorem Keeps.refl (limit : Nat) (fs : Files) : Keeps limit fs fs :=
  ⟨Safe.refl fs, fun coherent _ _ => ⟨coherent, fun _ => rfl, rfl⟩⟩

theorem Keeps.trans (first : Keeps limit fs fs') (second : Keeps limit fs' fs'') :
    Keeps limit fs fs'' := by
  refine ⟨first.toSafe.trans second.toSafe, fun coherent supplied left => ?_⟩
  have left' := second.left (first.proper coherent.toProper) left
  obtain ⟨coherent', sizes, shown⟩ := first.keeps coherent supplied left'
  obtain ⟨coherent'', sizes', shown'⟩ := second.keeps coherent'
    ((first.spends coherent.toProper).supplied supplied) left
  exact ⟨coherent'', fun n => (sizes' n).trans (sizes n), shown'.trans shown⟩

theorem keeps_of_coherent (safe : Safe fs fs')
    (keeps : fs.Coherent limit → Keeps limit fs fs') : Keeps limit fs fs' :=
  ⟨safe, fun coherent => (keeps coherent).keeps coherent⟩

theorem keeps_of_proper (keeps : fs.Proper → Keeps limit fs fs') : Keeps limit fs fs' :=
  ⟨safe_of_proper fun proper => (keeps proper).toSafe,
    fun coherent => (keeps coherent.toProper).keeps coherent⟩

/-- A step that leaves the sizes of files and what they show alone. -/
theorem Keeps.of_view (safe : Safe fs fs')
    (same : fs.Coherent limit → fs.Supplied → fs'.programs ≠ [] → SameSizes fs fs' ∧
      fs'.view.Coherent ∧ fs'.view.shown = fs.view.shown ∧ ∀ {i line},
        fs'.view.lines i = some line → (fs.objs line.key.1).isSome ∧ line.key.2 ≤ maxChunkId) :
    Keeps limit fs fs' := by
  refine ⟨safe, fun coherent supplied left => ?_⟩
  obtain ⟨sizes, cached, shown, held⟩ := same coherent supplied left
  have param := safe.param coherent.toProper
  exact ⟨coherent.of_view (safe.proper coherent.toProper) param sizes cached held, sizes, shown⟩

theorem Keeps.of_unseen (safe : Safe fs fs') (unseen : fs.Owned → Unseen fs fs') :
    Keeps limit fs fs' :=
  .of_view safe fun coherent _ _ => by
    have unseen' := unseen coherent.owned
    rw [unseen'.view coherent.owned (safe.proper coherent.toProper).owned]
    exact ⟨unseen'.sizes, coherent.cached, rfl, coherent.held⟩

theorem checkGc_keeps (limit : Nat) (fs : Files) : Keeps limit fs fs.checkGc :=
  .of_unseen (checkGc_safe fs) fun owned => (checkGc_owned owned).2

theorem updateOh_keeps (limit : Nat) (fs : Files) (number : Nat) :
    Keeps limit fs (fs.updateOh number).2 :=
  .of_unseen (updateOh_safe fs number) fun owned => (updateOh_owned owned number).2

theorem pruneTree_keeps (limit : Nat) (fs : Files) (number : Nat) :
    Keeps limit fs (fs.pruneTree number) :=
  .of_unseen (pruneTree_safe fs number) fun owned => (pruneTree_owned owned number).2

/-! ## Writes that succeed -/

/-- With a good supply, a write fails only when there is none left. -/
theorem Supplied.programs_of_fail (supplied : fs.Supplied) (owned : fs.Owned) {page : Page}
    (fails : (fs.writeNewChunk page).1 = -1) : fs.programs = [] := by
  cases programs : fs.programs with
  | nil => rfl
  | cons given rest =>
    obtain ⟨chunk, rfl, free⟩ := supplied.pages given (by rw [programs]; exact List.mem_cons_self)
    have has := owned.programs chunk (by rw [programs]; exact List.mem_cons_self)
    have positive := owned.fit.pos has
    simp only [writeNewChunk, programs, List.head?_cons, Option.join_some, free, positive,
      Option.isNone_none, and_self, if_true] at fails
    omega

theorem putChunkInFile_ok (supplied : fs.Supplied) (owned : fs.Owned)
    (there : (fs.objs number).isSome) (small : inodeChunk ≤ maxChunkId) :
    (fs.putChunkInFile number inodeChunk 0).1 = true := by
  obtain ⟨obj, found⟩ := Option.isSome_iff_exists.mp there
  rw [putChunkInFile_zero found]
  exact (FileTree.addFindTnode0_plenty small (owned.live found).sane supplied.memory).1

/-- Chunks that a file may have are written as long as there are pages. -/
theorem wrDataObj_ok (owned : fs.Owned) (supplied : fs.Supplied) (there : (fs.objs number).isSome)
    (small : inodeChunk ≤ maxChunkId) {data : Chunk} {nBytes : Nat}
    (left : (fs.wrDataObj number inodeChunk data nBytes).2.programs ≠ []) :
    0 < (fs.wrDataObj number inodeChunk data nBytes).1 := by
  obtain ⟨collected, unseen⟩ := checkGc_owned owned
  have supplied₁ := unseen.spends.supplied supplied
  have there₁ : (fs.checkGc.objs number).isSome := by
    rw [unseen.sizes.isSome]
    exact there
  simp only [wrDataObj] at left ⊢
  generalize fs.checkGc = first at collected supplied₁ there₁ left ⊢
  have room : let made := if (first.findChunkInFile number inodeChunk).isNone then
        first.putChunkInFile number inodeChunk 0 else (true, first)
      made.1 = true ∧ made.2.Owned ∧ made.2.Supplied := by
    dsimp only
    split
    · obtain ⟨owned', unseen', -⟩ := putChunkInFile_room collected number inodeChunk
      exact ⟨putChunkInFile_ok supplied₁ collected there₁ small, owned',
        unseen'.spends.supplied supplied₁⟩
    · exact ⟨rfl, collected, supplied₁⟩
  dsimp only at room
  generalize (if (first.findChunkInFile number inodeChunk).isNone then
    first.putChunkInFile number inodeChunk 0 else (true, first)) = made at room left ⊢
  obtain ⟨made_ok, owned₁, supplied₂⟩ := room
  rw [if_neg (not_not.mpr made_ok)] at left ⊢
  generalize ((inodeChunk - 1) * made.2.param.dataBytesPerChunk + nBytes) % 2 ^ 32 = endpos
    at left ⊢
  have sized : (made.2.modifyObj number fun obj =>
        { obj with storedSize := max obj.storedSize endpos }).Owned ∧
      Unseen made.2 (made.2.modifyObj number fun obj =>
        { obj with storedSize := max obj.storedSize endpos }) :=
    owned₁.modify_unseen number (fun _ => ⟨rfl, rfl, rfl, rfl⟩) (fun _ => rfl) fun _ _ => rfl
  generalize made.2.modifyObj number (fun obj =>
    { obj with storedSize := max obj.storedSize endpos }) = second at sized left ⊢
  have supplied₃ := sized.2.spends.supplied supplied₂
  rcases second.writeNewChunk_cases { objId := number, chunkId := inodeChunk, nBytes, data } with
    ⟨chunk, next, free, written⟩ | written
  · have has := sized.1.programs chunk (List.mem_of_mem_head? next)
    have positive := sized.1.fit.pos has
    rw [written, if_pos (by omega)]
    dsimp only
    omega
  · have none_left := supplied₃.programs_of_fail sized.1 (by rw [written])
    rw [written, if_neg (show ¬(0 : Int) < -1 by decide)] at left
    exact absurd (by rw [none_left]; rfl) left

/-! ## Entries of the cache -/

theorem useCache_self (fs : Files) (i : Nat) (isWrite : Bool) :
    lineOf ((fs.useCache i isWrite).cache i) =
      (lineOf (fs.cache i)).map fun line => { line with dirty := line.dirty || isWrite } := by
  simp only [useCache, Function.update_self, lineOf, Option.map_map]
  split <;> rfl

theorem useCache_lines (fs : Files) {i : Nat} (i_lt : i < fs.param.nCaches) (isWrite : Bool) :
    (fs.useCache i isWrite).view.lines = Function.update fs.view.lines i
      ((lineOf (fs.cache i)).map fun line => { line with dirty := line.dirty || isWrite }) := by
  funext j
  by_cases here : j = i
  · subst here
    rw [Function.update_self, ← useCache_self]
    exact if_pos i_lt
  · rw [Function.update_of_ne here]
    simp only [view, useCache, Function.update_of_ne here]
    split
    · split <;> rfl
    · rfl

theorem useCache_stored (fs : Files) (i : Nat) (isWrite : Bool) :
    (fs.useCache i isWrite).view.stored = fs.view.stored := stored_congr rfl rfl fun _ => rfl

/-- Reading an entry is not seen. -/
theorem useCache_view (fs : Files) {i : Nat} (i_lt : i < fs.param.nCaches) :
    (fs.useCache i false).view = fs.view := by
  have lines : (fs.useCache i false).view.lines = fs.view.lines := by
    rw [useCache_lines fs i_lt]
    simp only [Bool.or_false, Option.map_id']
    refine Function.update_eq_iff.mpr ⟨?_, fun _ _ => rfl⟩
    exact (if_pos i_lt).symm
  exact Cache.ext lines (useCache_stored fs i false)

theorem useCache_keeps (limit : Nat) (fs : Files) {i : Nat} (i_lt : i < fs.param.nCaches) :
    Keeps limit fs (fs.useCache i false) :=
  .of_view (useCache_safe fs i false) fun coherent _ _ => by
    rw [useCache_view fs i_lt]
    exact ⟨fun _ => rfl, coherent.cached, rfl, coherent.held⟩

/-- An entry that is not dirty may be dropped. -/
theorem dropEntry_keeps (limit : Nat) (fs : Files) {i : Nat} (i_lt : i < fs.param.nCaches)
    (clean : (fs.cache i).object.isSome → (fs.cache i).dirty = false) :
    Keeps limit fs (fs.setCache i { fs.cache i with object := none }) :=
  .of_view (setCache_safe fs i nofun) fun coherent _ _ => by
    have lines := setCache_lines i_lt { fs.cache i with object := none }
    have dropped (j : Nat) : (fs.setCache i { fs.cache i with object := none }).view.lines j =
        fs.view.lines j ∨
        (fs.setCache i { fs.cache i with object := none }).view.lines j = none ∧
          ∀ line, fs.view.lines j = some line → line.dirty = false := by
      rw [lines]
      by_cases here : j = i
      · subst here
        rw [Function.update_self]
        refine Or.inr ⟨rfl, fun line there => ?_⟩
        obtain ⟨object, -, -, dirty⟩ := lineOf_eq_some.mp (lines_eq_some.mp there).2
        rw [← dirty]
        exact clean (by rw [object]; rfl)
      · rw [Function.update_of_ne here]
        exact Or.inl rfl
    obtain ⟨cached, shown⟩ := coherent.cached.shed (setCache_stored i _) dropped
    refine ⟨fun _ => rfl, cached, shown, fun {j line} there => ?_⟩
    rcases dropped j with same | ⟨gone, -⟩
    · exact coherent.held (same.symm.trans there)
    · rw [gone] at there
      cases there

/-- An entry has been written, and counts as clean. -/
def storeEntry (fs : Files) (i number : Nat) : Files :=
  let fs := (fs.wrDataObj number (fs.cache i).chunkId (fs.cache i).data (fs.cache i).nBytes).2
  fs.setCache i { fs.cache i with dirty := false }

theorem storeEntry_keeps (limit : Nat) (fs : Files) {i : Nat} (i_lt : i < fs.param.nCaches)
    (object : (fs.cache i).object = some number) : Keeps limit fs (fs.storeEntry i number) := by
  have written (proper : fs.Proper) := wrDataObj_safe fs number
    (proper.slots i i_lt (by rw [object]; rfl)) (fs.cache i).data (fs.cache i).nBytes
  have cleaned (fs : Files) : Safe fs (fs.setCache i { fs.cache i with dirty := false }) :=
    setCache_safe fs i fun held => Or.inr ⟨held, rfl⟩
  refine .of_view (safe_of_proper fun proper => (written proper).trans (cleaned _))
    fun coherent supplied left => ?_
  have positive := coherent.slots i i_lt (by rw [object]; rfl)
  have there : fs.view.lines i =
      some ⟨(number, (fs.cache i).chunkId), (fs.cache i).data, (fs.cache i).dirty⟩ :=
    lines_eq_some.mpr ⟨i_lt, by rw [lineOf, object]; rfl⟩
  obtain ⟨exists_obj, small⟩ := coherent.held there
  have ok := wrDataObj_ok coherent.owned supplied exists_obj small left
  obtain ⟨owned, outcome⟩ := wrDataObj_owned coherent.owned number positive (fs.cache i).data
    (fs.cache i).nBytes
  rcases outcome with ⟨-, rewrites⟩ | ⟨failed, -⟩
  · obtain ⟨lines, stored⟩ := rewrites.view coherent.owned owned positive
    have cache := rewrites.cache
    have i_lt' := i_lt
    rw [← rewrites.param] at i_lt'
    have lines' : (fs.storeEntry i number).view.lines = Function.update fs.view.lines i
        (some ⟨(number, (fs.cache i).chunkId), (fs.cache i).data, false⟩) := by
      simp only [storeEntry]
      rw [setCache_lines i_lt', lines, cache, lineOf, object]
      rfl
    obtain ⟨cached, shown⟩ := coherent.cached.writeBack there
      ((setCache_stored i _).trans stored) lines'
    refine ⟨rewrites.sizes, cached, shown, fun {j line} found => ?_⟩
    rw [lines'] at found
    by_cases here : j = i
    · rw [here, Function.update_self] at found
      obtain rfl := Option.some.inj found
      exact ⟨exists_obj, small⟩
    · rw [Function.update_of_ne here] at found
      exact coherent.held found
  · exact absurd ok (not_lt.mpr failed)

/-- The state once a dirty entry has been written. -/
def cleanEntry (fs : Files) (i : Nat) : Files :=
  match (fs.cache i).object with
  | none => fs
  | some number => if (fs.cache i).dirty then fs.storeEntry i number else fs

theorem flushSingleCache_eq (fs : Files) (i : Nat) (discard : Bool) :
    fs.flushSingleCache i discard =
      if discard then
        (fs.cleanEntry i).setCache i { (fs.cleanEntry i).cache i with object := none }
      else fs.cleanEntry i := rfl

theorem cleanEntry_keeps (limit : Nat) (fs : Files) {i : Nat} (i_lt : i < fs.param.nCaches) :
    Keeps limit fs (fs.cleanEntry i) := by
  simp only [cleanEntry]
  split
  case h_1 => exact Keeps.refl limit fs
  case h_2 number object =>
    split
    · exact storeEntry_keeps limit fs i_lt object
    · exact Keeps.refl limit fs

/-- Writing an entry leaves the others alone. -/
theorem cleanEntry_cache (proper : fs.Proper) {i : Nat} (i_lt : i < fs.param.nCaches) :
    (fs.cleanEntry i).cache = Function.update fs.cache i
      { fs.cache i with dirty := (fs.cache i).dirty && (fs.cache i).object.isNone } := by
  simp only [cleanEntry]
  split
  case h_1 object =>
    have unused : (fs.cache i).object.isNone = true := by rw [object]; rfl
    rw [unused, Bool.and_true]
    exact (Function.update_eq_self i fs.cache).symm
  case h_2 number object =>
    have used : (fs.cache i).object.isNone = false := by rw [object]; rfl
    rw [used, Bool.and_false]
    split
    case isTrue =>
      have cache := (wrDataObj_outlines proper.owned number
        (proper.slots i i_lt (by rw [object]; rfl)) (fs.cache i).data (fs.cache i).nBytes).cache
      simp only [storeEntry, setCache, cache]
    case isFalse clean =>
      rw [Bool.not_eq_true] at clean
      refine (Function.update_eq_iff.mpr ⟨?_, fun _ _ => rfl⟩).symm
      rw [← clean]

theorem cleanEntry_param (proper : fs.Proper) {i : Nat} (i_lt : i < fs.param.nCaches) :
    (fs.cleanEntry i).param = fs.param :=
  (cleanEntry_keeps 0 fs i_lt).param proper

theorem flushSingleCache_cache (proper : fs.Proper) {i : Nat} (i_lt : i < fs.param.nCaches)
    (discard : Bool) : (fs.flushSingleCache i discard).cache = Function.update fs.cache i
      { fs.cache i with
        dirty := (fs.cache i).dirty && (fs.cache i).object.isNone
        object := if discard then none else (fs.cache i).object } := by
  have cleaned := cleanEntry_cache proper i_lt
  rw [flushSingleCache_eq]
  cases discard with
  | true =>
    simp only [if_true, setCache, cleaned, Function.update_idem, Function.update_self]
  | false =>
    simp only [Bool.false_eq_true, if_false]
    exact cleaned

/-- Writing an entry is not seen, nor is dropping it afterwards. -/
theorem flushSingleCache_keeps (limit : Nat) (fs : Files) {i : Nat} (i_lt : i < fs.param.nCaches)
    (discard : Bool) : Keeps limit fs (fs.flushSingleCache i discard) := by
  refine ⟨flushSingleCache_safe fs i_lt discard, fun coherent supplied left => ?_⟩
  rw [flushSingleCache_eq] at left ⊢
  have cleaned := cleanEntry_keeps limit fs i_lt
  have cache := cleanEntry_cache coherent.toProper i_lt
  have i_lt' : i < (fs.cleanEntry i).param.nCaches := by
    rw [cleanEntry_param coherent.toProper i_lt]
    exact i_lt
  split at left
  case isFalse stays =>
    rw [if_neg stays]
    exact cleaned.keeps coherent supplied left
  case isTrue drops =>
    rw [if_pos drops]
    have dropped := dropEntry_keeps limit (fs.cleanEntry i) i_lt' fun object => by
      rw [cache, Function.update_self] at object ⊢
      dsimp only at object ⊢
      rw [← Option.not_isSome, object, Bool.not_true, Bool.and_false]
    exact (cleaned.trans dropped).keeps coherent supplied left

/-- Writing the entries of a file is not seen. -/
theorem flushFileCache_keeps (limit : Nat) (fs : Files) (number : Nat) (discard : Bool) :
    Keeps limit fs (fs.flushFileCache number discard) := by
  have swept (entries : List Nat) : ∀ fs : Files, (∀ i ∈ entries, i < fs.param.nCaches) →
      Keeps limit fs (entries.foldl (fun fs i =>
        if (fs.cache i).object = some number then fs.flushSingleCache i discard else fs) fs) := by
    induction entries with
    | nil => exact fun fs _ => Keeps.refl limit fs
    | cons i entries ih =>
      intro fs inside
      have first : Keeps limit fs (if (fs.cache i).object = some number then
          fs.flushSingleCache i discard else fs) := by
        split
        · exact flushSingleCache_keeps limit fs (inside i List.mem_cons_self) discard
        · exact Keeps.refl limit fs
      refine keeps_of_proper fun proper => first.trans (ih _ fun j later => ?_)
      rw [first.param proper]
      exact inside j (List.mem_cons_of_mem i later)
  exact swept _ fs fun i inside => List.mem_range.mp inside

/-- The entries of a file have been written, or dropped. -/
theorem flushFileCache_written (proper : fs.Proper) (number : Nat) (discard : Bool) {j : Nat}
    (j_lt : j < fs.param.nCaches)
    (object : ((fs.flushFileCache number discard).cache j).object = some number) :
    discard = false ∧ ((fs.flushFileCache number discard).cache j).dirty = false := by
  let Written (fs : Files) (j : Nat) : Prop := (fs.cache j).object = some number →
    discard = false ∧ (fs.cache j).dirty = false
  have swept (entries : List Nat) : ∀ fs : Files, fs.Proper →
      (∀ i ∈ entries, i < fs.param.nCaches) → ∀ j, j ∈ entries ∨ Written fs j →
        Written (entries.foldl (fun fs i =>
          if (fs.cache i).object = some number then fs.flushSingleCache i discard else fs) fs) j := by
    induction entries with
    | nil => exact fun fs _ _ j before => before.resolve_left List.not_mem_nil
    | cons i entries ih =>
      intro fs proper inside j before
      have i_lt := inside i List.mem_cons_self
      have step : Safe fs (if (fs.cache i).object = some number then
            fs.flushSingleCache i discard else fs) ∧
          ∀ j, j = i ∨ Written fs j → Written (if (fs.cache i).object = some number then
            fs.flushSingleCache i discard else fs) j := by
        split
        case isTrue held =>
          refine ⟨flushSingleCache_safe fs i_lt discard, fun j before object => ?_⟩
          rw [flushSingleCache_cache proper i_lt] at object ⊢
          by_cases here : j = i
          · subst here
            rw [Function.update_self] at object ⊢
            dsimp only at object ⊢
            have used : (fs.cache j).object.isNone = false := by rw [held]; rfl
            rw [used, Bool.and_false]
            cases discard with
            | true => cases object
            | false => exact ⟨rfl, rfl⟩
          · rw [Function.update_of_ne here] at object ⊢
            exact before.resolve_left here object
        case isFalse free =>
          refine ⟨Safe.refl fs, fun j before object => ?_⟩
          rcases before with rfl | written
          · exact absurd object free
          · exact written object
      refine ih _ (step.1.proper proper) (fun j later => ?_) j ?_
      · rw [step.1.param proper]
        exact inside j (List.mem_cons_of_mem i later)
      · rcases before with listed | written
        · rcases List.mem_cons.mp listed with here | later
          · exact Or.inr (step.2 j (Or.inl here))
          · exact Or.inl later
        · exact Or.inr (step.2 j (Or.inr written))
  exact swept _ fs proper (fun i inside => List.mem_range.mp inside) j
    (Or.inl (List.mem_range.mpr j_lt)) object

/-- No chunk of the file is cached. -/
def Uncached (fs : Files) (number : Nat) : Prop :=
  ∀ i, i < fs.param.nCaches → (fs.cache i).object ≠ some number

theorem invalidateWholeCache_uncached (fs : Files) (number : Nat) :
    (fs.invalidateWholeCache number).Uncached number := by
  intro i i_lt object
  simp only [invalidateWholeCache] at object i_lt
  split at object
  case isTrue => cases object
  case isFalse others => exact others ⟨i_lt, object⟩

/-- Entries of a file that have been written may be dropped. -/
theorem invalidateWholeCache_keeps (limit : Nat) (fs : Files) (number : Nat)
    (written : ∀ i, i < fs.param.nCaches → (fs.cache i).object = some number →
      (fs.cache i).dirty = false) : Keeps limit fs (fs.invalidateWholeCache number) :=
  .of_view (invalidateWholeCache_safe fs number) fun coherent _ _ => by
    have dropped (j : Nat) : (fs.invalidateWholeCache number).view.lines j = fs.view.lines j ∨
        (fs.invalidateWholeCache number).view.lines j = none ∧
          ∀ line, fs.view.lines j = some line → line.dirty = false := by
      simp only [view, invalidateWholeCache]
      by_cases mine : j < fs.param.nCaches ∧ (fs.cache j).object = some number
      · rw [if_pos mine, if_pos mine.1, if_pos mine.1]
        refine Or.inr ⟨rfl, fun line there => ?_⟩
        rw [← (lineOf_eq_some.mp there).2.2.2]
        exact written j mine.1 mine.2
      · rw [if_neg mine]
        exact Or.inl rfl
    have stored : (fs.invalidateWholeCache number).view.stored = fs.view.stored :=
      stored_congr rfl rfl fun _ => rfl
    obtain ⟨cached, shown⟩ := coherent.cached.shed stored dropped
    refine ⟨fun _ => rfl, cached, shown, fun {j line} there => ?_⟩
    rcases dropped j with same | ⟨gone, -⟩
    · exact coherent.held (same.symm.trans there)
    · rw [gone] at there
      cases there

/-! ## Loading chunks -/

theorem line_of_findChunkCache {i : Nat} (found : fs.findChunkCache number inodeChunk = some i) :
    i < fs.param.nCaches ∧ ∃ line, lineOf (fs.cache i) = some line ∧
      line.key = (number, inodeChunk) := by
  rw [findChunkCache] at found
  have inside := List.mem_of_find?_eq_some found
  have fits := List.find?_some found
  rw [decide_eq_true_eq] at fits
  obtain ⟨object, chunkId⟩ := fits
  refine ⟨List.mem_range.mp inside, ⟨(number, inodeChunk), (fs.cache i).data, (fs.cache i).dirty⟩, ?_,
    rfl⟩
  rw [lineOf, object, chunkId]
  rfl

theorem not_caches_of_findChunkCache (missing : fs.findChunkCache number inodeChunk = none) :
    ¬fs.view.Caches (number, inodeChunk) := by
  rintro ⟨i, line, there, key⟩
  obtain ⟨i_lt, in_use⟩ := lines_eq_some.mp there
  obtain ⟨object, chunkId, -⟩ := lineOf_eq_some.mp in_use
  refine List.find?_eq_none.mp missing i (List.mem_range.mpr i_lt) ?_
  rw [decide_eq_true_eq, object, chunkId, key]
  exact ⟨rfl, rfl⟩

theorem grabChunkCache_keeps (limit : Nat) (fs : Files) (some_cache : 0 < fs.param.nCaches) :
    Keeps limit fs fs.grabChunkCache.2 := by
  simp only [grabChunkCache]
  split
  · exact Keeps.refl limit fs
  · exact flushSingleCache_keeps limit fs (fs.lruCache_lt some_cache) true

/-- The entry that is got is empty, and no chunk has come into the cache. -/
theorem grabChunkCache_empty (proper : fs.Proper) (some_cache : 0 < fs.param.nCaches) :
    fs.grabChunkCache.1 < fs.param.nCaches ∧
      (fs.grabChunkCache.2.cache fs.grabChunkCache.1).object = none ∧
      ∀ key, fs.grabChunkCache.2.view.Caches key → fs.view.Caches key := by
  simp only [grabChunkCache]
  split
  case h_1 i found =>
    have free := List.find?_some found
    exact ⟨List.mem_range.mp (List.mem_of_find?_eq_some found), Option.isNone_iff_eq_none.mp free,
      fun _ => id⟩
  case h_2 =>
    have lru_lt := fs.lruCache_lt some_cache
    have cache := flushSingleCache_cache proper lru_lt true
    have param := (flushSingleCache_safe fs lru_lt true).param proper
    refine ⟨lru_lt, by rw [cache, Function.update_self, if_pos rfl], ?_⟩
    rintro key ⟨i, line, there, same⟩
    rw [lines_eq_some, param, cache] at there
    obtain ⟨i_lt, in_use⟩ := there
    by_cases here : i = fs.lruCache
    · rw [here, Function.update_self] at in_use
      cases in_use
    · rw [Function.update_of_ne here] at in_use
      exact ⟨i, line, lines_eq_some.mpr ⟨i_lt, in_use⟩, same⟩

/-- The entry holds the chunk. -/
def InSlot (fs : Files) (i number inodeChunk : Nat) : Prop :=
  i < fs.param.nCaches ∧ ∃ line, lineOf (fs.cache i) = some line ∧ line.key = (number, inodeChunk)

/-- The data of an entry is what its chunk shows. -/
theorem InSlot.data {i : Nat} (in_slot : fs.InSlot i number inodeChunk)
    (coherent : fs.Coherent limit) :
    (fs.cache i).data = fs.view.shown (number, inodeChunk) := by
  obtain ⟨i_lt, line, in_use, key⟩ := in_slot
  rw [← key, coherent.cached.shown_of_line (lines_eq_some.mpr ⟨i_lt, in_use⟩)]
  exact (lineOf_eq_some.mp in_use).2.2.1

/-- A chunk that is not cached is loaded without that being seen. -/
theorem loadChunkCache_keeps (limit : Nat) (some_cache : 0 < fs.param.nCaches)
    (missing : ¬fs.view.Caches (number, inodeChunk)) (there : (fs.objs number).isSome)
    (positive : 0 < inodeChunk) (small : inodeChunk ≤ maxChunkId) :
    Keeps limit fs (fs.loadChunkCache number inodeChunk).2 := by
  refine ⟨loadChunkCache_safe fs some_cache number positive, fun coherent supplied left => ?_⟩
  have grabbed := grabChunkCache_keeps limit fs some_cache
  obtain ⟨i_lt, empty, caches⟩ := grabChunkCache_empty coherent.toProper some_cache
  obtain ⟨coherent', sizes, shown⟩ := grabbed.keeps coherent supplied left
  rw [← grabbed.param coherent.toProper] at i_lt
  simp only [loadChunkCache] at left ⊢
  generalize fs.grabChunkCache = grab at *
  obtain ⟨i, mid⟩ := grab
  dsimp only at *
  have there' : (mid.objs number).isSome := by
    rw [sizes.isSome]
    exact there
  generalize slot_eq : ({ mid.cache i with
      object := some number
      chunkId := inodeChunk
      dirty := false
      data := mid.rdDataObj number inodeChunk } : CacheEntry) = slot
  have line : lineOf slot =
      some ⟨(number, inodeChunk), mid.view.stored (number, inodeChunk), false⟩ := by
    rw [← slot_eq]
    rfl
  have lines := setCache_lines i_lt slot
  rw [line] at lines
  obtain ⟨cached, shown'⟩ := coherent'.cached.load ((lines_eq_none i_lt).mpr empty)
    fun cached => missing (caches _ cached)
  have view : (mid.setCache i slot).view = mid.view.setLine i
      ⟨(number, inodeChunk), mid.view.stored (number, inodeChunk), false⟩ :=
    Cache.ext lines (setCache_stored i slot)
  have safe : Safe mid (mid.setCache i slot) :=
    setCache_safe mid i fun _ => Or.inl (by rw [← slot_eq]; exact positive)
  rw [← view] at cached shown'
  refine ⟨coherent'.of_view (safe.proper coherent'.toProper) rfl (fun _ => rfl) cached
    fun {j line'} found => ?_, sizes, shown'.trans shown⟩
  rw [lines] at found
  by_cases here : j = i
  · rw [here, Function.update_self] at found
    obtain rfl := Option.some.inj found
    exact ⟨there', small⟩
  · rw [Function.update_of_ne here] at found
    exact coherent'.held found

theorem loadChunkCache_inSlot (proper : fs.Proper) (some_cache : 0 < fs.param.nCaches)
    (number inodeChunk : Nat) : (fs.loadChunkCache number inodeChunk).2.InSlot
      (fs.loadChunkCache number inodeChunk).1 number inodeChunk := by
  have i_lt := (grabChunkCache_empty proper some_cache).1
  rw [← (grabChunkCache_safe fs some_cache).param proper] at i_lt
  refine ⟨i_lt, ⟨(number, inodeChunk), fs.grabChunkCache.2.rdDataObj number inodeChunk, false⟩, ?_,
    rfl⟩
  simp only [loadChunkCache, setCache, Function.update_self]
  rfl

/-! ## Reading -/

theorem readEntry_keeps (limit : Nat) (some_cache : 0 < fs.param.nCaches)
    (there : (fs.objs number).isSome) (positive : 0 < inodeChunk) (small : inodeChunk ≤ maxChunkId) :
    Keeps limit fs (fs.readEntry number inodeChunk).2 ∧
      (fs.Proper → (fs.readEntry number inodeChunk).2.InSlot (fs.readEntry number inodeChunk).1
        number inodeChunk) := by
  simp only [readEntry]
  cases found : fs.findChunkCache number inodeChunk with
  | some i => exact ⟨Keeps.refl limit fs, fun _ => line_of_findChunkCache found⟩
  | none =>
    have loaded := loadChunkCache_keeps limit some_cache (not_caches_of_findChunkCache found) there
      positive small
    have in_slot (proper : fs.Proper) := loadChunkCache_inSlot proper some_cache number inodeChunk
    generalize fs.loadChunkCache number inodeChunk = load at loaded in_slot
    have sized (proper : fs.Proper) : (load.2.setCache load.1
        { load.2.cache load.1 with nBytes := 0 }).view = load.2.view := by
      refine Cache.ext ?_ (setCache_stored _ _)
      rw [setCache_lines (in_slot proper).1]
      refine Function.update_eq_iff.mpr ⟨?_, fun _ _ => rfl⟩
      exact (if_pos (in_slot proper).1).symm
    have kept (proper : fs.Proper) : Keeps limit load.2 (load.2.setCache load.1
        { load.2.cache load.1 with nBytes := 0 }) :=
      .of_view (setCache_safe _ _ fun held => Or.inr ⟨held, rfl⟩) fun coherent _ _ => by
        rw [sized proper]
        exact ⟨fun _ => rfl, coherent.cached, rfl, coherent.held⟩
    refine ⟨keeps_of_proper fun proper => loaded.trans (kept proper), fun proper => ?_⟩
    obtain ⟨i_lt, line, in_use, key⟩ := in_slot proper
    refine ⟨i_lt, line, ?_, key⟩
    simp only [setCache, Function.update_self]
    exact in_use

/-- A chunk is read as it shows, and reading is not seen. -/
theorem readChunk_shown (limit : Nat) (there : (fs.objs number).isSome) (positive : 0 < inodeChunk)
    (small : inodeChunk ≤ maxChunkId) (nCopy : Nat) :
    Keeps limit fs (fs.readChunk number inodeChunk nCopy).2 ∧
      (fs.Coherent limit → fs.Supplied → (fs.readChunk number inodeChunk nCopy).2.programs ≠ [] →
        (fs.readChunk number inodeChunk nCopy).1 = fs.view.shown (number, inodeChunk)) := by
  simp only [readChunk]
  split
  case isFalse direct =>
    have missing : fs.findChunkCache number inodeChunk = none := by
      rw [← Option.isNone_iff_eq_none, ← Option.not_isSome, Bool.not_eq_true', ← Bool.not_eq_true]
      exact fun cached => direct (Or.inl cached)
    refine ⟨Keeps.refl limit fs, fun _ _ _ => ?_⟩
    exact (Cache.shown_of_not_caches (not_caches_of_findChunkCache missing)).symm
  case isTrue =>
    split
    case isFalse no_cache =>
      refine ⟨Keeps.refl limit fs, fun _ _ _ => Eq.symm (Cache.shown_of_not_caches ?_)⟩
      rintro ⟨i, line, found, -⟩
      exact no_cache (Nat.zero_lt_of_lt (lines_eq_some.mp found).1)
    case isTrue some_cache =>
      obtain ⟨entered, in_slot⟩ := readEntry_keeps limit some_cache there positive small
      generalize fs.readEntry number inodeChunk = loaded at entered in_slot
      have used (proper : fs.Proper) := useCache_keeps limit loaded.2 (in_slot proper).1
      refine ⟨keeps_of_proper fun proper => entered.trans (used proper),
        fun coherent supplied left => ?_⟩
      have left' := (used coherent.toProper).left (entered.proper coherent.toProper) left
      obtain ⟨coherent', -, shown⟩ := entered.keeps coherent supplied left'
      obtain ⟨i_lt, line, in_use, key⟩ := in_slot coherent.toProper
      have in_use' := useCache_self loaded.2 loaded.1 false
      rw [in_use, Option.map_some] at in_use'
      rw [← shown, ← key, coherent'.cached.shown_of_line (lines_eq_some.mpr ⟨i_lt, in_use⟩)]
      exact (lineOf_eq_some.mp in_use').2.2.1

end Files

end Yaffs
