import Yaffs.FileTreeSound
import Yaffs.FileEntries

/-!
# Pages of files

Every data page in use is found through the tree of its file and every header page through its
object, under the tags that the page has, and nothing else is found.  Writing a chunk, cutting a
file off, writing a header and collecting garbage keep this, also when there is no page or no tnode
to be had on the way.
-/

namespace Yaffs

/-! ## Groups of pages -/

namespace FileParam

variable (param : FileParam)

/-- Is the page one of the device? -/
def HasPage (chunk : Nat) : Prop := param.firstChunk ≤ chunk ∧ chunk < param.endChunk

/-- First page of a group. -/
def groupBase (group : Nat) : Nat := group <<< param.chunkGrpBits % 2 ^ 32

/-- Can the tnode entries tell the groups of the device apart from each other and from no page? -/
structure EntriesFit : Prop where
  group_le : 2 ^ param.chunkGrpBits ≤ param.firstChunk
  fits : param.endChunk ≤ 2 ^ (param.tnodeWidth + param.chunkGrpBits)
  small : param.endChunk ≤ 2 ^ 32
  /-- The size of a group has 16 bits. -/
  grpBits_lt : param.chunkGrpBits < 16

variable {param} {chunk : Nat}

theorem EntriesFit.pos (fit : param.EntriesFit) (has : param.HasPage chunk) : 0 < chunk :=
  lt_of_lt_of_le (Nat.two_pow_pos _) (fit.group_le.trans has.1)

theorem EntriesFit.group_ne_zero (fit : param.EntriesFit) (has : param.HasPage chunk) :
    chunk >>> param.chunkGrpBits ≠ 0 := by
  rw [Nat.shiftRight_eq_div_pow]
  exact (Nat.div_pos (fit.group_le.trans has.1) (Nat.two_pow_pos _)).ne'

/-- An entry is wide enough for the group of a page. -/
theorem EntriesFit.group_mod (fit : param.EntriesFit) (has : param.HasPage chunk) :
    (chunk >>> param.chunkGrpBits) % 2 ^ param.tnodeWidth = chunk >>> param.chunkGrpBits := by
  refine Nat.mod_eq_of_lt ?_
  rw [Nat.shiftRight_eq_div_pow]
  refine Nat.div_lt_of_lt_mul ?_
  rw [← Nat.pow_add, Nat.add_comm]
  exact has.2.trans_le fit.fits

/-- A page lies in its group. -/
theorem EntriesFit.base_le (fit : param.EntriesFit) (has : param.HasPage chunk) :
    let base := param.groupBase (chunk >>> param.chunkGrpBits)
    0 < base ∧ base ≤ chunk ∧ chunk < base + 2 ^ param.chunkGrpBits ∧
      (param.chunkGrpBits = 0 → base = chunk) := by
  have whole := Nat.div_add_mod' chunk (2 ^ param.chunkGrpBits)
  have rest := Nat.mod_lt chunk (Nat.two_pow_pos param.chunkGrpBits)
  have first : 2 ^ param.chunkGrpBits ≤ chunk / 2 ^ param.chunkGrpBits * 2 ^ param.chunkGrpBits :=
    Nat.le_mul_of_pos_left _ (Nat.div_pos (fit.group_le.trans has.1) (Nat.two_pow_pos _))
  have positive := Nat.two_pow_pos param.chunkGrpBits
  have bound := has.2.trans_le fit.small
  simp only [groupBase, Nat.shiftRight_eq_div_pow, Nat.shiftLeft_eq]
  rw [Nat.mod_eq_of_lt (by omega)]
  refine ⟨by omega, by omega, by omega, fun zero => ?_⟩
  rw [zero, pow_zero, Nat.div_one, Nat.mul_one]

end FileParam

/-- A file without its tree, the place of its header, and what only flushing goes by. -/
def FileObj.outline (obj : FileObj) : FileObj :=
  { obj with tree := {}, nDataChunks := 0, hdrChunk := 0, storedSize := 0, dirty := false }

/-- A file in use: its tree is well formed, and its chunks are counted. -/
structure FileObj.Live (obj : FileObj) : Prop where
  sane : obj.tree.Sane
  alive : obj.deleted = false
  counted : obj.nDataChunks = obj.tree.chunks.ncard

/-- Nothing that an object says about its pages has changed. -/
structure FileObj.SamePages (obj obj' : FileObj) : Prop where
  tree : obj'.tree = obj.tree
  nDataChunks : obj'.nDataChunks = obj.nDataChunks
  hdrChunk : obj'.hdrChunk = obj.hdrChunk
  deleted : obj'.deleted = obj.deleted

namespace FileObj

variable {obj obj' : FileObj} {inodeChunk group : Nat}

theorem Live.of_same (live : obj.Live) (same : SamePages obj obj') : obj'.Live :=
  ⟨same.tree ▸ live.sane, same.deleted.trans live.alive, by
    rw [same.nDataChunks, same.tree, live.counted]⟩

/-- Another tree with the same entries. -/
theorem Live.retree (live : obj.Live) {tree : FileTree} (sane : tree.Sane)
    (same : ∀ chunkId, tree.entry chunkId = obj.tree.entry chunkId) :
    Live { obj with tree } :=
  ⟨sane, live.alive, by rw [FileTree.chunks_congr same]; exact live.counted⟩

/-- A page for a chunk is counted unless there has been one. -/
theorem Live.store (live : obj.Live) (found : (obj.tree.findTnode0 inodeChunk).isSome)
    (positive : group ≠ 0) :
    Live { obj with
      tree := obj.tree.store inodeChunk group
      nDataChunks :=
        if obj.tree.entry inodeChunk = 0 then obj.nDataChunks + 1 else obj.nDataChunks } := by
  refine ⟨live.sane.store _ _, live.alive, ?_⟩
  rw [live.sane.ncard_store found positive, live.counted]
  split
  · rw [Nat.cast_succ]
  · rfl

theorem Live.drop (live : obj.Live) (found : (obj.tree.findTnode0 inodeChunk).isSome)
    (stored : obj.tree.entry inodeChunk ≠ 0) :
    Live { obj with
      tree := obj.tree.store inodeChunk 0
      nDataChunks := obj.nDataChunks - 1 } := by
  refine ⟨live.sane.store _ _, live.alive, ?_⟩
  rw [live.counted, ← live.sane.ncard_store_zero found stored, Nat.cast_succ,
    Int.add_sub_cancel]

end FileObj

namespace Files

variable {fs fs' fs'' : Files} {number inodeChunk chunk : Nat}

/-! ## Owners of pages -/

/-- The group that the tree of a file says for a chunk, zero for none. -/
def entry (fs : Files) (number inodeChunk : Nat) : Nat :=
  match fs.objs number with
  | none => 0
  | some obj => obj.tree.entry inodeChunk

/-- A page is in use with the tags of a chunk, or of the header for chunk zero. -/
def Holds (fs : Files) (number inodeChunk chunk : Nat) : Prop :=
  ∃ page, fs.pages chunk = some page ∧ page.objId = number ∧ page.chunkId = inodeChunk

/-- An object refers to a page for a chunk, or for its header. -/
def Refers (fs : Files) (number inodeChunk chunk : Nat) : Prop :=
  if inodeChunk = 0 then ∃ obj, fs.objs number = some obj ∧ obj.hdrChunk = chunk ∧ chunk ≠ 0
  else fs.findChunkInFile number inodeChunk = some chunk

/-- What is in use is what the files refer to. -/
structure Owned (fs : Files) : Prop where
  fit : fs.param.EntriesFit
  programs : ∀ chunk, some chunk ∈ fs.programs → fs.param.HasPage chunk
  inside : ∀ {chunk page}, fs.pages chunk = some page → fs.param.HasPage chunk
  entry_of_page : ∀ {number inodeChunk chunk}, 0 < inodeChunk → fs.Holds number inodeChunk chunk →
    fs.entry number inodeChunk = chunk >>> fs.param.chunkGrpBits
  unique : ∀ {number inodeChunk chunk chunk'}, 0 < inodeChunk → fs.Holds number inodeChunk chunk →
    fs.Holds number inodeChunk chunk' → chunk = chunk'
  page_of_entry : ∀ {number inodeChunk}, fs.entry number inodeChunk ≠ 0 →
    0 < inodeChunk ∧ ∃ chunk, fs.Holds number inodeChunk chunk
  header : ∀ {number chunk}, fs.Holds number 0 chunk ↔
    ∃ obj, fs.objs number = some obj ∧ obj.hdrChunk = chunk ∧ chunk ≠ 0
  live : ∀ {number obj}, fs.objs number = some obj → obj.Live

/-! ## Finding pages -/

/-- A search finds the first page of a group that fits. -/
theorem findChunkInGroup_eq {objId count start : Nat} (positive : 0 < start)
    (from_start : start ≤ chunk) (before_end : chunk < start + count)
    (fits : (fs.pages chunk).any fun page => decide (fs.param.chunkGrpBits = 0 ∨
      page.objId = objId ∧ page.chunkId = inodeChunk))
    (first : ∀ earlier, start ≤ earlier → earlier < chunk →
      ¬(fs.pages earlier).any fun page => decide (fs.param.chunkGrpBits = 0 ∨
        page.objId = objId ∧ page.chunkId = inodeChunk)) :
    fs.findChunkInGroup objId inodeChunk count start = some chunk := by
  induction count generalizing start with
  | zero => omega
  | succ count ih =>
    rw [findChunkInGroup, if_neg positive.ne']
    by_cases here : start = chunk
    · rw [here, if_pos fits]
    · rw [if_neg (first start le_rfl (by omega))]
      exact ih (Nat.succ_pos start) (by omega) (by omega)
        fun earlier later => first earlier (by omega)

theorem findChunkInGroup_zero (fs : Files) (objId inodeChunk : Nat) :
    fs.findChunkInGroup objId inodeChunk (2 ^ fs.param.chunkGrpBits) (fs.param.groupBase 0) =
      none := by
  obtain ⟨more, count⟩ := Nat.exists_eq_succ_of_ne_zero (Nat.two_pow_pos fs.param.chunkGrpBits).ne'
  rw [count, FileParam.groupBase, Nat.zero_shiftLeft, Nat.zero_mod, findChunkInGroup, if_pos rfl]

theorem findChunkInFile_eq (fs : Files) (number inodeChunk : Nat) :
    fs.findChunkInFile number inodeChunk =
      fs.findChunkInGroup number inodeChunk (2 ^ fs.param.chunkGrpBits)
        (fs.param.groupBase (fs.entry number inodeChunk)) := by
  have nothing := fs.findChunkInGroup_zero number inodeChunk
  rw [findChunkInFile, entry]
  cases fs.objs number with
  | none => exact nothing.symm
  | some obj =>
    simp only [Option.bind_some, FileTree.entry]
    cases obj.tree.findTnode0 inodeChunk with
    | none => exact nothing.symm
    | some groups => rfl

/-- The page of a chunk is the one with its tags. -/
theorem Owned.find_iff (owned : fs.Owned) (data : 0 < inodeChunk) :
    fs.findChunkInFile number inodeChunk = some chunk ↔ fs.Holds number inodeChunk chunk := by
  rw [findChunkInFile_eq]
  by_cases stored : fs.entry number inodeChunk = 0
  · have none_holds : ¬fs.Holds number inodeChunk chunk := fun holds =>
      owned.fit.group_ne_zero (owned.inside holds.choose_spec.1)
        ((owned.entry_of_page data holds).symm.trans stored)
    refine iff_of_false (fun found => ?_) none_holds
    rw [stored, findChunkInGroup_zero] at found
    cases found
  · obtain ⟨-, there, holds⟩ := owned.page_of_entry stored
    have group := owned.entry_of_page data holds
    obtain ⟨page, page_eq, tags⟩ := holds
    obtain ⟨positive, from_base, in_group, single⟩ := owned.fit.base_le (owned.inside page_eq)
    have found : fs.findChunkInGroup number inodeChunk (2 ^ fs.param.chunkGrpBits)
        (fs.param.groupBase (fs.entry number inodeChunk)) = some there := by
      rw [group]
      refine findChunkInGroup_eq positive from_base in_group ?_ fun earlier from_start before => ?_
      · rw [page_eq, Option.any_some, decide_eq_true_eq]
        exact Or.inr tags
      · intro fits
        obtain ⟨other, other_eq, other_tags⟩ := (Option.any_eq_true ..).mp fits
        rcases of_decide_eq_true other_tags with alone | same
        · have base_eq := single alone
          omega
        · have clash := owned.unique data ⟨other, other_eq, same⟩ ⟨page, page_eq, tags⟩
          omega
    rw [found, Option.some_inj]
    constructor
    · rintro rfl
      exact ⟨page, page_eq, tags⟩
    · exact fun holds => owned.unique data ⟨page, page_eq, tags⟩ holds

theorem Owned.entry_ne_zero (owned : fs.Owned) (data : 0 < inodeChunk)
    (holds : fs.Holds number inodeChunk chunk) : fs.entry number inodeChunk ≠ 0 := by
  rw [owned.entry_of_page data holds]
  exact owned.fit.group_ne_zero (owned.inside holds.choose_spec.1)

/-- Pages in use and the chunks and headers that files refer to are the same. -/
theorem Owned.refers_iff (owned : fs.Owned) :
    fs.Refers number inodeChunk chunk ↔ fs.Holds number inodeChunk chunk := by
  rw [Refers]
  split
  case isTrue header =>
    rw [header]
    exact owned.header.symm
  case isFalse data => exact owned.find_iff (Nat.pos_of_ne_zero data)

/-- A file counts the pages in use for its data. -/
theorem Owned.nDataChunks_eq (owned : fs.Owned) {obj : FileObj}
    (found : fs.objs number = some obj) :
    obj.nDataChunks =
      {chunk | ∃ inodeChunk, 0 < inodeChunk ∧ fs.Holds number inodeChunk chunk}.ncard := by
  let place (chunk : Nat) : Nat := ((fs.pages chunk).map Page.chunkId).getD 0
  have place_eq {inodeChunk chunk : Nat} (holds : fs.Holds number inodeChunk chunk) :
      place chunk = inodeChunk := by
    obtain ⟨page, there, -, same⟩ := holds
    simp only [place, there, Option.map_some, Option.getD_some, same]
  have entry_eq (inodeChunk : Nat) : fs.entry number inodeChunk = obj.tree.entry inodeChunk := by
    rw [entry, found]
  have chunks : obj.tree.chunks = place ''
      {chunk | ∃ inodeChunk, 0 < inodeChunk ∧ fs.Holds number inodeChunk chunk} := by
    ext inodeChunk
    constructor
    · intro stored
      have stored' : fs.entry number inodeChunk ≠ 0 := entry_eq inodeChunk ▸ stored
      obtain ⟨data, chunk, holds⟩ := owned.page_of_entry stored'
      exact ⟨chunk, ⟨inodeChunk, data, holds⟩, place_eq holds⟩
    · rintro ⟨chunk, ⟨other, data, holds⟩, same⟩
      have stored := owned.entry_ne_zero data holds
      rw [entry_eq, ← place_eq holds, same] at stored
      exact stored
  rw [(owned.live found).counted, chunks, Set.InjOn.ncard_image]
  rintro chunk ⟨inodeChunk, data, holds⟩ chunk' ⟨inodeChunk', -, holds'⟩ same
  rw [place_eq holds, place_eq holds'] at same
  exact owned.unique data holds (same ▸ holds')

/-- The data of the page with the tags of a chunk is what is read. -/
theorem Owned.rdDataObj_of_page (owned : fs.Owned) (data : 0 < inodeChunk) {page : Page}
    (there : fs.pages chunk = some page) (file : page.objId = number)
    (place : page.chunkId = inodeChunk) : fs.rdDataObj number inodeChunk = page.data := by
  have found := (owned.find_iff data).mpr ⟨page, there, file, place⟩
  rw [rdDataObj, found, Option.bind_some, there]

/-- A chunk without a page reads as zeros. -/
theorem Owned.rdDataObj_of_hole (owned : fs.Owned) (data : 0 < inodeChunk)
    (hole : ∀ chunk, ¬fs.Holds number inodeChunk chunk) :
    fs.rdDataObj number inodeChunk = fun _ => 0 := by
  have nothing : fs.findChunkInFile number inodeChunk = none := by
    refine Option.eq_none_iff_forall_ne_some.mpr fun chunk found => ?_
    exact hole chunk ((owned.find_iff data).mp found)
  rw [rdDataObj, nothing, Option.bind_none]

theorem Owned.find_congr (owned : fs.Owned) (owned' : fs'.Owned) (data : 0 < inodeChunk)
    (pages : fs'.pages = fs.pages) :
    fs'.findChunkInFile number inodeChunk = fs.findChunkInFile number inodeChunk := by
  refine Option.ext fun chunk => ?_
  rw [owned.find_iff data, owned'.find_iff data, Holds, Holds, pages]

/-- Data that has moved to another page, or not at all, is read as before. -/
theorem Owned.rdDataObj_congr (owned : fs.Owned) (owned' : fs'.Owned) (data : 0 < inodeChunk)
    (moved : ∀ {page : Page}, page.objId = number → page.chunkId = inodeChunk →
      ((∃ chunk, fs'.pages chunk = some page) ↔ ∃ chunk, fs.pages chunk = some page)) :
    fs'.rdDataObj number inodeChunk = fs.rdDataObj number inodeChunk := by
  by_cases hole : ∀ chunk, ¬fs.Holds number inodeChunk chunk
  · rw [owned.rdDataObj_of_hole data hole]
    refine owned'.rdDataObj_of_hole data fun chunk holds => ?_
    obtain ⟨page, there, file, place⟩ := holds
    obtain ⟨before, there'⟩ := (moved file place).mp ⟨chunk, there⟩
    exact hole before ⟨page, there', file, place⟩
  · push Not at hole
    obtain ⟨chunk, page, there, file, place⟩ := hole
    obtain ⟨after, there'⟩ := (moved file place).mpr ⟨chunk, there⟩
    rw [owned.rdDataObj_of_page data there file place,
      owned'.rdDataObj_of_page data there' file place]

/-! ## Changes of pages -/

/-- Changes that leave pages, entries and headers alone. -/
theorem Owned.congr (owned : fs.Owned) (param : fs'.param = fs.param)
    (programs : ∀ chunk, some chunk ∈ fs'.programs → some chunk ∈ fs.programs)
    (pages : fs'.pages = fs.pages)
    (entries : ∀ number inodeChunk, fs'.entry number inodeChunk = fs.entry number inodeChunk)
    (headers : ∀ number, (fs'.objs number).map FileObj.hdrChunk =
      (fs.objs number).map FileObj.hdrChunk)
    (objs : ∀ {number obj}, fs'.objs number = some obj → obj.Live) :
    fs'.Owned where
  fit := param ▸ owned.fit
  programs := fun chunk given => param ▸ owned.programs chunk (programs chunk given)
  inside := fun there => by
    rw [param]
    exact owned.inside (pages ▸ there)
  entry_of_page := fun data holds => by
    rw [entries, param]
    rw [Holds, pages] at holds
    exact owned.entry_of_page data holds
  unique := fun data holds holds' => by
    rw [Holds, pages] at holds holds'
    exact owned.unique data holds holds'
  page_of_entry := fun stored => by
    rw [entries] at stored
    simp only [Holds, pages]
    exact owned.page_of_entry stored
  header := fun {number chunk} => by
    have same : (∃ obj, fs'.objs number = some obj ∧ obj.hdrChunk = chunk ∧ chunk ≠ 0) ↔
        ∃ obj, fs.objs number = some obj ∧ obj.hdrChunk = chunk ∧ chunk ≠ 0 := by
      have at_number := headers number
      constructor
      · rintro ⟨obj, found, hdr, nonzero⟩
        rw [found, Option.map_some, eq_comm, Option.map_eq_some_iff] at at_number
        obtain ⟨before, found', hdr'⟩ := at_number
        exact ⟨before, found', hdr'.trans hdr, nonzero⟩
      · rintro ⟨obj, found, hdr, nonzero⟩
        rw [found, Option.map_some, Option.map_eq_some_iff] at at_number
        obtain ⟨after, found', hdr'⟩ := at_number
        exact ⟨after, found', hdr'.trans hdr, nonzero⟩
    rw [same, ← owned.header, Holds, Holds, pages]
  live := objs

/-- The page of a chunk or of a header is another one now, or none. -/
theorem Owned.reassign (owned : fs.Owned) (new : Option Nat)
    (has : ∀ chunk, new = some chunk → fs.param.HasPage chunk) (param : fs'.param = fs.param)
    (programs : ∀ chunk, some chunk ∈ fs'.programs → some chunk ∈ fs.programs)
    (holds_iff : ∀ n k chunk, fs'.Holds n k chunk ↔
      (n = number ∧ k = inodeChunk) ∧ new = some chunk ∨
        ¬(n = number ∧ k = inodeChunk) ∧ fs.Holds n k chunk)
    (entries : ∀ n k, 0 < k → fs'.entry n k =
      if n = number ∧ k = inodeChunk then (new.map (· >>> fs.param.chunkGrpBits)).getD 0
      else fs.entry n k)
    (entries_zero : ∀ n, fs'.entry n 0 = fs.entry n 0)
    (header : ∀ {n chunk}, fs'.Holds n 0 chunk ↔
      ∃ obj, fs'.objs n = some obj ∧ obj.hdrChunk = chunk ∧ chunk ≠ 0)
    (objs : ∀ {number obj}, fs'.objs number = some obj → obj.Live) :
    fs'.Owned where
  fit := param ▸ owned.fit
  programs := fun chunk given => param ▸ owned.programs chunk (programs chunk given)
  inside := fun {chunk page} there => by
    rw [param]
    rcases (holds_iff _ _ chunk).mp ⟨page, there, rfl, rfl⟩ with ⟨-, is_new⟩ | ⟨-, holds⟩
    · exact has chunk is_new
    · exact owned.inside holds.choose_spec.1
  entry_of_page := fun {n k chunk} data holds => by
    rw [entries n k data, param]
    rcases (holds_iff _ _ _).mp holds with ⟨here, is_new⟩ | ⟨elsewhere, held⟩
    · rw [if_pos here, is_new]
      rfl
    · rw [if_neg elsewhere]
      exact owned.entry_of_page data held
  unique := fun data holds holds' => by
    rcases (holds_iff _ _ _).mp holds with ⟨here, is_new⟩ | ⟨elsewhere, held⟩
    · rcases (holds_iff _ _ _).mp holds' with ⟨-, is_new'⟩ | ⟨elsewhere, -⟩
      · exact Option.some.inj (is_new.symm.trans is_new')
      · exact absurd here elsewhere
    · rcases (holds_iff _ _ _).mp holds' with ⟨here, -⟩ | ⟨-, held'⟩
      · exact absurd here elsewhere
      · exact owned.unique data held held'
  page_of_entry := fun {n k} stored => by
    rcases Nat.eq_zero_or_pos k with rfl | data
    · rw [entries_zero] at stored
      exact absurd (owned.page_of_entry stored).1 (lt_irrefl 0)
    · refine ⟨data, ?_⟩
      rw [entries n k data] at stored
      split at stored
      case isTrue here =>
        cases new_eq : new with
        | none =>
          rw [new_eq] at stored
          exact absurd rfl stored
        | some chunk => exact ⟨chunk, (holds_iff ..).mpr (Or.inl ⟨here, new_eq⟩)⟩
      case isFalse elsewhere =>
        obtain ⟨-, chunk, holds⟩ := owned.page_of_entry stored
        exact ⟨chunk, (holds_iff ..).mpr (Or.inr ⟨elsewhere, holds⟩)⟩
  header := header
  live := objs

/-- A new page takes the tags of another one, which goes. -/
theorem holds_of_moved {page : Page} (file : page.objId = number)
    (place : page.chunkId = inodeChunk)
    {old : Option Nat}
    (old_iff : ∀ c, old = some c ↔ fs.Holds number inodeChunk c)
    (pages : ∀ c, fs'.pages c = if c = chunk then some page else if old = some c then none
      else fs.pages c) (free : fs.pages chunk = none) (n k c : Nat) :
    fs'.Holds n k c ↔ (n = number ∧ k = inodeChunk) ∧ some chunk = some c ∨
      ¬(n = number ∧ k = inodeChunk) ∧ fs.Holds n k c := by
  rw [Holds, pages]
  by_cases is_new : c = chunk
  · subst is_new
    rw [if_pos rfl]
    constructor
    · rintro ⟨other, there, file', place'⟩
      obtain rfl := Option.some.inj there
      exact Or.inl ⟨⟨file'.symm.trans file, place'.symm.trans place⟩, rfl⟩
    · rintro (⟨⟨rfl, rfl⟩, -⟩ | ⟨-, other, there, -⟩)
      · exact ⟨page, rfl, file, place⟩
      · rw [free] at there
        cases there
  · rw [if_neg is_new]
    have not_new : some chunk ≠ some c := fun same => is_new (Option.some.inj same).symm
    by_cases is_old : old = some c
    · rw [if_pos is_old]
      obtain ⟨other, there, file', place'⟩ := (old_iff c).mp is_old
      refine iff_of_false (fun ⟨_, absent, _⟩ => by cases absent) ?_
      rintro (⟨-, same⟩ | ⟨elsewhere, another, there', file'', place''⟩)
      · exact not_new same
      · obtain rfl := Option.some.inj (there.symm.trans there')
        exact elsewhere ⟨file''.symm.trans file', place''.symm.trans place'⟩
    · rw [if_neg is_old]
      constructor
      · intro holds
        refine Or.inr ⟨fun here => is_old ((old_iff c).mpr ?_), holds⟩
        rw [← here.1, ← here.2]
        exact holds
      · rintro (⟨-, same⟩ | ⟨-, holds⟩)
        · exact absurd same not_new
        · exact holds

/-! ## Primitive steps -/

/-- The state with another object for a number. -/
def setObj (fs : Files) (number : Nat) (obj : FileObj) : Files :=
  { fs with objs := Function.update fs.objs number (some obj) }

theorem entry_update {obj : FileObj} (eq : fs'.objs = Function.update fs.objs number (some obj))
    (n k : Nat) : fs'.entry n k = if n = number then obj.tree.entry k else fs.entry n k := by
  rw [entry, entry, eq]
  by_cases here : n = number
  · rw [if_pos here, here, Function.update_self]
  · rw [if_neg here, Function.update_of_ne here]

/-- A page is written, or nothing happens but that an answer is used up. -/
theorem writeNewChunk_cases (fs : Files) (page : Page) :
    (∃ chunk, fs.programs.head? = some (some chunk) ∧ fs.pages chunk = none ∧
      fs.writeNewChunk page = ((chunk : Int),
        { fs with
          programs := fs.programs.tail
          pages := Function.update fs.pages chunk (some page) })) ∨
      fs.writeNewChunk page = (-1, { fs with programs := fs.programs.tail }) := by
  simp only [writeNewChunk]
  split
  case h_1 => exact Or.inr rfl
  case h_2 chunk next =>
    split
    case isTrue usable =>
      refine Or.inl ⟨chunk, Option.join_eq_some_iff.mp next, ?_, rfl⟩
      exact Option.isNone_iff_eq_none.mp usable.2
    case isFalse => exact Or.inr rfl

/-- The tree of a file has the tnode of a chunk that has a page. -/
theorem room_of_find {obj : FileObj} (found : fs.objs number = some obj)
    (there : fs.findChunkInFile number inodeChunk = some chunk) :
    (obj.tree.findTnode0 inodeChunk).isSome := by
  rw [findChunkInFile, found, Option.bind_some] at there
  split at there
  case h_1 => cases there
  case h_2 groups groups_eq => rw [groups_eq]; rfl

/-- A page is put into a tree that has room for it. -/
theorem putChunkInFile_of_room {obj : FileObj} (found : fs.objs number = some obj)
    (room : (obj.tree.findTnode0 inodeChunk).isSome) (positive : 0 < chunk) :
    fs.putChunkInFile number inodeChunk chunk = (true, fs.setObj number
      { obj with
        tree := obj.tree.store inodeChunk
          ((chunk >>> fs.param.chunkGrpBits) % 2 ^ fs.param.tnodeWidth)
        nDataChunks :=
          if fs.param.groupBase (obj.tree.entry inodeChunk) = 0 then obj.nDataChunks + 1
          else obj.nDataChunks }) := by
  obtain ⟨groups, groups_eq⟩ := Option.isSome_iff_exists.mp room
  have there := FileTree.addFindTnode0_of_found groups_eq fs.memory
  simp only [putChunkInFile, found, there, not_true_eq_false, if_false, positive.ne', groups_eq,
    Option.map_some, Option.getD_some, modifyObj, Function.update_self, Function.update_idem,
    FileTree.entry]
  rfl

/-- Room is made for a chunk. -/
theorem putChunkInFile_zero {obj : FileObj} (found : fs.objs number = some obj) (inodeChunk : Nat) :
    fs.putChunkInFile number inodeChunk 0 = ((obj.tree.addFindTnode0 inodeChunk fs.memory).1,
      { fs with
        memory := (obj.tree.addFindTnode0 inodeChunk fs.memory).2.2
        objs := Function.update fs.objs number (some
          { obj with tree := (obj.tree.addFindTnode0 inodeChunk fs.memory).2.1 }) }) := by
  simp only [putChunkInFile, found]
  by_cases made : (obj.tree.addFindTnode0 inodeChunk fs.memory).1 = true
  · simp [made]
  · simp [made]

theorem chunkDel_pages (fs : Files) (chunk : Nat) (positive : chunk ≠ 0 ∨ fs.pages 0 = none)
    (c : Nat) : (fs.chunkDel chunk).pages c = if c = chunk then none else fs.pages c := by
  rw [chunkDel]
  split
  case isTrue zero =>
    subst zero
    have none_there := positive.resolve_left (fun nonzero => nonzero rfl)
    split
    case isTrue is_zero => rw [is_zero, none_there]
    case isFalse => rfl
  case isFalse => exact Function.update_apply ..

/-! ## What is read -/

/-- Every coming request is granted, and writes get pages that are free, none of them twice. -/
structure Supplied (fs : Files) : Prop where
  pages : ∀ given ∈ fs.programs, ∃ chunk, given = some chunk ∧ fs.pages chunk = none
  apart : fs.programs.Nodup
  memory : fs.memory.Plenty
  room : ∀ answer ∈ fs.allocAvailable, answer = true

/-- Answers are used up from the front, and what is left of a good supply is a good one. -/
structure Spends (fs fs' : Files) : Prop where
  programs : fs'.programs <:+ fs.programs
  supplied : fs.Supplied → fs'.Supplied

theorem Spends.refl (fs : Files) : Spends fs fs := ⟨List.suffix_refl _, id⟩

theorem Spends.trans (first : Spends fs fs') (second : Spends fs' fs'') : Spends fs fs'' :=
  ⟨second.programs.trans first.programs, second.supplied ∘ first.supplied⟩

theorem Spends.of_pages (programs : fs'.programs <:+ fs.programs)
    (memory : fs.memory.Plenty → fs'.memory.Plenty) (room : fs'.allocAvailable = fs.allocAvailable)
    (pages : fs.programs.Nodup → ∀ c, fs.pages c = none → some c ∈ fs'.programs →
      fs'.pages c = none) : Spends fs fs' := by
  refine ⟨programs, fun supplied => ⟨fun given inside => ?_, ?_, memory supplied.memory, ?_⟩⟩
  · obtain ⟨chunk, rfl, free⟩ := supplied.pages given (programs.subset inside)
    exact ⟨chunk, rfl, pages supplied.apart chunk free inside⟩
  · exact supplied.apart.sublist programs.sublist
  · rw [room]
    exact supplied.room

/-- An answer that is left is not the one that has been used. -/
theorem ne_of_mem_tail {programs : List (Option Nat)} (apart : programs.Nodup)
    (next : programs.head? = some (some chunk)) {c : Nat} (left : some c ∈ programs.tail) :
    c ≠ chunk := by
  cases programs with
  | nil => cases next
  | cons given rest =>
    obtain rfl := Option.some.inj next
    rintro rfl
    exact (List.nodup_cons.mp apart).1 left

theorem objCacheDirty_congr (param : fs'.param = fs.param) (cache : fs'.cache = fs.cache)
    (number : Nat) : fs'.objCacheDirty number = fs.objCacheDirty number := by
  rw [objCacheDirty, objCacheDirty, param, cache]

/-- The files are what they were but for their pages, and those that have more in the cache than on
the flash are still marked if they were. -/
structure SameOutlines (fs fs' : Files) : Prop where
  param : fs'.param = fs.param
  cache : fs'.cache = fs.cache
  outlines : ∀ number, (fs'.objs number).map FileObj.outline = (fs.objs number).map FileObj.outline
  dirty : ∀ {number}, fs.objCacheDirty number = true →
    (fs'.objs number).map FileObj.dirty = (fs.objs number).map FileObj.dirty
  spends : Spends fs fs'

theorem SameOutlines.refl (fs : Files) : SameOutlines fs fs :=
  ⟨rfl, rfl, fun _ => rfl, fun _ => rfl, .refl fs⟩

theorem SameOutlines.trans (first : SameOutlines fs fs') (second : SameOutlines fs' fs'') :
    SameOutlines fs fs'' :=
  ⟨second.param.trans first.param, second.cache.trans first.cache,
    fun number => (second.outlines number).trans (first.outlines number),
    fun {number} cached => by
      have cached' := cached
      rw [← objCacheDirty_congr first.param first.cache] at cached'
      exact (second.dirty cached').trans (first.dirty cached),
    first.spends.trans second.spends⟩

theorem SameOutlines.update {obj obj' : FileObj} (found : fs.objs number = some obj)
    (param : fs'.param = fs.param) (cache : fs'.cache = fs.cache)
    (objs : fs'.objs = Function.update fs.objs number (some obj'))
    (same : obj'.outline = obj.outline) (dirty : obj'.dirty = obj.dirty) (spends : Spends fs fs') :
    SameOutlines fs fs' := by
  refine ⟨param, cache, fun n => ?_, fun {n} _ => ?_, spends⟩
  all_goals
    rw [objs]
    by_cases here : n = number
    · rw [here, Function.update_self, found, Option.map_some, Option.map_some]
      simp only [same, dirty]
    · rw [Function.update_of_ne here]

theorem SameOutlines.found (same : SameOutlines fs fs') {obj : FileObj}
    (found : fs.objs number = some obj) :
    ∃ obj', fs'.objs number = some obj' ∧ obj'.outline = obj.outline := by
  have outlines := same.outlines number
  rw [found, Option.map_some, Option.map_eq_some_iff] at outlines
  exact outlines

/-- No file reads differently. -/
structure Unseen (fs fs' : Files) : Prop extends SameOutlines fs fs' where
  reads : ∀ {n k}, 0 < k → fs'.rdDataObj n k = fs.rdDataObj n k
  stored : ∀ n k, fs'.entry n k = 0 ↔ fs.entry n k = 0

theorem Unseen.refl (fs : Files) : Unseen fs fs := ⟨.refl fs, fun _ => rfl, fun _ _ => Iff.rfl⟩

theorem Unseen.trans (first : Unseen fs fs') (second : Unseen fs' fs'') : Unseen fs fs'' :=
  ⟨first.toSameOutlines.trans second.toSameOutlines,
    fun data => (second.reads data).trans (first.reads data),
    fun n k => (second.stored n k).trans (first.stored n k)⟩

/-- One chunk has new data, or none, and no file reads differently otherwise. -/
structure Rewrites (fs fs' : Files) (number inodeChunk : Nat) (new : Option Chunk) : Prop
    extends SameOutlines fs fs' where
  reads : ∀ {n k}, 0 < k → fs'.rdDataObj n k =
    if n = number ∧ k = inodeChunk then new.getD fun _ => 0 else fs.rdDataObj n k
  stored : ∀ n k, fs'.entry n k = 0 ↔
    if n = number ∧ k = inodeChunk then new = none else fs.entry n k = 0

variable {new : Option Chunk}

theorem Rewrites.after (rewrites : Rewrites fs' fs'' number inodeChunk new)
    (unseen : Unseen fs fs') : Rewrites fs fs'' number inodeChunk new := by
  refine ⟨unseen.toSameOutlines.trans rewrites.toSameOutlines, fun {n k} data => ?_, fun n k => ?_⟩
  · rw [rewrites.reads data, unseen.reads data]
  · rw [rewrites.stored n k]
    split
    · exact Iff.rfl
    · exact unseen.stored n k

/-- A chunk that has got the data that it had. -/
theorem Rewrites.unseen {data : Chunk} (rewrites : Rewrites fs fs' number inodeChunk (some data))
    (same : fs.rdDataObj number inodeChunk = data) (stored : fs.entry number inodeChunk ≠ 0) :
    Unseen fs fs' := by
  refine ⟨rewrites.toSameOutlines, fun {n k} positive => ?_, fun n k => ?_⟩
  · rw [rewrites.reads positive]
    split
    case isTrue here => rw [here.1, here.2, same, Option.getD_some]
    case isFalse => rfl
  · rw [rewrites.stored n k]
    split
    case isTrue here =>
      rw [here.1, here.2]
      exact iff_of_false (Option.some_ne_none data) stored
    case isFalse => exact Iff.rfl

/-- Other chunks are read as before when the page of a chunk is replaced. -/
theorem Owned.reads_of_moved (owned : fs.Owned) (owned' : fs'.Owned) {page : Page}
    (file : page.objId = number) (place : page.chunkId = inodeChunk) {old : Option Nat}
    (old_iff : ∀ c, old = some c ↔ fs.Holds number inodeChunk c)
    (pages : ∀ c, fs'.pages c = if c = chunk then some page else if old = some c then none
      else fs.pages c) (free : fs.pages chunk = none) {n k : Nat} (data : 0 < k) :
    fs'.rdDataObj n k =
      if n = number ∧ k = inodeChunk then page.data else fs.rdDataObj n k := by
  split
  case isTrue here =>
    have there : fs'.pages chunk = some page := by rw [pages, if_pos rfl]
    exact owned'.rdDataObj_of_page data there (file.trans here.1.symm) (place.trans here.2.symm)
  case isFalse elsewhere =>
    refine owned.rdDataObj_congr owned' data fun {other} file' place' => ?_
    constructor
    · rintro ⟨c, there⟩
      rw [pages] at there
      split at there
      case isTrue =>
        obtain rfl := Option.some.inj there
        exact absurd ⟨file'.symm.trans file, place'.symm.trans place⟩ elsewhere
      case isFalse =>
        split at there
        case isTrue => cases there
        case isFalse => exact ⟨c, there⟩
    · rintro ⟨c, there⟩
      refine ⟨c, ?_⟩
      have not_new : c ≠ chunk := by
        rintro rfl
        rw [free] at there
        cases there
      have not_old : ¬old = some c := fun is_old => by
        obtain ⟨page', there', file'', place''⟩ := (old_iff c).mp is_old
        obtain rfl := Option.some.inj (there.symm.trans there')
        exact elsewhere ⟨file'.symm.trans file'', place'.symm.trans place''⟩
      rw [pages, if_neg not_new, if_neg not_old, there]

/-! ## Replacing pages -/

/-- The state in which the first answer has been used for a page. -/
def put (fs : Files) (chunk : Nat) (page : Page) : Files :=
  { fs with
    programs := fs.programs.tail
    pages := Function.update fs.pages chunk (some page) }

/-- A page has become the page of a chunk of a file, and the page before it is gone. -/
structure Replaced (fs fs' : Files) (number inodeChunk chunk : Nat) (page : Page) (obj : FileObj) :
    Prop where
  param : fs'.param = fs.param
  cache : fs'.cache = fs.cache
  programs : fs'.programs = fs.programs.tail
  memory : fs'.memory = fs.memory
  allocAvailable : fs'.allocAvailable = fs.allocAvailable
  objs : fs'.objs = Function.update fs.objs number (some
    { obj with
      tree := obj.tree.store inodeChunk (chunk >>> fs.param.chunkGrpBits)
      nDataChunks :=
        if obj.tree.entry inodeChunk = 0 then obj.nDataChunks + 1 else obj.nDataChunks })
  pages : ∀ c, fs'.pages c = if c = chunk then some page
    else if fs.findChunkInFile number inodeChunk = some c then none else fs.pages c

theorem Owned.zero_free (owned : fs.Owned) : fs.pages 0 = none :=
  Option.eq_none_iff_forall_ne_some.mpr fun _ there =>
    absurd (owned.fit.pos (owned.inside there)) (lt_irrefl 0)

/-- An entry stands for no page only if it is zero. -/
theorem Owned.groupBase_eq_zero (owned : fs.Owned) {obj : FileObj}
    (found : fs.objs number = some obj) (inodeChunk : Nat) :
    fs.param.groupBase (obj.tree.entry inodeChunk) = 0 ↔ obj.tree.entry inodeChunk = 0 := by
  have entry_eq : fs.entry number inodeChunk = obj.tree.entry inodeChunk := by rw [entry, found]
  refine ⟨fun base => ?_, fun zero => ?_⟩
  · by_contra stored
    rw [← entry_eq] at stored base
    obtain ⟨data, there, holds⟩ := owned.page_of_entry stored
    rw [owned.entry_of_page data holds] at base
    exact (owned.fit.base_le (owned.inside holds.choose_spec.1)).1.ne' base
  · rw [zero, FileParam.groupBase, Nat.zero_shiftLeft, Nat.zero_mod]

/-- A page is written for a chunk, put into the tree, and the page before it is deleted. -/
theorem Owned.replaced (owned : fs.Owned) {obj : FileObj} (found : fs.objs number = some obj)
    (data : 0 < inodeChunk) (room : (obj.tree.findTnode0 inodeChunk).isSome) (page : Page)
    (next : fs.programs.head? = some (some chunk)) (free : fs.pages chunk = none) :
    Replaced fs (((fs.put chunk page).putChunkInFile number inodeChunk chunk).2.chunkDel
      ((fs.findChunkInFile number inodeChunk).getD 0)) number inodeChunk chunk page obj := by
  have has := owned.programs chunk (List.mem_of_mem_head? next)
  have positive := owned.fit.pos has
  have found' : (fs.put chunk page).objs number = some obj := found
  have stored := putChunkInFile_of_room found' room positive
  have param : (fs.put chunk page).param = fs.param := rfl
  rw [stored, param, owned.fit.group_mod has]
  simp only [owned.groupBase_eq_zero found]
  have old_iff (c : Nat) : fs.findChunkInFile number inodeChunk = some c ↔
      fs.Holds number inodeChunk c := owned.find_iff data
  generalize old_eq : fs.findChunkInFile number inodeChunk = old at old_iff
  generalize put_eq : (fs.put chunk page).setObj number
    { obj with
      tree := obj.tree.store inodeChunk (chunk >>> fs.param.chunkGrpBits)
      nDataChunks :=
        if obj.tree.entry inodeChunk = 0 then obj.nDataChunks + 1 else obj.nDataChunks } = stored
  have rest := @chunkDel_rest stored (old.getD 0)
  have not_new : old ≠ some chunk := fun is_old => by
    obtain ⟨other, there, -⟩ := (old_iff chunk).mp is_old
    rw [free] at there
    cases there
  have kept {c : Nat} (is_new : c ≠ chunk) : stored.pages c = fs.pages c := by
    rw [← put_eq]
    exact Function.update_of_ne is_new ..
  refine ⟨by rw [rest, ← put_eq]; rfl, by rw [rest, ← put_eq]; rfl, by rw [rest, ← put_eq]; rfl,
    by rw [rest, ← put_eq]; rfl, by rw [rest, ← put_eq]; rfl, by rw [rest, ← put_eq]; rfl,
    fun c => ?_⟩
  rw [chunkDel_pages _ _ (Or.inr ((kept positive.ne).trans owned.zero_free)), old_eq]
  by_cases is_new : c = chunk
  · subst is_new
    have not_old : c ≠ old.getD 0 := by
      rintro same
      cases old with
      | none => exact positive.ne' same
      | some before => exact not_new (congrArg some same.symm)
    rw [if_neg not_old, if_pos rfl, ← put_eq]
    exact Function.update_self ..
  · rw [if_neg is_new]
    cases old with
    | none =>
      rw [if_neg (Option.some_ne_none c).symm, Option.getD_none]
      split
      case isTrue zero => rw [zero, owned.zero_free]
      case isFalse => exact kept is_new
    | some before =>
      rw [Option.getD_some]
      by_cases is_old : c = before
      · rw [if_pos is_old, if_pos (congrArg some is_old.symm)]
      · rw [if_neg is_old, if_neg fun same => is_old (Option.some.inj same).symm]
        exact kept is_new

theorem Replaced.spends {obj : FileObj} {page : Page}
    (replaced : Replaced fs fs' number inodeChunk chunk page obj)
    (next : fs.programs.head? = some (some chunk)) : Spends fs fs' := by
  refine .of_pages (replaced.programs ▸ List.tail_suffix _) (replaced.memory ▸ id)
    replaced.allocAvailable fun apart c free left => ?_
  rw [replaced.programs] at left
  rw [replaced.pages, if_neg (ne_of_mem_tail apart next left), free, ite_self]

theorem Replaced.entries {obj : FileObj} {page : Page}
    (replaced : Replaced fs fs' number inodeChunk chunk page obj) (owned : fs.Owned)
    (found : fs.objs number = some obj) (room : (obj.tree.findTnode0 inodeChunk).isSome)
    (n k : Nat) : fs'.entry n k =
      if n = number ∧ k = inodeChunk then chunk >>> fs.param.chunkGrpBits else fs.entry n k := by
  rw [entry_update replaced.objs]
  by_cases here : n = number
  · rw [if_pos here, FileTree.entry_store (owned.live found).sane room]
    simp only [here, true_and]
    split
    · rfl
    · rw [entry, found]
  · rw [if_neg here, if_neg fun both => here both.1]

/-- An object has changed, and the others are what they were. -/
theorem Owned.objs_update (owned : fs.Owned) {obj : FileObj}
    (objs : fs'.objs = Function.update fs.objs number (some obj)) (live : obj.Live) {n : Nat}
    {other : FileObj} (found_n : fs'.objs n = some other) : other.Live := by
  rw [objs] at found_n
  by_cases here : n = number
  · subst here
    rw [Function.update_self] at found_n
    exact Option.some.inj found_n ▸ live
  · rw [Function.update_of_ne here] at found_n
    exact owned.live found_n

theorem header_update {obj obj' : FileObj} (found : fs.objs number = some obj)
    (objs : fs'.objs = Function.update fs.objs number (some obj'))
    (same : obj'.hdrChunk = obj.hdrChunk) (n c : Nat) :
    (∃ o, fs'.objs n = some o ∧ o.hdrChunk = c ∧ c ≠ 0) ↔
      ∃ o, fs.objs n = some o ∧ o.hdrChunk = c ∧ c ≠ 0 := by
  rw [objs]
  by_cases here : n = number
  · subst here
    rw [Function.update_self, found]
    simp only [Option.some_inj, exists_eq_left', same]
  · rw [Function.update_of_ne here]

theorem Replaced.owned {obj : FileObj} {page : Page}
    (replaced : Replaced fs fs' number inodeChunk chunk page obj) (owned : fs.Owned)
    (found : fs.objs number = some obj) (data : 0 < inodeChunk)
    (room : (obj.tree.findTnode0 inodeChunk).isSome) (file : page.objId = number)
    (place : page.chunkId = inodeChunk) (next : fs.programs.head? = some (some chunk))
    (free : fs.pages chunk = none) :
    fs'.Owned ∧ Rewrites fs fs' number inodeChunk (some page.data) := by
  have has := owned.programs chunk (List.mem_of_mem_head? next)
  have old_iff (c : Nat) : fs.findChunkInFile number inodeChunk = some c ↔
      fs.Holds number inodeChunk c := owned.find_iff data
  have entries := replaced.entries owned found room
  have holds := holds_of_moved file place old_iff replaced.pages free
  have objs := replaced.objs
  have owned' : fs'.Owned := by
    refine owned.reassign (some chunk) (fun c same => Option.some.inj same ▸ has) replaced.param
      (fun c inside => List.mem_of_mem_tail (replaced.programs ▸ inside)) holds
      (fun n k _ => entries n k) (fun n => ?_) (fun {n c} => ?_)
      (owned.objs_update objs ((owned.live found).store room (owned.fit.group_ne_zero has)))
    · rw [entries, if_neg fun both => data.ne both.2]
    · rw [holds, or_iff_right fun both => data.ne both.1.2, and_iff_right fun both =>
      data.ne both.2,
        owned.header]
      exact (header_update found objs rfl n c).symm
  have outlines : SameOutlines fs fs' :=
    .update found replaced.param replaced.cache objs rfl rfl (replaced.spends next)
  refine ⟨owned', outlines, fun positive =>
    owned.reads_of_moved owned' file place old_iff replaced.pages free positive, fun n k => ?_⟩
  rw [entries]
  split
  · exact iff_of_false (owned.fit.group_ne_zero has) (Option.some_ne_none _)
  · exact Iff.rfl

/-- A page becomes the header of an object, and the header before it goes. -/
theorem Owned.rehead (owned : fs.Owned) {obj : FileObj} (found : fs.objs number = some obj)
    {page : Page} (file : page.objId = number) (place : page.chunkId = 0)
    (next : fs.programs.head? = some (some chunk)) (free : fs.pages chunk = none) :
    let last := ((fs.put chunk page).modifyObj number fun obj =>
      { obj with hdrChunk := chunk }).chunkDel obj.hdrChunk
    last.Owned ∧ Unseen fs last := by
  have has := owned.programs chunk (List.mem_of_mem_head? next)
  have positive := owned.fit.pos has
  dsimp only
  generalize put_eq : (fs.put chunk page).modifyObj number (fun obj =>
    { obj with hdrChunk := chunk }) = stored
  have rest := @chunkDel_rest stored obj.hdrChunk
  generalize last_eq : stored.chunkDel obj.hdrChunk = last at rest
  have objs : last.objs = Function.update fs.objs number (some { obj with hdrChunk := chunk }) := by
    rw [rest, ← put_eq]
    simp only [modifyObj, put, found, Option.map_some]
  have kept {c : Nat} (is_new : c ≠ chunk) : stored.pages c = fs.pages c := by
    rw [← put_eq]
    exact Function.update_of_ne is_new ..
  let old : Option Nat := if obj.hdrChunk = 0 then none else some obj.hdrChunk
  have old_iff (c : Nat) : old = some c ↔ fs.Holds number 0 c := by
    rw [owned.header, found]
    simp only [Option.some_inj, exists_eq_left', old]
    split
    case isTrue zero =>
      refine iff_of_false (Option.some_ne_none c).symm ?_
      rintro ⟨rfl, nonzero⟩
      exact nonzero zero
    case isFalse nonzero =>
      rw [Option.some_inj]
      exact ⟨fun same => ⟨same, same ▸ nonzero⟩, And.left⟩
  have not_new : obj.hdrChunk ≠ chunk := fun same => by
    have is_old : old = some chunk := by
      simp only [old, same, if_neg positive.ne']
    obtain ⟨other, there, -⟩ := (old_iff chunk).mp is_old
    rw [free] at there
    cases there
  have pages (c : Nat) : last.pages c = if c = chunk then some page
      else if old = some c then none else fs.pages c := by
    rw [← last_eq, chunkDel_pages _ _ (Or.inr ((kept positive.ne).trans owned.zero_free))]
    by_cases is_new : c = chunk
    · subst is_new
      rw [if_neg not_new.symm, if_pos rfl, ← put_eq]
      exact Function.update_self ..
    · rw [if_neg is_new]
      by_cases is_old : c = obj.hdrChunk
      · rw [if_pos is_old]
        by_cases zero : obj.hdrChunk = 0
        · simp only [old, if_pos zero, reduceCtorEq, if_false]
          rw [is_old, zero, owned.zero_free]
        · simp only [old, if_neg zero, is_old, if_true]
      · rw [if_neg is_old, if_neg, kept is_new]
        simp only [old]
        split
        · exact (Option.some_ne_none c).symm
        · exact fun same => is_old (Option.some.inj same).symm
  have holds := holds_of_moved file place old_iff pages free
  have entries (n k : Nat) : last.entry n k = fs.entry n k := by
    rw [entry_update objs]
    split
    case isTrue here => rw [here, entry, found]
    case isFalse => rfl
  have programs : last.programs = fs.programs.tail := by rw [rest, ← put_eq]; rfl
  have param : last.param = fs.param := by rw [rest, ← put_eq]; rfl
  have owned' : last.Owned := by
    refine owned.reassign (some chunk) (fun c same => Option.some.inj same ▸ has) param
      (fun c inside => List.mem_of_mem_tail (programs ▸ inside)) holds (fun n k data => ?_)
      (fun n => entries n 0) (fun {n c} => ?_)
      (owned.objs_update objs ⟨(owned.live found).sane, (owned.live found).alive,
        (owned.live found).counted⟩)
    · rw [entries, if_neg fun both => data.ne' both.2]
    · rw [holds, owned.header, objs]
      by_cases here : n = number
      · subst here
        rw [Function.update_self]
        simp only [and_self, true_and, not_true_eq_false, false_and, or_false, Option.some_inj,
          exists_eq_left']
        exact ⟨fun same => ⟨same, same ▸ positive.ne'⟩, And.left⟩
      · rw [Function.update_of_ne here]
        simp only [here, false_and, not_false_eq_true, true_and, false_or]
  have spends : Spends fs last := by
    refine .of_pages (programs ▸ List.tail_suffix _) (by rw [rest, ← put_eq]; exact id)
      (by rw [rest, ← put_eq]; rfl) fun apart c free' left => ?_
    rw [programs] at left
    rw [pages, if_neg (ne_of_mem_tail apart next left), free', ite_self]
  refine ⟨owned', .update found param (by rw [rest, ← put_eq]; rfl) objs rfl rfl spends,
    fun {n k} data => ?_, fun n k => by rw [entries]⟩
  rw [owned.reads_of_moved owned' file place old_iff pages free data, if_neg]
  exact fun both => data.ne' both.2

end Files

end Yaffs
