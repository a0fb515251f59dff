import Yaffs.FilePages

/-!
# Moving the pages of files

Collecting garbage, writing headers and chunks, and cutting files off, as far as the pages of the
files go.  Each of them keeps what is in use and what the files refer to the same, with and without
pages and tnodes to be had, and only a write that succeeds or a cut changes what is read.
-/

namespace Yaffs

namespace Files

variable {fs fs' fs'' : Files} {number inodeChunk chunk : Nat}

/-! ## Collecting garbage -/

/-- Changes that leave pages, entries and headers alone are not seen. -/
theorem Owned.unseen (owned : fs.Owned) (outlines : SameOutlines fs fs')
    (pages : fs'.pages = fs.pages)
    (entries : ∀ number inodeChunk, fs'.entry number inodeChunk = fs.entry number inodeChunk)
    (headers : ∀ number, (fs'.objs number).map FileObj.hdrChunk =
      (fs.objs number).map FileObj.hdrChunk)
    (objs : ∀ {number obj}, fs'.objs number = some obj → obj.Live) :
    fs'.Owned ∧ Unseen fs fs' := by
  have owned' := owned.congr outlines.param (fun _ inside => outlines.spends.programs.subset inside)
    pages entries headers objs
  refine ⟨owned', outlines, fun data => owned.rdDataObj_congr owned' data fun _ _ => ?_,
    fun n k => by rw [entries]⟩
  rw [pages]

/-- Nothing has happened to the files at all. -/
theorem Owned.untouched (owned : fs.Owned) (param : fs'.param = fs.param)
    (cache : fs'.cache = fs.cache) (spends : Spends fs fs') (pages : fs'.pages = fs.pages)
    (objs : fs'.objs = fs.objs) : fs'.Owned ∧ Unseen fs fs' :=
  owned.unseen ⟨param, cache, fun n => by rw [objs], fun _ => by rw [objs], spends⟩ pages
    (fun n k => by rw [entry, entry, objs]) (fun n => by rw [objs])
    fun found => owned.live (objs ▸ found)

/-- An answer that is not used. -/
theorem Owned.skip (owned : fs.Owned) :
    Owned { fs with programs := fs.programs.tail } ∧
      Unseen fs { fs with programs := fs.programs.tail } :=
  owned.untouched rfl rfl (.of_pages (List.tail_suffix _) id rfl fun _ _ free _ => free) rfl rfl

theorem gcData_owned (owned : fs.Owned) (number inodeChunk : Nat) :
    (fs.gcProcessChunk (.data number inodeChunk)).Owned ∧
      Unseen fs (fs.gcProcessChunk (.data number inodeChunk)) := by
  simp only [gcProcessChunk]
  split
  case h_2 => exact ⟨owned, Unseen.refl fs⟩
  case h_1 obj oldChunk found there =>
    rw [if_neg fun soft => by rw [(owned.live found).alive] at soft; cases soft.1]
    have stored : fs.entry number inodeChunk ≠ 0 := by
      intro zero
      rw [findChunkInFile_eq, zero] at there
      exact absurd there (by rw [findChunkInGroup_zero]; exact (Option.some_ne_none _).symm)
    have data := (owned.page_of_entry stored).1
    split
    case h_1 => exact ⟨owned, Unseen.refl fs⟩
    case h_2 page page_eq =>
      obtain ⟨page', page_eq', file, place⟩ := (owned.find_iff data).mp there
      obtain rfl := Option.some.inj (page_eq.symm.trans page_eq')
      rcases fs.writeNewChunk_cases page with ⟨chunk, next, free, written⟩ | written
      · rw [written]
        have room := room_of_find found there
        have replaced := owned.replaced found data room page next free
        rw [there, Option.getD_some] at replaced
        obtain ⟨owned', rewrites⟩ := replaced.owned owned found data room file place next free
        rw [if_neg (by omega)]
        exact ⟨owned', rewrites.unseen (owned.rdDataObj_of_page data page_eq file place) stored⟩
      · rw [written, if_pos (show (-1 : Int) < 0 by decide)]
        exact owned.skip

theorem gcHeader_owned (owned : fs.Owned) (number : Nat) :
    (fs.gcProcessChunk (.header number)).Owned ∧
      Unseen fs (fs.gcProcessChunk (.header number)) := by
  simp only [gcProcessChunk]
  split
  case h_1 => exact ⟨owned, Unseen.refl fs⟩
  case h_2 obj found =>
    split
    case h_1 => exact ⟨owned, Unseen.refl fs⟩
    case h_2 page page_eq =>
      have nonzero : obj.hdrChunk ≠ 0 := (owned.fit.pos (owned.inside page_eq)).ne'
      obtain ⟨page', page_eq', file, place⟩ := owned.header.mpr ⟨obj, found, rfl, nonzero⟩
      obtain rfl := Option.some.inj (page_eq.symm.trans page_eq')
      rcases fs.writeNewChunk_cases { page with fileSize := obj.storedSize } with
        ⟨chunk, next, free, written⟩ | written
      · rw [written, if_neg (by omega)]
        exact owned.rehead found file place next free
      · rw [written, if_pos (show (-1 : Int) < 0 by decide)]
        exact owned.skip

/-- Whatever is collected, no file reads differently, and the pages have the owners that they
should. -/
theorem gcProcessChunk_owned (owned : fs.Owned) (collected : Collected) :
    (fs.gcProcessChunk collected).Owned ∧ Unseen fs (fs.gcProcessChunk collected) := by
  cases collected with
  | data number inodeChunk => exact gcData_owned owned number inodeChunk
  | header number => exact gcHeader_owned owned number
  | softDeleted number =>
    simp only [gcProcessChunk]
    split
    case h_1 => exact ⟨owned, Unseen.refl fs⟩
    case h_2 obj found =>
      rw [if_neg fun soft => by rw [(owned.live found).alive] at soft; cases soft.1]
      exact ⟨owned, Unseen.refl fs⟩

theorem checkGc_owned (owned : fs.Owned) : fs.checkGc.Owned ∧ Unseen fs fs.checkGc := by
  have swept (collections : List Collected) : ∀ fs : Files, fs.Owned →
      (collections.foldl gcProcessChunk fs).Owned ∧
        Unseen fs (collections.foldl gcProcessChunk fs) := by
    induction collections with
    | nil => exact fun fs owned => ⟨owned, Unseen.refl fs⟩
    | cons collected collections ih =>
      intro fs owned
      obtain ⟨first, unseen⟩ := gcProcessChunk_owned owned collected
      obtain ⟨rest, unseen'⟩ := ih _ first
      exact ⟨rest, unseen.trans unseen'⟩
  have begun : Owned { fs with collections := fs.collections.tail } ∧
      Unseen fs { fs with collections := fs.collections.tail } :=
    owned.untouched rfl rfl (.of_pages (List.suffix_refl _) id rfl fun _ _ free _ => free) rfl rfl
  obtain ⟨owned', unseen'⟩ := swept (fs.collections.headD []) _ begun.1
  exact ⟨owned', begun.2.trans unseen'⟩

/-! ## Headers -/

/-- A change of an object that does not concern its pages. -/
theorem Owned.modifyObj (owned : fs.Owned) (number : Nat) {change : FileObj → FileObj}
    (same : ∀ obj, FileObj.SamePages obj (change obj)) :
    (fs.modifyObj number change).Owned := by
  refine owned.congr rfl (fun _ => id) rfl (fun n k => ?_) (fun n => ?_) fun {n obj'} found => ?_
  · simp only [entry, Files.modifyObj]
    by_cases here : n = number
    · subst here
      rw [Function.update_self]
      cases fs.objs n with
      | none => rfl
      | some obj => simp only [Option.map_some, (same obj).tree]
    · rw [Function.update_of_ne here]
  · simp only [Files.modifyObj]
    by_cases here : n = number
    · subst here
      rw [Function.update_self, Option.map_map]
      exact congrArg (fun f => (fs.objs n).map f) (funext fun obj => (same obj).hdrChunk)
    · rw [Function.update_of_ne here]
  · simp only [Files.modifyObj] at found
    by_cases here : n = number
    · subst here
      rw [Function.update_self, Option.map_eq_some_iff] at found
      obtain ⟨obj, found, rfl⟩ := found
      exact (owned.live found).of_same (same obj)
    · rw [Function.update_of_ne here] at found
      exact owned.live found

theorem modifyObj_outlines (fs : Files) (number : Nat) {change : FileObj → FileObj}
    (outline : ∀ obj, (change obj).outline = obj.outline)
    (dirty : ∀ obj, fs.objCacheDirty number = true → (change obj).dirty = obj.dirty) :
    SameOutlines fs (fs.modifyObj number change) := by
  refine ⟨rfl, rfl, fun n => ?_, fun {n} cached => ?_,
    .of_pages (List.suffix_refl _) id rfl fun _ _ free _ => free⟩
  · simp only [modifyObj]
    by_cases here : n = number
    · subst here
      rw [Function.update_self, Option.map_map]
      exact congrArg (fun f => (fs.objs n).map f) (funext outline)
    · rw [Function.update_of_ne here]
  · simp only [modifyObj]
    by_cases here : n = number
    · subst here
      rw [Function.update_self, Option.map_map]
      exact congrArg (fun f => (fs.objs n).map f) (funext fun obj => dirty obj cached)
    · rw [Function.update_of_ne here]

/-- A change of an object that concerns neither its pages nor its outline is not seen. -/
theorem Owned.modify_unseen (owned : fs.Owned) (number : Nat) {change : FileObj → FileObj}
    (same : ∀ obj, FileObj.SamePages obj (change obj))
    (outline : ∀ obj, (change obj).outline = obj.outline)
    (dirty : ∀ obj, fs.objCacheDirty number = true → (change obj).dirty = obj.dirty) :
    (fs.modifyObj number change).Owned ∧ Unseen fs (fs.modifyObj number change) := by
  have owned' := owned.modifyObj number same
  refine ⟨owned', modifyObj_outlines fs number outline dirty,
    fun data => owned.rdDataObj_congr owned' data fun _ _ => Iff.rfl, fun n k => ?_⟩
  simp only [entry, Files.modifyObj]
  by_cases here : n = number
  · subst here
    rw [Function.update_self]
    cases fs.objs n with
    | none => exact Iff.rfl
    | some obj => simp only [Option.map_some, (same obj).tree]
  · rw [Function.update_of_ne here]

/-- A header that is written, or fails to be, changes nothing that can be read. -/
theorem updateOh_owned (owned : fs.Owned) (number : Nat) :
    (fs.updateOh number).2.Owned ∧ Unseen fs (fs.updateOh number).2 := by
  obtain ⟨collected, unseen⟩ := checkGc_owned owned
  have cleaned {last : Files} (owned : last.Owned) :
      (last.modifyObj number fun obj =>
        { obj with dirty := if last.objCacheDirty number then obj.dirty else false }).Owned ∧
      Unseen last (last.modifyObj number fun obj =>
        { obj with dirty := if last.objCacheDirty number then obj.dirty else false }) :=
    owned.modify_unseen number (fun _ => ⟨rfl, rfl, rfl, rfl⟩) (fun _ => rfl)
      fun _ cached => if_pos cached
  simp only [updateOh, updateOhWith]
  split
  case h_1 => exact ⟨collected, unseen⟩
  case h_2 obj found =>
    generalize page_eq : ({
      objId := number
      chunkId := 0
      fileSize := if isHidden obj.parent then 0 else obj.storedSize } : Page) = page
    have file : page.objId = number := by rw [← page_eq]
    have place : page.chunkId = 0 := by rw [← page_eq]
    rcases fs.checkGc.writeNewChunk_cases page with ⟨chunk, next, free, written⟩ | written
    · rw [written, if_neg (by omega)]
      obtain ⟨owned', unseen'⟩ := collected.rehead found file place next free
      exact (cleaned owned').imp_right (unseen.trans unseen').trans
    · rw [written, if_pos (show (-1 : Int) < 0 by decide)]
      obtain ⟨owned', unseen'⟩ := collected.skip
      exact ⟨owned', unseen.trans unseen'⟩

/-! ## Writing chunks -/

/-- Room for a chunk is not seen, and if there is enough memory, the tree has the tnode. -/
theorem putChunkInFile_room (owned : fs.Owned) (number inodeChunk : Nat) :
    let made := fs.putChunkInFile number inodeChunk 0
    made.2.Owned ∧ Unseen fs made.2 ∧ (made.1 = true →
      ∃ obj, made.2.objs number = some obj ∧ (obj.tree.findTnode0 inodeChunk).isSome) := by
  dsimp only
  cases found : fs.objs number with
  | none =>
    simp only [putChunkInFile, found]
    exact ⟨owned, Unseen.refl fs, by simp⟩
  | some obj =>
    rw [putChunkInFile_zero found]
    obtain ⟨same, sane, room⟩ := FileTree.addFindTnode0_entries inodeChunk fs.memory
      (owned.live found).sane
    have plenty (enough : fs.memory.Plenty) :=
      FileTree.addFindTnode0_keeps_plenty inodeChunk (owned.live found).sane enough
    generalize obj.tree.addFindTnode0 inodeChunk fs.memory = made at same sane room plenty ⊢
    generalize after_eq : ({ fs with
      memory := made.2.2
      objs := Function.update fs.objs number (some { obj with tree := made.2.1 }) } : Files) = after
    have objs : after.objs = Function.update fs.objs number
      (some { obj with tree := made.2.1 }) := by
      rw [← after_eq]
    have spends : Spends fs after := by
      rw [← after_eq]
      exact .of_pages (List.suffix_refl _) plenty rfl fun _ _ free _ => free
    have unseen : after.Owned ∧ Unseen fs after := by
      refine owned.unseen
        (.update found (by rw [← after_eq]) (by rw [← after_eq]) objs rfl rfl spends)
        (by rw [← after_eq]) (fun n k => ?_) (fun n => ?_)
        (owned.objs_update objs ((owned.live found).retree sane same))
      · rw [entry_update objs]
        split
        case isTrue here => rw [here, entry, found, same]
        case isFalse => rfl
      · rw [objs]
        by_cases here : n = number
        · rw [here, Function.update_self, found]
          rfl
        · rw [Function.update_of_ne here]
    refine ⟨unseen.1, unseen.2, fun ok => ⟨{ obj with tree := made.2.1 }, ?_, room ok⟩⟩
    rw [objs, Function.update_self]

/-- A chunk is written as a whole, or nothing is seen to happen. -/
theorem wrDataObj_owned (owned : fs.Owned) (number : Nat) (positive : 0 < inodeChunk) (data : Chunk)
    (nBytes : Nat) :
    let written := fs.wrDataObj number inodeChunk data nBytes
    written.2.Owned ∧ ((0 < written.1 ∧ Rewrites fs written.2 number inodeChunk (some data)) ∨
      written.1 ≤ 0 ∧ Unseen fs written.2) := by
  obtain ⟨collected, unseen⟩ := checkGc_owned owned
  simp only [wrDataObj]
  generalize fs.checkGc = first at collected unseen ⊢
  have made : let made := if (first.findChunkInFile number inodeChunk).isNone then
        first.putChunkInFile number inodeChunk 0 else (true, first)
      made.2.Owned ∧ Unseen first made.2 ∧
        (made.1 = true → ∃ obj, made.2.objs number = some obj ∧
          (obj.tree.findTnode0 inodeChunk).isSome) ∧
        made.2.findChunkInFile number inodeChunk = first.findChunkInFile number inodeChunk := by
    dsimp only
    split
    case isTrue missing =>
      obtain ⟨owned', unseen', room⟩ := putChunkInFile_room collected number inodeChunk
      refine ⟨owned', unseen', room, ?_⟩
      rw [Option.isNone_iff_eq_none.mp missing]
      refine Option.eq_none_iff_forall_ne_some.mpr fun chunk there => ?_
      have stored := owned'.entry_ne_zero positive ((owned'.find_iff positive).mp there)
      rw [Ne, unseen'.stored] at stored
      obtain ⟨-, before, holds⟩ := collected.page_of_entry stored
      rw [(collected.find_iff positive).mpr holds] at missing
      cases missing
    case isFalse there =>
      refine ⟨collected, Unseen.refl first, fun _ => ?_, rfl⟩
      rw [Option.isNone_iff_eq_none] at there
      obtain ⟨chunk, there⟩ := Option.ne_none_iff_exists'.mp there
      cases found : first.objs number with
      | none =>
        rw [findChunkInFile, found] at there
        cases there
      | some obj => exact ⟨obj, rfl, room_of_find found there⟩
  dsimp only at made
  generalize (if (first.findChunkInFile number inodeChunk).isNone then
    first.putChunkInFile number inodeChunk 0 else (true, first)) = room at made ⊢
  obtain ⟨owned₁, unseen₁, reached, same_find⟩ := made
  split
  case isTrue => exact ⟨owned₁, Or.inr ⟨le_rfl, unseen.trans unseen₁⟩⟩
  case isFalse ok =>
    obtain ⟨obj, found, has_tnode⟩ := reached (not_not.mp ok)
    generalize ((inodeChunk - 1) * room.2.param.dataBytesPerChunk + nBytes) % 2 ^ 32 = endpos
    have sized : (room.2.modifyObj number fun obj =>
          { obj with storedSize := max obj.storedSize endpos }).Owned ∧
        Unseen room.2 (room.2.modifyObj number fun obj =>
          { obj with storedSize := max obj.storedSize endpos }) :=
      owned₁.modify_unseen number (fun _ => ⟨rfl, rfl, rfl, rfl⟩) (fun _ => rfl) fun _ _ => rfl
    have found' : (room.2.modifyObj number fun obj =>
        { obj with storedSize := max obj.storedSize endpos }).objs number =
          some { obj with storedSize := max obj.storedSize endpos } := by
      simp only [modifyObj, found, Option.map_some, Function.update_self]
    have same_pages : (room.2.modifyObj number fun obj =>
        { obj with storedSize := max obj.storedSize endpos }).pages = room.2.pages := rfl
    generalize room.2.modifyObj number (fun obj =>
      { obj with storedSize := max obj.storedSize endpos }) = second at sized found' same_pages ⊢
    obtain ⟨owned₂, unseen₂⟩ := sized
    have same_find' : second.findChunkInFile number inodeChunk =
        first.findChunkInFile number inodeChunk := by
      rw [← same_find]
      exact owned₁.find_congr owned₂ positive same_pages
    have before := (unseen.trans unseen₁).trans unseen₂
    rcases second.writeNewChunk_cases { objId := number, chunkId := inodeChunk, nBytes, data } with
      ⟨chunk, next, free, written⟩ | written
    · have has := owned₂.programs chunk (List.mem_of_mem_head? next)
      have nonzero := owned₂.fit.pos has
      rw [written, if_pos (by omega), ← same_find']
      obtain ⟨owned', rewrites⟩ := (owned₂.replaced found' positive has_tnode
        { objId := number, chunkId := inodeChunk, nBytes, data } next free).owned owned₂ found'
        positive has_tnode rfl rfl next free
      exact ⟨owned', Or.inl ⟨by dsimp only; omega, rewrites.after before⟩⟩
    · rw [written, if_neg (show ¬(0 : Int) < -1 by decide)]
      obtain ⟨owned', unseen'⟩ := owned₂.skip
      have negative : (-1 : Int) ≤ 0 := by decide
      exact ⟨owned', Or.inr ⟨negative, before.trans unseen'⟩⟩

/-! ## Cutting files off -/

/-- What pruning does with one chunk. -/
def pruneChunk (fs : Files) (number i : Nat) : Files :=
  let found := fs.findDelFileChunk number i
  let fs := found.2
  match found.1 with
  | none => fs
  | some chunk =>
    if chunk < fs.param.firstChunk ∨ fs.param.endChunk ≤ chunk then fs
    else
      (fs.modifyObj number fun obj =>
        { obj with nDataChunks := obj.nDataChunks - 1 }).chunkDel chunk

/-- The page of a chunk and its entry go together. -/
theorem Owned.dropChunk (owned : fs.Owned) {obj : FileObj} (found : fs.objs number = some obj)
    (data : 0 < inodeChunk) (there : fs.findChunkInFile number inodeChunk = some chunk)
    (param : fs'.param = fs.param) (cache : fs'.cache = fs.cache)
    (programs : fs'.programs = fs.programs) (memory : fs'.memory = fs.memory)
    (room : fs'.allocAvailable = fs.allocAvailable)
    (objs : fs'.objs = Function.update fs.objs number (some
      { obj with
        tree := obj.tree.store inodeChunk 0
        nDataChunks := obj.nDataChunks - 1 }))
    (pages : ∀ c, fs'.pages c = if c = chunk then none else fs.pages c) :
    fs'.Owned ∧ Rewrites fs fs' number inodeChunk none := by
  have has_tnode := room_of_find found there
  have live := owned.live found
  have old_iff (c : Nat) : some chunk = some c ↔ fs.Holds number inodeChunk c := by
    rw [← there]
    exact owned.find_iff data
  have holds (n k c : Nat) : fs'.Holds n k c ↔
      (n = number ∧ k = inodeChunk) ∧ (none : Option Nat) = some c ∨
        ¬(n = number ∧ k = inodeChunk) ∧ fs.Holds n k c := by
    rw [or_iff_right fun both => (Option.some_ne_none c).symm both.2, Holds, pages]
    obtain ⟨page, page_eq, file, place⟩ := (old_iff chunk).mp rfl
    by_cases gone : c = chunk
    · subst gone
      rw [if_pos rfl]
      refine iff_of_false (fun held => ?_) ?_
      · obtain ⟨_, absent, _⟩ := held
        cases absent
      rintro ⟨elsewhere, page', page_eq', file', place'⟩
      obtain rfl := Option.some.inj (page_eq.symm.trans page_eq')
      exact elsewhere ⟨file'.symm.trans file, place'.symm.trans place⟩
    · rw [if_neg gone]
      refine ⟨fun kept => ⟨fun here => gone ?_, kept⟩, And.right⟩
      exact (Option.some.inj ((old_iff c).mpr (by rw [← here.1, ← here.2]; exact kept))).symm
  have entries (n k : Nat) : fs'.entry n k =
      if n = number ∧ k = inodeChunk then 0 else fs.entry n k := by
    rw [entry_update objs]
    by_cases here : n = number
    · rw [if_pos here, FileTree.entry_store live.sane has_tnode]
      simp only [here, true_and]
      split
      · rfl
      · rw [entry, found]
    · rw [if_neg here, if_neg fun both => here both.1]
  have stored : obj.tree.entry inodeChunk ≠ 0 := by
    have held := owned.entry_ne_zero data ((old_iff chunk).mp rfl)
    rwa [entry, found] at held
  have owned' : fs'.Owned := by
    refine owned.reassign none (fun c absent => by cases absent) param
      (fun c inside => programs ▸ inside) holds (fun n k _ => entries n k) (fun n => ?_)
      (fun {n c} => ?_) (owned.objs_update objs (live.drop has_tnode stored))
    · rw [entries, if_neg fun both => data.ne both.2]
    · rw [holds, or_iff_right fun both => data.ne both.1.2, and_iff_right fun both =>
      data.ne both.2,
        owned.header]
      exact (header_update found objs rfl n c).symm
  have spends : Spends fs fs' := by
    refine .of_pages (programs ▸ List.suffix_refl _) (memory ▸ id) room fun _ c free _ => ?_
    rw [pages, free, ite_self]
  refine ⟨owned', .update found param cache objs rfl rfl spends, fun {n k} positive => ?_,
    fun n k => ?_⟩
  · split
    case isTrue here =>
      rw [here.1, here.2, Option.getD_none]
      refine owned'.rdDataObj_of_hole data fun c kept => ?_
      rcases (holds _ _ _).mp kept with ⟨-, absent⟩ | ⟨elsewhere, -⟩
      · cases absent
      · exact elsewhere ⟨rfl, rfl⟩
    case isFalse elsewhere =>
      refine owned.rdDataObj_congr owned' positive fun {page} file place => ?_
      have same (c : Nat) : fs'.pages c = some page ↔ fs.pages c = some page := by
        rw [pages]
        split
        case isTrue gone =>
          refine iff_of_false (Option.some_ne_none page).symm fun there => ?_
          obtain ⟨page', page_eq, file', place'⟩ := (old_iff chunk).mp rfl
          rw [gone] at there
          obtain rfl := Option.some.inj (there.symm.trans page_eq)
          exact elsewhere ⟨file.symm.trans file', place.symm.trans place'⟩
        case isFalse => exact Iff.rfl
      exact exists_congr same
  · rw [entries]
    split
    · exact iff_of_true rfl rfl
    · exact Iff.rfl

/-- The chunks that have been cut off read as zeros. -/
structure Clears (fs fs' : Files) (number : Nat) (chunks : List Nat) : Prop
    extends SameOutlines fs fs' where
  reads : ∀ {n k}, 0 < k → fs'.rdDataObj n k =
    if n = number ∧ k ∈ chunks then fun _ => 0 else fs.rdDataObj n k
  stored : ∀ n k, fs'.entry n k = 0 ↔ (n = number ∧ k ∈ chunks) ∨ fs.entry n k = 0

theorem Owned.entry_zero (owned : fs.Owned) (data : 0 < inodeChunk)
    (nothing : fs.findChunkInFile number inodeChunk = none) : fs.entry number inodeChunk = 0 := by
  by_contra stored
  obtain ⟨-, chunk, holds⟩ := owned.page_of_entry stored
  rw [(owned.find_iff data).mpr holds] at nothing
  cases nothing

/-- Pruning one chunk takes its page away. -/
theorem pruneChunk_owned (owned : fs.Owned) (number : Nat) (data : 0 < inodeChunk) :
    (fs.pruneChunk number inodeChunk).Owned ∧
      Rewrites fs (fs.pruneChunk number inodeChunk) number inodeChunk none := by
  cases there : fs.findChunkInFile number inodeChunk with
  | none =>
    have found : fs.findDelFileChunk number inodeChunk = (none, fs) := by
      rw [findDelFileChunk, there]
    have zero := owned.entry_zero data there
    rw [pruneChunk, found]
    dsimp only
    refine ⟨owned, SameOutlines.refl fs, fun {n k} _ => ?_, fun n k => ?_⟩
    · split
      case isTrue here => rw [here.1, here.2, rdDataObj, there, Option.bind_none, Option.getD_none]
      case isFalse => rfl
    · split
      case isTrue here =>
        rw [here.1, here.2]
        exact iff_of_true zero rfl
      case isFalse => exact Iff.rfl
  | some chunk =>
    obtain ⟨page, page_eq, -⟩ := (owned.find_iff data).mp there
    have has := owned.inside page_eq
    cases found : fs.objs number with
    | none =>
      rw [findChunkInFile, found] at there
      cases there
    | some obj =>
      have inside : ¬(chunk < fs.param.firstChunk ∨ fs.param.endChunk ≤ chunk) := by
        rintro (before | after)
        · exact absurd has.1 (not_le.mpr before)
        · exact absurd has.2 (not_lt.mpr after)
      have taken : fs.findDelFileChunk number inodeChunk =
        (some chunk, fs.modifyObj number fun obj =>
          { obj with tree := fs.loadTnode0 obj.tree inodeChunk 0 }) := by
        rw [findDelFileChunk, there]
      rw [pruneChunk, taken]
      dsimp only
      rw [if_neg (by exact inside)]
      generalize changed_eq : (fs.modifyObj number fun obj =>
        { obj with tree := fs.loadTnode0 obj.tree inodeChunk 0 }).modifyObj number (fun obj =>
          { obj with nDataChunks := obj.nDataChunks - 1 }) = changed
      have rest := @chunkDel_rest changed chunk
      have objs : (changed.chunkDel chunk).objs = Function.update fs.objs number (some
          { obj with
            tree := obj.tree.store inodeChunk 0
            nDataChunks := obj.nDataChunks - 1 }) := by
        rw [rest, ← changed_eq]
        simp only [modifyObj, found, Option.map_some, Function.update_self, Function.update_idem,
          loadTnode0, Nat.zero_shiftRight, Nat.zero_mod, FileTree.store]
      refine owned.dropChunk found data there (by rw [rest, ← changed_eq]; rfl)
        (by rw [rest, ← changed_eq]; rfl) (by rw [rest, ← changed_eq]; rfl)
        (by rw [rest, ← changed_eq]; rfl) (by rw [rest, ← changed_eq]; rfl) objs fun c => ?_
      rw [chunkDel_pages _ _ (Or.inl (owned.fit.pos has).ne'), ← changed_eq]
      rfl

theorem pruneChunks_owned (owned : fs.Owned) (number newSize : Nat) :
    let oldSize := ((fs.objs number).map FileObj.fileSize).getD 0
    let lastDel := (if 0 < oldSize then (fs.param.addrToChunk (oldSize - 1)).1 else 0) + 1
    let startDel := (fs.param.addrToChunk (newSize + fs.param.dataBytesPerChunk - 1)).1 + 1
    (fs.pruneChunks number newSize).Owned ∧ Clears fs (fs.pruneChunks number newSize) number
      (List.range' startDel (lastDel + 1 - startDel)).reverse := by
  dsimp only
  have swept (chunks : List Nat) : ∀ fs : Files, fs.Owned → (∀ i ∈ chunks, 0 < i) →
      (chunks.foldl (fun fs i => fs.pruneChunk number i) fs).Owned ∧
        Clears fs (chunks.foldl (fun fs i => fs.pruneChunk number i) fs) number chunks := by
    induction chunks with
    | nil =>
      refine fun fs owned _ => ⟨owned, SameOutlines.refl fs, fun _ => ?_, fun _ _ => ?_⟩
      · rw [if_neg fun both => List.not_mem_nil both.2]
        rfl
      · rw [or_iff_right fun both => List.not_mem_nil both.2]
        exact Iff.rfl
    | cons i chunks ih =>
      intro fs owned positive
      obtain ⟨owned₁, dropped⟩ := pruneChunk_owned owned number (positive i List.mem_cons_self)
      obtain ⟨owned₂, cleared⟩ := ih _ owned₁ fun j inside =>
        positive j (List.mem_cons_of_mem i inside)
      refine ⟨owned₂, dropped.toSameOutlines.trans cleared.toSameOutlines, fun {n k} data => ?_,
        fun n k => ?_⟩
      · rw [List.foldl_cons, cleared.reads data, dropped.reads data, Option.getD_none]
        by_cases here : n = number
        · by_cases first : k = i
          · simp [here, first]
          · simp [here, first]
        · simp [here]
      · rw [List.foldl_cons, cleared.stored, dropped.stored, List.mem_cons]
        by_cases here : n = number
        · by_cases first : k = i
          · simp [here, first]
          · simp [here, first]
        · simp [here]
  refine swept _ fs owned fun i inside => ?_
  rw [List.mem_reverse, List.mem_range'_1] at inside
  omega

/-- Pruning the tree of a file is not seen. -/
theorem pruneTree_owned (owned : fs.Owned) (number : Nat) :
    (fs.pruneTree number).Owned ∧ Unseen fs (fs.pruneTree number) := by
  simp only [pruneTree]
  split
  case h_1 => exact ⟨owned, Unseen.refl fs⟩
  case h_2 obj found =>
    obtain ⟨same, sane⟩ := FileTree.pruneTree_entries fs.memory (owned.live found).sane
    have plenty (enough : fs.memory.Plenty) := FileTree.pruneTree_plenty obj.tree enough
    generalize obj.tree.pruneTree fs.memory = pruned at same sane plenty ⊢
    generalize after_eq : ({ fs with
      memory := pruned.2
      objs := Function.update fs.objs number (some { obj with tree := pruned.1 }) } : Files) = after
    have objs : after.objs = Function.update fs.objs number
      (some { obj with tree := pruned.1 }) := by
      rw [← after_eq]
    have spends : Spends fs after := by
      rw [← after_eq]
      exact .of_pages (List.suffix_refl _) plenty rfl fun _ _ free _ => free
    refine owned.unseen
      (.update found (by rw [← after_eq]) (by rw [← after_eq]) objs rfl rfl spends)
      (by rw [← after_eq]) (fun n k => ?_) (fun n => ?_)
      (owned.objs_update objs ((owned.live found).retree sane same))
    · rw [entry_update objs]
      split
      case isTrue here => rw [here, entry, found, same]
      case isFalse => rfl
    · rw [objs]
      by_cases here : n = number
      · rw [here, Function.update_self, found]
        rfl
      · rw [Function.update_of_ne here]

end Files

end Yaffs
