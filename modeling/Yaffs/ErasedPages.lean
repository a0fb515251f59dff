import Yaffs.Chunks
import Yaffs.RamFlash

/-!
# Programming erased pages

A page gets its data only if it was erased, and counts as written only if it holds the data.  Both
are up to the check before and the check after the page is programmed, which look at less than that:
the first one takes any data for erased, and the second one does not ask whether the page was
programmed at all.
-/

namespace Yaffs

/-- An attempt of a write: the device that it finds, and the page that it has been given. -/
structure Attempt (Flash : Type) where
  dev : Dev Flash
  block : Nat
  page : Nat

namespace Attempt

variable {Flash : Type} (T : Tagger Flash) (data : Buf) (tags : ExtTags) (a : Attempt Flash)

/-- Number of the page. -/
def chunk : Nat := a.block * a.dev.param.chunksPerBlock + a.page

/-- Does the check apply to the page? -/
def checked : Bool :=
  a.dev.param.alwaysCheckErased || !(a.dev.blockInfo a.block).skipErasedCheck

/-- The device before the page is looked at. -/
def ready : Dev Flash := a.dev.resetErasedCheck a.block

/-- What reading the page gives before it is programmed. -/
def found : Bool × Buf × ExtTags := (a.ready.rdChunkTagsNand T a.chunk).1

/-- The read has succeeded without an error to be corrected, and the tags are unused. -/
def LooksErased : Prop :=
  (a.found T).1 = true ∧ (a.found T).2.2.eccResult.code ≤ EccResult.noError.code ∧
    (a.found T).2.2.chunkUsed = false

/-- The page is erased: besides, all its data bytes are `0xff`. -/
def IsErased : Prop := a.LooksErased T ∧ ∀ i < a.dev.dataBytesPerChunk, (a.found T).2.1 i = 0xff

instance : Decidable (a.LooksErased T) := inferInstanceAs (Decidable (_ ∧ _ ∧ _))

/-- The device when the page is programmed. -/
def erased : Bool × Dev Flash := a.ready.erasedCheck T a.block a.chunk

/-- The page is programmed. -/
def programmed : Bool × Dev Flash := (a.erased T).2.wrChunkTagsNand T a.chunk (some data) tags

/-- What reading the page gives after it has been programmed. -/
def readBack : Bool × Buf × ExtTags :=
  ((a.programmed T data tags).2.rdChunkTagsNand T a.chunk).1

/-- The page is programmed and, if the check applies, read back. -/
def verified : Bool × Dev Flash := (a.erased T).2.wrVerified T a.block a.chunk data tags

/-- The page is programmed: it is written for good, or the failure is handled. -/
def afterProgram : Bool × Dev Flash :=
  let verified := a.verified T data tags
  if verified.1 then
    (true, verified.2.modifyBlockInfo a.block fun info => { info with skipErasedCheck := true })
  else (false, verified.2.handleChunkWrError T a.chunk (a.erased T).1)

/-- The page is deleted and the rest of its block abandoned. -/
def afterRejection : Bool × Dev Flash :=
  (false, ((a.erased T).2.chunkDel T a.chunk true).skipRestOfBlock)

/-- Is the page programmed? -/
def programs : Bool := !a.checked || (a.erased T).1

/-- The outcome of the attempt. -/
def tried : Bool × Dev Flash := a.dev.tryChunk T a.block a.page data tags

/-- The check after the page has been programmed finds what was written: the data, and those of the
tags that it looks at. -/
def Verifies : Prop :=
  (a.readBack T data tags).1 = true ∧
    (∀ i < (a.programmed T data tags).2.dataBytesPerChunk,
      (a.readBack T data tags).2.1 i = data i) ∧
    (a.readBack T data tags).2.2.objId = tags.objId ∧
    (a.readBack T data tags).2.2.chunkId = tags.chunkId ∧
    (a.readBack T data tags).2.2.nBytes = tags.nBytes

/-- The page that was read back holds the data and the tags, as they are packed. -/
def Holds : Prop :=
  a.Verifies T data tags ∧
    packTags2TagsOnly (a.readBack T data tags).2.2 = packTags2TagsOnly tags

end Attempt

namespace Dev

variable {Flash : Type} (T : Tagger Flash) (data : Buf) (tags : ExtTags) (useReserver : Bool)

/-- The write loop is at a device after a number of failed attempts. -/
inductive Reached (start : Dev Flash) : Nat → Dev Flash → Prop
  | start : Reached start 0 start
  | next {attempts : Nat} {dev : Dev Flash} {a : Attempt Flash}
    (reached : Reached start attempts dev)
    (allocated : dev.allocChunk useReserver = (some (a.block, a.page), a.dev))
    (failed : (a.tried T data tags).1 = false)
    (goesOn : dev.param.wrAttempts = 0 ∨ attempts + 1 ≤ dev.param.wrAttempts) :
    Reached start (attempts + 1) (a.tried T data tags).2

/-- The write loop makes an attempt. -/
structure Attempted (start : Dev Flash) (attempts : Nat) (dev : Dev Flash) (a : Attempt Flash) :
    Prop where
  reached : Reached T data tags useReserver start attempts dev
  allocated : dev.allocChunk useReserver = (some (a.block, a.page), a.dev)

/-- Pages are programmed only onto erased flash, and counted as written only if they have been. -/
structure Careful (dev : Dev Flash) : Prop where
  /-- A page is programmed only if it is erased, where the check applies. -/
  programs : ∀ attempts dev' a, Attempted T data tags useReserver (dev.checkptInvalidate T) attempts
    dev' a → a.checked → a.programs T → a.IsErased T
  /-- A page that is not is deleted, the rest of its block abandoned, and the next one tried. -/
  rejects : ∀ attempts dev' a, Attempted T data tags useReserver (dev.checkptInvalidate T) attempts
    dev' a → a.checked → ¬a.IsErased T →
      a.tried T data tags = a.afterRejection T ∧
        (dev'.param.wrAttempts = 0 ∨ attempts + 1 ≤ dev'.param.wrAttempts →
          Reached T data tags useReserver (dev.checkptInvalidate T) (attempts + 1)
            (a.afterRejection T).2)
  /-- An attempt succeeds only if the page has been programmed and, when checked, read back. -/
  succeeds : ∀ attempts dev' a, Attempted T data tags useReserver (dev.checkptInvalidate T) attempts
    dev' a → (a.tried T data tags).1 = true →
      (a.programmed T data tags).1 = true ∧ (a.checked → a.Holds T data tags)
  /-- A page is returned only for such an attempt. -/
  returns : ∀ chunk, (dev.writeNewChunk T data tags useReserver).1 = some chunk →
    ∃ attempts dev' a, Attempted T data tags useReserver (dev.checkptInvalidate T) attempts dev' a ∧
      a.chunk = chunk ∧ (a.programmed T data tags).1 = true ∧ (a.checked → a.Holds T data tags)

/-- What the checks do not look at is as it should be: a page that looks erased has no other data,
and a page that verifies was programmed without an error and has the other tags as well. -/
structure Plain (dev : Dev Flash) : Prop where
  blank : ∀ attempts dev' a, Attempted T data tags useReserver (dev.checkptInvalidate T) attempts
    dev' a → a.checked → a.LooksErased T → ∀ i < a.dev.dataBytesPerChunk, (a.found T).2.1 i = 0xff
  honest : ∀ attempts dev' a, Attempted T data tags useReserver (dev.checkptInvalidate T) attempts
    dev' a → a.checked → a.LooksErased T → a.Verifies T data tags →
      (a.programmed T data tags).1 = true ∧
        packTags2TagsOnly (a.readBack T data tags).2.2 = packTags2TagsOnly tags

end Dev

/-! ## The flag that turns the checks off -/

namespace Dev

variable {Flash : Type} (T : Tagger Flash) (dev : Dev Flash)

/-- Is the check of a block turned off? -/
def skips (block : Nat) : Bool := (dev.blockInfo block).skipErasedCheck

theorem skips_modifyBlockInfo (block other : Nat) (change : BlockInfo → BlockInfo)
    (same : ∀ info, (change info).skipErasedCheck = info.skipErasedCheck) :
    (dev.modifyBlockInfo block change).skips other = dev.skips other := by
  rw [skips, blockInfo_modifyBlockInfo]
  split
  case isTrue here => rw [same, here, skips]
  case isFalse => rfl

theorem skips_handleChunkError (block other : Nat) :
    (dev.handleChunkError block).skips other = dev.skips other :=
  dev.skips_modifyBlockInfo block other noteChunkError fun info => by
    simp only [noteChunkError]
    split <;> rfl

theorem skips_rdChunkTagsNand (chunk other : Nat) :
    (dev.rdChunkTagsNand T chunk).2.skips other = dev.skips other := by
  simp only [rdChunkTagsNand]
  split
  · exact skips_handleChunkError _ _ other
  · rfl

theorem skips_summaryWriteLoop (block other : Nat) (header : List UInt8) (chunk : Int)
    (fuel index : Nat) (bytes : List UInt8) :
    (summaryWriteLoop T block header chunk fuel index bytes dev).2.skips other =
      dev.skips other := by
  induction fuel generalizing index bytes dev with
  | zero => rfl
  | succ fuel ih =>
    have counted : ∀ dev' : Dev Flash, (dev'.countSummaryPage block
        (dev'.chunksPerSummary + index)).skips other = dev'.skips other := fun dev' =>
      skips_modifyBlockInfo _ block other
        (fun info => { info with pagesInUse := signedField10 (info.pagesInUse + 1) }) fun _ => rfl
    simp only [summaryWriteLoop]
    split
    case isTrue => rfl
    case isFalse =>
      split
      case isTrue => exact counted _
      case isFalse => exact (ih _ _ _).trans (counted _)

theorem skips_skipRestOfBlock (other : Nat) : dev.skipRestOfBlock.skips other = dev.skips other := by
  simp only [skipRestOfBlock]
  split
  case h_1 block _ =>
    split
    · exact dev.skips_modifyBlockInfo block other (fun info => { info with blockState := .full })
        fun _ => rfl
    · rfl
  case h_2 => rfl

theorem skips_summaryAdd (tags : ExtTags) (chunk other : Nat) :
    (dev.summaryAdd T tags chunk).skips other = dev.skips other := by
  simp only [summaryAdd]
  split
  case h_1 => rfl
  case h_2 =>
    split
    case isFalse => rfl
    case isTrue =>
      split
      case isFalse => rfl
      case isTrue =>
        rw [skips_skipRestOfBlock]
        simp only [summaryWrite]
        split
        · exact (skips_modifyBlockInfo _ _ other (fun info => { info with hasSummary := true })
            fun _ => rfl).trans
            (skips_summaryWriteLoop T _ _ other _ _ _ _ _)
        · exact skips_summaryWriteLoop T _ _ other _ _ _ _ _

theorem skips_wrChunkTagsNand (chunk : Nat) (data : Option Buf) (tags : ExtTags) (other : Nat) :
    (dev.wrChunkTagsNand T chunk data tags).2.skips other = dev.skips other :=
  skips_summaryAdd T _ _ chunk other

end Dev

/-! ## Attempts -/

namespace Attempt

variable {Flash : Type} (T : Tagger Flash) (data : Buf) (tags : ExtTags) (a : Attempt Flash)

theorem skips_ready : a.ready.skips a.block = !a.checked := by
  simp only [ready, Dev.resetErasedCheck, checked]
  split
  case isTrue always =>
    rw [always, Dev.skips, Dev.blockInfo_modifyBlockInfo, if_pos rfl]
    rfl
  case isFalse sometimes =>
    rw [Bool.eq_false_of_not_eq_true sometimes, Bool.false_or, Bool.not_not]
    rfl

theorem erased_of_checked (checked : a.checked = true) :
    a.erased T = a.ready.checkChunkErased T a.chunk := by
  have skips := a.skips_ready
  rw [checked, Bool.not_true] at skips
  simp only [erased, Dev.erasedCheck]
  exact if_neg (by rw [← Dev.skips, skips]; exact Bool.false_ne_true)

/-- The check before a page is programmed finds out whether it looks erased. -/
theorem erased_iff (checked : a.checked = true) : (a.erased T).1 = true ↔ a.LooksErased T := by
  rw [erased_of_checked T a checked, LooksErased, found]
  simp only [Dev.checkChunkErased, Bool.and_eq_true, Bool.not_eq_true', decide_eq_false_iff_not,
    Nat.not_lt, and_assoc]

theorem skips_programmed : (a.programmed T data tags).2.skips a.block = !a.checked := by
  simp only [programmed]
  rw [Dev.skips_wrChunkTagsNand, ← skips_ready]
  simp only [erased, Dev.erasedCheck]
  split
  · rfl
  · exact Dev.skips_rdChunkTagsNand T a.ready a.chunk a.block

theorem verified_eq : a.verified T data tags =
    if a.checked then
      (a.programmed T data tags).2.verifyChunkWritten T a.chunk data tags
    else a.programmed T data tags := by
  have skips := a.skips_programmed T data tags
  change (if (a.programmed T data tags).2.skips a.block then a.programmed T data tags
    else (a.programmed T data tags).2.verifyChunkWritten T a.chunk data tags) = _
  rw [skips]
  cases a.checked <;> rfl

/-- The check after a page has been programmed finds out whether it verifies. -/
theorem verified_iff (checked : a.checked = true) :
    (a.verified T data tags).1 = true ↔ a.Verifies T data tags := by
  rw [verified_eq, if_pos checked, Verifies, readBack]
  simp only [Dev.verifyChunkWritten, Bool.and_eq_true, List.all_eq_true, List.mem_range,
    beq_iff_eq, decide_eq_true_eq, and_assoc]

/-- An attempt programs the page or rejects it. -/
theorem tried_eq : a.tried T data tags =
    if a.programs T then a.afterProgram T data tags else a.afterRejection T := by
  have skips := a.skips_ready
  have rejected_iff : (¬(a.ready.blockInfo a.block).skipErasedCheck ∧ ¬(a.erased T).1) ↔
      ¬a.programs T := by
    rw [← Dev.skips, skips, programs]
    cases a.checked <;> simp
  simp only [tried, Dev.tryChunk]
  change (if ¬(a.ready.blockInfo a.block).skipErasedCheck ∧ ¬(a.erased T).1 then a.afterRejection T
    else a.afterProgram T data tags) = _
  by_cases programs : a.programs T = true
  · rw [if_neg fun rejected => rejected_iff.mp rejected programs, if_pos programs]
  · rw [if_pos (rejected_iff.mpr programs), if_neg programs]

/-- An attempt succeeds if the page is programmed and what is asked of it then holds. -/
theorem tried_iff : (a.tried T data tags).1 = true ↔
    a.programs T = true ∧ (a.verified T data tags).1 = true := by
  rw [tried_eq]
  split
  case isTrue programs =>
    simp only [programs, afterProgram, true_and]
    split
    case isTrue verified => exact ⟨fun _ => verified, fun _ => rfl⟩
    case isFalse failed => exact ⟨nofun, fun verified => absurd verified failed⟩
  case isFalse rejected => exact ⟨nofun, fun both => absurd both.1 rejected⟩

end Attempt

/-! ## The write loop -/

namespace Dev

variable {Flash : Type} {T : Tagger Flash} {data : Buf} {tags : ExtTags} {useReserver : Bool}

theorem findAllocBlock_param (dev : Dev Flash) : dev.findAllocBlock.2.param = dev.param := by
  have looped : ∀ (left : Nat) (dev : Dev Flash),
      (findAllocBlockLoop left dev).2.param = dev.param := by
    intro left
    induction left with
    | zero => exact fun _ => rfl
    | succ left ih =>
      intro dev
      simp only [findAllocBlockLoop]
      split
      · rfl
      · exact ih _
  simp only [findAllocBlock]
  split
  · rfl
  · exact looped _ dev

theorem allocChunk_param (dev : Dev Flash) (useReserver : Bool) :
    (dev.allocChunk useReserver).2.param = dev.param := by
  have ensured : dev.ensureAllocBlock.param = dev.param := by
    simp only [ensureAllocBlock]
    split
    · rfl
    · exact findAllocBlock_param dev
  have available : (dev.ensureAllocBlock.mayAlloc useReserver).2.param = dev.param := by
    refine Eq.trans ?_ ensured
    simp only [mayAlloc]
    split
    · rfl
    · simp only [checkAllocAvailable, calcCheckptBlocksRequired]
      split
      · rfl
      · dsimp only
        split <;> rfl
  simp only [allocChunk]
  split
  case isTrue => exact available
  case isFalse =>
    split
    case h_1 =>
      refine Eq.trans ?_ available
      simp only [takeAllocPage]
      split <;> rfl
    case h_2 => exact available

/-- A page is returned by an attempt that the loop makes and that succeeds. -/
theorem attempted_of_loop {start : Dev Flash} (fuel attempts : Nat) {dev : Dev Flash}
    (reached : Reached T data tags useReserver start attempts dev) {chunk : Nat}
    (returned : (writeNewChunkLoop T data tags useReserver fuel attempts dev).1 = some chunk) :
    ∃ attempts' dev' a, Attempted T data tags useReserver start attempts' dev' a ∧
      a.chunk = chunk ∧ (a.tried T data tags).1 = true := by
  induction fuel generalizing attempts dev with
  | zero => cases returned
  | succ fuel ih =>
    simp only [writeNewChunkLoop] at returned
    split at returned
    case h_1 => cases returned
    case h_2 block page allocated =>
      let a : Attempt Flash := { dev := (dev.allocChunk useReserver).2, block, page }
      have attempted : Attempted T data tags useReserver start attempts dev a :=
        ⟨reached, Prod.ext allocated rfl⟩
      split at returned
      case isTrue succeeded =>
        refine ⟨attempts, dev, a, attempted, ?_, succeeded⟩
        have same_param : a.dev.param = dev.param := allocChunk_param dev useReserver
        rw [Attempt.chunk, same_param]
        exact Option.some.inj returned
      case isFalse failed =>
        split at returned
        case isFalse => cases returned
        case isTrue goes_on =>
          exact ih (attempts + 1) (.next reached attempted.allocated
            (Bool.eq_false_of_not_eq_true failed) goes_on) returned

/-- Writing a new page is careful exactly if what its checks do not look at is as it should be. -/
theorem careful_iff_plain (dev : Dev Flash) :
    dev.Careful T data tags useReserver ↔ dev.Plain T data tags useReserver := by
  constructor
  · intro careful
    constructor
    · intro attempts dev' a attempted checked looks_erased
      have programs : a.programs T = true := by
        rw [Attempt.programs, (a.erased_iff T checked).mpr looks_erased, Bool.or_true]
      exact (careful.programs attempts dev' a attempted checked programs).2
    · intro attempts dev' a attempted checked looks_erased verifies
      have succeeded : (a.tried T data tags).1 = true := by
        refine (a.tried_iff T data tags).mpr ⟨?_, (a.verified_iff T data tags checked).mpr verifies⟩
        rw [Attempt.programs, (a.erased_iff T checked).mpr looks_erased, Bool.or_true]
      obtain ⟨programmed, holds⟩ := careful.succeeds attempts dev' a attempted succeeded
      exact ⟨programmed, (holds checked).2⟩
  · intro plain
    have succeeds : ∀ attempts dev' a, Attempted T data tags useReserver (dev.checkptInvalidate T)
        attempts dev' a → (a.tried T data tags).1 = true →
          (a.programmed T data tags).1 = true ∧ (a.checked → a.Holds T data tags) := by
      intro attempts dev' a attempted succeeded
      obtain ⟨programs, verified⟩ := (a.tried_iff T data tags).mp succeeded
      by_cases checked : a.checked = true
      · have looks_erased : a.LooksErased T := by
          rw [Attempt.programs, checked, Bool.not_true, Bool.false_or] at programs
          exact (a.erased_iff T checked).mp programs
        have verifies := (a.verified_iff T data tags checked).mp verified
        obtain ⟨programmed, packed⟩ :=
          plain.honest attempts dev' a attempted checked looks_erased verifies
        exact ⟨programmed, fun _ => ⟨verifies, packed⟩⟩
      · rw [Attempt.verified_eq, if_neg checked] at verified
        exact ⟨verified, fun is_checked => absurd is_checked checked⟩
    constructor
    · intro attempts dev' a attempted checked programs
      rw [Attempt.programs, checked, Bool.not_true, Bool.false_or] at programs
      have looks_erased := (a.erased_iff T checked).mp programs
      exact ⟨looks_erased, plain.blank attempts dev' a attempted checked looks_erased⟩
    · intro attempts dev' a attempted checked not_erased
      have rejected : ¬a.programs T = true := by
        intro programs
        rw [Attempt.programs, checked, Bool.not_true, Bool.false_or] at programs
        have looks_erased := (a.erased_iff T checked).mp programs
        exact not_erased ⟨looks_erased, plain.blank attempts dev' a attempted checked looks_erased⟩
      have tried : a.tried T data tags = a.afterRejection T := by
        rw [Attempt.tried_eq, if_neg rejected]
      refine ⟨tried, fun goes_on => ?_⟩
      have next := Reached.next attempted.reached attempted.allocated (by rw [tried]; rfl) goes_on
      rw [tried] at next
      exact next
    · exact succeeds
    · intro chunk returned
      obtain ⟨attempts, dev', a, attempted, chunk_eq, succeeded⟩ :=
        attempted_of_loop _ 0 .start returned
      exact ⟨attempts, dev', a, attempted, chunk_eq,
        succeeds attempts dev' a attempted succeeded⟩

/-- A flash whose pages hold data under tags that read as unused, as after a page program that was
cut off before it came to the tags. -/
def halfWritten : RamFlash := fun _ => some (fun _ => 0, { eccResult := .noError })

/-- The erased device, but with pages that are half written. -/
def halfWrittenDevice : Dev RamFlash := { ramDevice with flash := halfWritten }

/-- Such a page is programmed. -/
theorem not_careful_of_halfWritten :
    ¬halfWrittenDevice.Careful (ramTagger 2) (fun _ => 0) { objId := 256, chunkId := 1 } true := by
  intro careful
  let start := halfWrittenDevice.checkptInvalidate (ramTagger 2)
  let a : Attempt RamFlash := { dev := (start.allocChunk true).2, block := 1, page := 0 }
  have allocated : (start.allocChunk true).1 = some (1, 0) := by decide +kernel
  have attempted : Attempted (ramTagger 2) (fun _ => 0) { objId := 256, chunkId := 1 } true start 0
      start a := ⟨.start, Prod.ext allocated rfl⟩
  have checked : a.checked = true := by decide +kernel
  have programs : a.programs (ramTagger 2) = true := by decide +kernel
  have is_erased := careful.programs 0 start a attempted checked programs
  have first_byte := is_erased.2 0 (by decide +kernel)
  have is_zero : (a.found (ramTagger 2)).2.1 0 = 0 := by decide +kernel
  rw [is_zero] at first_byte
  exact absurd first_byte (by decide)

end Dev

end Yaffs
