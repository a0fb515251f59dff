import Yaffs.Checkpoint

/-!
# Rules for the checkpoint writer

All that the writer does to the device between opening and closing the stream is storing a byte in
the buffer and flushing the buffer.  What both preserve, every part of the checkpoint preserves, and
so does it what writing a byte preserves, which is both together when a page is full.
-/

namespace Yaffs.Dev

variable {Flash : Type} (T : Tagger Flash)

/-- A property of the device that the two actions of the writer preserve. -/
structure WriterInvariant (inv : Dev Flash → Prop) : Prop where
  putByte : ∀ dev byte, inv dev → inv (dev.checkptPutByte byte)
  flush : ∀ dev, inv dev → inv (dev.checkptFlushBuffer T).2

/-- A property of the device that writing one byte preserves. -/
structure ByteInvariant (inv : Dev Flash → Prop) : Prop where
  wrByte : ∀ dev byte, inv dev → inv (dev.checkptWrByte T byte).2

theorem WriterInvariant.andThen {inv : Dev Flash → Prop} {written : Bool × Dev Flash}
    (part : Dev Flash → Bool × Dev Flash) (before : inv written.2)
    (step : inv written.2 → inv (part written.2).2) : inv (Dev.andThen written part).2 := by
  unfold Dev.andThen
  split
  · exact step before
  · exact before

namespace ByteInvariant

variable {T} {inv : Dev Flash → Prop} (rule : ByteInvariant T inv) {dev : Dev Flash}

include rule

theorem wrLoop (data : Dev Flash → Nat → UInt8) (left written : Nat) (holds : inv dev) :
    inv (checkptWrLoop T data left written dev).2 := by
  induction left generalizing written dev with
  | zero => exact holds
  | succ left ih =>
    have put := rule.wrByte dev (data dev written) holds
    rw [checkptWrLoop]
    split
    · exact ih (written + 1) put
    · exact put

theorem wr (data : Dev Flash → Nat → UInt8) (nBytes : Nat) (holds : inv dev) :
    inv (dev.checkptWr T data nBytes).2 := by
  simp only [checkptWr]
  split
  · exact holds
  · split
    · exact holds
    · exact rule.wrLoop data nBytes 0 holds

theorem wrRecord (record : List UInt8) (holds : inv dev) :
    inv (dev.checkptWrRecord T record).2 :=
  rule.wr _ _ holds

theorem wrRecords (records : List (List UInt8)) (holds : inv dev) :
    inv (wrCheckptRecords T records dev).2 := by
  induction records generalizing dev with
  | nil => exact holds
  | cons record rest ih =>
    have written := rule.wrRecord record holds
    rw [wrCheckptRecords]
    split
    · exact ih written
    · exact written

theorem wrSwappedBlocks (blocks : List Nat) (holds : inv dev) :
    inv (wrCheckptSwappedBlocks T blocks dev).2 := by
  induction blocks generalizing dev with
  | nil => exact holds
  | cons block rest ih =>
    have written := rule.wrRecord ((dev.blockInfo block).bytes true) holds
    rw [wrCheckptSwappedBlocks]
    split
    · exact ih written
    · exact written

theorem wrBlockInfo (holds : inv dev) : inv (dev.wrCheckptBlockInfo T).2 := by
  unfold wrCheckptBlockInfo
  split
  · exact rule.wrSwappedBlocks _ holds
  · exact rule.wr _ _ holds

theorem wrDev (holds : inv dev) : inv (dev.wrCheckptDev T).2 := by
  have counters := rule.wrRecord dev.checkptDev holds
  have table := rule.wrBlockInfo counters
  simp only [wrCheckptDev]
  split
  · exact counters
  · split
    · exact table
    · exact rule.wr _ _ table

theorem wrBucket (bucket : List (List (List UInt8))) (ok : Bool) (holds : inv dev) :
    inv (wrCheckptBucket T bucket ok dev).2 := by
  induction bucket generalizing dev ok with
  | nil => exact holds
  | cons records rest ih => exact ih _ (rule.wrRecords records holds)

theorem wrBuckets (buckets : List (List (List (List UInt8)))) (holds : inv dev) :
    inv (wrCheckptBuckets T buckets dev).2 := by
  induction buckets generalizing dev with
  | nil => exact holds
  | cons bucket rest ih =>
    have written := rule.wrBucket bucket true holds
    rw [wrCheckptBuckets]
    split
    · exact ih written
    · exact written

theorem wrObjs (buckets : List (List (List (List UInt8)))) (holds : inv dev) :
    inv (dev.wrCheckptObjs T buckets).2 := by
  have written := rule.wrBuckets buckets holds
  simp only [wrCheckptObjs]
  split
  · exact rule.wrRecord _ written
  · exact written

/-- Writing all parts of the checkpoint preserves what writing one byte preserves. -/
theorem wrParts (buckets : List (List (List (List UInt8)))) (holds : inv dev) :
    inv (dev.wrCheckptParts T buckets).2 := by
  have head := rule.wrRecord (dev.checkptValidity true) holds
  exact WriterInvariant.andThen _ (WriterInvariant.andThen _ (WriterInvariant.andThen _
    (WriterInvariant.andThen _ head rule.wrDev) (rule.wrObjs buckets))
    (rule.wrRecord _)) (rule.wrRecord _)

end ByteInvariant

namespace WriterInvariant

variable {T} {inv : Dev Flash → Prop} {dev : Dev Flash}

/-- Writing a byte is storing it and, if the page is full, flushing the buffer. -/
theorem bytes (rule : WriterInvariant T inv) : ByteInvariant T inv where
  wrByte dev byte holds := by
    have put : inv (dev.checkptPutByte byte) := rule.putByte dev byte holds
    simp only [checkptWrByte]
    split
    · exact rule.flush _ put
    · exact put

/-- Writing all parts of the checkpoint preserves what the two actions preserve. -/
theorem wrParts (rule : WriterInvariant T inv) (buckets : List (List (List (List UInt8))))
    (holds : inv dev) : inv (dev.wrCheckptParts T buckets).2 :=
  rule.bytes.wrParts buckets holds

end WriterInvariant

end Yaffs.Dev
