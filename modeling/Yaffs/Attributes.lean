import Yaffs.HeaderPages
import Yaffs.NameVal
import Yaffs.Objects
import Yaffs.Library.Execution

/-!
# Extended attributes and the headers they lie behind

The extended attributes of an object fill the rest of its header page.  Whoever writes a new header
takes them over from the old page: a buffer is filled with the old page, the header in it is made up
anew, and the rest is written as it is.  The garbage collection copies header pages.  An object
remembers whether it has any attributes at all.
-/

namespace Yaffs.Stored

/-! ## Header pages with attributes -/

/-- A page with a header, and the area behind the header. -/
structure AttrPage where
  header : HeaderPage
  area : Buf

/-- What an object remembers of its header page. -/
structure AttrObj where
  /-- Zero or less if there is none. -/
  hdrChunk : Int := 0
  fake : Bool := false
  xattrKnown : Bool := false
  hasXattr : Bool := false
deriving DecidableEq, Repr

/-- The objects of a device, and its pages as a read finds them. -/
structure AttrDev where
  pages : Int → AttrPage
  objs : Nat → Option AttrObj := fun _ => none

/-- How a page is read: as it is, or with something left in the buffer by a read that fails. -/
inductive PageRead
  | ok
  | failed (left : AttrPage)

/-- What is asked of the attributes, with the size of the caller's buffer. -/
inductive XattrQuery
  | get (name : List UInt8) (bsize : Int)
  | list (bsize : Int)

/-- The answer of the attributes: a result with the bytes in the caller's buffer, or a failure. -/
inductive XattrAnswer
  | found (result : Int) (bytes : List UInt8)
  | refused (error : NvalError)
  /-- The header cannot be read. -/
  | unread
deriving DecidableEq

/-- A page that has been erased. -/
def AttrPage.erased : AttrPage where
  header :=
    { oh := ObjHdr.blank
      ptt := { seqNumber := 0xffffffff, objId := 0xffffffff, chunkId := 0xffffffff
               nBytes := 0xffffffff } }
  area _ := 0xff

namespace PageFormat

variable (fmt : PageFormat)

/-- Size of the area for attributes. -/
def attrSize : Nat := fmt.dataBytesPerChunk - ObjHdr.layout.size

/-- What an area of attributes answers. -/
def areaAnswer (area : Buf) : XattrQuery → XattrAnswer
  | .get name bsize =>
    match nvalGet fmt.swapEndian area fmt.attrSize name bsize with
    | .ok (size, bytes) => .found size bytes
    | .error error => .refused error
  | .list bsize =>
    let names := nvalList fmt.swapEndian area fmt.attrSize bsize
    .found names.length names

/-- Two areas that answer alike hold the same attributes. -/
def SameAttrs (area other : Buf) : Prop := ∀ query, fmt.areaAnswer area query = fmt.areaAnswer other query

end PageFormat

/-- The answer where there are no attributes. -/
def XattrQuery.noAttrs : XattrQuery → XattrAnswer
  | .get _ _ => .refused .enodata
  | .list _ => .found 0 []

namespace AttrDev

variable (fmt : PageFormat) (dev : AttrDev)

/-- Change what an object remembers. -/
def setObj (number : Nat) (obj : AttrObj) : AttrDev :=
  { dev with objs := Function.update dev.objs number (some obj) }

/-- Write a page. -/
def setPage (chunk : Int) (page : AttrPage) : AttrDev :=
  { dev with pages := Function.update dev.pages chunk page }

/-- The buffer for a new header: ones for the header, and what the read of the old page has left
behind it. -/
def headerBuffer (obj : AttrObj) (read : PageRead) : ObjHdr × Buf :=
  if 0 < obj.hdrChunk then
    match read with
    | .ok => (ObjHdr.blank, (dev.pages obj.hdrChunk).area)
    | .failed left => (left.header.oh, left.area)
  else (ObjHdr.blank, fun _ => 0xff)

/-- Change the attributes in a buffer, and note whether there are any. -/
def applyXattribMod (obj : AttrObj) (area : Buf) (xmod : NvalStep) :
    Option NvalError × AttrObj × Buf :=
  let changed := xmod.exec fmt.swapEndian fmt.attrSize area
  (changed.1,
    { obj with
      hasXattr := nvalHasvalues fmt.swapEndian changed.2 fmt.attrSize
      xattrKnown := true },
    changed.2)

/-- Write a new header for an object, to a page of a block with some sequence number, or to none if
there is no page to be had. -/
def updateOh (number : Nat) (src : HdrSource) (force : Bool) (xmod : Option NvalStep) (read : PageRead)
    (newChunk : Option Int) (seqNumber : Nat) : Option NvalError × AttrDev :=
  match dev.objs number with
  | none => (none, dev)
  | some obj =>
    if obj.fake ∧ number ≠ objectIdRoot ∧ ¬force ∧ xmod.isNone then (none, dev)
    else
      let buffer := dev.headerBuffer obj read
      let page := fmt.updateOh src buffer.1 seqNumber
      let changed := match xmod with
        | none => (none, obj, buffer.2)
        | some xmod => applyXattribMod fmt obj buffer.2 xmod
      match newChunk with
      | none => (changed.1, dev.setObj number changed.2.1)
      | some newChunk =>
        (changed.1, (dev.setPage newChunk ⟨page, changed.2.2⟩).setObj number
          { changed.2.1 with hdrChunk := newChunk })

/-- Set or remove an attribute.  Whatever keeps the header from being written is reported as a lack
of space. -/
def doXattribMod (number : Nat) (src : HdrSource) (xmod : NvalStep) (read : PageRead)
    (newChunk : Option Int) (seqNumber : Nat) : Option NvalError × AttrDev :=
  let updated := dev.updateOh fmt number src false (some xmod) read newChunk seqNumber
  (if newChunk.isSome then updated.1 else some .enospc, updated.2)

/-- Ask for attributes. -/
def doXattribFetch (number : Nat) (query : XattrQuery) (read : PageRead) : XattrAnswer × AttrDev :=
  match dev.objs number with
  | none => (.unread, dev)
  | some obj =>
    if obj.hdrChunk < 1 then (.refused .enodata, dev)
    else if obj.xattrKnown ∧ ¬obj.hasXattr then (query.noAttrs, dev)
    else
      match read with
      | .failed _ => (.unread, dev)
      | .ok =>
        let area := (dev.pages obj.hdrChunk).area
        let obj :=
          if obj.xattrKnown then obj
          else
            { obj with
              hasXattr := nvalHasvalues fmt.swapEndian area fmt.attrSize
              xattrKnown := true }
        (fmt.areaAnswer area query, dev.setObj number obj)

/-- Copy the header page of an object out of a block that is collected, for an object of some type
and size.  The object that the copy is made for is the one in the tags, and those are anything if the
read fails. -/
def gcProcessChunk (number : Nat) (objectType : ObjType) (storedSize : Nat) (read : PageRead)
    (tagged : Option Nat) (newChunk : Option Int) (seqNumber : Nat) : AttrDev :=
  match dev.objs number with
  | none => dev
  | some obj =>
    let found := match read with
      | .ok => (dev.pages obj.hdrChunk, some number)
      | .failed left => (left, tagged)
    let target := found.2.bind fun target => (dev.objs target).map fun obj => (target, obj)
    match target, newChunk with
    | none, _ => dev.setPage obj.hdrChunk .erased
    | some _, none => dev
    | some (target, targetObj), some newChunk =>
      let page := fmt.gcProcessChunk objectType storedSize found.1.header seqNumber
      ((dev.setPage obj.hdrChunk .erased).setPage newChunk ⟨page, found.1.area⟩).setObj target
        { targetObj with hdrChunk := newChunk }

/-- Mount the device anew.  The objects have their headers, and nothing is known of their
attributes. -/
def remount : AttrDev :=
  { dev with
    objs := fun number => (dev.objs number).map fun obj =>
      { obj with xattrKnown := false, hasXattr := false } }

end AttrDev

/-! ## Steps -/

/-- What happens to the objects and their header pages.  The garbage that is collected before a header
is written shows as steps of its own. -/
inductive AttrStep
  | create (number : Nat) (fake : Bool)
  | updateOh (number : Nat) (src : HdrSource) (force : Bool) (read : PageRead)
      (newChunk : Option Int) (seqNumber : Nat)
  | xattribMod (number : Nat) (src : HdrSource) (xmod : NvalStep) (read : PageRead)
      (newChunk : Option Int) (seqNumber : Nat)
  | xattribFetch (number : Nat) (query : XattrQuery) (read : PageRead)
  | gcProcessChunk (number : Nat) (objectType : ObjType) (storedSize : Nat) (read : PageRead)
      (tagged : Option Nat) (newChunk : Option Int) (seqNumber : Nat)
  /-- A page that holds the header of no object is written, or erased. -/
  | otherPage (chunk : Int) (page : AttrPage)
  | freeObj (number : Nat)
  | remount

/-- Does the step rewrite a header without changing any attributes? -/
def AttrStep.Rewrites : AttrStep → Prop
  | updateOh .. | gcProcessChunk .. => True
  | _ => False

namespace AttrDev

variable (fmt : PageFormat) (dev : AttrDev)

/-- A device without objects. -/
def blank (pages : Int → AttrPage) : AttrDev := { pages }

/-- Carry out a step. -/
def exec : AttrStep → AttrDev → AttrDev
  | .create number fake, dev => dev.setObj number { fake }
  | .updateOh number src force read newChunk seqNumber, dev =>
    (dev.updateOh fmt number src force none read newChunk seqNumber).2
  | .xattribMod number src xmod read newChunk seqNumber, dev =>
    (dev.doXattribMod fmt number src xmod read newChunk seqNumber).2
  | .xattribFetch number query read, dev => (dev.doXattribFetch fmt number query read).2
  | .gcProcessChunk number objectType storedSize read tagged newChunk seqNumber, dev =>
    dev.gcProcessChunk fmt number objectType storedSize read tagged newChunk seqNumber
  | .otherPage chunk page, dev => dev.setPage chunk page
  | .freeObj number, dev => { dev with objs := Function.update dev.objs number none }
  | .remount, dev => dev.remount

/-- A page that holds the header of no object. -/
def Unused (chunk : Int) : Prop :=
  0 < chunk ∧ ∀ number obj, dev.objs number = some obj → obj.hdrChunk ≠ chunk

/-- New pages are pages in no use, new objects have new numbers, and header pages are collected from
objects that have one. -/
def Possible : AttrStep → Prop
  | .create number _ => dev.objs number = none
  | .updateOh _ _ _ _ newChunk _ | .xattribMod _ _ _ _ newChunk _ =>
    ∀ chunk ∈ newChunk, dev.Unused chunk
  | .gcProcessChunk number _ _ _ _ newChunk _ =>
    (∃ obj, dev.objs number = some obj ∧ 0 < obj.hdrChunk) ∧ ∀ chunk ∈ newChunk, dev.Unused chunk
  | .otherPage chunk _ => dev.Unused chunk
  | _ => True

/-- The area of an object, if it has a header, holds the same attributes as another one. -/
def AreaSame (number : Nat) (area : Buf) : Prop :=
  ∀ obj, dev.objs number = some obj → 0 < obj.hdrChunk →
    fmt.SameAttrs area (dev.pages obj.hdrChunk).area

/-- When a step keeps the attributes.  A header that is rewritten is read first, or is not written, or
what happens to be left in the buffer is the same; a header page that is let go for want of its tags
had no attributes.  A change of attributes is written, or would leave attributes, or there is a header
without any. -/
def Keeps : AttrStep → Prop
  | .updateOh number _ force read newChunk _ =>
    match read with
    | .ok => True
    | .failed left =>
      newChunk = none ∨ dev.AreaSame fmt number left.area ∨
        number ≠ objectIdRoot ∧ force = false ∧ (dev.objs number).any AttrObj.fake
  | .gcProcessChunk number _ _ read tagged newChunk _ =>
    match read with
    | .ok => True
    | .failed left =>
      match tagged.filter fun target => (dev.objs target).isSome with
      | none => dev.AreaSame fmt number AttrPage.erased.area
      | some target =>
        newChunk = none ∨ dev.AreaSame fmt target left.area ∧
          (target = number ∨ dev.AreaSame fmt number AttrPage.erased.area)
  | .xattribMod number _ xmod read newChunk _ =>
    newChunk ≠ none ∨ ∀ obj, dev.objs number = some obj →
      (applyXattribMod fmt obj (dev.headerBuffer obj read).2 xmod).2.1.hasXattr = true ∨
        0 < obj.hdrChunk ∧
          ∀ query, fmt.areaAnswer (dev.pages obj.hdrChunk).area query = query.noAttrs
  | _ => True

/-- What the attributes of an object answer when the header can be read. -/
def answer (number : Nat) (query : XattrQuery) : XattrAnswer :=
  (dev.doXattribFetch fmt number query .ok).1

/-- The attributes of all objects with a header answer as they did, at once and after the device has
been mounted anew. -/
def Survive (before after : AttrDev) : Prop :=
  ∀ number obj, before.objs number = some obj → 0 < obj.hdrChunk → ∀ query,
    after.answer fmt number query = before.answer fmt number query ∧
      after.remount.answer fmt number query = before.answer fmt number query

/-- An object that is known to have no attributes has a header without any. -/
def InStep : Prop :=
  ∀ number obj, dev.objs number = some obj → obj.xattrKnown = true → obj.hasXattr = false →
    0 < obj.hdrChunk ∧ ∀ query, fmt.areaAnswer (dev.pages obj.hdrChunk).area query = query.noAttrs

/-- What holds of the objects after each step that keeps the attributes. -/
structure AttrSound : Prop where
  inStep : dev.InStep fmt
  /-- No two objects have the same header page. -/
  apart : ∀ number other obj otherObj, dev.objs number = some obj → dev.objs other = some otherObj →
    0 < obj.hdrChunk → obj.hdrChunk = otherObj.hdrChunk → number = other

end AttrDev

/-! ## Areas -/

namespace PageFormat

variable (fmt : PageFormat) {area other : Buf}

theorem SameAttrs.refl (area : Buf) : fmt.SameAttrs area area := fun _ => rfl

theorem le_nvalUsedLoop (swap : Bool) (xb : Buf) (xbSize fuel pos : Nat) (size : Int) :
    pos ≤ nvalUsedLoop swap xb xbSize fuel pos size := by
  induction fuel generalizing pos size with
  | zero => exact le_rfl
  | succ fuel ih =>
    rw [nvalUsedLoop]
    split
    · exact (Nat.le_add_right pos _).trans (ih _ _)
    · exact le_rfl

/-- An area without values has no record at its start. -/
theorem areaAnswer_of_no_values (none : nvalHasvalues fmt.swapEndian area fmt.attrSize = false)
    (query : XattrQuery) : fmt.areaAnswer area query = query.noAttrs := by
  have first : ¬(0 < nvalSize fmt.swapEndian area 0 ∧
      nvalSize fmt.swapEndian area 0 < fmt.attrSize) := by
    rintro ⟨pos, small⟩
    rw [nvalHasvalues, decide_eq_false_iff_not, nvalUsed, nvalUsedLoop,
      if_pos ⟨pos, small, by omega⟩] at none
    have start : 0 < 0 + (nvalSize fmt.swapEndian area 0).toNat := by omega
    exact none (start.trans_le (le_nvalUsedLoop ..))
  cases query with
  | get name bsize =>
    rw [areaAnswer, nvalGet, nvalFind, nvalFindLoop, if_neg fun inside => first ⟨inside.1, inside.2.1⟩]
    rfl
  | list bsize =>
    have ends : ¬(4 < nvalSize fmt.swapEndian area 0 ∧ nvalSize fmt.swapEndian area 0 ≤ fmt.attrSize ∧
        ((0 : Nat) : Int) + nvalSize fmt.swapEndian area 0 < fmt.attrSize) := by
      rintro ⟨big, -, inside⟩
      exact first ⟨by omega, by omega⟩
    rw [areaAnswer, nvalList, nvalListLoop, if_neg ends]
    rfl

end PageFormat

namespace AttrDev

variable {fmt : PageFormat} {dev before after : AttrDev} {number : Nat} {obj : AttrObj}

@[simp]
theorem setObj_objs (dev : AttrDev) (number : Nat) (obj : AttrObj) :
    (dev.setObj number obj).objs = Function.update dev.objs number (some obj) := rfl

@[simp]
theorem setObj_pages (dev : AttrDev) (number : Nat) (obj : AttrObj) :
    (dev.setObj number obj).pages = dev.pages := rfl

@[simp]
theorem setPage_objs (dev : AttrDev) (chunk : Int) (page : AttrPage) :
    (dev.setPage chunk page).objs = dev.objs := rfl

@[simp]
theorem setPage_pages (dev : AttrDev) (chunk : Int) (page : AttrPage) :
    (dev.setPage chunk page).pages = Function.update dev.pages chunk page := rfl

/-- An object with a header answers what its area does, unless it takes itself for one without
attributes. -/
theorem answer_eq (found : dev.objs number = some obj) (header : 0 < obj.hdrChunk)
    (query : XattrQuery) : dev.answer fmt number query =
      if obj.xattrKnown = true ∧ obj.hasXattr = false then query.noAttrs
      else fmt.areaAnswer (dev.pages obj.hdrChunk).area query := by
  have has_header : ¬obj.hdrChunk < 1 := by omega
  simp only [answer, doXattribFetch, found, if_neg has_header, Bool.not_eq_true]
  split <;> rfl

theorem InStep.answer (inStep : dev.InStep fmt) (found : dev.objs number = some obj)
    (header : 0 < obj.hdrChunk) (query : XattrQuery) :
    dev.answer fmt number query = fmt.areaAnswer (dev.pages obj.hdrChunk).area query := by
  rw [answer_eq found header]
  split
  case isTrue silent => exact ((inStep number obj found silent.1 silent.2).2 query).symm
  case isFalse => rfl

theorem remount_answer (found : dev.objs number = some obj) (header : 0 < obj.hdrChunk)
    (query : XattrQuery) :
    dev.remount.answer fmt number query = fmt.areaAnswer (dev.pages obj.hdrChunk).area query := by
  have found' : dev.remount.objs number =
      some { obj with xattrKnown := false, hasXattr := false } := by
    simp [remount, found]
  rw [answer_eq found' header, if_neg (by simp)]
  rfl

/-- The objects with a header have one afterwards too, and what they know of their attributes does not
change. -/
def Rehoused (before after : AttrDev) : Prop :=
  ∀ number obj, before.objs number = some obj → 0 < obj.hdrChunk →
    ∃ chunk, 0 < chunk ∧ after.objs number = some { obj with hdrChunk := chunk }

/-- The attributes survive if and only if the new areas hold the same as the old ones. -/
theorem survive_iff (inStep : before.InStep fmt) (rehoused : Rehoused before after) :
    Survive fmt before after ↔ ∀ number obj obj', before.objs number = some obj → 0 < obj.hdrChunk →
      after.objs number = some obj' →
        fmt.SameAttrs (after.pages obj'.hdrChunk).area (before.pages obj.hdrChunk).area := by
  constructor
  · intro survive number obj obj' found header found' query
    obtain ⟨chunk, positive, eq⟩ := rehoused number obj found header
    obtain rfl := Option.some.inj (found'.symm.trans eq)
    rw [← inStep.answer found header, ← (survive number obj found header query).2]
    exact (remount_answer found' positive query).symm
  · intro same number obj found header query
    obtain ⟨chunk, positive, found'⟩ := rehoused number obj found header
    have kept := same number obj _ found header found' query
    rw [inStep.answer found header, remount_answer found' positive, answer_eq found' positive]
    refine ⟨?_, kept⟩
    split
    case isTrue silent => exact ((inStep number obj found silent.1 silent.2).2 query).symm
    case isFalse => exact kept

/-! ## New headers -/

/-- An object has a new header page. -/
def renew (dev : AttrDev) (number : Nat) (obj : AttrObj) (chunk : Int) (page : AttrPage) : AttrDev :=
  (dev.setPage chunk page).setObj number { obj with hdrChunk := chunk }

theorem setObj_found (found : dev.objs number = some obj) : dev.setObj number obj = dev := by
  rw [setObj, ← found, Function.update_eq_self]

/-- Writing a header leaves all as it is, or gives the object a new header page with the area of the
buffer. -/
theorem updateOh_cases (fmt : PageFormat) (dev : AttrDev) (number : Nat) (src : HdrSource) (force : Bool)
    (read : PageRead) (newChunk : Option Int) (seqNumber : Nat) :
    (dev.updateOh fmt number src force none read newChunk seqNumber).2 = dev ∧
        (dev.objs number = none ∨ newChunk = none ∨
          number ≠ objectIdRoot ∧ force = false ∧ (dev.objs number).any AttrObj.fake) ∨
      ∃ obj chunk page, dev.objs number = some obj ∧ newChunk = some chunk ∧
        ¬(number ≠ objectIdRoot ∧ force = false ∧ (dev.objs number).any AttrObj.fake) ∧
        page.area = (dev.headerBuffer obj read).2 ∧
        (dev.updateOh fmt number src force none read newChunk seqNumber).2 =
          dev.renew number obj chunk page := by
  cases found : dev.objs number with
  | none => exact .inl ⟨by simp [updateOh, found], .inl rfl⟩
  | some obj =>
    simp only [updateOh, found, Option.any_some]
    by_cases skipped : obj.fake ∧ number ≠ objectIdRoot ∧ ¬force ∧ (none : Option NvalStep).isNone
    · rw [if_pos skipped]
      exact .inl ⟨rfl, .inr (.inr ⟨skipped.2.1, eq_false_of_ne_true skipped.2.2.1, skipped.1⟩)⟩
    · rw [if_neg skipped]
      cases newChunk with
      | none => exact .inl ⟨setObj_found found, .inr (.inl rfl)⟩
      | some chunk =>
        refine .inr ⟨obj, chunk, _, rfl, rfl, ?_, rfl, rfl⟩
        rintro ⟨not_root, not_forced, fake⟩
        exact skipped ⟨fake, not_root, by simp [not_forced], rfl⟩

/-- Copying a header page leaves all as it is, drops the page, or gives an object a new header page
with the area that has been found. -/
theorem gcProcessChunk_cases (fmt : PageFormat) (objectType : ObjType) (storedSize : Nat)
    (read : PageRead) (tagged : Option Nat) (newChunk : Option Int) (seqNumber : Nat)
    (found : dev.objs number = some obj) :
    let result := dev.gcProcessChunk fmt number objectType storedSize read tagged newChunk seqNumber
    let target := match read with
      | .ok => some number
      | .failed _ => tagged.filter fun target => (dev.objs target).isSome
    let area := match read with
      | .ok => (dev.pages obj.hdrChunk).area
      | .failed left => left.area
    (target = none ∧ result = dev.setPage obj.hdrChunk .erased) ∨
      (target ≠ none ∧ newChunk = none ∧ result = dev) ∨
      ∃ other otherObj chunk page, target = some other ∧ dev.objs other = some otherObj ∧
        newChunk = some chunk ∧ page.area = area ∧
        result = (dev.setPage obj.hdrChunk .erased).renew other otherObj chunk page := by
  cases read with
  | ok =>
    cases newChunk with
    | none => exact .inr (.inl ⟨by simp, rfl, by simp [gcProcessChunk, found]⟩)
    | some chunk =>
      let page := fmt.gcProcessChunk objectType storedSize (dev.pages obj.hdrChunk).header seqNumber
      refine .inr (.inr ⟨number, obj, chunk, ⟨page, _⟩, rfl, found, rfl, rfl, ?_⟩)
      simp [gcProcessChunk, found, renew, page]
  | failed left =>
    cases tagged with
    | none => exact .inl ⟨rfl, by simp [gcProcessChunk, found]⟩
    | some other =>
      cases held : dev.objs other with
      | none => exact .inl ⟨by simp [held], by simp [gcProcessChunk, found, held]⟩
      | some otherObj =>
        cases newChunk with
        | none => exact .inr (.inl ⟨by simp [held], rfl, by simp [gcProcessChunk, found, held]⟩)
        | some chunk =>
          let page := fmt.gcProcessChunk objectType storedSize left.header seqNumber
          refine .inr (.inr ⟨other, otherObj, chunk, ⟨page, _⟩, by simp [held], held, rfl, rfl, ?_⟩)
          simp [gcProcessChunk, found, held, renew, page]

theorem renew_objs (number : Nat) (obj : AttrObj) (chunk : Int) (page : AttrPage) (other : Nat) :
    (dev.renew number obj chunk page).objs other =
      if other = number then some { obj with hdrChunk := chunk } else dev.objs other := by
  rw [renew, setObj_objs, setPage_objs, Function.update_apply]

theorem Rehoused.renew {mid : AttrDev} (same : mid.objs = dev.objs) (found : dev.objs number = some obj)
    {chunk : Int} (positive : 0 < chunk) (page : AttrPage) :
    Rehoused dev (mid.renew number obj chunk page) := by
  intro other otherObj held header
  rw [renew_objs, same]
  split
  case isTrue eq =>
    obtain rfl := Option.some.inj ((congrArg dev.objs eq ▸ held).symm.trans found)
    exact ⟨chunk, positive, rfl⟩
  case isFalse => exact ⟨otherObj.hdrChunk, header, held⟩

/-- The areas after an object has got a new header page that was in no use. -/
theorem renew_area {mid : AttrDev} (same : mid.objs = dev.objs) {chunk : Int}
    (unused : dev.Unused chunk) (page : AttrPage) {other : Nat} {otherObj otherObj' : AttrObj}
    (held : dev.objs other = some otherObj)
    (held' : (mid.renew number obj chunk page).objs other = some otherObj') :
    ((mid.renew number obj chunk page).pages otherObj'.hdrChunk).area =
      if other = number then page.area else (mid.pages otherObj.hdrChunk).area := by
  rw [renew_objs, same] at held'
  by_cases eq : other = number
  · rw [if_pos eq] at held' ⊢
    obtain rfl := Option.some.inj held'
    simp [renew]
  · rw [if_neg eq] at held' ⊢
    obtain rfl := Option.some.inj (held.symm.trans held')
    rw [renew, setObj_pages, setPage_pages, Function.update_of_ne (unused.2 other otherObj held)]

theorem Survive.refl (inStep : dev.InStep fmt) : Survive fmt dev dev := by
  refine (survive_iff inStep fun number obj found header => ⟨_, header, found⟩).mpr ?_
  intro number obj obj' found header found'
  obtain rfl := Option.some.inj (found.symm.trans found')
  exact .refl fmt _

theorem survive_updateOh_iff (sound : dev.AttrSound fmt) {src : HdrSource} {force : Bool}
    {read : PageRead} {newChunk : Option Int} {seqNumber : Nat}
    (unused : ∀ chunk ∈ newChunk, dev.Unused chunk) :
    Survive fmt dev (dev.updateOh fmt number src force none read newChunk seqNumber).2 ↔
      dev.Keeps fmt (.updateOh number src force read newChunk seqNumber) := by
  obtain ⟨eq, skips⟩ | ⟨obj, chunk, page, found, rfl, not_skipped, area, eq⟩ :=
    updateOh_cases fmt dev number src force read newChunk seqNumber
  · rw [eq]
    refine iff_of_true (.refl sound.inStep) ?_
    cases read with
    | ok => trivial
    | failed left =>
      obtain absent | none | fake := skips
      · exact .inr (.inl fun obj found => by simp [absent] at found)
      · exact .inl none
      · exact .inr (.inr fake)
  · have fresh := unused chunk rfl
    rw [eq, survive_iff sound.inStep (.renew rfl found fresh.1 page)]
    have areas : (∀ other otherObj otherObj', dev.objs other = some otherObj → 0 < otherObj.hdrChunk →
        (dev.renew number obj chunk page).objs other = some otherObj' →
          fmt.SameAttrs ((dev.renew number obj chunk page).pages otherObj'.hdrChunk).area
            (dev.pages otherObj.hdrChunk).area) ↔ dev.AreaSame fmt number page.area := by
      constructor
      · intro same obj found header
        have renewed := same number obj _ found header (renew_objs .. ▸ if_pos rfl)
        rwa [renew_area rfl fresh page found (renew_objs .. ▸ if_pos rfl), if_pos rfl] at renewed
      · intro same other otherObj otherObj' held header held'
        rw [renew_area rfl fresh page held held']
        split
        case isTrue other_eq =>
          subst other_eq
          exact same otherObj held header
        case isFalse => exact .refl fmt _
    rw [areas, area]
    cases read with
    | ok =>
      refine iff_of_true ?_ trivial
      intro obj' found' header
      obtain rfl := Option.some.inj (found.symm.trans found')
      rw [headerBuffer, if_pos header]
      exact .refl fmt _
    | failed left =>
      have left_same : dev.AreaSame fmt number (dev.headerBuffer obj (.failed left)).2 ↔
          dev.AreaSame fmt number left.area := by
        refine forall_congr' fun obj' => forall_congr' fun found' => forall_congr' fun header => ?_
        obtain rfl := Option.some.inj (found.symm.trans found')
        rw [headerBuffer, if_pos header]
      rw [left_same]
      constructor
      · exact fun same => .inr (.inl same)
      · rintro (none | same | fake)
        · cases none
        · exact same
        · exact absurd fake not_skipped

/-- The areas after a header page has been dropped. -/
theorem dropped_area (sound : dev.AttrSound fmt) (found : dev.objs number = some obj)
    (header : 0 < obj.hdrChunk) {other : Nat} {otherObj : AttrObj}
    (held : dev.objs other = some otherObj) :
    ((dev.setPage obj.hdrChunk .erased).pages otherObj.hdrChunk).area =
      if other = number then AttrPage.erased.area else (dev.pages otherObj.hdrChunk).area := by
  by_cases eq : other = number
  · subst eq
    obtain rfl := Option.some.inj (found.symm.trans held)
    simp
  · have ne : otherObj.hdrChunk ≠ obj.hdrChunk := by
      intro same
      exact eq (sound.apart number other obj otherObj found held header same.symm).symm
    rw [if_neg eq, setPage_pages, Function.update_of_ne ne]

theorem survive_gcProcessChunk_iff (sound : dev.AttrSound fmt) (found : dev.objs number = some obj)
    (header : 0 < obj.hdrChunk) {objectType : ObjType} {storedSize : Nat} {read : PageRead}
    {tagged : Option Nat} {newChunk : Option Int} {seqNumber : Nat}
    (unused : ∀ chunk ∈ newChunk, dev.Unused chunk) :
    Survive fmt dev
        (dev.gcProcessChunk fmt number objectType storedSize read tagged newChunk seqNumber) ↔
      dev.Keeps fmt (.gcProcessChunk number objectType storedSize read tagged newChunk seqNumber) := by
  have cases := gcProcessChunk_cases fmt objectType storedSize read tagged newChunk seqNumber found
  generalize dev.gcProcessChunk fmt number objectType storedSize read tagged newChunk seqNumber =
    result at *
  obtain ⟨target, eq⟩ | ⟨target, rfl, eq⟩ | ⟨other, otherObj, chunk, page, target, held, rfl, area, eq⟩ :=
    cases
  case inl =>
    cases read with
    | ok => cases target
    | failed left =>
      dsimp only at target
      simp only [Keeps]
      have rehoused : Rehoused dev result := by
        rw [eq]
        exact fun number obj found header => ⟨obj.hdrChunk, header, found⟩
      rw [target, survive_iff sound.inStep rehoused, eq]
      constructor
      · intro same obj' found' header'
        have dropped := same number obj' obj' found' header' found'
        rwa [dropped_area sound found header found', if_pos rfl] at dropped
      · intro same other otherObj otherObj' held header' held'
        obtain rfl := Option.some.inj (held.symm.trans held')
        rw [dropped_area sound found header held]
        split
        case isTrue other_eq => exact same otherObj (other_eq ▸ held) header'
        case isFalse => exact .refl fmt _
  case inr.inl =>
    rw [eq]
    refine iff_of_true (.refl sound.inStep) ?_
    cases read with
    | ok => trivial
    | failed left =>
      obtain ⟨other, target⟩ := Option.ne_none_iff_exists'.mp target
      dsimp only at target
      simp only [Keeps]
      rw [target]
      exact .inl trivial
  case inr.inr =>
    have fresh := unused chunk rfl
    have rehoused : Rehoused dev result := eq ▸ .renew rfl held fresh.1 page
    rw [survive_iff sound.inStep rehoused, eq]
    have dropped_objs := setPage_objs dev obj.hdrChunk .erased
    have areas : (∀ third thirdObj thirdObj', dev.objs third = some thirdObj → 0 < thirdObj.hdrChunk →
        ((dev.setPage obj.hdrChunk .erased).renew other otherObj chunk page).objs third =
            some thirdObj' →
          fmt.SameAttrs (((dev.setPage obj.hdrChunk .erased).renew other otherObj chunk page).pages
            thirdObj'.hdrChunk).area (dev.pages thirdObj.hdrChunk).area) ↔
        dev.AreaSame fmt other page.area ∧
          (other = number ∨ dev.AreaSame fmt number AttrPage.erased.area) := by
      constructor
      · intro same
        constructor
        · intro otherObj' held' header'
          have renewed := same other otherObj' _ held' header' (renew_objs .. ▸ if_pos rfl)
          rwa [renew_area dropped_objs fresh page held' (renew_objs .. ▸ if_pos rfl), if_pos rfl] at renewed
        · by_cases other_eq : other = number
          · exact .inl other_eq
          · refine .inr fun obj' found' header' => ?_
            have kept := (renew_objs other otherObj chunk page number).trans
              (if_neg (Ne.symm other_eq)) |>.trans found'
            have dropped := same number obj' obj' found' header' kept
            rwa [renew_area dropped_objs fresh page found' kept, if_neg (Ne.symm other_eq),
              dropped_area sound found header found', if_pos rfl] at dropped
      · rintro ⟨same, dropped⟩ third thirdObj thirdObj' third_held third_header third_held'
        rw [renew_area dropped_objs fresh page third_held third_held']
        split
        case isTrue third_eq => exact same thirdObj (third_eq ▸ third_held) third_header
        case isFalse third_ne =>
          rw [dropped_area sound found header third_held]
          split
          case isTrue third_eq =>
            obtain other_eq | dropped := dropped
            · exact absurd (third_eq.trans other_eq.symm) third_ne
            · exact dropped thirdObj (third_eq ▸ third_held) third_header
          case isFalse => exact .refl fmt _
    rw [areas, area]
    cases read with
    | ok =>
      obtain rfl := Option.some.inj target
      refine iff_of_true ⟨fun obj' found' header' => ?_, .inl rfl⟩ trivial
      obtain rfl := Option.some.inj (found.symm.trans found')
      exact .refl fmt _
    | failed left =>
      dsimp only at target
      simp only [Keeps]
      rw [target]
      simp

/-! ## Runs -/

/-- An object that survives still knows what it has. -/
theorem InStep.of_survive (inStep : before.InStep fmt) (survive : Survive fmt before after)
    (rehoused : Rehoused before after)
    (origin : ∀ number obj', after.objs number = some obj' →
      ∃ obj, before.objs number = some obj ∧ obj' = { obj with hdrChunk := obj'.hdrChunk }) :
    after.InStep fmt := by
  intro number obj' found' known none
  obtain ⟨obj, found, eq⟩ := origin number obj' found'
  rw [eq] at known none
  obtain ⟨header, silent⟩ := inStep number obj found known none
  obtain ⟨chunk, positive, renewed⟩ := rehoused number obj found header
  obtain rfl := Option.some.inj (found'.symm.trans renewed)
  refine ⟨positive, fun query => ?_⟩
  rw [(survive_iff inStep rehoused).mp survive number obj _ found header found', silent]

/-- An object gets a header page of its own. -/
theorem apart_renew {mid : AttrDev} (sound : dev.AttrSound fmt) (same : mid.objs = dev.objs)
    {chunk : Int} (unused : dev.Unused chunk) (page : AttrPage) (first second : Nat)
    (firstObj secondObj : AttrObj)
    (first_held : (mid.renew number obj chunk page).objs first = some firstObj)
    (second_held : (mid.renew number obj chunk page).objs second = some secondObj)
    (header : 0 < firstObj.hdrChunk) (eq : firstObj.hdrChunk = secondObj.hdrChunk) :
    first = second := by
  rw [renew_objs, same] at first_held second_held
  split at first_held
  case isTrue first_eq =>
    split at second_held
    case isTrue second_eq => exact first_eq.trans second_eq.symm
    case isFalse =>
      obtain rfl := Option.some.inj first_held
      exact absurd eq.symm (unused.2 second secondObj second_held)
  case isFalse =>
    split at second_held
    case isTrue =>
      obtain rfl := Option.some.inj second_held
      exact absurd eq (unused.2 first firstObj first_held)
    case isFalse => exact sound.apart first second firstObj secondObj first_held second_held header eq

theorem renew_origin {mid : AttrDev} (same : mid.objs = dev.objs) (found : dev.objs number = some obj)
    (chunk : Int) (page : AttrPage) (other : Nat) (obj' : AttrObj)
    (held : (mid.renew number obj chunk page).objs other = some obj') :
    ∃ obj, dev.objs other = some obj ∧ obj' = { obj with hdrChunk := obj'.hdrChunk } := by
  rw [renew_objs, same] at held
  split at held
  case isTrue eq =>
    subst eq
    obtain rfl := Option.some.inj held
    exact ⟨obj, found, rfl⟩
  case isFalse => exact ⟨obj', held, rfl⟩

theorem AttrSound.updateOh (sound : dev.AttrSound fmt) {src : HdrSource} {force : Bool}
    {read : PageRead} {newChunk : Option Int} {seqNumber : Nat}
    (unused : ∀ chunk ∈ newChunk, dev.Unused chunk)
    (keeps : dev.Keeps fmt (.updateOh number src force read newChunk seqNumber)) :
    (dev.updateOh fmt number src force none read newChunk seqNumber).2.AttrSound fmt := by
  have survive := (survive_updateOh_iff sound unused).mpr keeps
  obtain ⟨eq, -⟩ | ⟨obj, chunk, page, found, rfl, -, -, eq⟩ :=
    updateOh_cases fmt dev number src force read newChunk seqNumber
  · rw [eq]
    exact sound
  · have fresh := unused chunk rfl
    rw [eq] at survive ⊢
    exact ⟨sound.inStep.of_survive survive (.renew rfl found fresh.1 page)
      (renew_origin rfl found chunk page), apart_renew sound rfl fresh page⟩

theorem AttrSound.gcProcessChunk (sound : dev.AttrSound fmt) (found : dev.objs number = some obj)
    (header : 0 < obj.hdrChunk) {objectType : ObjType} {storedSize : Nat} {read : PageRead}
    {tagged : Option Nat} {newChunk : Option Int} {seqNumber : Nat}
    (unused : ∀ chunk ∈ newChunk, dev.Unused chunk)
    (keeps : dev.Keeps fmt
      (.gcProcessChunk number objectType storedSize read tagged newChunk seqNumber)) :
    (dev.gcProcessChunk fmt number objectType storedSize read tagged newChunk seqNumber).AttrSound
      fmt := by
  have survive := (survive_gcProcessChunk_iff sound found header unused).mpr keeps
  have dropped_objs := setPage_objs dev obj.hdrChunk .erased
  obtain ⟨-, eq⟩ | ⟨-, -, eq⟩ | ⟨other, otherObj, chunk, page, -, held, rfl, -, eq⟩ :=
    gcProcessChunk_cases fmt objectType storedSize read tagged newChunk seqNumber found
  · rw [eq] at survive ⊢
    refine ⟨sound.inStep.of_survive survive ?_ ?_, sound.apart⟩
    · exact fun number obj found header => ⟨obj.hdrChunk, header, found⟩
    · exact fun number obj found => ⟨obj, found, rfl⟩
  · rw [eq]
    exact sound
  · have fresh := unused chunk rfl
    rw [eq] at survive ⊢
    exact ⟨sound.inStep.of_survive survive (.renew dropped_objs held fresh.1 page)
      (renew_origin dropped_objs held chunk page), apart_renew sound dropped_objs fresh page⟩

/-- An object comes to know what it has. -/
theorem AttrSound.setObj (sound : dev.AttrSound fmt) (found : dev.objs number = some obj)
    {obj' : AttrObj} (same : obj'.hdrChunk = obj.hdrChunk)
    (knows : obj'.xattrKnown = true → obj'.hasXattr = false → 0 < obj'.hdrChunk ∧
      ∀ query, fmt.areaAnswer (dev.pages obj'.hdrChunk).area query = query.noAttrs) :
    (dev.setObj number obj').AttrSound fmt := by
  have origin : ∀ other otherObj, (dev.setObj number obj').objs other = some otherObj →
      ∃ before, dev.objs other = some before ∧ otherObj.hdrChunk = before.hdrChunk := by
    intro other otherObj held
    rw [setObj_objs, Function.update_apply] at held
    split at held
    case isTrue eq =>
      obtain rfl := Option.some.inj held
      exact ⟨obj, eq ▸ found, same⟩
    case isFalse => exact ⟨otherObj, held, rfl⟩
  constructor
  · intro other otherObj held known none
    rw [setObj_objs, Function.update_apply] at held
    split at held
    case isTrue =>
      obtain rfl := Option.some.inj held
      exact knows known none
    case isFalse => exact sound.inStep other otherObj held known none
  · intro first second firstObj secondObj first_held second_held header eq
    obtain ⟨before, first_held', first_eq⟩ := origin first firstObj first_held
    obtain ⟨before', second_held', second_eq⟩ := origin second secondObj second_held
    exact sound.apart first second before before' first_held' second_held' (first_eq ▸ header)
      (first_eq.symm.trans (eq.trans second_eq))

theorem AttrSound.xattribMod (sound : dev.AttrSound fmt) {src : HdrSource} {xmod : NvalStep}
    {read : PageRead} {newChunk : Option Int} {seqNumber : Nat}
    (unused : ∀ chunk ∈ newChunk, dev.Unused chunk)
    (keeps : dev.Keeps fmt (.xattribMod number src xmod read newChunk seqNumber)) :
    (dev.doXattribMod fmt number src xmod read newChunk seqNumber).2.AttrSound fmt := by
  simp only [doXattribMod]
  cases found : dev.objs number with
  | none =>
    rw [show dev.updateOh fmt number src false (some xmod) read newChunk seqNumber = (none, dev) by
      simp [AttrDev.updateOh, found]]
    exact sound
  | some obj =>
    have not_skipped : ¬(obj.fake ∧ number ≠ objectIdRoot ∧ ¬false ∧ (some xmod).isNone) := by simp
    simp only [AttrDev.updateOh, found, if_neg not_skipped]
    generalize buffer_eq : dev.headerBuffer obj read = buffer
    cases newChunk with
    | none =>
      refine sound.setObj found rfl fun _ none => ?_
      have keeps := (keeps.resolve_left fun has => has rfl) obj found
      rw [buffer_eq, none] at keeps
      exact keeps.resolve_left Bool.noConfusion
    | some chunk =>
      have fresh := unused chunk rfl
      refine ⟨?_, apart_renew sound rfl fresh _⟩
      intro other otherObj held known none
      by_cases eq : other = number
      · rw [setObj_objs, eq, Function.update_self] at held
        obtain rfl := Option.some.inj held
        refine ⟨fresh.1, fun query => ?_⟩
        simp only [setObj_pages, setPage_pages, Function.update_self]
        exact fmt.areaAnswer_of_no_values none query
      · rw [setObj_objs, Function.update_of_ne eq, setPage_objs] at held
        rw [setObj_pages, setPage_pages, Function.update_of_ne (fresh.2 other otherObj held)]
        exact sound.inStep other otherObj held known none

theorem AttrSound.xattribFetch (sound : dev.AttrSound fmt) (number : Nat) (query : XattrQuery)
    (read : PageRead) : (dev.doXattribFetch fmt number query read).2.AttrSound fmt := by
  simp only [doXattribFetch]
  cases found : dev.objs number with
  | none => exact sound
  | some obj =>
    dsimp only
    split
    case isTrue => exact sound
    case isFalse header =>
      split
      case isTrue => exact sound
      case isFalse heard =>
        cases read with
        | failed left => exact sound
        | ok =>
          refine sound.setObj found (by split <;> rfl) ?_
          split
          case isTrue known =>
            intro _ none
            exact absurd ⟨known, by simp [none]⟩ heard
          case isFalse =>
            intro _ none
            exact ⟨by dsimp only; omega, fmt.areaAnswer_of_no_values none⟩

/-- An invariant of the runs in which every step keeps the attributes. -/
theorem AttrSound.exec (step : AttrStep) (dev : AttrDev)
    (guard : dev.Possible step ∧ dev.Keeps fmt step) (sound : dev.AttrSound fmt) :
    (exec fmt step dev).AttrSound fmt := by
  obtain ⟨possible, keeps⟩ := guard
  cases step with
  | create number fake =>
    have known_before : ∀ other obj, (AttrDev.exec fmt (.create number fake) dev).objs other = some obj →
        obj = { fake } ∨ dev.objs other = some obj := by
      intro other obj held
      simp only [AttrDev.exec, setObj_objs, Function.update_apply] at held
      split at held
      case isTrue => exact .inl (Option.some.inj held).symm
      case isFalse => exact .inr held
    constructor
    · intro other obj held known none
      obtain rfl | held := known_before other obj held
      · cases known
      · exact sound.inStep other obj held known none
    · intro first second firstObj secondObj first_held second_held header eq
      obtain rfl | first_held := known_before first firstObj first_held
      · cases header
      · obtain rfl | second_held := known_before second secondObj second_held
        · rw [eq] at header
          exact absurd header (Int.lt_irrefl 0)
        · exact sound.apart first second firstObj secondObj first_held second_held header eq
  | updateOh number src force read newChunk seqNumber => exact sound.updateOh possible keeps
  | xattribMod number src xmod read newChunk seqNumber => exact sound.xattribMod possible keeps
  | xattribFetch number query read => exact sound.xattribFetch number query read
  | gcProcessChunk number objectType storedSize read tagged newChunk seqNumber =>
    obtain ⟨⟨obj, found, header⟩, unused⟩ := possible
    exact sound.gcProcessChunk found header unused keeps
  | otherPage chunk page =>
    refine ⟨fun other obj held known none => ?_, sound.apart⟩
    have area := Function.update_of_ne (possible.2 other obj held) page dev.pages
    simp only [AttrDev.exec, setPage_pages, area]
    exact sound.inStep other obj held known none
  | freeObj number =>
    have kept : ∀ other obj, (AttrDev.exec fmt (.freeObj number) dev).objs other = some obj →
        dev.objs other = some obj := by
      intro other obj held
      simp only [AttrDev.exec, Function.update_apply] at held
      split at held
      case isTrue => cases held
      case isFalse => exact held
    constructor
    · intro other obj held known none
      exact sound.inStep other obj (kept other obj held) known none
    · intro first second firstObj secondObj first_held second_held header eq
      exact sound.apart first second firstObj secondObj (kept first firstObj first_held)
        (kept second secondObj second_held) header eq
  | remount =>
    constructor
    · intro other obj held known
      obtain ⟨before, -, rfl⟩ := Option.map_eq_some_iff.mp held
      cases known
    · intro first second firstObj secondObj first_held second_held header eq
      obtain ⟨before, first_held', rfl⟩ := Option.map_eq_some_iff.mp first_held
      obtain ⟨before', second_held', rfl⟩ := Option.map_eq_some_iff.mp second_held
      exact sound.apart first second before before' first_held' second_held' header eq

/-- After any run in which every step keeps the attributes, a header that is rewritten keeps the
attributes of all objects if and only if it is read first, or else is not written or happens to come
with the same attributes. -/
theorem attrs_survive_iff (fmt : PageFormat) (pages : Int → AttrPage) {steps : List AttrStep}
    {step : AttrStep} (rewrites : step.Rewrites)
    (kept : Execution.Guarded (exec fmt) (fun step dev => dev.Possible step ∧ dev.Keeps fmt step) steps
      (blank pages))
    (possible : (Execution.run (exec fmt) steps (blank pages)).Possible step) :
    let dev := Execution.run (exec fmt) steps (blank pages)
    Survive fmt dev (exec fmt step dev) ↔ dev.Keeps fmt step := by
  have initial : (blank pages).AttrSound fmt := by
    constructor
    · intro number obj found
      cases found
    · intro first second firstObj secondObj found
      cases found
  have sound := Execution.run_invariant AttrSound.exec kept initial
  dsimp only
  generalize Execution.run (exec fmt) steps (blank pages) = dev at *
  cases step with
  | updateOh number src force read newChunk seqNumber =>
    exact survive_updateOh_iff sound possible
  | gcProcessChunk number objectType storedSize read tagged newChunk seqNumber =>
    obtain ⟨⟨obj, found, header⟩, unused⟩ := possible
    exact survive_gcProcessChunk_iff sound found header unused
  | _ => exact rewrites.elim

theorem plainFormat_room : ObjHdr.layout.size ≤
    2048 + if false then PackedTags2TagsOnly.layout.size else 0 := by decide

/-- Pages of 2048 bytes without inband tags. -/
def plainFormat : PageFormat where
  bigEndian := false
  storedEndian := 1
  inbandTags := false
  dataBytesPerChunk := 2048
  room := plainFormat_room

theorem length_plainName : (0x66 :: List.replicate 255 (0 : UInt8)).length = 256 := by
  rw [List.length_cons, List.length_replicate]

theorem length_noAlias : (List.replicate 160 (0 : UInt8)).length = 160 :=
  List.length_replicate

/-- The header of an empty file in the root directory. -/
def plainSource : HdrSource where
  objId := 300
  serial := 0
  variantType := .file
  parentObjId := 1
  ystMode := 0x81a4
  ystUid := 0
  ystGid := 0
  ystAtime := 0
  ystMtime := 0
  ystCtime := 0
  ystRdev := 0
  name := ⟨0x66 :: List.replicate 255 0, length_plainName⟩
  storedSize := 0
  equivId := 0
  aliasName := ⟨List.replicate 160 0, length_noAlias⟩
  isShrink := false
  shadows := 0

/-- A file is created and gets an attribute. -/
def attrSteps : List AttrStep :=
  [.create 300 false, .updateOh 300 plainSource false .ok (some 1) 1,
    .xattribMod 300 plainSource (.set [0x61] [0x62] 0) .ok (some 2) 1]

/-- The file gets a new header when its old one cannot be read. -/
def blindStep : AttrStep := .updateOh 300 plainSource false (.failed .erased) (some 3) 1

/-- A page is in no use if it is not that of the only object. -/
theorem unused_of_only (number : Nat) (found : dev.objs number = some obj)
    (only : ∀ other ≠ number, dev.objs other = none) {chunk : Int} (positive : 0 < chunk)
    (ne : obj.hdrChunk ≠ chunk) : dev.Unused chunk := by
  refine ⟨positive, fun other otherObj held => ?_⟩
  by_cases eq : other = number
  · obtain rfl := Option.some.inj ((eq ▸ held).symm.trans found)
    exact ne
  · rw [only other eq] at held
    cases held

theorem attrSteps_kept :
    Execution.Guarded (exec plainFormat)
      (fun step dev => dev.Possible step ∧ dev.Keeps plainFormat step) attrSteps
      (blank fun _ => .erased) := by
  refine ⟨⟨rfl, trivial⟩, ⟨?_, trivial⟩, ⟨?_, .inl nofun⟩, trivial⟩
  all_goals
    rintro chunk ⟨⟩
    refine unused_of_only 300 rfl (fun other ne => ?_) (by decide) (by decide)
  · exact Function.update_of_ne ne _ _
  · exact (Function.update_of_ne ne _ _).trans (Function.update_of_ne ne _ _)

theorem blindStep_possible :
    (Execution.run (exec plainFormat) attrSteps (blank fun _ => .erased)).Possible blindStep := by
  rintro chunk ⟨⟩
  refine unused_of_only 300 rfl (fun other ne => ?_) (by decide) (by decide)
  exact (Function.update_of_ne ne _ _).trans
    ((Function.update_of_ne ne _ _).trans (Function.update_of_ne ne _ _))

theorem attrs_survive_iff_attrSteps :
    let dev := Execution.run (exec plainFormat) attrSteps (blank fun _ => .erased)
    Survive plainFormat dev (exec plainFormat blindStep dev) ↔ dev.Keeps plainFormat blindStep :=
  attrs_survive_iff plainFormat _ trivial attrSteps_kept blindStep_possible

/-- The attribute is lost with the header that cannot be read. -/
theorem attrs_lost :
    let dev := Execution.run (exec plainFormat) attrSteps (blank fun _ => .erased)
    let query := XattrQuery.get [0x61] 16
    dev.answer plainFormat 300 query = .found 1 [0x62] ∧
      (exec plainFormat blindStep dev).answer plainFormat 300 query = .refused .enodata ∧
      ¬Survive plainFormat dev (exec plainFormat blindStep dev) := by
  have before : (Execution.run (exec plainFormat) attrSteps (blank fun _ => .erased)).answer
      plainFormat 300 (.get [0x61] 16) = .found 1 [0x62] := by decide +kernel
  have after : (exec plainFormat blindStep (Execution.run (exec plainFormat) attrSteps
      (blank fun _ => .erased))).answer plainFormat 300 (.get [0x61] 16) = .refused .enodata := by
    decide +kernel
  refine ⟨before, after, fun survive => ?_⟩
  have same := (survive 300 _ rfl (by decide) (.get [0x61] 16)).1
  rw [before, after] at same
  cases same

end AttrDev

end Yaffs.Stored
