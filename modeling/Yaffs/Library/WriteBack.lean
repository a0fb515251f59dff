import Mathlib.Logic.Function.Basic
import Mathlib.Tactic.Common

/-!
# Write-back caches

The lines of a cache hold the data of keys in front of a store.  A key shows the data of its line, if
it has one, and else what is stored.  In a coherent cache no key has two lines, and a line that is not
dirty holds what is stored.  Writing a line back, dropping a clean line and loading a key are not seen
then; filling a line and writing past the cache change what one key shows.
-/

namespace WriteBack

variable {Key Data : Type*}

/-- A line of a cache. -/
structure Line (Key Data : Type*) where
  key : Key
  data : Data
  dirty : Bool

/-- A cache in front of a store. -/
@[ext]
structure Cache (Key Data : Type*) where
  lines : Nat → Option (Line Key Data)
  stored : Key → Data

namespace Cache

variable (cache : Cache Key Data)

/-- Does the key have a line? -/
def Caches (key : Key) : Prop := ∃ i line, cache.lines i = some line ∧ line.key = key

open Classical in
/-- What is read for a key. -/
noncomputable def shown (key : Key) : Data :=
  if there : ∃ line, (∃ i, cache.lines i = some line) ∧ line.key = key then there.choose.data
  else cache.stored key

/-- Each key has one line at most, and a line that is not dirty holds what is stored. -/
structure Coherent : Prop where
  single : ∀ {i j line line'}, cache.lines i = some line → cache.lines j = some line' →
    line.key = line'.key → i = j
  clean : ∀ {i line}, cache.lines i = some line → line.dirty = false →
    line.data = cache.stored line.key

variable {cache} {after : Cache Key Data} {i : Nat} {line : Line Key Data} {key : Key}

theorem shown_of_not_caches (missing : ¬cache.Caches key) : cache.shown key = cache.stored key := by
  refine dif_neg ?_
  rintro ⟨line, ⟨i, there⟩, same⟩
  exact missing ⟨i, line, there, same⟩

namespace Coherent

theorem shown_of_line (coherent : cache.Coherent) (there : cache.lines i = some line) :
    cache.shown line.key = line.data := by
  have some_line : ∃ other, (∃ j, cache.lines j = some other) ∧ other.key = line.key :=
    ⟨line, ⟨i, there⟩, rfl⟩
  obtain ⟨⟨j, found⟩, same⟩ := some_line.choose_spec
  rw [shown, dif_pos some_line]
  obtain rfl := coherent.single found there same
  rw [Option.some.inj (found.symm.trans there)]

/-- A key without a dirty line shows what is stored. -/
theorem shown_of_clean (coherent : cache.Coherent)
    (clean : ∀ i line, cache.lines i = some line → line.key = key → line.dirty = false) :
    cache.shown key = cache.stored key := by
  by_cases cached : cache.Caches key
  · obtain ⟨i, line, there, rfl⟩ := cached
    rw [coherent.shown_of_line there]
    exact coherent.clean there (clean i line there rfl)
  · exact shown_of_not_caches cached

/-- Lines that are not dirty may be dropped. -/
theorem shed (coherent : cache.Coherent) (stored : after.stored = cache.stored)
    (lines : ∀ i, after.lines i = cache.lines i ∨
      after.lines i = none ∧ ∀ line, cache.lines i = some line → line.dirty = false) :
    after.Coherent ∧ after.shown = cache.shown := by
  have kept {i : Nat} {line : Line Key Data} (there : after.lines i = some line) :
      cache.lines i = some line := by
    rcases lines i with same | ⟨gone, -⟩
    · exact same.symm.trans there
    · rw [gone] at there
      cases there
  have coherent' : after.Coherent := by
    refine ⟨fun first second => coherent.single (kept first) (kept second), fun there clean => ?_⟩
    rw [stored]
    exact coherent.clean (kept there) clean
  refine ⟨coherent', funext fun key => ?_⟩
  by_cases cached : after.Caches key
  · obtain ⟨i, line, there, rfl⟩ := cached
    rw [coherent'.shown_of_line there, coherent.shown_of_line (kept there)]
  · rw [shown_of_not_caches cached, stored]
    refine (coherent.shown_of_clean fun i line there same => ?_).symm
    rcases lines i with unchanged | ⟨-, clean⟩
    · exact absurd ⟨i, line, unchanged.trans there, same⟩ cached
    · exact clean line there

/-- What is stored for keys without lines may change. -/
theorem behind (coherent : cache.Coherent) (lines : after.lines = cache.lines)
    (stored : ∀ key, cache.Caches key → after.stored key = cache.stored key) :
    after.Coherent ∧ ∀ key, after.stored key = cache.stored key →
      after.shown key = cache.shown key := by
  have coherent' : after.Coherent := by
    refine ⟨fun first second => coherent.single (lines ▸ first) (lines ▸ second),
      fun {i line} there clean => ?_⟩
    rw [lines] at there
    rw [stored line.key ⟨i, line, there, rfl⟩]
    exact coherent.clean there clean
  refine ⟨coherent', fun key same => ?_⟩
  by_cases cached : cache.Caches key
  · obtain ⟨i, line, there, rfl⟩ := cached
    rw [coherent.shown_of_line there]
    exact coherent'.shown_of_line (lines ▸ there)
  · have cached' : ¬after.Caches key := by
      rw [Caches, lines]
      exact cached
    rw [shown_of_not_caches cached, shown_of_not_caches cached', same]

end Coherent

/-! ## Loading and filling lines -/

variable (cache) in
/-- Put another line in the place of one. -/
def setLine (i : Nat) (line : Line Key Data) : Cache Key Data :=
  { cache with lines := Function.update cache.lines i (some line) }

theorem setLine_self (i : Nat) (line : Line Key Data) :
    (cache.setLine i line).lines i = some line := Function.update_self ..

theorem setLine_cases {j : Nat} {other : Line Key Data}
    (there : (cache.setLine i line).lines j = some other) :
    j = i ∧ other = line ∨ j ≠ i ∧ cache.lines j = some other := by
  simp only [setLine] at there
  by_cases here : j = i
  · subst here
    rw [Function.update_self] at there
    exact Or.inl ⟨rfl, (Option.some.inj there).symm⟩
  · rw [Function.update_of_ne here] at there
    exact Or.inr ⟨here, there⟩

variable [DecidableEq Key]

namespace Coherent

/-- What the keys show with another line in the place of one, as long as no key gets two lines and
the store is up to date. -/
theorem replace (coherent : cache.Coherent)
    (fits : ∀ j other, j ≠ i → cache.lines j = some other → other.key ≠ line.key)
    (clean : line.dirty = false → line.data = cache.stored line.key)
    (frees : ∀ other, cache.lines i = some other → other.key = line.key) :
    (cache.setLine i line).Coherent ∧
      (cache.setLine i line).shown = Function.update cache.shown line.key line.data := by
  have coherent' : (cache.setLine i line).Coherent := by
    constructor
    · intro j k first second there there' same
      rcases setLine_cases there with ⟨rfl, rfl⟩ | ⟨elsewhere, before⟩
      · rcases setLine_cases there' with ⟨rfl, -⟩ | ⟨elsewhere', before'⟩
        · rfl
        · exact absurd same.symm (fits k second elsewhere' before')
      · rcases setLine_cases there' with ⟨rfl, rfl⟩ | ⟨-, before'⟩
        · exact absurd same (fits j first elsewhere before)
        · exact coherent.single before before' same
    · intro j other there is_clean
      rcases setLine_cases there with ⟨-, rfl⟩ | ⟨-, before⟩
      · exact clean is_clean
      · exact coherent.clean before is_clean
  refine ⟨coherent', funext fun key => ?_⟩
  by_cases here : key = line.key
  · subst here
    rw [Function.update_self]
    exact coherent'.shown_of_line (setLine_self i line)
  · rw [Function.update_of_ne here]
    by_cases cached : (cache.setLine i line).Caches key
    · obtain ⟨j, other, there, rfl⟩ := cached
      rw [coherent'.shown_of_line there]
      rcases setLine_cases there with ⟨-, rfl⟩ | ⟨-, before⟩
      · exact absurd rfl here
      · exact (coherent.shown_of_line before).symm
    · rw [shown_of_not_caches cached]
      refine Eq.symm (shown_of_not_caches ?_)
      rintro ⟨j, other, before, rfl⟩
      by_cases at_line : j = i
      · subst at_line
        exact here (frees other before)
      · exact cached ⟨j, other, (Function.update_of_ne at_line ..).trans before, rfl⟩

/-- A key that has no line is loaded into a place that has none. -/
theorem load (coherent : cache.Coherent) (empty : cache.lines i = none)
    (missing : ¬cache.Caches key) :
    (cache.setLine i ⟨key, cache.stored key, false⟩).Coherent ∧
      (cache.setLine i ⟨key, cache.stored key, false⟩).shown = cache.shown := by
  obtain ⟨coherent', shown⟩ := @replace _ _ _ i ⟨key, cache.stored key, false⟩ _ coherent
    (fun j other _ there same => missing ⟨j, other, there, same⟩) (fun _ => rfl)
    (fun other there => by rw [empty] at there; cases there)
  refine ⟨coherent', shown.trans ?_⟩
  rw [← shown_of_not_caches missing]
  exact Function.update_eq_self ..

/-- A line gets other data, which is not stored yet. -/
theorem fill (coherent : cache.Coherent) (there : cache.lines i = some line) (data : Data) :
    (cache.setLine i { line with data, dirty := true }).Coherent ∧
      (cache.setLine i { line with data, dirty := true }).shown =
        Function.update cache.shown line.key data :=
  @replace _ _ _ i { line with data, dirty := true } _ coherent
    (fun _ _ elsewhere there' same => elsewhere (coherent.single there' there same)) nofun
    fun other there' => by rw [Option.some.inj (there.symm.trans there')]

/-! ## Writing to the store -/

/-- The data of a line is stored. -/
theorem writeBack (coherent : cache.Coherent) (there : cache.lines i = some line)
    (stored : after.stored = Function.update cache.stored line.key line.data)
    (lines : after.lines = Function.update cache.lines i (some { line with dirty := false })) :
    after.Coherent ∧ after.shown = cache.shown := by
  have kept {j : Nat} {other : Line Key Data} (found : after.lines j = some other) :
      j = i ∧ other = { line with dirty := false } ∨ j ≠ i ∧ cache.lines j = some other :=
    setLine_cases (by simp only [setLine, ← lines]; exact found)
  have coherent' : after.Coherent := by
    constructor
    · intro j k first second found found' same
      rcases kept found with ⟨rfl, rfl⟩ | ⟨-, before⟩
      · rcases kept found' with ⟨rfl, -⟩ | ⟨-, before'⟩
        · rfl
        · exact coherent.single there before' same
      · rcases kept found' with ⟨rfl, rfl⟩ | ⟨-, before'⟩
        · exact coherent.single before there same
        · exact coherent.single before before' same
    · intro j other found clean
      rw [stored]
      rcases kept found with ⟨rfl, rfl⟩ | ⟨elsewhere, before⟩
      · exact (Function.update_self line.key line.data cache.stored).symm
      · rw [Function.update_of_ne fun same => elsewhere (coherent.single before there same)]
        exact coherent.clean before clean
  refine ⟨coherent', funext fun key => ?_⟩
  by_cases here : key = line.key
  · subst here
    have found : after.lines i = some { line with dirty := false } := by
      rw [lines, Function.update_self]
    rw [coherent.shown_of_line there]
    exact @shown_of_line _ _ _ _ { line with dirty := false } coherent' found
  · by_cases cached : after.Caches key
    · obtain ⟨j, other, found, rfl⟩ := cached
      rw [coherent'.shown_of_line found]
      rcases kept found with ⟨-, rfl⟩ | ⟨-, before⟩
      · exact absurd rfl here
      · exact (coherent.shown_of_line before).symm
    · rw [shown_of_not_caches cached, stored, Function.update_of_ne here]
      refine (shown_of_not_caches ?_).symm
      rintro ⟨j, other, before, rfl⟩
      have elsewhere : j ≠ i := by
        rintro rfl
        exact here (congrArg Line.key (Option.some.inj (before.symm.trans there)))
      exact cached ⟨j, other, by rw [lines, Function.update_of_ne elsewhere, before], rfl⟩

/-- Data is stored past the cache, and the line of its key is dropped. -/
theorem writeAround (coherent : cache.Coherent) {data : Data}
    (stored : after.stored = Function.update cache.stored key data)
    (lines : ∀ i, after.lines i = (cache.lines i).filter fun line => decide (line.key ≠ key)) :
    after.Coherent ∧ after.shown = Function.update cache.shown key data := by
  have kept {j : Nat} {other : Line Key Data} :
      after.lines j = some other ↔ cache.lines j = some other ∧ other.key ≠ key := by
    rw [lines, Option.filter_eq_some_iff, decide_eq_true_eq]
  have coherent' : after.Coherent := by
    refine ⟨fun first second => coherent.single (kept.mp first).1 (kept.mp second).1,
      fun found clean => ?_⟩
    rw [stored, Function.update_of_ne (kept.mp found).2]
    exact coherent.clean (kept.mp found).1 clean
  refine ⟨coherent', funext fun other_key => ?_⟩
  by_cases cached : after.Caches other_key
  · obtain ⟨j, other, found, rfl⟩ := cached
    rw [coherent'.shown_of_line found, Function.update_of_ne (kept.mp found).2,
      coherent.shown_of_line (kept.mp found).1]
  · rw [shown_of_not_caches cached, stored]
    by_cases here : other_key = key
    · rw [here, Function.update_self, Function.update_self]
    · rw [Function.update_of_ne here, Function.update_of_ne here]
      refine (shown_of_not_caches ?_).symm
      rintro ⟨j, other, before, rfl⟩
      exact cached ⟨j, other, kept.mpr ⟨before, here⟩, rfl⟩

end Coherent

end Cache

end WriteBack
