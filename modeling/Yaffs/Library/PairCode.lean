import Mathlib.Algebra.BigOperators.Ring.Finset
import Mathlib.Algebra.Order.BigOperators.Group.Finset
import Mathlib.Data.Fintype.BigOperators
import Mathlib.Tactic.Common

/-!
# Paired parities

A code for data whose bits have binary positions.  For every bit of the positions it keeps two
parities, one over the data bits whose position has the bit and one over those whose position lacks
it.  A syndrome is the difference between the parities that were read and those that were computed.
Some bits may be read with the parities that no parity uses.

One wrong data bit makes every pair unequal and its position can be read off.  The code corrects one
wrong bit and detects two, when positions have at least three bits and an odd number of them.
-/

namespace PairCode

variable {ι σ : Type*}

/-- Which parities differ. -/
@[ext]
structure Syndrome (ι σ : Type*) where
  line : ι → Bool
  prime : ι → Bool
  spare : σ → Bool

/-- A bit that can be wrong: a data bit at a position, a parity or an unused bit. -/
inductive Flip (ι σ : Type*)
  | data (position : ι → Bool)
  | line (k : ι)
  | prime (k : ι)
  | spare (k : σ)

/-- What is concluded from a syndrome. -/
inductive Verdict (ι : Type*)
  | clean
  | data (position : ι → Bool)
  | code
  | lost

namespace Syndrome

/-- No parity differs. -/
def none : Syndrome ι σ := ⟨fun _ => false, fun _ => false, fun _ => false⟩

/-- Syndromes of several wrong bits add up. -/
def add (s t : Syndrome ι σ) : Syndrome ι σ where
  line k := s.line k ^^ t.line k
  prime k := s.prime k ^^ t.prime k
  spare k := s.spare k ^^ t.spare k

variable [Fintype ι] [Fintype σ]

/-- How many bits differ. -/
def weight (s : Syndrome ι σ) : Nat :=
  ∑ k, (s.line k).toNat + ∑ k, (s.prime k).toNat + ∑ k, (s.spare k).toNat

/-- The conclusion from a syndrome. -/
def verdict [DecidableEq ι] [DecidableEq σ] (s : Syndrome ι σ) : Verdict ι :=
  if (∀ k, s.line k = false) ∧ (∀ k, s.prime k = false) ∧ ∀ k, s.spare k = false then .clean
  else if ∀ k, s.line k = !s.prime k then .data s.line
  else if s.weight = 1 then .code
  else .lost

end Syndrome

/-- The syndrome of one wrong bit. -/
def Flip.syndrome [DecidableEq ι] [DecidableEq σ] : Flip ι σ → Syndrome ι σ
  | data position => ⟨position, fun k => !position k, fun _ => false⟩
  | line k => ⟨fun j => decide (j = k), fun _ => false, fun _ => false⟩
  | prime k => ⟨fun _ => false, fun j => decide (j = k), fun _ => false⟩
  | spare k => ⟨fun _ => false, fun _ => false, fun j => decide (j = k)⟩

theorem Syndrome.add_comm (s t : Syndrome ι σ) : s.add t = t.add s := by
  simp only [add, Bool.xor_comm]

/-- Syndromes that add up to nothing are the same. -/
theorem Syndrome.eq_of_add {s t : Syndrome ι σ} (line_none : ∀ k, (s.add t).line k = false)
    (prime_none : ∀ k, (s.add t).prime k = false)
    (spare_none : ∀ k, (s.add t).spare k = false) : s = t := by
  simp only [add, bne_eq_false_iff_eq] at line_none prime_none spare_none
  exact Syndrome.ext (funext line_none) (funext prime_none) (funext spare_none)

/-- The pair that a wrong parity belongs to. -/
def Flip.pair : Flip ι σ → Option ι
  | line k | prime k => some k
  | data _ | spare _ => Option.none

/-- A wrong parity leaves the other pairs alone. -/
theorem Flip.pair_quiet [DecidableEq ι] [DecidableEq σ] {flip : Flip ι σ}
    (check : ∀ position, flip ≠ data position) {k : ι} (other : flip.pair ≠ some k) :
    flip.syndrome.line k = false ∧ flip.syndrome.prime k = false := by
  cases flip with
  | data position => exact absurd rfl (check position)
  | line j =>
    have apart : k ≠ j := fun eq => other (congrArg some eq.symm)
    exact ⟨decide_eq_false apart, rfl⟩
  | prime j =>
    have apart : k ≠ j := fun eq => other (congrArg some eq.symm)
    exact ⟨rfl, decide_eq_false apart⟩
  | spare _ => exact ⟨rfl, rfl⟩

/-! ## Weights -/

section Weights

theorem sum_xor_mod_two {κ : Type*} [Fintype κ] (f g : κ → Bool) :
    (∑ k, (f k ^^ g k).toNat) % 2 = (∑ k, (f k).toNat + ∑ k, (g k).toNat) % 2 := by
  have both : ∑ k, (f k ^^ g k).toNat + 2 * ∑ k, (f k && g k).toNat =
      ∑ k, (f k).toNat + ∑ k, (g k).toNat := by
    rw [Finset.mul_sum, ← Finset.sum_add_distrib, ← Finset.sum_add_distrib]
    apply Finset.sum_congr rfl
    intro k _
    cases f k <;> cases g k <;> rfl
  omega

variable [Fintype ι] [Fintype σ]

theorem Syndrome.weight_add_mod_two (s t : Syndrome ι σ) :
    (s.add t).weight % 2 = (s.weight + t.weight) % 2 := by
  have line := sum_xor_mod_two s.line t.line
  have prime := sum_xor_mod_two s.prime t.prime
  have spare := sum_xor_mod_two s.spare t.spare
  simp only [weight, add]
  omega

variable [DecidableEq ι] [DecidableEq σ]

theorem sum_decide_eq {κ : Type*} [Fintype κ] [DecidableEq κ] (k : κ) :
    ∑ j, (decide (j = k)).toNat = 1 := by
  simp [Bool.toNat, Bool.cond_decide]

/-- Each pair of the syndrome of a data bit counts once. -/
theorem Flip.weight_data (position : ι → Bool) :
    (data (σ := σ) position).syndrome.weight = Fintype.card ι := by
  have pairs : ∑ k, (position k).toNat + ∑ k, (!position k).toNat = ∑ _k : ι, 1 := by
    rw [← Finset.sum_add_distrib]
    apply Finset.sum_congr rfl
    intro k _
    cases position k <;> rfl
  simp only [syndrome, Syndrome.weight]
  rw [pairs]
  simp

theorem Flip.weight_check (flip : Flip ι σ) (check : ∀ position, flip ≠ data position) :
    flip.syndrome.weight = 1 := by
  cases flip with
  | data position => exact absurd rfl (check position)
  | line k => simp [syndrome, Syndrome.weight, sum_decide_eq]
  | prime k => simp [syndrome, Syndrome.weight, sum_decide_eq]
  | spare k => simp [syndrome, Syndrome.weight, sum_decide_eq]

/-- With an odd number of pairs every wrong bit changes an odd number of bits. -/
theorem Flip.weight_odd (odd : Fintype.card ι % 2 = 1) (flip : Flip ι σ) :
    flip.syndrome.weight % 2 = 1 := by
  by_cases is_data : ∃ position, flip = data position
  · obtain ⟨position, rfl⟩ := is_data
    rw [weight_data, odd]
  · rw [weight_check flip fun position eq => is_data ⟨position, eq⟩]

end Weights

/-! ## Distinct syndromes -/

section Distinct

variable [Fintype ι] [DecidableEq ι] [DecidableEq σ]

theorem exists_other_pair (several : 3 ≤ Fintype.card ι) (first second : Option ι) :
    ∃ k, first ≠ some k ∧ second ≠ some k := by
  have few : (first.toFinset ∪ second.toFinset).card < (Finset.univ : Finset ι).card := by
    have union_le := Finset.card_union_le first.toFinset second.toFinset
    have first_le : first.toFinset.card ≤ 1 := by cases first <;> simp
    have second_le : second.toFinset.card ≤ 1 := by cases second <;> simp
    rw [Finset.card_univ]
    omega
  obtain ⟨k, _, outside⟩ := Finset.exists_mem_notMem_of_card_lt_card few
  rw [Finset.mem_union, not_or, Option.mem_toFinset, Option.mem_toFinset] at outside
  exact ⟨k, outside.1, outside.2⟩

theorem Flip.data_ne_check {position : ι → Bool} {flip : Flip ι σ}
    (several : 3 ≤ Fintype.card ι) (check : ∀ position, flip ≠ data position) :
    (data position).syndrome ≠ flip.syndrome := by
  intro same
  obtain ⟨k, other, _⟩ := exists_other_pair several flip.pair flip.pair
  obtain ⟨line_eq, prime_eq⟩ := pair_quiet check other
  rw [← same] at line_eq prime_eq
  simp only [syndrome] at line_eq prime_eq
  rw [line_eq] at prime_eq
  exact absurd prime_eq (by decide)

/-- Different wrong bits have different syndromes. -/
theorem Flip.syndrome_injective (several : 3 ≤ Fintype.card ι) :
    Function.Injective (Flip.syndrome : Flip ι σ → Syndrome ι σ) := by
  intro f g same
  cases f with
  | data p =>
    cases g with
    | data q => exact congrArg data (congrArg Syndrome.line same)
    | _ => exact absurd same (data_ne_check several nofun)
  | line k =>
    cases g with
    | data q => exact absurd same.symm (data_ne_check several nofun)
    | line l =>
      have at_k := congrFun (congrArg Syndrome.line same) k
      simpa [syndrome] using at_k
    | _ =>
      have at_k := congrFun (congrArg Syndrome.line same) k
      simp [syndrome] at at_k
  | prime k =>
    cases g with
    | data q => exact absurd same.symm (data_ne_check several nofun)
    | prime l =>
      have at_k := congrFun (congrArg Syndrome.prime same) k
      simpa [syndrome] using at_k
    | _ =>
      have at_k := congrFun (congrArg Syndrome.prime same) k
      simp [syndrome] at at_k
  | spare k =>
    cases g with
    | data q => exact absurd same.symm (data_ne_check several nofun)
    | spare l =>
      have at_k := congrFun (congrArg Syndrome.spare same) k
      simpa [syndrome] using at_k
    | _ =>
      have at_k := congrFun (congrArg Syndrome.spare same) k
      simp [syndrome] at at_k

end Distinct

/-! ## Verdicts -/

section Verdicts

variable [Fintype ι] [Fintype σ] [DecidableEq ι] [DecidableEq σ]

theorem verdict_none : (Syndrome.none : Syndrome ι σ).verdict = .clean :=
  if_pos ⟨fun _ => rfl, fun _ => rfl, fun _ => rfl⟩

/-- One wrong data bit is found. -/
theorem verdict_data [Nonempty ι] (position : ι → Bool) :
    (Flip.data (σ := σ) position).syndrome.verdict = .data position := by
  obtain ⟨k⟩ := ‹Nonempty ι›
  rw [Syndrome.verdict, if_neg, if_pos]
  · rfl
  · intro j
    exact (Bool.not_not (position j)).symm
  · rintro ⟨line_eq, prime_eq, _⟩
    have at_line : position k = false := line_eq k
    have at_prime : (!position k) = false := prime_eq k
    rw [at_line] at at_prime
    exact absurd at_prime (by decide)

/-- One wrong parity is noticed. -/
theorem verdict_check (several : 3 ≤ Fintype.card ι) {flip : Flip ι σ}
    (check : ∀ position, flip ≠ .data position) : flip.syndrome.verdict = .code := by
  have weight_eq := flip.weight_check check
  obtain ⟨k, other, _⟩ := exists_other_pair several flip.pair flip.pair
  obtain ⟨line_eq, prime_eq⟩ := Flip.pair_quiet check other
  rw [Syndrome.verdict, if_neg, if_neg, if_pos weight_eq]
  · intro unequal
    have at_k := unequal k
    rw [line_eq, prime_eq] at at_k
    exact absurd at_k (by decide)
  · rintro ⟨line_none, prime_none, spare_none⟩
    rw [Syndrome.weight] at weight_eq
    simp [line_none, prime_none, spare_none] at weight_eq

/-- Two wrong bits that leave a pair equal are noticed. -/
theorem verdict_lost (several : 3 ≤ Fintype.card ι) (odd : Fintype.card ι % 2 = 1)
    {f g : Flip ι σ} (apart : f ≠ g) {k : ι}
    (equal : (f.syndrome.add g.syndrome).line k = (f.syndrome.add g.syndrome).prime k) :
    (f.syndrome.add g.syndrome).verdict = .lost := by
  have even := Syndrome.weight_add_mod_two f.syndrome g.syndrome
  have f_odd := f.weight_odd odd
  have g_odd := g.weight_odd odd
  rw [Syndrome.verdict, if_neg, if_neg, if_neg]
  · omega
  · intro unequal
    have at_k := unequal k
    rw [equal] at at_k
    revert at_k
    cases (f.syndrome.add g.syndrome).prime k <;> decide
  · rintro ⟨line_none, prime_none, spare_none⟩
    apply apart
    apply Flip.syndrome_injective several
    exact Syndrome.eq_of_add line_none prime_none spare_none

/-- A wrong unused bit does not hide a wrong data bit. -/
theorem verdict_data_spare [Nonempty ι] (position : ι → Bool) (j : σ) :
    ((Flip.data position).syndrome.add (Flip.spare j).syndrome).verdict = .data position := by
  obtain ⟨k⟩ := ‹Nonempty ι›
  have line_eq : ∀ i, ((Flip.data position).syndrome.add (Flip.spare j).syndrome).line i =
      position i := fun i => Bool.xor_false (position i)
  have prime_eq : ∀ i, ((Flip.data position).syndrome.add (Flip.spare j).syndrome).prime i =
      !position i := fun i => Bool.xor_false (!position i)
  rw [Syndrome.verdict, if_neg, if_pos]
  · exact congrArg Verdict.data (funext line_eq)
  · intro i
    rw [line_eq, prime_eq, Bool.not_not]
  · rintro ⟨line_none, prime_none, _⟩
    have at_line := line_none k
    have at_prime := prime_none k
    rw [line_eq] at at_line
    rw [prime_eq, at_line] at at_prime
    exact absurd at_prime (by decide)

/-- A wrong data bit together with another wrong bit. -/
theorem verdict_data_other (several : 3 ≤ Fintype.card ι) (odd : Fintype.card ι % 2 = 1)
    {position : ι → Bool} {g : Flip ι σ} (apart : .data position ≠ g) :
    ((Flip.data position).syndrome.add g.syndrome).verdict = .lost ∨
      ((Flip.data position).syndrome.add g.syndrome).verdict = .data position ∧
        ∃ j, g = .spare j := by
  have nonempty : Nonempty ι := Fintype.card_pos_iff.mp (by omega)
  cases g with
  | data other =>
    refine .inl (verdict_lost several odd apart (k := Classical.arbitrary ι) ?_)
    simp only [Syndrome.add, Flip.syndrome]
    cases position (Classical.arbitrary ι) <;> cases other (Classical.arbitrary ι) <;> rfl
  | line k =>
    refine .inl (verdict_lost several odd apart (k := k) ?_)
    simp only [Syndrome.add, Flip.syndrome, decide_true]
    cases position k <;> rfl
  | prime k =>
    refine .inl (verdict_lost several odd apart (k := k) ?_)
    simp only [Syndrome.add, Flip.syndrome, decide_true]
    cases position k <;> rfl
  | spare j => exact .inr ⟨verdict_data_spare position j, j, rfl⟩

/-- Two wrong bits are noticed, or the only wrong data bit is found. -/
theorem verdict_two (several : 3 ≤ Fintype.card ι) (odd : Fintype.card ι % 2 = 1) {f g : Flip ι σ}
    (apart : f ≠ g) :
    (f.syndrome.add g.syndrome).verdict = .lost ∨
      ∃ position j, (f.syndrome.add g.syndrome).verdict = .data position ∧
        (f = .data position ∧ g = .spare j ∨ f = .spare j ∧ g = .data position) := by
  by_cases f_data : ∃ position, f = .data position
  · obtain ⟨position, rfl⟩ := f_data
    rcases verdict_data_other several odd apart with lost | ⟨found, j, g_eq⟩
    · exact .inl lost
    · exact .inr ⟨position, j, found, .inl ⟨rfl, g_eq⟩⟩
  by_cases g_data : ∃ position, g = .data position
  · obtain ⟨position, rfl⟩ := g_data
    rw [Syndrome.add_comm]
    rcases verdict_data_other several odd apart.symm with lost | ⟨found, j, f_eq⟩
    · exact .inl lost
    · exact .inr ⟨position, j, found, .inr ⟨f_eq, rfl⟩⟩
  -- two wrong parities leave a pair alone
  obtain ⟨k, f_other, g_other⟩ := exists_other_pair several f.pair g.pair
  obtain ⟨f_line, f_prime⟩ := Flip.pair_quiet (fun p eq => f_data ⟨p, eq⟩) f_other
  obtain ⟨g_line, g_prime⟩ := Flip.pair_quiet (fun p eq => g_data ⟨p, eq⟩) g_other
  refine .inl (verdict_lost several odd apart (k := k) ?_)
  simp only [Syndrome.add, f_line, f_prime, g_line, g_prime]

end Verdicts

end PairCode
