import Mathlib.Algebra.BigOperators.Fin
import Mathlib.Data.Fintype.Basic
import Mathlib.Data.Nat.Bitwise
import Kseal.Infra.Bytes

/-!
# Sets of bits

A 64-bit word as the set of its bits (`bits`), and what the usual ways of going through the bits
of a word do to that set.

* `exists_bits` — every set of positions is the set of bits of a word
-/

namespace Kseal.Infra

open List

instance neZero_positions : NeZero 64 := ⟨by decide⟩

def bits (w : UInt64) : Finset (Fin 64) := Finset.univ.filter fun i => w.toNat.testBit i

def oneBit (i : Fin 64) : UInt64 := 1 <<< UInt64.ofNat i

variable {w : UInt64} {i : Fin 64}

@[simp] theorem mem_bits : i ∈ bits w ↔ w.toNat.testBit i = true := by
  simp [bits]

theorem bits_zero : bits 0 = ∅ := by
  ext i
  simp

theorem bits_and (v w : UInt64) : bits (v &&& w) = bits v ∩ bits w := by
  ext i
  rw [Finset.mem_inter, mem_bits, mem_bits, mem_bits, UInt64.toNat_and, Nat.testBit_and,
    Bool.and_eq_true]

theorem bits_or (v w : UInt64) : bits (v ||| w) = bits v ∪ bits w := by
  ext i
  rw [Finset.mem_union, mem_bits, mem_bits, mem_bits, UInt64.toNat_or, Nat.testBit_or,
    Bool.or_eq_true]

theorem bits_and_not (v w : UInt64) : bits (v &&& ~~~w) = bits v \ bits w := by
  ext i
  have hi : i.val < 64 := i.isLt
  have hcompl : (~~~w).toNat.testBit i = ! w.toNat.testBit i := by
    show (~~~w).toBitVec.toNat.testBit i = ! w.toBitVec.toNat.testBit i
    rw [← BitVec.getLsbD, ← BitVec.getLsbD, UInt64.toBitVec_not]
    simp [hi]
  rw [Finset.mem_sdiff, mem_bits, UInt64.toNat_and, Nat.testBit_and, hcompl]
  simp

theorem bits_eq_empty : bits w = ∅ ↔ w = 0 := by
  constructor
  · intro h
    apply UInt64.toNat_inj.mp
    apply Nat.eq_of_testBit_eq
    intro i
    by_cases hi : i < 64
    · have hmem : (⟨i, hi⟩ : Fin 64) ∉ bits w := by rw [h]; exact Finset.notMem_empty _
      rw [mem_bits, Bool.not_eq_true] at hmem
      rw [hmem]
      simp
    · have hpow : 2 ^ 64 ≤ 2 ^ i := Nat.pow_le_pow_right (by decide) (by omega)
      have hlt : w.toNat < 2 ^ i := Nat.lt_of_lt_of_le w.toNat_lt hpow
      rw [Nat.testBit_lt_two_pow hlt]
      simp
  · rintro rfl
    exact bits_zero

theorem toNat_oneBit (i : Fin 64) : (oneBit i).toNat = 2 ^ i.val := by
  have hi : i.val < 64 := i.isLt
  have hlt : 2 ^ i.val < 2 ^ 64 := Nat.pow_lt_pow_right (by decide) hi
  unfold oneBit
  rw [UInt64.toNat_shiftLeft, UInt64.toNat_ofNat', Nat.mod_eq_of_lt (by omega : i.val < 2 ^ 64),
    Nat.mod_eq_of_lt hi, Nat.shiftLeft_eq, Nat.mod_eq_of_lt]
  · simp
  · simpa using hlt

theorem and_oneBit_ne_zero :
    (w &&& oneBit i != 0) = true ↔ i ∈ bits w := by
  rw [mem_bits, bne_iff_ne, ne_eq, ← UInt64.toNat_inj, UInt64.toNat_and, toNat_oneBit,
    Nat.and_two_pow]
  cases w.toNat.testBit i <;> simp

theorem bits_or_oneBit (w : UInt64) (i : Fin 64) : bits (w ||| oneBit i) = insert i (bits w) := by
  ext j
  rw [mem_bits, UInt64.toNat_or, toNat_oneBit, Nat.testBit_or, Nat.testBit_two_pow,
    Bool.or_eq_true, decide_eq_true_eq, Finset.mem_insert, mem_bits, Fin.val_inj]
  constructor
  · rintro (h | h)
    · exact .inr h
    · exact .inl h.symm
  · rintro (h | h)
    · exact .inr h.symm
    · exact .inl h

theorem exists_bits (s : Finset (Fin 64)) : ∃ w, bits w = s := by
  induction s using Finset.induction_on with
  | empty => exact ⟨0, bits_zero⟩
  | insert i s _ ih =>
    obtain ⟨w, rfl⟩ := ih
    exact ⟨w ||| oneBit i, bits_or_oneBit w i⟩

/-! ## The lowest bit -/

def trailingZeros (w : UInt64) : Nat := ((List.range 64).find? fun i => w.toNat.testBit i).getD 64

theorem testBit_clearLowest {n t : Nat} (ht : n.testBit t = true)
    (hlow : ∀ i < t, n.testBit i = false) (i : Nat) :
    (n &&& (n - 1)).testBit i = (n.testBit i && decide (i ≠ t)) := by
  -- `n = 2 ^ t * (2 * m + 1)`, so `n - 1 = 2 ^ (t + 1) * m + (2 ^ t - 1)`.
  have hmod : n % 2 ^ t = 0 := by
    apply Nat.eq_of_testBit_eq
    intro i
    rw [Nat.testBit_mod_two_pow, Nat.zero_testBit]
    by_cases hi : i < t
    · rw [hlow i hi, Bool.and_false]
    · simp [hi]
  have hodd : n / 2 ^ t % 2 = 1 := by
    rw [Nat.testBit_eq_decide_div_mod_eq] at ht
    exact of_decide_eq_true ht
  obtain ⟨m, hm⟩ : ∃ m, n / 2 ^ t = 2 * m + 1 := ⟨n / 2 ^ t / 2, by omega⟩
  have hpos : 0 < 2 ^ t := Nat.two_pow_pos t
  have hn : n = 2 ^ t * (2 * m + 1) + 0 := by
    have := Nat.div_add_mod n (2 ^ t)
    rw [hm, hmod] at this
    exact this.symm
  have hpred : n - 1 = 2 ^ t * (2 * m) + (2 ^ t - 1) := by
    rw [hn, Nat.mul_add, Nat.mul_one]
    omega
  rw [Nat.testBit_and, hpred]
  conv_lhs => rw [hn]
  conv_rhs => rw [hn]
  rw [Nat.testBit_two_pow_mul_add _ hpos, Nat.testBit_two_pow_mul_add _ (by omega)]
  by_cases hi : i < t
  · rw [if_pos hi, Nat.zero_testBit]
    rfl
  · rw [if_neg hi, if_neg hi]
    by_cases hit : i = t
    · rw [hit, Nat.sub_self]
      simp
    · obtain ⟨j, hj⟩ : ∃ j, i - t = j + 1 := ⟨i - t - 1, by omega⟩
      rw [hj, Nat.testBit_succ, Nat.testBit_succ]
      have h₁ : (2 * m + 1) / 2 = m := by omega
      have h₂ : 2 * m / 2 = m := by omega
      rw [h₁, h₂]
      simp [hit]

theorem trailingZeros_spec (hw : w ≠ 0) :
    ∃ i : Fin 64, trailingZeros w = i ∧ i ∈ bits w ∧ ∀ j < i.val, w.toNat.testBit j = false := by
  unfold trailingZeros
  cases hfind : (List.range 64).find? fun i => w.toNat.testBit i with
  | none =>
    refine absurd (bits_eq_empty.mp ?_) hw
    ext i
    have := find?_eq_none.mp hfind i (mem_range.mpr i.isLt)
    simpa using this
  | some t =>
    obtain ⟨hbit, as, bs, hrange, hbefore⟩ := find?_eq_some_iff_append.mp hfind
    have ht : t < 64 := mem_range.mp (by rw [hrange]; simp)
    have has : as.length = t := by
      have hget : (List.range 64)[as.length]? = some t := by rw [hrange]; simp
      rw [getElem?_range (by
        have := congrArg List.length hrange
        simp at this
        omega)] at hget
      exact Option.some.inj hget
    refine ⟨⟨t, ht⟩, rfl, mem_bits.mpr hbit, fun j hj => ?_⟩
    have hmem : j ∈ as := by
      have htake : as = (List.range 64).take t := by rw [hrange, ← has]; simp
      rw [htake, take_range, mem_range]
      have hj' : j < t := hj
      omega
    simpa using hbefore j hmem

theorem bits_clearLowest (hw : w ≠ 0) (hi : i ∈ bits w)
    (hlow : ∀ j < i.val, w.toNat.testBit j = false) :
    bits (w &&& (w - 1)) = (bits w).erase i := by
  have hpos : 1 ≤ w.toNat := by
    rcases Nat.eq_zero_or_pos w.toNat with h0 | h0
    · exact absurd (UInt64.toNat_inj.mp h0) hw
    · exact h0
  have hsub : (w - 1).toNat = w.toNat - 1 := UInt64.toNat_sub_of_le _ _ hpos
  ext j
  rw [mem_bits, UInt64.toNat_and, hsub, testBit_clearLowest (mem_bits.mp hi) hlow,
    Finset.mem_erase, mem_bits, Bool.and_eq_true, decide_eq_true_eq, and_comm, ne_eq, ne_eq,
    Fin.val_inj]

end Kseal.Infra
