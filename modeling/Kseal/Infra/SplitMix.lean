import Mathlib.Data.Fintype.Card
import Mathlib.Data.Fintype.Pigeonhole
import Kseal.Infra.Bytes

/-!
# SplitMix64

The counter and the mixing are injective, so 2⁶⁴ draws in a row are all different, and a loop that
rejects some of the values ends (`exists_output_lt`).
-/

namespace Kseal.Infra.SplitMix

def gamma : UInt64 := 0x9E3779B97F4A7C15

def mix (z : UInt64) : UInt64 :=
  let z := (z ^^^ (z >>> 30)) * 0xBF58476D1CE4E5B9
  let z := (z ^^^ (z >>> 27)) * 0x94D049BB133111EB
  z ^^^ (z >>> 31)

def output (state : UInt64) (n : Nat) : UInt64 := mix (state + UInt64.ofNat (n + 1) * gamma)

theorem output_add_gamma (state : UInt64) (i : Nat) :
    output (state + gamma) i = output state (i + 1) := by
  have hcount : UInt64.ofNat (i + 1 + 1) * gamma = gamma + UInt64.ofNat (i + 1) * gamma := by
    rw [Nat.add_comm (i + 1) 1, UInt64.ofNat_add, UInt64.add_mul, UInt64.ofNat_one, UInt64.one_mul]
  rw [output, output, hcount, UInt64.add_assoc]

/-! ## Steps that can be undone -/

theorem unshift_xorShift {k : Nat} (hk : 64 ≤ 3 * k) (z : BitVec 64) :
    (z ^^^ z >>> k) ^^^ (z ^^^ z >>> k) >>> k ^^^ (z ^^^ z >>> k) >>> (k + k) = z := by
  have hempty : z >>> (k + k + k) = 0#64 := BitVec.ushiftRight_eq_zero (by omega)
  simp only [BitVec.ushiftRight_xor_distrib, ← BitVec.shiftRight_add, ← Nat.add_assoc, hempty]
  simp only [BitVec.xor_zero, BitVec.xor_assoc]
  rw [← BitVec.xor_assoc (z >>> k) (z >>> k), BitVec.xor_self, BitVec.zero_xor, BitVec.xor_self,
    BitVec.xor_zero]

theorem xorShift_injective {k : Nat} (hk : 64 ≤ 3 * k) :
    Function.Injective fun z : BitVec 64 => z ^^^ z >>> k := by
  intro z z' h
  dsimp only at h
  rw [← unshift_xorShift hk z, ← unshift_xorShift hk z', h]

theorem mul_injective {c c' : UInt64} (h : c * c' = 1) : Function.Injective (· * c) := by
  intro x y hxy
  have := congrArg (· * c') hxy
  simpa only [UInt64.mul_assoc, h, UInt64.mul_one] using this

theorem mix_injective : Function.Injective mix := by
  have hshift : ∀ (k : UInt64), 64 ≤ 3 * (k.toNat % 64) →
      Function.Injective fun z : UInt64 => z ^^^ (z >>> k) := by
    intro k hk z z' h
    refine UInt64.toBitVec_inj.mp (xorShift_injective hk ?_)
    have hbits := congrArg UInt64.toBitVec h
    simpa using hbits
  have h₁ : (0xBF58476D1CE4E5B9 : UInt64) * 0x96DE1B173F119089 = 1 := by decide
  have h₂ : (0x94D049BB133111EB : UInt64) * 0x319642B2D24D8EC3 = 1 := by decide
  exact (hshift 31 (by decide)).comp ((mul_injective h₂).comp ((hshift 27 (by decide)).comp
    ((mul_injective h₁).comp (hshift 30 (by decide)))))

theorem output_injective {state : UInt64} {m n : Nat} (hm : m < 2 ^ 63) (hn : n < 2 ^ 63)
    (h : output state m = output state n) : m = n := by
  have hgamma : gamma * 0xF1DE83E19937733D = 1 := by decide
  have hcount : UInt64.ofNat (m + 1) = UInt64.ofNat (n + 1) :=
    mul_injective hgamma (by simpa using mix_injective h)
  have hnat := congrArg UInt64.toNat hcount
  rw [UInt64.toNat_ofNat', UInt64.toNat_ofNat'] at hnat
  omega

/-- **Of more draws than there are values from the limit on, one is below the limit.** -/
theorem exists_output_lt (state : UInt64) {limit : UInt64} {n : Nat} (hn : n < 2 ^ 63)
    (hlimit : 2 ^ 64 - limit.toNat ≤ n) : ∃ i ≤ n, output state i < limit := by
  by_contra hnone
  push Not at hnone
  -- All draws would be different values from the limit on.
  have hle : ∀ i ≤ n, limit.toNat ≤ (output state i).toNat := fun i hi =>
    UInt64.le_iff_toNat_le.mp (UInt64.not_lt.mp (hnone i hi))
  let place : Fin (n + 1) → Fin (2 ^ 64 - limit.toNat) := fun i =>
    ⟨(output state i).toNat - limit.toNat, by
      have := (output state i).toNat_lt
      have := hle i (Nat.lt_succ_iff.mp i.isLt)
      omega⟩
  obtain ⟨i, j, hne, hsame⟩ := Fintype.exists_ne_map_eq_of_card_lt place (by
    rw [Fintype.card_fin, Fintype.card_fin]
    omega)
  have hi := hle i (Nat.lt_succ_iff.mp i.isLt)
  have hj := hle j (Nat.lt_succ_iff.mp j.isLt)
  have hsame' : (output state i).toNat - limit.toNat = (output state j).toNat - limit.toNat :=
    congrArg Fin.val hsame
  have heq : output state i = output state j := UInt64.toNat_inj.mp (by omega)
  exact hne (Fin.ext (output_injective (by omega) (by omega) heq))

end Kseal.Infra.SplitMix
