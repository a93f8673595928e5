/-!
# Mixed boolean-arithmetic identities

Sums of words written with their bitwise operations, for every width. They all rest on one fact:
a sum of two words without a common bit is their union.

* `xor_add_and_shiftLeft` — a sum is the sum without carries plus the carries
-/

namespace Kseal.Infra

variable {w : Nat}

theorem and_add_xor (a b : BitVec w) : (a &&& b) + (a ^^^ b) = a ||| b := by
  rw [BitVec.add_eq_or_of_and_eq_zero]
  · ext i
    grind
  · ext i
    grind

theorem and_add_and_not (a b : BitVec w) : (a &&& b) + (a &&& ~~~b) = a := by
  rw [BitVec.add_eq_or_of_and_eq_zero]
  · ext i
    grind
  · ext i
    grind

theorem and_not_add_and_not (a b : BitVec w) : (a &&& ~~~b) + (b &&& ~~~a) = a ^^^ b := by
  rw [BitVec.add_eq_or_of_and_eq_zero]
  · ext i
    grind
  · ext i
    grind

theorem shiftLeft_one (a : BitVec w) : a <<< 1 = a + a := by
  apply BitVec.eq_of_toNat_eq
  rw [BitVec.toNat_shiftLeft, BitVec.toNat_add, Nat.shiftLeft_eq, Nat.mul_two]

/-- **A sum is the bits of which it has one, and twice the bits of which it has two.** -/
theorem xor_add_and_shiftLeft (a b : BitVec w) : (a ^^^ b) + (a &&& b) <<< 1 = a + b := by
  have ha := and_add_and_not a b
  have hb : (a &&& b) + (b &&& ~~~a) = b := BitVec.and_comm a b ▸ and_add_and_not b a
  calc (a ^^^ b) + (a &&& b) <<< 1
      = (a &&& ~~~b) + (b &&& ~~~a) + ((a &&& b) + (a &&& b)) := by
        rw [and_not_add_and_not, shiftLeft_one]
    _ = ((a &&& b) + (a &&& ~~~b)) + ((a &&& b) + (b &&& ~~~a)) := by
        ac_rfl
    _ = a + b := by rw [ha, hb]

theorem or_sub_and (a b : BitVec w) : (a ||| b) - (a &&& b) = a ^^^ b := by
  rw [← and_add_xor, BitVec.add_comm, BitVec.add_sub_cancel]

theorem not_or_not (a b : BitVec w) : ~~~(~~~a ||| ~~~b) = a &&& b := by
  ext i
  simp

end Kseal.Infra
