import Kseal.Infra.Bytes

/-!
# Reading binary images

A slice outside the bytes has no result, and neither has a number that is read from it.
-/

namespace Kseal.Infra

open List

def slice (bytes : Bytes) (offset : Int) (count : Nat) : Option Bytes :=
  if 0 ≤ offset ∧ offset + count ≤ bytes.length then
    some ((bytes.drop offset.toNat).take count)
  else none

def ofLe (bs : Bytes) : Nat := ofBe bs.reverse

def readLe (bytes : Bytes) (offset : Int) (count : Nat) : Option Nat :=
  (slice bytes offset count).map ofLe

variable {bytes : Bytes} {offset : Int} {count : Nat}

theorem slice_isSome_iff :
    (slice bytes offset count).isSome ↔ 0 ≤ offset ∧ offset + count ≤ bytes.length := by
  unfold slice
  split <;> simp_all

theorem ofLe_lt (bs : Bytes) : ofLe bs < 256 ^ bs.length := by
  unfold ofLe
  induction bs with
  | nil => simp [ofBe]
  | cons b bs ih =>
    have hb := b.toNat_lt
    rw [reverse_cons, ofBe_concat, length_cons]
    omega

variable (bytes count) in
/-- **A number inside the bytes is read.** -/
theorem readLe_of_bounds (h : 0 ≤ offset) (hle : offset + count ≤ bytes.length) :
    ∃ v, readLe bytes offset count = some v ∧ v < 256 ^ count := by
  have hslice : slice bytes offset count = some ((bytes.drop offset.toNat).take count) :=
    if_pos ⟨h, hle⟩
  refine ⟨_, congrArg (Option.map ofLe) hslice, ?_⟩
  have hlt := ofLe_lt ((bytes.drop offset.toNat).take count)
  have hlen : ((bytes.drop offset.toNat).take count).length = count := by
    rw [length_take, length_drop]
    omega
  rwa [hlen] at hlt

end Kseal.Infra
