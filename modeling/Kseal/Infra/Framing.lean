import Kseal.Infra.Bytes

/-!
# Framing

Messages are sequences of fields: byte strings after their length, which is written with 32 bits,
and integers of fixed width (`lp_append_inj`, `i64Be_append_inj`).
-/

namespace Kseal.Infra

open List

def lp (bs : Bytes) : Bytes := u32Be (UInt32.ofNat bs.length) ++ bs

def pushLP (buf field : Bytes) : Option Bytes :=
  if field.length > 2 ^ 32 - 1 then none else some (buf ++ lp field)

def i64Be (x : Int64) : Bytes := u64Be x.toUInt64

@[simp] theorem length_lp (bs : Bytes) : (lp bs).length = bs.length + 4 := by
  simp [lp, u32Be, Nat.add_comm]

@[simp] theorem length_i64Be (x : Int64) : (i64Be x).length = 8 := by
  simp [i64Be, u64Be]

theorem pushLP_of_lt {field : Bytes} (h : field.length < 2 ^ 32) (buf : Bytes) :
    pushLP buf field = some (buf ++ lp field) := by
  unfold pushLP
  rw [if_neg (by omega)]

theorem u32Be_length_eq {m n : Nat} (h : u32Be (UInt32.ofNat m) = u32Be (UInt32.ofNat n)) :
    m % 2 ^ 32 = n % 2 ^ 32 := by
  have h := congrArg ofBe h
  rw [u32Be, u32Be, ofBe_beBytes, ofBe_beBytes, UInt32.toNat_ofNat', UInt32.toNat_ofNat'] at h
  omega

variable {a b x y : Bytes}

/-- **The first field and the rest of a message.** -/
theorem lp_append_inj (hab : a.length < b.length + 2 ^ 32) (hba : b.length < a.length + 2 ^ 32)
    (h : lp a ++ x = lp b ++ y) : a = b ∧ x = y := by
  unfold lp at h
  rw [append_assoc, append_assoc] at h
  obtain ⟨hlen, h⟩ := append_inj h (by simp [u32Be])
  have hmod := u32Be_length_eq hlen
  exact append_inj h (by omega)

theorem lp_append_inj_of_lt (ha : a.length < 2 ^ 32) (hb : b.length < 2 ^ 32)
    (h : lp a ++ x = lp b ++ y) : a = b ∧ x = y :=
  lp_append_inj (by omega) (by omega) h

theorem lp_inj (ha : a.length < 2 ^ 32) (hb : b.length < 2 ^ 32) (h : lp a = lp b) :
    a = b :=
  (lp_append_inj_of_lt ha hb (congrArg (· ++ []) h)).1

variable {m n : Int64}

theorem i64Be_append_inj (h : i64Be m ++ x = i64Be n ++ y) :
    m = n ∧ x = y := by
  obtain ⟨hmn, hxy⟩ := append_inj h (by simp)
  have hval := congrArg ofBe hmn
  have hm := UInt64.toNat_lt_size m.toUInt64
  have hn := UInt64.toNat_lt_size n.toUInt64
  rw [i64Be, i64Be, u64Be, u64Be, ofBe_beBytes_of_lt hm, ofBe_beBytes_of_lt hn] at hval
  exact ⟨congrArg UInt64.toInt64 (UInt64.toNat_inj.mp hval), hxy⟩

theorem i64Be_inj (h : i64Be m = i64Be n) : m = n :=
  (i64Be_append_inj (congrArg (· ++ []) h)).1

end Kseal.Infra
