import Kseal.Infra.Bytes

/-!
# Variable-length integers

Base 128, the lowest digit first, a signed number with its sign in the lowest bit. `uvarint` and
`varint` return the value and the number of bytes, which is not positive if there is no value.
-/

namespace Kseal.Infra

open List

def uvarintBytes (x : UInt64) : Bytes :=
  if 0x80 ≤ x then (x.toUInt8 ||| 0x80) :: uvarintBytes (x >>> 7) else [x.toUInt8]
termination_by x.toNat
decreasing_by
  have hle : 128 ≤ x.toNat := by assumption
  rw [UInt64.toNat_shiftRight]
  simp only [UInt64.reduceToNat, Nat.reduceMod, Nat.shiftRight_eq_div_pow]
  omega

def uvarintLoop : Bytes → Nat → UInt64 → UInt64 → UInt64 × Int
  | [], _, _, _ => (0, 0)
  | b :: rest, i, x, s =>
    if i = 10 then (0, -(i + 1))
    else if b < 0x80 then
      if i = 9 ∧ 1 < b then (0, -(i + 1)) else (x ||| b.toUInt64 <<< s, i + 1)
    else uvarintLoop rest (i + 1) (x ||| (b &&& 0x7f).toUInt64 <<< s) (s + 7)

def uvarint (buf : Bytes) : UInt64 × Int := uvarintLoop buf 0 0 0

def varintBytes (x : Int64) : Bytes :=
  let ux := x.toUInt64 <<< 1
  uvarintBytes (if x < 0 then ~~~ux else ux)

def varint (buf : Bytes) : Int64 × Int :=
  let (ux, n) := uvarint buf
  let x := (ux >>> 1).toInt64
  (if ux &&& 1 ≠ 0 then ~~~x else x, n)

/-! ## Bits as arithmetic -/

theorem toNat_shiftRight_seven (x : UInt64) : (x >>> 7).toNat = x.toNat / 128 := by
  simp [Nat.shiftRight_eq_div_pow]

theorem toNat_or_shiftLeft {x s d : UInt64} {k n : Nat} (hs : s.toNat = k) (hd : d.toNat = n)
    (hk : k < 64) (hx : x.toNat < 2 ^ k) (hn : n * 2 ^ k < 2 ^ 64) :
    (x ||| d <<< s).toNat = x.toNat + n * 2 ^ k := by
  rw [UInt64.toNat_or, UInt64.toNat_shiftLeft, hs, hd, Nat.mod_eq_of_lt hk, Nat.shiftLeft_eq,
    Nat.mod_eq_of_lt hn, Nat.or_comm, Nat.mul_comm, ← Nat.two_pow_add_eq_or_of_lt hx, Nat.add_comm]

theorem toNat_digit (x : UInt64) :
    (x.toUInt8 ||| 0x80).toNat = x.toNat % 128 + 128 ∧
      ((x.toUInt8 ||| 0x80) &&& 0x7f).toUInt64.toNat = x.toNat % 128 := by
  have hbyte : ∀ b : Fin 256, (UInt8.ofFin b ||| 0x80).toNat = b.val % 128 + 128 ∧
      ((UInt8.ofFin b ||| 0x80) &&& 0x7f).toNat = b.val % 128 := by
    decide +kernel
  have hlow : x.toUInt8.toNat % 128 = x.toNat % 128 := by
    rw [UInt64.toNat_toUInt8]
    omega
  obtain ⟨hhigh, hdigit⟩ := hbyte x.toUInt8.toFin
  exact ⟨hhigh.trans (by rw [← hlow]; rfl), hdigit.trans hlow⟩

/-- **The digits of a number are read on top of those that were read before it.** -/
theorem uvarintLoop_append (y : UInt64) (rest : Bytes) (i : Nat) (x s : UInt64)
    (hs : s.toNat = 7 * i) (hx : x.toNat < 2 ^ (7 * i)) (hy : y.toNat * 2 ^ (7 * i) < 2 ^ 64)
    (hi : i < 10) :
    ∃ z : UInt64, z.toNat = x.toNat + y.toNat * 2 ^ (7 * i) ∧
      uvarintLoop (uvarintBytes y ++ rest) i x s =
        (z, ((i + (uvarintBytes y).length : Nat) : Int)) := by
  induction y using uvarintBytes.induct generalizing i x s with
  | case1 y hlarge ih =>
    have hle : 128 ≤ y.toNat := hlarge
    have hpow : 2 ^ (7 * (i + 1)) = 128 * 2 ^ (7 * i) := by
      rw [show 7 * (i + 1) = 7 + 7 * i by omega, Nat.pow_add]
    -- A further digit fits, so this is not the last position.
    have hi' : i + 1 < 10 := by
      by_contra hge
      have hnine : i = 9 := by omega
      subst hnine
      omega
    obtain ⟨hbyte, hdigit⟩ := toNat_digit y
    have hlow : y.toNat % 128 * 2 ^ (7 * i) ≤ 127 * 2 ^ (7 * i) :=
      Nat.mul_le_mul_right _ (by omega)
    have hfits : 128 * 2 ^ (7 * i) ≤ 2 ^ 64 := by
      rw [← hpow]
      exact Nat.pow_le_pow_right (by decide) (by omega)
    have hx' := toNat_or_shiftLeft hs hdigit (by omega) hx (by omega)
    have hsplit : (y >>> 7).toNat * 2 ^ (7 * (i + 1)) + y.toNat % 128 * 2 ^ (7 * i) =
        y.toNat * 2 ^ (7 * i) := by
      rw [toNat_shiftRight_seven, hpow, ← Nat.mul_assoc, ← Nat.add_mul]
      congr 1
      omega
    have hs' : (s + 7).toNat = 7 * (i + 1) := by
      rw [UInt64.toNat_add]
      simp only [UInt64.reduceToNat]
      omega
    obtain ⟨z, hz, hloop⟩ := ih (i + 1)
      (x ||| ((y.toUInt8 ||| 0x80) &&& 0x7f).toUInt64 <<< s) (s + 7) hs' (by omega) (by omega) hi'
    refine ⟨z, by omega, ?_⟩
    have hcontinue : ¬ (y.toUInt8 ||| 0x80) < 0x80 := by
      intro hlt
      have hlt' : (y.toUInt8 ||| 0x80).toNat < 128 := hlt
      omega
    rw [uvarintBytes, if_pos hlarge, cons_append, uvarintLoop, if_neg (by omega),
      if_neg hcontinue, hloop, length_cons]
    congr 2
    omega
  | case2 y hsmall =>
    have hlt : y.toNat < 128 := by
      by_contra hge
      exact hsmall (Nat.le_of_not_lt hge)
    have hbyte : y.toUInt8.toNat = y.toNat := by
      rw [UInt64.toNat_toUInt8]
      omega
    have hdigit : y.toUInt8.toUInt64.toNat = y.toNat := by rw [UInt8.toNat_toUInt64, hbyte]
    have hlast : ¬ (i = 9 ∧ 1 < y.toUInt8) := by
      rintro ⟨rfl, hone⟩
      have hone' : 1 < y.toUInt8.toNat := hone
      omega
    refine ⟨_, toNat_or_shiftLeft hs hdigit (by omega) hx hy, ?_⟩
    have hend : y.toUInt8 < 0x80 := by
      show y.toUInt8.toNat < 128
      omega
    rw [uvarintBytes, if_neg hsmall, cons_append, uvarintLoop, if_neg (by omega),
      if_pos hend, if_neg hlast]
    rfl

/-- **What was written is read back.** -/
theorem uvarint_append (x : UInt64) (rest : Bytes) :
    uvarint (uvarintBytes x ++ rest) = (x, ((uvarintBytes x).length : Int)) := by
  obtain ⟨z, hz, hloop⟩ := uvarintLoop_append x rest 0 0 0 rfl (by decide)
    (by simpa using x.toNat_lt) (by decide)
  have hzx : z = x := UInt64.toNat_inj.mp (by simpa using hz)
  rw [uvarint, hloop, hzx]
  simp

theorem length_uvarintBytes_pos (x : UInt64) : 0 < (uvarintBytes x).length := by
  rw [uvarintBytes]
  split <;> simp

theorem unzigzag (x : Int64) :
    let ux := if x < 0 then ~~~(x.toUInt64 <<< 1) else x.toUInt64 <<< 1
    (if ux &&& 1 ≠ 0 then ~~~(ux >>> 1).toInt64 else (ux >>> 1).toInt64) = x := by
  have hlow : ∀ ux : UInt64, (ux &&& 1 ≠ 0) ↔ ux.toNat % 2 = 1 := by
    intro ux
    rw [ne_eq, ← UInt64.toNat_inj, UInt64.toNat_and]
    simp only [UInt64.reduceToNat, Nat.and_one_is_mod]
    omega
  have hshift : ∀ ux : UInt64, (ux >>> 1).toNat = ux.toNat / 2 := by
    intro ux
    simp [Nat.shiftRight_eq_div_pow]
  have hdouble : (x.toUInt64 <<< 1).toNat = x.toUInt64.toNat * 2 % 2 ^ 64 := by
    simp [Nat.shiftLeft_eq]
  have hlt := x.toUInt64.toNat_lt
  have hsign : x < 0 ↔ 2 ^ 63 ≤ x.toUInt64.toNat := by
    rw [Int64.lt_iff_toInt_lt]
    show x.toBitVec.toInt < 0 ↔ 2 ^ 63 ≤ x.toBitVec.toNat
    rw [BitVec.toInt_eq_toNat_cond]
    split <;> omega
  have hsize : UInt64.size = 2 ^ 64 := rfl
  dsimp only
  by_cases hneg : x < 0
  · have hge := hsign.mp hneg
    have hodd := (hlow (~~~(x.toUInt64 <<< 1))).mpr (by rw [UInt64.toNat_not]; omega)
    have hhalf : ~~~(~~~(x.toUInt64 <<< 1) >>> 1) = x.toUInt64 := by
      apply UInt64.toNat_inj.mp
      rw [UInt64.toNat_not, hshift, UInt64.toNat_not]
      omega
    rw [if_pos hneg, if_pos hodd, ← UInt64.toInt64_not, hhalf, Int64.toInt64_toUInt64]
  · have hlt' : x.toUInt64.toNat < 2 ^ 63 := Nat.lt_of_not_le (hsign.not.mp hneg)
    have heven := (hlow (x.toUInt64 <<< 1)).not.mpr (by rw [hdouble]; omega)
    have hhalf : x.toUInt64 <<< 1 >>> 1 = x.toUInt64 := by
      apply UInt64.toNat_inj.mp
      rw [hshift]
      omega
    rw [if_neg hneg, if_neg heven, hhalf, Int64.toInt64_toUInt64]

theorem varint_append (x : Int64) (rest : Bytes) :
    varint (varintBytes x ++ rest) = (x, ((varintBytes x).length : Int)) := by
  unfold varint varintBytes
  rw [uvarint_append]
  dsimp only
  rw [unzigzag x]

/-! ## What a value depends on -/

theorem uvarintLoop_local (buf : Bytes) (i : Nat) (x s v : UInt64) (n : Int)
    (h : uvarintLoop buf i x s = (v, n)) (hn : 0 < n) :
    ∃ taken rest, buf = taken ++ rest ∧ n = ((i + taken.length : Nat) : Int) ∧
      ∀ rest', uvarintLoop (taken ++ rest') i x s = (v, n) := by
  induction buf generalizing i x s with
  | nil =>
    obtain ⟨-, rfl⟩ := Prod.mk.inj h
    omega
  | cons b buf ih =>
    by_cases hi : i = 10
    · rw [uvarintLoop, if_pos hi] at h
      obtain ⟨-, rfl⟩ := Prod.mk.inj h
      omega
    · rw [uvarintLoop, if_neg hi] at h
      by_cases hb : b < 0x80
      · rw [if_pos hb] at h
        refine ⟨[b], buf, rfl, ?_, fun rest' => ?_⟩
        · split at h
          · obtain ⟨-, rfl⟩ := Prod.mk.inj h
            omega
          · exact (Prod.mk.inj h).2.symm
        · rw [singleton_append, uvarintLoop, if_neg hi, if_pos hb]
          exact h
      · rw [if_neg hb] at h
        obtain ⟨taken, rest, rfl, hlen, hloop⟩ := ih _ _ _ h
        refine ⟨b :: taken, rest, rfl, ?_, fun rest' => ?_⟩
        · rw [length_cons]
          omega
        · rw [cons_append, uvarintLoop, if_neg hi, if_neg hb]
          exact hloop rest'

/-- **A value depends only on the bytes it took.** -/
theorem uvarint_local {buf : Bytes} {v : UInt64} {n : Int} (h : uvarint buf = (v, n)) (hn : 0 < n) :
    ∃ taken rest, buf = taken ++ rest ∧ n = (taken.length : Int) ∧
      ∀ rest', uvarint (taken ++ rest') = (v, n) := by
  obtain ⟨taken, rest, hbuf, hlen, hloop⟩ := uvarintLoop_local buf 0 0 0 v n h hn
  exact ⟨taken, rest, hbuf, by simpa using hlen, hloop⟩

theorem varint_local {buf : Bytes} {v : Int64} {n : Int} (h : varint buf = (v, n)) (hn : 0 < n) :
    ∃ taken rest, buf = taken ++ rest ∧ n = (taken.length : Int) ∧
      ∀ rest', varint (taken ++ rest') = (v, n) := by
  obtain ⟨ux, m, hux⟩ : ∃ ux m, uvarint buf = (ux, m) := ⟨_, _, rfl⟩
  unfold varint at h
  rw [hux] at h
  obtain ⟨hv, rfl⟩ := Prod.mk.inj h
  obtain ⟨taken, rest, hbuf, hlen, hread⟩ := uvarint_local hux hn
  refine ⟨taken, rest, hbuf, hlen, fun rest' => ?_⟩
  unfold varint
  rw [hread, ← hv]

end Kseal.Infra
