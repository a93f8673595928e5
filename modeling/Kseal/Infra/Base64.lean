import Kseal.Infra.Bytes

/-!
# Base64 for URLs, without padding

`base64.RawURLEncoding`: three bytes are four digits, and one or two bytes at the end are two or
three digits. The decoder skips line breaks, and ignores the bits of the last digit that no byte
has.

* `rawURLDecode_rawURLEncode` — what was encoded is decoded
-/

namespace Kseal.Infra

open List

def urlDigit (n : Nat) : UInt8 :=
  if n < 26 then UInt8.ofNat (65 + n)
  else if n < 52 then UInt8.ofNat (71 + n)
  else if n < 62 then UInt8.ofNat (n - 4)
  else if n = 62 then 45 else 95

def urlDigitValue (b : UInt8) : Option Nat :=
  if 65 ≤ b ∧ b ≤ 90 then some (b.toNat - 65)
  else if 97 ≤ b ∧ b ≤ 122 then some (b.toNat - 71)
  else if 48 ≤ b ∧ b ≤ 57 then some (b.toNat + 4)
  else if b = 45 then some 62
  else if b = 95 then some 63
  else none

def sextets : Bytes → List Nat
  | a :: b :: c :: rest =>
    a.toNat / 4 :: (a.toNat % 4 * 16 + b.toNat / 16) :: (b.toNat % 16 * 4 + c.toNat / 64) ::
      c.toNat % 64 :: sextets rest
  | [a, b] => [a.toNat / 4, a.toNat % 4 * 16 + b.toNat / 16, b.toNat % 16 * 4]
  | [a] => [a.toNat / 4, a.toNat % 4 * 16]
  | [] => []

def ofSextets : List Nat → Option Bytes
  | w :: x :: y :: z :: rest =>
    (ofSextets rest).map fun bs =>
      UInt8.ofNat (w * 4 + x / 16) :: UInt8.ofNat (x % 16 * 16 + y / 4) ::
        UInt8.ofNat (y % 4 * 64 + z) :: bs
  | [w, x, y] => some [UInt8.ofNat (w * 4 + x / 16), UInt8.ofNat (x % 16 * 16 + y / 4)]
  | [w, x] => some [UInt8.ofNat (w * 4 + x / 16)]
  | [_] => none
  | [] => some []

def rawURLEncode (bs : Bytes) : Bytes := (sextets bs).map urlDigit

def isLineBreak (b : UInt8) : Bool := b = 10 || b = 13

def rawURLDecode (bs : Bytes) : Option Bytes :=
  ((bs.filter (!isLineBreak ·)).mapM urlDigitValue).bind ofSextets

/-! ## Decoding what was encoded -/

theorem urlDigit_spec {n : Nat} (h : n < 64) :
    urlDigitValue (urlDigit n) = some n ∧ isLineBreak (urlDigit n) = false := by
  have htable : ∀ n : Fin 64, urlDigitValue (urlDigit n) = some n.val ∧
      isLineBreak (urlDigit n) = false := by
    decide +kernel
  exact htable ⟨n, h⟩

theorem sextets_lt (bs : Bytes) : ∀ n ∈ sextets bs, n < 64 := by
  induction bs using sextets.induct with
  | case1 a b c rest ih =>
    have ha := a.toNat_lt
    have hb := b.toNat_lt
    have hc := c.toNat_lt
    intro n hn
    rw [sextets] at hn
    simp only [mem_cons] at hn
    rcases hn with rfl | rfl | rfl | rfl | hn
    · omega
    · omega
    · omega
    · omega
    · exact ih n hn
  | case2 a b =>
    have ha := a.toNat_lt
    have hb := b.toNat_lt
    intro n hn
    rw [sextets] at hn
    simp only [mem_cons, not_mem_nil, or_false] at hn
    omega
  | case3 a =>
    have ha := a.toNat_lt
    intro n hn
    rw [sextets] at hn
    simp only [mem_cons, not_mem_nil, or_false] at hn
    omega
  | case4 =>
    intro n hn
    cases hn

theorem ofNat_eq_of_toNat {b : UInt8} {n : Nat} (h : n = b.toNat) : UInt8.ofNat n = b := by
  rw [h, UInt8.ofNat_toNat]

theorem ofSextets_sextets (bs : Bytes) : ofSextets (sextets bs) = some bs := by
  induction bs using sextets.induct with
  | case1 a b c rest ih =>
    have hb := b.toNat_lt
    have hc := c.toNat_lt
    rw [sextets, ofSextets, ih, Option.map_some, ofNat_eq_of_toNat (b := a) (by omega),
      ofNat_eq_of_toNat (b := b) (by omega), ofNat_eq_of_toNat (b := c) (by omega)]
  | case2 a b =>
    have hb := b.toNat_lt
    rw [sextets, ofSextets, ofNat_eq_of_toNat (b := a) (by omega),
      ofNat_eq_of_toNat (b := b) (by omega)]
  | case3 a =>
    rw [sextets, ofSextets, ofNat_eq_of_toNat (b := a) (by omega)]
  | case4 => rfl

theorem mapM_urlDigit {ns : List Nat} (h : ∀ n ∈ ns, n < 64) :
    ((ns.map urlDigit).filter (!isLineBreak ·)).mapM urlDigitValue = some ns := by
  induction ns with
  | nil => rfl
  | cons n ns ih =>
    obtain ⟨hvalue, hbreak⟩ := urlDigit_spec (h n mem_cons_self)
    rw [map_cons, filter_cons_of_pos (by rw [hbreak]; rfl), mapM_cons, hvalue,
      ih fun m hm => h m (mem_cons_of_mem n hm)]
    rfl

/-- **What was encoded is decoded.** -/
theorem rawURLDecode_rawURLEncode (bs : Bytes) : rawURLDecode (rawURLEncode bs) = some bs := by
  unfold rawURLDecode rawURLEncode
  rw [mapM_urlDigit (sextets_lt bs), Option.bind_some, ofSextets_sextets]

theorem rawURLEncode_ne_nil {bs : Bytes} (h : bs ≠ []) : rawURLEncode bs ≠ [] := by
  intro hnil
  have hdecode := rawURLDecode_rawURLEncode bs
  rw [hnil] at hdecode
  exact h (Option.some.inj hdecode).symm

end Kseal.Infra
