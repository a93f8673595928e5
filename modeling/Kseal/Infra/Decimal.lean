import Mathlib.Data.List.TakeWhile
import Kseal.Infra.Bytes
import Kseal.Infra.Result

/-!
# Decimal numerals

`parseUint` takes the whole text or nothing. `sscanUint` skips leading space and stops at the first
character that is not a digit.
-/

namespace Kseal.Infra

open List

def isDigit (c : Char) : Bool := decide ('0' ≤ c ∧ c ≤ '9')

def digitsValue (cs : List Char) : Nat := cs.foldl (fun acc c => acc * 10 + (c.toNat - 48)) 0

def digitsUint (bits : Nat) (cs : List Char) : Option Nat :=
  if digitsValue cs < 2 ^ bits then some (digitsValue cs) else none

def parseUint (bits : Nat) (s : String) : Option Nat :=
  if s.toList.isEmpty || !s.toList.all isDigit then none else digitsUint bits s.toList

def parseInt64 : List Char → Option Int64
  | [] => none
  | c :: cs => do
    let neg := decide (c = '-')
    let un ← parseUint 64 (String.ofList (if c = '+' ∨ c = '-' then cs else c :: cs))
    if !neg && un ≥ 2 ^ 63 then none
    else if neg && un > 2 ^ 63 then none
    else some (Int64.ofInt (if neg then -un else un))

def isSpace (c : Char) : Bool :=
  c = ' ' || decide ('\t' ≤ c ∧ c ≤ '\r') || c.toNat = 0x85 || c.toNat = 0xa0 ||
    c.toNat = 0x1680 || decide (0x2000 ≤ c.toNat ∧ c.toNat ≤ 0x200a) || c.toNat = 0x2028 ||
    c.toNat = 0x2029 || c.toNat = 0x202f || c.toNat = 0x205f || c.toNat = 0x3000

def skipSpace : List Char → Option (List Char)
  | [] => some []
  | c :: cs => if c = '\n' then none else if isSpace c then skipSpace cs else some (c :: cs)

def sscanUint (bits : Nat) (s : String) : Option Nat := do
  let cs ← skipSpace s.toList
  let digits := cs.takeWhile isDigit
  if digits.isEmpty then none else digitsUint bits digits

variable {c : Char}

theorem not_isSpace_of_isDigit (h : isDigit c = true) :
    isSpace c = false ∧ c ≠ '\n' := by
  have hlo : 48 ≤ c.toNat := (of_decide_eq_true h).1
  have hhi : c.toNat ≤ 57 := (of_decide_eq_true h).2
  constructor
  · have hsp : c ≠ ' ' := by rintro rfl; exact absurd hlo (by decide)
    have hcr : ¬ ('\t' ≤ c ∧ c ≤ '\r') := by
      rintro ⟨-, hle⟩
      have hle' : c.toNat ≤ 13 := hle
      omega
    simp only [isSpace, hsp, hcr, decide_false, Bool.false_or]
    simp only [Bool.or_eq_false_iff, decide_eq_false_iff_not]
    omega
  · rintro rfl
    exact absurd hlo (by decide)

variable {bits n : Nat}

theorem sscanUint_of_parseUint {s : String} (h : parseUint bits s = some n) :
    sscanUint bits s = some n := by
  obtain ⟨hs, h⟩ := unless_some h
  rw [Bool.or_eq_true, not_or, Bool.not_eq_true', Bool.not_eq_false] at hs
  obtain ⟨hne, hall⟩ := hs
  have htake : s.toList.takeWhile isDigit = s.toList :=
    takeWhile_eq_self_iff.mpr (all_eq_true.mp hall)
  have hskip : skipSpace s.toList = some s.toList := by
    cases hcs : s.toList with
    | nil => rfl
    | cons c cs =>
      rw [hcs] at hall
      obtain ⟨hsp, hnl⟩ := not_isSpace_of_isDigit (all_eq_true.mp hall c mem_cons_self)
      rw [skipSpace, if_neg hnl, hsp]
      rfl
  unfold sscanUint
  rw [hskip]
  show (if (s.toList.takeWhile isDigit).isEmpty then none
    else digitsUint bits (s.toList.takeWhile isDigit)) = some n
  rw [htake, if_neg hne]
  exact h

theorem digitsValue_toDigits (n : Nat) : digitsValue (Nat.toDigits 10 n) = n := by
  have hfold : digitsValue (Nat.toDigits 10 n) = Nat.ofDigitChars 10 (Nat.toDigits 10 n) 0 := by
    unfold digitsValue Nat.ofDigitChars
    congr 1
    funext acc c
    rw [Nat.mul_comm]
    rfl
  rw [hfold, Nat.ofDigitChars_toDigits (by decide) (by decide)]

theorem parseUint_repr (h : n < 2 ^ bits) : parseUint bits n.repr = some n := by
  have hdigits : n.repr.toList = Nat.toDigits 10 n := by
    rw [Nat.repr_eq_ofList_toDigits, String.toList_ofList]
  have hall : (Nat.toDigits 10 n).all isDigit = true := by
    rw [all_eq_true]
    intro c hc
    have hd := Nat.isDigit_of_mem_toDigits (by decide) (by decide) hc
    rw [Char.isDigit, Bool.and_eq_true] at hd
    exact decide_eq_true ⟨of_decide_eq_true hd.1, of_decide_eq_true hd.2⟩
  have hne : (Nat.toDigits 10 n).isEmpty = false := by
    rw [isEmpty_eq_false_iff]
    exact Nat.toDigits_ne_nil
  unfold parseUint digitsUint
  rw [hdigits, hne, hall, digitsValue_toDigits, if_pos h]
  rfl

/-! ## Integers -/

theorem notMem_natRepr (hdigit : c.isDigit = false) (n : Nat) : c ∉ n.repr.toList := by
  intro hmem
  rw [Nat.repr_eq_ofList_toDigits, String.toList_ofList] at hmem
  rw [Nat.isDigit_of_mem_toDigits (by decide) (by decide) hmem] at hdigit
  cases hdigit

theorem notMem_repr (hdigit : c.isDigit = false) (hminus : c ≠ '-') (n : Int) :
    c ∉ n.repr.toList := by
  rw [Int.repr_eq_if]
  split
  · exact notMem_natRepr hdigit _
  · rw [String.toList_append, mem_append]
    rintro (hmem | hmem)
    · exact hminus (by simpa using hmem)
    · exact notMem_natRepr hdigit _ hmem

theorem natRepr_ne_minus (m n : Nat) : m.repr ≠ "-" ++ n.repr := by
  intro h
  have hmem : '-' ∈ m.repr.toList := by
    rw [h]
    simp
  exact notMem_natRepr (by decide) m hmem

theorem natRepr_injective {m : Nat} (h : m.repr = n.repr) : m = n := by
  have hvalue := congrArg (fun s => digitsValue s.toList) h
  simpa only [Nat.repr_eq_ofList_toDigits, String.toList_ofList, digitsValue_toDigits] using hvalue

theorem repr_injective {m n : Int} (h : m.repr = n.repr) : m = n := by
  rw [Int.repr_eq_if, Int.repr_eq_if] at h
  split at h
  · split at h
    · have htoNat := natRepr_injective h
      omega
    · exact absurd h (natRepr_ne_minus _ _)
  · split at h
    · exact absurd h.symm (natRepr_ne_minus _ _)
    · have htoNat := natRepr_injective ((String.append_right_inj _).mp h)
      omega

theorem parseUint_toList (h : n < 2 ^ 64) :
    parseUint 64 (String.ofList n.repr.toList) = some n := by
  rw [String.ofList_toList]
  exact parseUint_repr h

theorem parseInt64_natRepr (h : n < 2 ^ 63) :
    parseInt64 n.repr.toList = some (Int64.ofInt n) := by
  obtain ⟨c, cs, hcs⟩ : ∃ c cs, n.repr.toList = c :: cs := by
    rw [Nat.repr_eq_ofList_toDigits, String.toList_ofList]
    exact exists_cons_of_ne_nil Nat.toDigits_ne_nil
  have hmem : c ∈ n.repr.toList := by rw [hcs]; exact mem_cons_self
  have hplus : c ≠ '+' := by
    rintro rfl
    exact notMem_natRepr (by decide) _ hmem
  have hminus : c ≠ '-' := by
    rintro rfl
    exact notMem_natRepr (by decide) _ hmem
  have hun := parseUint_toList (n := n) (by omega)
  rw [hcs] at hun ⊢
  simp only [parseInt64, hplus, hminus, or_self, if_false, hun]
  simpa using h

theorem parseInt64_minus (h : n ≤ 2 ^ 63) :
    parseInt64 ('-' :: n.repr.toList) = some (Int64.ofInt (-n)) := by
  have hun := parseUint_toList (n := n) (by omega)
  simp only [parseInt64, or_true, if_true, hun]
  simpa using h

/-- **A numeral is read as its number.** -/
theorem parseInt64_repr (n : Int64) : parseInt64 n.toInt.repr.toList = some n := by
  have hlo := n.le_toInt
  have hhi := n.toInt_lt
  rw [Int.repr_eq_if]
  split
  · next hnonneg =>
    have hval : (n.toInt.toNat : Int) = n.toInt := by omega
    rw [parseInt64_natRepr (by omega), hval, Int64.ofInt_toInt]
  · next hneg =>
    have hval : -((-n.toInt).toNat : Int) = n.toInt := by omega
    rw [String.toList_append]
    show parseInt64 ('-' :: (-n.toInt).toNat.repr.toList) = some n
    rw [parseInt64_minus (by omega), hval, Int64.ofInt_toInt]

end Kseal.Infra
