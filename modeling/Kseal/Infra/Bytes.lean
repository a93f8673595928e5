import Mathlib.Algebra.Group.Nat.Defs
import Mathlib.Data.List.Induction

/-!
# Byte strings and big-endian integers

A width of `k` bytes holds the values below `256 ^ k`; writing a larger one keeps only its low `k`
bytes, which is what a narrowing cast does.
-/

namespace Kseal.Infra

open List

abbrev Bytes := List UInt8

instance : LawfulBEq Bytes := inferInstance

def beBytes : Nat → Nat → Bytes
  | 0, _ => []
  | k + 1, n => beBytes k (n / 256) ++ [UInt8.ofNat n]

def u16Be (x : UInt16) : Bytes := beBytes 2 x.toNat
def u32Be (x : UInt32) : Bytes := beBytes 4 x.toNat
def u64Be (x : UInt64) : Bytes := beBytes 8 x.toNat

def ascii (s : String) : Bytes := s.toList.map fun c => UInt8.ofNat c.toNat

def utf8 (s : String) : Bytes := s.toUTF8.data.toList

def hexDigit (n : Nat) : Char := if n < 10 then Char.ofNat (48 + n) else Char.ofNat (87 + n)

def hexEncode (bs : Bytes) : String :=
  String.ofList (bs.flatMap fun b => [hexDigit (b.toNat / 16), hexDigit (b.toNat % 16)])

def ofBe (bs : Bytes) : Nat := bs.foldl (fun acc b => acc * 256 + b.toNat) 0

@[simp] theorem length_beBytes : ∀ k n : Nat, (beBytes k n).length = k
  | 0, _ => rfl
  | k + 1, n => by rw [beBytes, length_append, length_beBytes k]; rfl

@[simp] theorem ofBe_nil : ofBe [] = 0 := rfl

theorem ofBe_concat (bs : Bytes) (b : UInt8) : ofBe (bs ++ [b]) = ofBe bs * 256 + b.toNat := by
  simp [ofBe]

/-- **What is read back is the value cut to the field's width.** -/
theorem ofBe_beBytes : ∀ k n : Nat, ofBe (beBytes k n) = n % 256 ^ k
  | 0, n => by simp [beBytes, Nat.mod_one]
  | k + 1, n => by
    have hmod : n % 256 ^ (k + 1) = n % 256 + 256 * (n / 256 % 256 ^ k) := by
      rw [Nat.pow_succ', Nat.mod_mul]
    have hb : (UInt8.ofNat n).toNat = n % 256 := by simp
    rw [beBytes, ofBe_concat, ofBe_beBytes k, hmod, hb, Nat.mul_comm 256, Nat.add_comm]

theorem ofBe_beBytes_of_lt {k n : Nat} (h : n < 256 ^ k) : ofBe (beBytes k n) = n := by
  rw [ofBe_beBytes, Nat.mod_eq_of_lt h]

/-! ## Texts -/

theorem utf8_injective {s t : String} (h : utf8 s = utf8 t) : s = t :=
  String.toByteArray_inj.mp (ByteArray.ext (Array.toList_inj.mp h))

theorem utf8_append (s t : String) : utf8 (s ++ t) = utf8 s ++ utf8 t := by
  show (s ++ t).toByteArray.data.toList = _
  rfl

theorem utf8_ofList (cs : List Char) :
    utf8 (String.ofList cs) = cs.flatMap String.utf8EncodeChar := by
  show (String.ofList cs).toByteArray.data.toList = _
  rw [String.toByteArray_ofList, List.utf8Encode]
  simp

theorem hexDigit_injective {m n : Nat} (hm : m < 16) (hn : n < 16) (h : hexDigit m = hexDigit n) :
    m = n := by
  have hall : ∀ i j : Fin 16, hexDigit i = hexDigit j → i = j := by decide
  exact congrArg Fin.val (hall ⟨m, hm⟩ ⟨n, hn⟩ h)

theorem hexEncode_injective {bs cs : Bytes} (h : hexEncode bs = hexEncode cs) : bs = cs := by
  replace h := String.ofList_injective h
  induction bs generalizing cs with
  | nil =>
    cases cs with
    | nil => rfl
    | cons c cs => simp at h
  | cons b bs ih =>
    cases cs with
    | nil => simp at h
    | cons c cs =>
      have hb : b.toNat < 256 := UInt8.toNat_lt_size b
      have hc : c.toNat < 256 := UInt8.toNat_lt_size c
      obtain ⟨hhi, h⟩ := List.cons.inj h
      obtain ⟨hlo, h⟩ := List.cons.inj h
      have hhi := hexDigit_injective (by omega) (by omega) hhi
      have hlo := hexDigit_injective (by omega) (by omega) hlo
      have hbc : b = c := UInt8.toNat_inj.mp (by omega)
      rw [hbc, ih h]

theorem exists_of_mem_hexEncode {bs : Bytes} {c : Char} (h : c ∈ (hexEncode bs).toList) :
    ∃ n : Fin 16, c = hexDigit n := by
  rw [hexEncode, String.toList_ofList, mem_flatMap] at h
  obtain ⟨b, -, hc⟩ := h
  have hb : b.toNat < 256 := UInt8.toNat_lt_size b
  rw [mem_cons, mem_singleton] at hc
  rcases hc with rfl | rfl
  · exact ⟨⟨b.toNat / 16, by omega⟩, rfl⟩
  · exact ⟨⟨b.toNat % 16, by omega⟩, rfl⟩

theorem hexEncode_ne_empty {bs : Bytes} (h : bs ≠ []) : hexEncode bs ≠ "" := by
  intro heq
  have hnil : hexEncode bs = hexEncode [] := heq
  exact h (hexEncode_injective hnil)

theorem append_sep_inj {α : Type} {sep : α} {as bs xs ys : List α} (has : sep ∉ as) (hbs : sep ∉ bs)
    (h : as ++ sep :: xs = bs ++ sep :: ys) : as = bs ∧ xs = ys := by
  induction as generalizing bs with
  | nil =>
    cases bs with
    | nil => exact ⟨rfl, (List.cons.inj h).2⟩
    | cons b bs =>
      rw [(List.cons.inj h).1] at hbs
      exact absurd mem_cons_self hbs
  | cons a as ih =>
    cases bs with
    | nil =>
      rw [← (List.cons.inj h).1] at has
      exact absurd mem_cons_self has
    | cons b bs =>
      rw [mem_cons, not_or] at has hbs
      obtain ⟨hab, h⟩ := List.cons.inj h
      obtain ⟨hrest, hxy⟩ := ih has.2 hbs.2 h
      exact ⟨by rw [hab, hrest], hxy⟩

theorem append_sep_inj_last {α : Type} {sep : α} {as bs xs ys : List α} (hxs : sep ∉ xs)
    (hys : sep ∉ ys) (h : as ++ sep :: xs = bs ++ sep :: ys) : as = bs ∧ xs = ys := by
  have hrev := congrArg List.reverse h
  rw [reverse_append, reverse_append, reverse_cons, reverse_cons,
    append_assoc, append_assoc] at hrev
  obtain ⟨hxy, hab⟩ := append_sep_inj (mt mem_reverse.mp hxs) (mt mem_reverse.mp hys) hrev
  exact ⟨reverse_inj.mp hab, reverse_inj.mp hxy⟩

theorem flatMap_sep_inj {α : Type} {sep : α} {xs ys : List (List α)} (hxs : ∀ x ∈ xs, sep ∉ x)
    (hys : ∀ y ∈ ys, sep ∉ y)
    (h : xs.flatMap (fun x => x ++ [sep]) = ys.flatMap (fun y => y ++ [sep])) : xs = ys := by
  induction xs generalizing ys with
  | nil =>
    cases ys with
    | nil => rfl
    | cons y ys => simp at h
  | cons x xs ih =>
    cases ys with
    | nil => simp at h
    | cons y ys =>
      rw [forall_mem_cons] at hxs hys
      rw [flatMap_cons, flatMap_cons, append_assoc, append_assoc] at h
      obtain ⟨hxy, hrest⟩ := append_sep_inj hxs.1 hys.1 h
      rw [hxy, ih hxs.2 hys.2 hrest]

theorem bytes_lt_iff (a b : Bytes) : a < b ↔ a.map UInt8.toNat < b.map UInt8.toNat := by
  induction a generalizing b with
  | nil => cases b <;> simp
  | cons x a ih =>
    cases b with
    | nil => simp
    | cons y b =>
      rw [map_cons, map_cons, cons_lt_cons_iff, cons_lt_cons_iff, ih,
        UInt8.lt_iff_toNat_lt, UInt8.toNat_inj]

end Kseal.Infra
