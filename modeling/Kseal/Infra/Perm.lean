import Mathlib.Data.List.Nodup
import Mathlib.Data.List.Range

/-!
# Byte tables that are permutations

A table of `n ≤ 256` bytes in which every value below `n` stands once. `invert` fills the inverse
table, one write for each entry.
-/

namespace Kseal.Infra

open List

def identityTable (n : Nat) : List UInt8 := (List.range n).map UInt8.ofNat

def swap {α : Type} (l : List α) (i j : Nat) : List α :=
  match l[i]?, l[j]? with
  | some a, some b => (l.set i b).set j a
  | _, _ => l

def invertFrom (k : Nat) (l inv : List UInt8) : List UInt8 :=
  (l.zipIdx k).foldl (fun inv e => inv.set e.1.toNat (UInt8.ofNat e.2)) inv

def invert (n : Nat) (perm : List UInt8) : List UInt8 := invertFrom 0 perm (List.replicate n 0)

structure Inverse (n : Nat) (perm inv : List UInt8) : Prop where
  length_inv : inv.length = n
  forward : ∀ t : UInt8, t.toNat < n →
    ∃ w : UInt8, perm[t.toNat]? = some w ∧ inv[w.toNat]? = some t
  backward : ∀ w : UInt8, w.toNat < n →
    ∃ t : UInt8, t.toNat < n ∧ inv[w.toNat]? = some t ∧ perm[t.toNat]? = some w

theorem swap_perm {α : Type} (l : List α) (i j : Nat) : (swap l i j).Perm l := by
  unfold swap
  split
  · next a b ha hb =>
    obtain ⟨hi, rfl⟩ := List.getElem?_eq_some_iff.mp ha
    obtain ⟨hj, rfl⟩ := List.getElem?_eq_some_iff.mp hb
    exact set_set_perm hi hj
  · exact List.Perm.refl l

section invertLoop

variable {l : List UInt8} {inv : List UInt8} {k : Nat}

theorem length_invertFrom : (invertFrom k l inv).length = inv.length := by
  unfold invertFrom
  induction l generalizing k inv with
  | nil => rfl
  | cons w l ih => rw [zipIdx_cons, foldl_cons, ih, length_set]

theorem getElem?_invertFrom_of_notMem {w : UInt8} (h : w ∉ l) :
    (invertFrom k l inv)[w.toNat]? = inv[w.toNat]? := by
  unfold invertFrom
  induction l generalizing k inv with
  | nil => rfl
  | cons x l ih =>
    rw [mem_cons, not_or] at h
    rw [zipIdx_cons, foldl_cons, ih h.2]
    exact getElem?_set_ne (fun he => h.1 (UInt8.toNat_inj.mp he.symm))

theorem getElem?_invertFrom {w : UInt8} {t : Nat} (hnd : l.Nodup) (ht : l[t]? = some w)
    (hw : w.toNat < inv.length) :
    (invertFrom k l inv)[w.toNat]? = some (UInt8.ofNat (k + t)) := by
  induction l generalizing k inv t with
  | nil => simp at ht
  | cons x l ih =>
    obtain ⟨hx, hnd⟩ := nodup_cons.mp hnd
    have hstep : invertFrom k (x :: l) inv
        = invertFrom (k + 1) l (inv.set x.toNat (UInt8.ofNat k)) := by
      simp [invertFrom]
    rw [hstep]
    cases t with
    | zero =>
      simp only [getElem?_cons_zero, Option.some.injEq] at ht
      subst ht
      rw [getElem?_invertFrom_of_notMem hx, getElem?_set_self hw, Nat.add_zero]
    | succ t =>
      rw [ih hnd ht (by rw [length_set]; exact hw), Nat.add_right_comm, Nat.add_assoc]

end invertLoop

theorem nodup_identityTable {n : Nat} (hn : n ≤ 256) : (identityTable n).Nodup := by
  refine List.Nodup.map_on ?_ nodup_range
  intro i hi j hj he
  have h := congrArg UInt8.toNat he
  rw [UInt8.toNat_ofNat', UInt8.toNat_ofNat'] at h
  rw [mem_range] at hi hj
  omega

theorem mem_identityTable {n : Nat} (hn : n ≤ 256) {w : UInt8} :
    w ∈ identityTable n ↔ w.toNat < n := by
  unfold identityTable
  rw [mem_map]
  constructor
  · rintro ⟨i, hi, rfl⟩
    rw [mem_range] at hi
    rw [UInt8.toNat_ofNat']
    omega
  · intro hw
    exact ⟨w.toNat, mem_range.mpr hw, UInt8.ofNat_toNat⟩

/-- **Inverting a permuted identity table gives its inverse.** -/
theorem inverse_invert {n : Nat} {perm : List UInt8} (hn : n ≤ 256)
    (hp : perm.Perm (identityTable n)) : Inverse n perm (invert n perm) := by
  have hnd : perm.Nodup := hp.nodup_iff.mpr (nodup_identityTable hn)
  have hlen : perm.length = n := by rw [hp.length_eq]; simp [identityTable]
  have hmem : ∀ w : UInt8, w ∈ perm ↔ w.toNat < n := fun w => by
    rw [hp.mem_iff, mem_identityTable hn]
  have key : ∀ {t : Nat} {w : UInt8}, perm[t]? = some w →
      (invert n perm)[w.toNat]? = some (UInt8.ofNat t) := by
    intro t w ht
    have hw : w.toNat < n := (hmem w).mp (mem_of_getElem? ht)
    have hin : w.toNat < (List.replicate n (0 : UInt8)).length := by
      rw [length_replicate]; exact hw
    rw [invert, getElem?_invertFrom hnd ht hin, Nat.zero_add]
  refine ⟨?_, ?_, ?_⟩
  · rw [invert, length_invertFrom, length_replicate]
  · intro t ht
    have hlt : t.toNat < perm.length := by omega
    refine ⟨perm[t.toNat], getElem?_eq_getElem hlt, ?_⟩
    rw [key (getElem?_eq_getElem hlt), UInt8.ofNat_toNat]
  · intro w hw
    obtain ⟨i, hi⟩ := mem_iff_getElem?.mp ((hmem w).mpr hw)
    have hin : i < n := by
      rw [← hlen]; exact (List.getElem?_eq_some_iff.mp hi).1
    have hti : (UInt8.ofNat i).toNat = i := by
      rw [UInt8.toNat_ofNat']; exact Nat.mod_eq_of_lt (by omega)
    exact ⟨UInt8.ofNat i, by omega, key hi, by rw [hti]; exact hi⟩

end Kseal.Infra
