import Mathlib.Algebra.BigOperators.Fin
import Mathlib.Algebra.BigOperators.Group.List.Basic
import Mathlib.Algebra.Group.Int.Defs

/-!
# Sliding windows

A ring of `n` buckets holds the last `n` epochs: the bucket of an epoch is its residue, and is
started afresh by the first item of another one. Items may be late by less than `n`
(`Cell.Retired`).
-/

namespace Kseal.Infra

open List

structure Cell (σ α : Type) where
  epoch : σ → Int
  fresh : Int → σ
  add : σ → α → σ
  epoch_fresh : ∀ e, epoch (fresh e) = e
  epoch_add : ∀ s x, epoch (add s x) = epoch s

def ringSlot (n : Nat) [NeZero n] (e : Int) : Fin n :=
  Fin.ofNat n ((e.tmod n + n).tmod n).toNat

def InWindow (n : Nat) (now e : Int) : Prop := now - n < e ∧ e ≤ now

instance (n : Nat) (now e : Int) : Decidable (InWindow n now e) :=
  inferInstanceAs (Decidable (_ ∧ _))

def itemsAt {α : Type} (h : List (Int × α)) (e : Int) : List α :=
  (h.filter fun x => x.1 = e).map Prod.snd

def itemsIn {α : Type} (n : Nat) (now : Int) (h : List (Int × α)) : List α :=
  (h.filter fun x => InWindow n now x.1).map Prod.snd

theorem sum_ite_eq_countP {α : Type} (p : α → Bool) (l : List α) :
    (l.map fun x => if p x = true then 1 else 0).sum = l.countP p := by
  induction l with
  | nil => rfl
  | cons x l ih => rw [map_cons, sum_cons, ih, countP_cons, Nat.add_comm]

/-! ## Slots -/

section slots

variable {n : Nat} [NeZero n] {a b : Int}

theorem tmod_add_tmod (e : Int) : (e.tmod n + n).tmod n = e % n := by
  have hn : (0 : Int) < n := by exact_mod_cast Nat.pos_of_neZero n
  have hlow : 0 ≤ e.tmod n + n := by
    have := Int.lt_tmod_of_pos e hn
    omega
  rw [Int.tmod_eq_emod_of_nonneg hlow, Int.add_emod_right]
  conv_rhs => rw [← Int.mul_tdiv_add_tmod e n]
  rw [Int.mul_add_emod_self_left]

theorem ringSlot_eq_iff : ringSlot n a = ringSlot n b ↔ a % n = b % n := by
  have hn : (0 : Int) < n := by exact_mod_cast Nat.pos_of_neZero n
  have ha := Int.emod_nonneg a hn.ne'
  have hb := Int.emod_nonneg b hn.ne'
  have ha' := Int.emod_lt_of_pos a hn
  have hb' := Int.emod_lt_of_pos b hn
  unfold ringSlot
  rw [tmod_add_tmod, tmod_add_tmod, Fin.ext_iff, Fin.val_ofNat, Fin.val_ofNat,
    Nat.mod_eq_of_lt (by omega), Nat.mod_eq_of_lt (by omega)]
  omega

theorem add_le_of_ringSlot_eq (h : ringSlot n a = ringSlot n b) (hlt : a < b) : a + n ≤ b := by
  have hdvd : (n : Int) ∣ b - a := 
    Int.dvd_of_emod_eq_zero
      (Int.emod_eq_emod_iff_emod_sub_eq_zero.mp (ringSlot_eq_iff.mp h.symm))
  have := Int.le_of_dvd (by omega) hdvd
  omega

end slots

/-! ## The buckets of a ring -/

namespace Cell

variable {σ α : Type} (C : Cell σ α) {n : Nat} [NeZero n]

def live (r : Fin n → σ) (e : Int) : σ :=
  let s := r (ringSlot n e)
  if C.epoch s ≠ e then C.fresh e else s

def place (r : Fin n → σ) (e : Int) (x : α) : Fin n → σ :=
  Function.update r (ringSlot n e) (C.add (C.live r e) x)

def fill (e : Int) (xs : List α) : σ := xs.foldl C.add (C.fresh e)

structure Holds (r : Fin n → σ) (h : List (Int × α)) : Prop where
  positive : ∀ x ∈ h, 0 < x.1
  content : ∀ i, r i = C.fill (C.epoch (r i)) (itemsAt h (C.epoch (r i)))
  aligned : ∀ i, C.epoch (r i) = 0 ∨ ringSlot n (C.epoch (r i)) = i
  seen : ∀ i, C.epoch (r i) = 0 ∨ ∃ x ∈ h, x.1 = C.epoch (r i)
  newest : ∀ x ∈ h, x.1 ≤ C.epoch (r (ringSlot n x.1))

def Timely (n : Nat) (h : List (Int × α)) (e : Int) : Prop := 0 < e ∧ ∀ x ∈ h, x.1 < e + n

variable {C}

theorem fill_append (e : Int) (xs : List α) (x : α) :
    C.fill e (xs ++ [x]) = C.add (C.fill e xs) x := by
  unfold fill
  rw [foldl_append, foldl_cons, foldl_nil]

theorem live_of_eq {r : Fin n → σ} {e : Int} (h : C.epoch (r (ringSlot n e)) = e) :
    C.live r e = r (ringSlot n e) := if_neg (not_not.mpr h)

theorem live_of_ne {r : Fin n → σ} {e : Int} (h : C.epoch (r (ringSlot n e)) ≠ e) :
    C.live r e = C.fresh e := if_pos h

@[simp] theorem epoch_live (r : Fin n → σ) (e : Int) : C.epoch (C.live r e) = e := by
  by_cases h : C.epoch (r (ringSlot n e)) = e
  · rw [live_of_eq h, h]
  · rw [live_of_ne h, C.epoch_fresh]

theorem itemsAt_append (h : List (Int × α)) (e e' : Int) (x : α) :
    itemsAt (h ++ [(e', x)]) e = itemsAt h e ++ if e' = e then [x] else [] := by
  unfold itemsAt
  split
  · next he => simp [he]
  · next he => simp [he]

theorem itemsAt_eq_nil {h : List (Int × α)} {e : Int} (hne : ∀ x ∈ h, x.1 ≠ e) :
    itemsAt h e = [] := by
  unfold itemsAt
  rw [filter_eq_nil_iff.mpr (by simpa using hne), map_nil]

theorem Holds.empty : C.Holds (fun _ : Fin n => C.fresh 0) [] where
  positive := by simp
  content i := by rw [C.epoch_fresh]; rfl
  aligned i := .inl (C.epoch_fresh 0)
  seen i := .inl (C.epoch_fresh 0)
  newest := by simp

variable {r : Fin n → σ} {h : List (Int × α)} {e : Int}

theorem Holds.epoch_le (H : C.Holds r h) (ht : Timely n h e) :
    C.epoch (r (ringSlot n e)) ≤ e := by
  by_contra hlt
  rcases H.aligned (ringSlot n e) with h0 | hslot
  · have := ht.1
    omega
  · have hfar := add_le_of_ringSlot_eq hslot.symm (not_le.mp hlt)
    rcases H.seen (ringSlot n e) with h0 | ⟨x, hx, hxe⟩
    · have := ht.1
      omega
    · have := ht.2 x hx
      omega

theorem Holds.itemsAt_eq_nil (H : C.Holds r h) (ht : Timely n h e)
    (hne : C.epoch (r (ringSlot n e)) ≠ e) : itemsAt h e = [] := by
  refine Cell.itemsAt_eq_nil ?_
  rintro x hx rfl
  exact hne (le_antisymm (H.epoch_le ht) (H.newest x hx))

theorem Holds.live_eq (H : C.Holds r h) (ht : Timely n h e) :
    C.live r e = C.fill e (itemsAt h e) := by
  by_cases he : C.epoch (r (ringSlot n e)) = e
  · have hc := H.content (ringSlot n e)
    rwa [he, ← live_of_eq he] at hc
  · rw [live_of_ne he, H.itemsAt_eq_nil ht he]
    rfl

theorem place_self (r : Fin n → σ) (e : Int) (x : α) :
    C.place r e x (ringSlot n e) = C.add (C.live r e) x := Function.update_self ..

theorem place_of_ne {i : Fin n} (hi : i ≠ ringSlot n e) (x : α) : C.place r e x i = r i :=
  Function.update_of_ne hi ..

@[simp] theorem epoch_place_self (r : Fin n → σ) (e : Int) (x : α) :
    C.epoch (C.place r e x (ringSlot n e)) = e := by
  rw [place_self, C.epoch_add, epoch_live]

/-- **One item more.** -/
theorem Holds.place (H : C.Holds r h) (ht : Timely n h e) (x : α) :
    C.Holds (C.place r e x) (h ++ [(e, x)]) where
  positive := by
    intro y hy
    rcases mem_append.mp hy with hy | hy
    · exact H.positive y hy
    · rw [mem_singleton.mp hy]
      exact ht.1
  content i := by
    by_cases hi : i = ringSlot n e
    · subst hi
      rw [epoch_place_self, place_self, H.live_eq ht, itemsAt_append, if_pos rfl, fill_append]
    · rw [place_of_ne hi]
      -- The bucket of another slot is of another epoch.
      have hne : e ≠ C.epoch (r i) := by
        intro he
        rcases H.aligned i with h0 | hslot
        · have := ht.1
          omega
        · exact hi (by rw [← hslot, ← he])
      rw [itemsAt_append, if_neg hne, append_nil]
      exact H.content i
  aligned i := by
    by_cases hi : i = ringSlot n e
    · subst hi
      exact .inr (by rw [epoch_place_self])
    · rw [place_of_ne hi]
      exact H.aligned i
  seen i := by
    by_cases hi : i = ringSlot n e
    · subst hi
      exact .inr ⟨(e, x), by simp, by rw [epoch_place_self]⟩
    · rw [place_of_ne hi]
      exact (H.seen i).imp_right fun ⟨y, hy, hye⟩ => ⟨y, mem_append_left _ hy, hye⟩
  newest := by
    intro y hy
    by_cases hi : ringSlot n y.1 = ringSlot n e
    · rw [hi, epoch_place_self]
      rcases mem_append.mp hy with hy | hy
      · have hle := H.newest y hy
        rw [hi] at hle
        exact hle.trans (H.epoch_le ht)
      · rw [mem_singleton.mp hy]
    · rw [place_of_ne hi]
      rcases mem_append.mp hy with hy | hy
      · exact H.newest y hy
      · rw [mem_singleton.mp hy] at hi
        exact absurd rfl hi

/-! ## Windows -/

variable {now : Int}

theorem Holds.epoch_eq (H : C.Holds r h) (hnow : ∀ x ∈ h, x.1 ≤ now) {x : Int × α} (hx : x ∈ h)
    (hin : now - n < x.1) : C.epoch (r (ringSlot n x.1)) = x.1 := by
  have hle := H.newest x hx
  have hpos := H.positive x hx
  by_contra hne
  rcases H.aligned (ringSlot n x.1) with h0 | hslot
  · omega
  · have hfar := add_le_of_ringSlot_eq hslot.symm (by omega)
    rcases H.seen (ringSlot n x.1) with h0 | ⟨y, hy, hye⟩
    · omega
    · have := hnow y hy
      omega

section sums

variable {M : Type*} [AddCommMonoid M] {f : σ → M} {g : α → M}

theorem measure_fill (hfresh : ∀ e, f (C.fresh e) = 0) (hadd : ∀ s x, f (C.add s x) = f s + g x)
    (e : Int) (xs : List α) : f (C.fill e xs) = (xs.map g).sum := by
  induction xs using List.reverseRecOn with
  | nil => exact hfresh e
  | append_singleton xs x ih => rw [fill_append, hadd, ih, map_append]; simp

omit [NeZero n] in
/-- The loop over the buckets that skips those outside the window: a component of what it sums up. -/
theorem foldl_window {τ : Type*} (r : Fin n → σ) (now : Int) (combine : τ → σ → τ) {g : τ → M}
    (hcombine : ∀ t s, g (combine t s) = g t + f s) (init : τ) :
    g ((List.finRange n).foldl (fun t i =>
        if C.epoch (r i) < now - ((n : Int) - 1) ∨ C.epoch (r i) > now then t
        else combine t (r i)) init) =
      g init + ∑ i, if InWindow n now (C.epoch (r i)) then f (r i) else 0 := by
  have hin : ∀ e : Int, (e < now - ((n : Int) - 1) ∨ e > now) ↔ ¬ InWindow n now e := by
    unfold InWindow
    omega
  simp only [hin]
  rw [Fin.sum_univ_def]
  induction List.finRange n generalizing init with
  | nil => simp
  | cons i l ih =>
    rw [foldl_cons, ih, map_cons, sum_cons]
    by_cases hi : InWindow n now (C.epoch (r i))
    · rw [if_neg (not_not.mpr hi), if_pos hi, hcombine, add_assoc]
    · rw [if_pos hi, if_neg hi, zero_add]

theorem sum_slots (l : List (Int × α)) (w : Int × α → M) :
    (l.map w).sum = ∑ i : Fin n, ((l.filter fun x => ringSlot n x.1 = i).map w).sum := by
  induction l with
  | nil => simp
  | cons x l ih =>
    have hsplit : ∀ i : Fin n, (((x :: l).filter fun y => ringSlot n y.1 = i).map w).sum =
        (if ringSlot n x.1 = i then w x else 0) +
          ((l.filter fun y => ringSlot n y.1 = i).map w).sum := by
      intro i
      by_cases hi : ringSlot n x.1 = i
      · simp [hi]
      · simp [hi]
    rw [map_cons, sum_cons, ih, Finset.sum_congr rfl fun i _ => hsplit i,
      Finset.sum_add_distrib, Finset.sum_ite_eq, if_pos (Finset.mem_univ _)]

theorem Holds.filter_slot (H : C.Holds r h) (hnow : ∀ x ∈ h, x.1 ≤ now) (i : Fin n) :
    (h.filter fun x => InWindow n now x.1).filter (fun x => ringSlot n x.1 = i) =
      if InWindow n now (C.epoch (r i)) then h.filter fun x => x.1 = C.epoch (r i) else [] := by
  rw [filter_filter]
  split
  · next hin =>
    refine filter_congr fun x hx => ?_
    rw [Bool.and_eq_decide, decide_eq_decide, decide_eq_true_iff, decide_eq_true_iff]
    constructor
    · rintro ⟨rfl, hx'⟩
      exact (H.epoch_eq hnow hx hx'.1).symm
    · intro hxe
      have hpos := H.positive x hx
      rcases H.aligned i with h0 | hslot
      · omega
      · exact ⟨by rw [hxe, hslot], by rw [hxe]; exact hin⟩
  · next hout =>
    refine filter_eq_nil_iff.mpr fun x hx hboth => hout ?_
    obtain ⟨hslot, hin⟩ := Bool.and_eq_true_iff.mp hboth
    rw [decide_eq_true_iff] at hslot hin
    rw [← hslot, H.epoch_eq hnow hx hin.1]
    exact hin

/-- **A sum over the buckets of a window is the sum over its items.** -/
theorem Holds.sum_window (hfresh : ∀ e, f (C.fresh e) = 0)
    (hadd : ∀ s x, f (C.add s x) = f s + g x) (H : C.Holds r h) (hnow : ∀ x ∈ h, x.1 ≤ now) :
    (∑ i : Fin n, if InWindow n now (C.epoch (r i)) then f (r i) else 0) =
      ((itemsIn n now h).map g).sum := by
  have hitem : ((itemsIn n now h).map g).sum =
      ((h.filter fun x => InWindow n now x.1).map fun x => g x.2).sum := by
    rw [itemsIn, map_map]
    rfl
  rw [hitem, sum_slots (n := n)]
  refine Finset.sum_congr rfl fun i _ => ?_
  rw [H.filter_slot hnow i]
  split
  · conv_lhs => rw [H.content i, measure_fill hfresh hadd]
    rw [itemsAt, map_map]
    rfl
  · rfl

end sums

/-! ## Overwritten buckets -/

def retire (C : Cell σ α) (r : Fin n → σ) (e : Int) : Option σ :=
  let s := r (ringSlot n e)
  if C.epoch s ≠ e ∧ C.epoch s ≠ 0 then some s else none

structure Retired (C : Cell σ α) (r : Fin n → σ) (h : List (Int × α)) (log : List (σ × Int)) :
    Prop where
  content : ∀ b ∈ log, b.1 = C.fill (C.epoch b.1) (itemsAt h (C.epoch b.1))
  seen : ∀ b ∈ log, ∃ x ∈ h, x.1 = C.epoch b.1
  started : ∀ b ∈ log, ∃ x ∈ h, x.1 = b.2
  later : ∀ b ∈ log, C.epoch b.1 + n ≤ b.2
  gone : ∀ b ∈ log, ∀ i, C.epoch (r i) ≠ C.epoch b.1
  once : (log.map fun b => C.epoch b.1).Nodup

theorem Retired.empty : C.Retired (fun _ : Fin n => C.fresh 0) [] [] := by
  constructor <;> simp

variable {log : List (σ × Int)}

omit [NeZero n] in
theorem Retired.epoch_lt (L : C.Retired r h log) (ht : Timely n h e) {b : σ × Int} (hb : b ∈ log) :
    C.epoch b.1 < e := by
  obtain ⟨x, hx, hxe⟩ := L.started b hb
  have hfar := L.later b hb
  have := ht.2 x hx
  omega

theorem itemsAt_append_of_ne {e e' : Int} (hne : e' ≠ e) (x : α) :
    itemsAt (h ++ [(e', x)]) e = itemsAt h e := by
  rw [itemsAt_append, if_neg hne, append_nil]

theorem Retired.place (L : C.Retired r h log) (ht : Timely n h e) (x : α) :
    C.Retired (C.place r e x) (h ++ [(e, x)]) log where
  content b hb := by
    rw [itemsAt_append_of_ne (L.epoch_lt ht hb).ne']
    exact L.content b hb
  seen b hb := by
    obtain ⟨y, hy, hye⟩ := L.seen b hb
    exact ⟨y, mem_append_left _ hy, hye⟩
  started b hb := by
    obtain ⟨y, hy, hye⟩ := L.started b hb
    exact ⟨y, mem_append_left _ hy, hye⟩
  later := L.later
  gone b hb i := by
    by_cases hi : i = ringSlot n e
    · subst hi
      rw [epoch_place_self]
      exact (L.epoch_lt ht hb).ne'
    · rw [place_of_ne hi]
      exact L.gone b hb i
  once := L.once

/-- **The bucket that is overwritten** is complete, its epoch was not overwritten before, and the
epoch that takes its place is `n` or more later. -/
theorem Retired.push (L : C.Retired r h log) (H : C.Holds r h) (ht : Timely n h e) (x : α) {b : σ}
    (hb : C.retire r e = some b) :
    C.Retired (C.place r e x) (h ++ [(e, x)]) (log ++ [(b, e)]) := by
  obtain ⟨⟨hne, h0⟩, hb⟩ := Option.ite_none_right_eq_some.mp hb
  cases hb
  have hslot := (H.aligned (ringSlot n e)).resolve_left h0
  have hlt : C.epoch (r (ringSlot n e)) < e := lt_of_le_of_ne (H.epoch_le ht) hne
  have L' := L.place ht x
  constructor
  · rw [forall_mem_append, forall_mem_singleton]
    refine ⟨L'.content, ?_⟩
    rw [itemsAt_append_of_ne hlt.ne']
    exact H.content _
  · rw [forall_mem_append, forall_mem_singleton]
    obtain ⟨y, hy, hye⟩ := (H.seen (ringSlot n e)).resolve_left h0
    exact ⟨L'.seen, y, mem_append_left _ hy, hye⟩
  · rw [forall_mem_append, forall_mem_singleton]
    exact ⟨L'.started, (e, x), by simp, rfl⟩
  · rw [forall_mem_append, forall_mem_singleton]
    exact ⟨L'.later, add_le_of_ringSlot_eq hslot hlt⟩
  · rw [forall_mem_append, forall_mem_singleton]
    refine ⟨L'.gone, fun i => ?_⟩
    by_cases hi : i = ringSlot n e
    · subst hi
      rw [epoch_place_self]
      exact hlt.ne'
    · rw [place_of_ne hi]
      intro hsame
      rcases H.aligned i with hi0 | hislot
      · exact h0 (hsame ▸ hi0)
      · exact hi (by rw [← hislot, hsame, hslot])
  · rw [map_append, nodup_append]
    refine ⟨L'.once, nodup_singleton _, ?_⟩
    rintro a ha a' ha' rfl
    obtain ⟨b, hb, rfl⟩ := mem_map.mp ha
    exact L.gone b hb _ (mem_singleton.mp ha').symm

end Cell

end Kseal.Infra
