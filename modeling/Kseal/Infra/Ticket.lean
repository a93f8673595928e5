import Mathlib.Data.List.Nodup
import Mathlib.Logic.Function.Basic

/-!
# Tickets that are used once

A ticket is issued and offered. One of the processes takes it away, and may use it later; nobody
else can take it meanwhile. A ticket may also get lost, offered or taken.

* `Once.nodup_map` — no two used tickets have the same mark, if no two issued ones have
-/

namespace Kseal.Infra

open List Function

structure Tickets (τ ι : Type) where
  issued : List τ
  offered : τ → Prop
  taken : ι → Option τ
  used : List τ

namespace Tickets

variable {τ ι : Type}

structure Once (c : Tickets τ ι) : Prop where
  offered_mem : ∀ {x}, c.offered x → x ∈ c.issued
  offered_untaken : ∀ {x}, c.offered x → ∀ i, c.taken i ≠ some x
  offered_unused : ∀ {x}, c.offered x → x ∉ c.used
  taken_mem : ∀ {i x}, c.taken i = some x → x ∈ c.issued
  taken_unused : ∀ {i x}, c.taken i = some x → x ∉ c.used
  taken_inj : ∀ {i j x}, c.taken i = some x → c.taken j = some x → i = j
  used_mem : ∀ {x}, x ∈ c.used → x ∈ c.issued
  used_nodup : c.used.Nodup

variable {c : Tickets τ ι} {offered : τ → Prop} {taken : ι → Option τ} {x : τ}

theorem Once.empty (hoffered : ∀ x, ¬ c.offered x) (htaken : ∀ i, c.taken i = none)
    (hused : c.used = []) : c.Once where
  offered_mem hx := absurd hx (hoffered _)
  offered_untaken hx := absurd hx (hoffered _)
  offered_unused hx := absurd hx (hoffered _)
  taken_mem {i x} hi := by cases (htaken i).symm.trans hi
  taken_unused {i x} hi := by cases (htaken i).symm.trans hi
  taken_inj {i j x} hi := by cases (htaken i).symm.trans hi
  used_mem {x} hx := by
    rw [hused] at hx
    cases hx
  used_nodup := by
    rw [hused]
    exact nodup_nil

theorem Once.lose (h : c.Once) (hoffered : ∀ {x}, offered x → c.offered x)
    (htaken : ∀ {i x}, taken i = some x → c.taken i = some x) :
    Once { c with offered := offered, taken := taken } where
  offered_mem hx := h.offered_mem (hoffered hx)
  offered_untaken hx i hi := h.offered_untaken (hoffered hx) i (htaken hi)
  offered_unused hx := h.offered_unused (hoffered hx)
  taken_mem hi := h.taken_mem (htaken hi)
  taken_unused hi := h.taken_unused (htaken hi)
  taken_inj hi hj := h.taken_inj (htaken hi) (htaken hj)
  used_mem := h.used_mem
  used_nodup := h.used_nodup

theorem Once.issue (h : c.Once) (hfresh : x ∉ c.issued)
    (hoffered : ∀ {y}, offered y → y = x ∨ c.offered y) :
    Once { c with issued := c.issued ++ [x], offered := offered } where
  offered_mem {y} hy := by
    rw [mem_append, mem_singleton]
    rcases hoffered hy with rfl | hy
    · exact .inr rfl
    · exact .inl (h.offered_mem hy)
  offered_untaken {y} hy i hi := by
    rcases hoffered hy with rfl | hy
    · exact hfresh (h.taken_mem hi)
    · exact h.offered_untaken hy i hi
  offered_unused {y} hy hused := by
    rcases hoffered hy with rfl | hy
    · exact hfresh (h.used_mem hused)
    · exact h.offered_unused hy hused
  taken_mem hi := mem_append_left _ (h.taken_mem hi)
  taken_unused := h.taken_unused
  taken_inj := h.taken_inj
  used_mem hy := mem_append_left _ (h.used_mem hy)
  used_nodup := h.used_nodup

theorem Once.nodup_map {β : Type} {mark : τ → β} (h : c.Once) (hmark : (c.issued.map mark).Nodup) :
    (c.used.map mark).Nodup :=
  h.used_nodup.map_on fun _ hx _ hy heq =>
    inj_on_of_nodup_map hmark (h.used_mem hx) (h.used_mem hy) heq

variable [DecidableEq ι]

theorem eq_or_of_update {i j : ι} {o : Option τ} (h : update c.taken i o j = some x) :
    (j = i ∧ o = some x) ∨ (j ≠ i ∧ c.taken j = some x) := by
  by_cases hj : j = i
  · rw [hj, update_self] at h
    exact .inl ⟨hj, h⟩
  · rw [update_of_ne hj] at h
    exact .inr ⟨hj, h⟩

/-- **A ticket that is offered is taken**, and no longer offered. -/
theorem Once.take (h : c.Once) {i : ι} (hx : c.offered x)
    (hoffered : ∀ {y}, offered y → c.offered y ∧ y ≠ x) :
    Once { c with offered := offered, taken := update c.taken i (some x) } where
  offered_mem hy := h.offered_mem (hoffered hy).1
  offered_untaken {y} hy j hj := by
    rcases eq_or_of_update hj with ⟨-, hxy⟩ | ⟨-, hj⟩
    · exact (hoffered hy).2 (Option.some.inj hxy).symm
    · exact h.offered_untaken (hoffered hy).1 j hj
  offered_unused hy := h.offered_unused (hoffered hy).1
  taken_mem {j y} hj := by
    rcases eq_or_of_update hj with ⟨-, ⟨⟩⟩ | ⟨-, hj⟩
    · exact h.offered_mem hx
    · exact h.taken_mem hj
  taken_unused {j y} hj := by
    rcases eq_or_of_update hj with ⟨-, ⟨⟩⟩ | ⟨-, hj⟩
    · exact h.offered_unused hx
    · exact h.taken_unused hj
  taken_inj {j k y} hj hk := by
    rcases eq_or_of_update hj with ⟨hji, ⟨⟩⟩ | ⟨-, hj⟩
    · rcases eq_or_of_update hk with ⟨hki, -⟩ | ⟨-, hk⟩
      · exact hji.trans hki.symm
      · exact absurd hk (h.offered_untaken hx k)
    · rcases eq_or_of_update hk with ⟨-, ⟨⟩⟩ | ⟨-, hk⟩
      · exact absurd hj (h.offered_untaken hx j)
      · exact h.taken_inj hj hk
  used_mem := h.used_mem
  used_nodup := h.used_nodup

/-- **A ticket that was taken is used.** -/
theorem Once.use (h : c.Once) {i : ι} (hi : c.taken i = some x) :
    Once { c with taken := update c.taken i none, used := c.used ++ [x] } where
  offered_mem := h.offered_mem
  offered_untaken {y} hy j hj := by
    rcases eq_or_of_update hj with ⟨-, ⟨⟩⟩ | ⟨-, hj⟩
    exact h.offered_untaken hy j hj
  offered_unused {y} hy hused := by
    rcases mem_append.mp hused with hused | hused
    · exact h.offered_unused hy hused
    · rw [mem_singleton.mp hused] at hy
      exact h.offered_untaken hy i hi
  taken_mem {j y} hj := by
    rcases eq_or_of_update hj with ⟨-, ⟨⟩⟩ | ⟨-, hj⟩
    exact h.taken_mem hj
  taken_unused {j y} hj hused := by
    rcases eq_or_of_update hj with ⟨-, ⟨⟩⟩ | ⟨hne, hj⟩
    rcases mem_append.mp hused with hused | hused
    · exact h.taken_unused hj hused
    · rw [mem_singleton.mp hused] at hj
      exact hne (h.taken_inj hj hi)
  taken_inj {j k y} hj hk := by
    rcases eq_or_of_update hj with ⟨-, ⟨⟩⟩ | ⟨-, hj⟩
    rcases eq_or_of_update hk with ⟨-, ⟨⟩⟩ | ⟨-, hk⟩
    exact h.taken_inj hj hk
  used_mem {y} hy := by
    rcases mem_append.mp hy with hy | hy
    · exact h.used_mem hy
    · rw [mem_singleton.mp hy]
      exact h.taken_mem hi
  used_nodup := by
    refine h.used_nodup.append (nodup_singleton x) ?_
    rw [disjoint_singleton]
    exact h.taken_unused hi

end Tickets

end Kseal.Infra
