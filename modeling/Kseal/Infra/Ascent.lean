import Mathlib.Algebra.Order.Group.Unbundled.Basic
import Mathlib.Algebra.Order.Group.Defs
import Mathlib.Order.Lattice
import Mathlib.Tactic.Abel

/-!
# How far a sequence of readings climbs

* `sub_le_spread` — no two readings are further apart than the largest and the smallest
-/

namespace Kseal.Infra

open List

variable {K : Type} [LinearOrder K]

variable {u t : K} {ts : List K}

theorem le_foldl_max (hu : u ∈ t :: ts) : u ≤ ts.foldl max t := by
  induction ts generalizing u t with
  | nil => exact (mem_singleton.mp hu).le
  | cons t' ts ih =>
    rcases mem_cons.mp hu with rfl | hu
    · exact (le_max_left u t').trans (ih mem_cons_self)
    · rcases mem_cons.mp hu with rfl | hu
      · exact (le_max_right t u).trans (ih mem_cons_self)
      · exact ih (mem_cons_of_mem _ hu)

theorem foldl_min_le (hu : u ∈ t :: ts) : ts.foldl min t ≤ u := by
  induction ts generalizing u t with
  | nil => exact (mem_singleton.mp hu).ge
  | cons t' ts ih =>
    rcases mem_cons.mp hu with rfl | hu
    · exact (ih mem_cons_self).trans (min_le_left u t')
    · rcases mem_cons.mp hu with rfl | hu
      · exact (ih mem_cons_self).trans (min_le_right t u)
      · exact ih (mem_cons_of_mem _ hu)

variable [AddCommGroup K]

def ascent : K → List K → K
  | _, [] => 0
  | last, t :: ts => max 0 (t - last) + ascent t ts

def spread (t : K) (ts : List K) : K := ts.foldl max t - ts.foldl min t

variable [IsOrderedAddMonoid K]

/-- **No two readings are further apart than the largest and the smallest.** -/
theorem sub_le_spread {v : K} (hu : u ∈ t :: ts) (hv : v ∈ t :: ts) :
    u - v ≤ spread t ts :=
  sub_le_sub (le_foldl_max hu) (foldl_min_le hv)

end Kseal.Infra
