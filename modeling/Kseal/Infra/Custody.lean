import Mathlib.Data.List.Nodup
import Mathlib.Data.List.Perm.Basic

/-!
# Items that go through places

Items are accepted into places and delivered from them, in any order; those accepted are those
delivered and those in the places (`Conserved.count_delivered`).
-/

namespace Kseal.Infra

open List

structure Custody (κ α : Type) where
  waiting : List α
  accepted : List α
  places : List κ
  delivered : List α

namespace Custody

open scoped List

variable {κ α : Type} {content : κ → List α}

structure Conserved (content : κ → List α) (c : Custody κ α) : Prop where
  perm : c.accepted.Perm (c.delivered ++ c.places.flatMap content)
  nodup : (c.waiting ++ c.accepted).Nodup

theorem flatMap_set_perm {l : List κ} {k : Nat} {p p' : κ} {out inn : List α} (hk : l[k]? = some p)
    (hmove : (out ++ content p').Perm (content p ++ inn)) :
    (out ++ (l.set k p').flatMap content).Perm (l.flatMap content ++ inn) := by
  obtain ⟨hlt, rfl⟩ := List.getElem?_eq_some_iff.mp hk
  have hbefore : (l.flatMap content).Perm (content l[k] ++ (l.eraseIdx k).flatMap content) :=
    (getElem_cons_eraseIdx_perm hlt).symm.flatMap_right content
  have hafter :
      ((l.set k p').flatMap content).Perm (content p' ++ (l.eraseIdx k).flatMap content) :=
    (set_perm_cons_eraseIdx hlt p').flatMap_right content
  calc out ++ (l.set k p').flatMap content
    _ ~ out ++ (content p' ++ (l.eraseIdx k).flatMap content) := hafter.append_left out
    _ = (out ++ content p') ++ (l.eraseIdx k).flatMap content := (append_assoc ..).symm
    _ ~ (content l[k] ++ inn) ++ (l.eraseIdx k).flatMap content := hmove.append_right _
    _ = content l[k] ++ (inn ++ (l.eraseIdx k).flatMap content) := append_assoc ..
    _ ~ content l[k] ++ ((l.eraseIdx k).flatMap content ++ inn) :=
      perm_append_comm.append_left _
    _ = (content l[k] ++ (l.eraseIdx k).flatMap content) ++ inn := (append_assoc ..).symm
    _ ~ l.flatMap content ++ inn := hbefore.symm.append_right inn

theorem mem_set_or_eq {l : List κ} {k : Nat} {p p' q : κ} (hk : l[k]? = some p) (hq : q ∈ l) :
    q ∈ l.set k p' ∨ q = p := by
  obtain ⟨j, hj⟩ := mem_iff_getElem?.mp hq
  by_cases hjk : k = j
  · subst hjk
    exact .inr (Option.some.inj (hj.symm.trans hk))
  · exact .inl (mem_of_getElem? ((getElem?_set_ne hjk).trans hj))

variable {c : Custody κ α} {k : Nat} {p p' : κ} {x : α}

theorem Conserved.empty (hplaces : c.places = []) (hwaiting : c.waiting = [])
    (haccepted : c.accepted = []) (hdelivered : c.delivered = []) : c.Conserved content where
  perm := by simp [hplaces, haccepted, hdelivered]
  nodup := by simp [hwaiting, haccepted]

theorem Conserved.issue (h : c.Conserved content) (hnew : x ∉ c.waiting ++ c.accepted) :
    Conserved content { c with waiting := c.waiting ++ [x] } where
  perm := h.perm
  nodup := by
    have hperm : (c.waiting ++ [x] ++ c.accepted).Perm (x :: (c.waiting ++ c.accepted)) := by
      rw [append_assoc]
      exact perm_middle
    exact hperm.nodup_iff.mpr (nodup_cons.mpr ⟨hnew, h.nodup⟩)

theorem Conserved.withdraw {waiting : List α} (h : c.Conserved content)
    (hsub : waiting.Sublist c.waiting) : Conserved content { c with waiting := waiting } where
  perm := h.perm
  nodup := h.nodup.sublist (hsub.append_right _)

theorem Conserved.accept {waiting : List α} (h : c.Conserved content)
    (hwaiting : c.waiting.Perm (x :: waiting)) (hk : c.places[k]? = some p)
    (hp : (content p').Perm (content p ++ [x])) :
    Conserved content { c with
      waiting := waiting, accepted := c.accepted ++ [x], places := c.places.set k p' } where
  perm := by
    have hmove :
        ([] ++ (c.places.set k p').flatMap content).Perm (c.places.flatMap content ++ [x]) :=
      flatMap_set_perm hk hp
    refine (h.perm.append_right [x]).trans ?_
    rw [append_assoc]
    exact hmove.symm.append_left _
  nodup := by
    have hperm : (waiting ++ (c.accepted ++ [x])).Perm (c.waiting ++ c.accepted) := by
      rw [← append_assoc]
      exact (perm_append_singleton x _).trans (hwaiting.symm.append_right c.accepted)
    exact hperm.nodup_iff.mpr h.nodup

theorem Conserved.deliver {out : List α} (h : c.Conserved content) (hk : c.places[k]? = some p)
    (hp : (out ++ content p').Perm (content p)) :
    Conserved content { c with
      places := c.places.set k p', delivered := c.delivered ++ out } where
  perm := by
    have hmove :
        (out ++ (c.places.set k p').flatMap content).Perm (c.places.flatMap content ++ []) :=
      flatMap_set_perm hk (by rw [append_nil]; exact hp)
    rw [append_nil] at hmove
    refine h.perm.trans ?_
    rw [append_assoc]
    exact hmove.symm.append_left _
  nodup := h.nodup

theorem Conserved.addPlace (h : c.Conserved content) (hp : content p = []) :
    Conserved content { c with places := c.places ++ [p] } where
  perm := by
    rw [flatMap_append, flatMap_singleton, hp, append_nil]
    exact h.perm
  nodup := h.nodup

theorem Conserved.not_accepted_of_waiting (h : c.Conserved content) (hx : x ∈ c.waiting) :
    x ∉ c.accepted := fun hacc => disjoint_of_nodup_append h.nodup hx hacc

theorem Conserved.accepted_of_mem (h : c.Conserved content) (hp : p ∈ c.places)
    (hx : x ∈ content p) : x ∈ c.accepted :=
  h.perm.mem_iff.mpr (mem_append_right _ (mem_flatMap.mpr ⟨p, hp, hx⟩))

/-- **An item was delivered once, unless it is still in a place.** -/
theorem Conserved.count_delivered [DecidableEq α] (h : c.Conserved content)
    (hx : x ∈ c.accepted) : c.delivered.count x = 1 ↔ ∀ p ∈ c.places, x ∉ content p := by
  have hnodup : (c.delivered ++ c.places.flatMap content).Nodup :=
    h.perm.nodup_iff.mp (nodup_append.mp h.nodup).2.1
  constructor
  · intro hcount p hp hxp
    have hmem : x ∈ c.delivered := count_pos_iff.mp (by omega)
    exact disjoint_of_nodup_append hnodup hmem (mem_flatMap.mpr ⟨p, hp, hxp⟩)
  · intro hout
    have hmem : x ∈ c.delivered := by
      rcases mem_append.mp (h.perm.mem_iff.mp hx) with hd | hin
      · exact hd
      · obtain ⟨p, hp, hxp⟩ := mem_flatMap.mp hin
        exact absurd hxp (hout p hp)
    exact count_eq_one_of_mem (nodup_append.mp hnodup).1 hmem

end Custody

end Kseal.Infra
