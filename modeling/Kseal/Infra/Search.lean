import Mathlib.Data.List.Basic

/-!
# Binary search (Go's `sort.Search`)

* `filter_eq_slice` — in a list sorted by a key, the entries with one key are cut out by two searches
-/

namespace Kseal.Infra

open List

def searchLoop (f : Nat → Bool) (i j : Nat) : Nat :=
  if i < j then
    let h := (i + j) / 2
    if !f h then searchLoop f (h + 1) j else searchLoop f i h
  else i
termination_by j - i

def search (n : Nat) (f : Nat → Bool) : Nat := searchLoop f 0 n

variable {f : Nat → Bool} {n : Nat}

theorem searchLoop_spec (hmono : ∀ a b, a ≤ b → b < n → f a = true → f b = true) (i j : Nat)
    (hij : i ≤ j) (hj : j ≤ n) (hlow : ∀ a < i, f a = false)
    (hhigh : ∀ a, j ≤ a → a < n → f a = true) :
    searchLoop f i j ≤ n ∧ (∀ a < searchLoop f i j, f a = false) ∧
      ∀ a, searchLoop f i j ≤ a → a < n → f a = true := by
  fun_induction searchLoop f i j with
  | case1 i j hlt h hf ih =>
    refine ih (by omega) hj (fun a ha => ?_) hhigh
    rw [Bool.eq_false_iff]
    intro htrue
    have := hmono a h (by omega) (by omega) htrue
    rw [this] at hf
    cases hf
  | case2 i j hlt h hf ih =>
    refine ih (by omega) (by omega) hlow fun a ha han => hmono h a ha han ?_
    simpa using hf
  | case3 i j hlt =>
    have : i = j := by omega
    subst this
    exact ⟨hj, hlow, hhigh⟩

/-- **The first index where the condition holds.** -/
theorem search_spec (hmono : ∀ a b, a ≤ b → b < n → f a = true → f b = true) :
    search n f ≤ n ∧ (∀ a < search n f, f a = false) ∧
      ∀ a, search n f ≤ a → a < n → f a = true :=
  searchLoop_spec hmono 0 n (Nat.zero_le n) (Nat.le_refl n) (by omega) (by omega)

/-! ## Searching a list -/

section lists

variable {α : Type} {l : List α} {p q : α → Bool}

def holdsAt (l : List α) (p : α → Bool) (i : Nat) : Bool :=
  match l[i]? with
  | some a => p a
  | none => true

theorem holdsAt_eq (hi : n < l.length) : holdsAt l p n = p l[n] := by
  unfold holdsAt
  rw [getElem?_eq_getElem hi]

theorem search_cuts (h : l.Pairwise fun a b => p a = true → p b = true) :
    (∀ a ∈ l.take (search l.length (holdsAt l p)), p a = false) ∧
      ∀ a ∈ l.drop (search l.length (holdsAt l p)), p a = true := by
  have hmono : ∀ a b, a ≤ b → b < l.length → holdsAt l p a = true → holdsAt l p b = true := by
    intro a b hab hb
    rw [holdsAt_eq hb, holdsAt_eq (Nat.lt_of_le_of_lt hab hb)]
    rcases Nat.lt_or_eq_of_le hab with hlt | rfl
    · exact pairwise_iff_getElem.mp h a b _ hb hlt
    · exact id
  obtain ⟨hle, hlow, hhigh⟩ := search_spec hmono
  constructor
  · intro a ha
    obtain ⟨i, hi, rfl⟩ := mem_take_iff_getElem.mp ha
    rw [← holdsAt_eq (p := p) (by omega)]
    exact hlow i (by omega)
  · intro a ha
    obtain ⟨i, hi, rfl⟩ := mem_drop_iff_getElem.mp ha
    rw [← holdsAt_eq (p := p) (by omega)]
    exact hhigh _ (by omega) (by omega)

/-- **Two searches cut out the elements with `p` and without `q`**, if `q` holds from a later
element on than `p`. -/
theorem filter_eq_slice (hp : l.Pairwise fun a b => p a = true → p b = true)
    (hq : l.Pairwise fun a b => q a = true → q b = true) :
    (l.take (search l.length (holdsAt l q))).drop (search l.length (holdsAt l p)) =
      l.filter fun a => p a && !q a := by
  obtain ⟨hlow, hhigh⟩ := search_cuts hp
  obtain ⟨hlow', hhigh'⟩ := search_cuts hq
  generalize search l.length (holdsAt l p) = lo at *
  generalize search l.length (holdsAt l q) = hi at *
  have hfirst : l.filter (fun a => !q a) = l.take hi := by
    conv_lhs => rw [← take_append_drop hi l]
    rw [filter_append, filter_eq_self.mpr (by simpa using hlow'),
      filter_eq_nil_iff.mpr (by simpa using hhigh'), append_nil]
  rw [← filter_filter, hfirst]
  conv_rhs => rw [← take_append_drop lo (l.take hi)]
  rw [filter_append, filter_eq_nil_iff.mpr, filter_eq_self.mpr, nil_append]
  · intro a ha
    rw [drop_take] at ha
    exact hhigh a (mem_of_mem_take ha)
  · intro a ha
    rw [take_take, Nat.min_comm, ← take_take] at ha
    rw [hlow a (mem_of_mem_take ha)]
    exact Bool.false_ne_true

end lists

end Kseal.Infra
