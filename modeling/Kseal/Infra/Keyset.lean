import Mathlib.Data.List.Sort
import Mathlib.Data.List.Nodup

/-!
# Keyset pagination

A page holds the items below a cursor, greatest key first, up to a limit; the key of its last item
is the next cursor. The items may become more between two pages (`page_induction`).
-/

namespace Kseal.Infra.Keyset

open List

variable {α K : Type*} [LinearOrder K] (key : α → K)

def descending (xs : List α) : List α := xs.insertionSort fun a b => key b ≤ key a

def Distinct (xs : List α) : Prop := (xs.map key).Nodup

def Below (cursor : Option K) (a : α) : Prop := ∀ k ∈ cursor, key a < k

instance (cursor : Option K) : DecidablePred (Below key cursor) := fun a =>
  match cursor with
  | none => isTrue nofun
  | some k => decidable_of_iff (key a < k) (by simp [Below])

structure Page (α : Type*) where
  events : List α
  /-- The last item of the page, if there are more. -/
  next : Option α

def cut (out : List α) (limit : Nat) : Page α :=
  ⟨out.take limit, if limit < out.length then out[limit - 1]? else none⟩

def page (xs : List α) (limit : Nat) (cursor : Option K) : Page α :=
  cut ((descending key xs).filter (Below key cursor)) limit

/-! ## Lists with decreasing keys -/

theorem insertionSort_eq_descending {r : α → α → Prop} [DecidableRel r]
    (hr : ∀ a b, r a b ↔ key b ≤ key a) (xs : List α) :
    xs.insertionSort r = descending key xs := by
  have hrel : r = fun a b => key b ≤ key a := by
    funext a b
    exact propext (hr a b)
  unfold descending
  congr!

theorem perm_descending (xs : List α) : (descending key xs).Perm xs := perm_insertionSort _ _

variable {a : α}

@[simp] theorem mem_descending {xs : List α} : a ∈ descending key xs ↔ a ∈ xs :=
  (perm_descending key xs).mem_iff

theorem pairwise_le_descending (xs : List α) :
    (descending key xs).Pairwise fun a b => key b ≤ key a := by
  exact pairwise_insertionSort (fun a b : α => key b ≤ key a) xs

theorem pairwise_descending {xs : List α} (h : Distinct key xs) :
    (descending key xs).Pairwise fun a b => key b < key a := by
  have hle := pairwise_le_descending key xs
  have hne : (descending key xs).Pairwise fun a b => key a ≠ key b :=
    pairwise_map.mp ((perm_descending key xs).map key |>.nodup_iff.mpr h)
  exact hle.imp₂ (fun a b hab hne => lt_of_le_of_ne hab (Ne.symm hne)) hne

theorem eq_of_mem_iff {xs ys : List α} (hxs : xs.Pairwise fun a b => key b < key a)
    (hys : ys.Pairwise fun a b => key b < key a) (h : ∀ a, a ∈ xs ↔ a ∈ ys) : xs = ys := by
  exact hxs.eq_of_mem_iff hys h

theorem dropWhile_descending (xs : List α) (cursor : Option K) :
    (descending key xs).dropWhile (¬ Below key cursor ·) =
      (descending key xs).filter (Below key cursor) := by
  have hle := pairwise_le_descending key xs
  generalize descending key xs = out at hle ⊢
  induction out with
  | nil => rfl
  | cons a out ih =>
    obtain ⟨hfirst, hrest⟩ := pairwise_cons.mp hle
    by_cases ha : Below key cursor a
    · have hall : ∀ b ∈ out, Below key cursor b :=
        fun b hb k hk => lt_of_le_of_lt (hfirst b hb) (ha k hk)
      rw [dropWhile_cons_of_neg (by simpa using ha), filter_eq_self.mpr]
      intro b hb
      rcases mem_cons.mp hb with rfl | hb
      · exact decide_eq_true ha
      · exact decide_eq_true (hall b hb)
    · rw [dropWhile_cons_of_pos (by simpa using ha),
        filter_cons_of_neg (by simpa using ha)]
      exact ih hrest

variable {last : α}

theorem mem_take_iff {out : List α} (hout : out.Pairwise fun a b => key b < key a) {n : Nat}
    (hpos : 0 < n) (hlast : out[n - 1]? = some last) :
    a ∈ out.take n ↔ a ∈ out ∧ key last ≤ key a := by
  obtain ⟨hlt, hget⟩ := List.getElem?_eq_some_iff.mp hlast
  rw [pairwise_iff_getElem] at hout
  constructor
  · intro ha
    obtain ⟨i, hi, rfl⟩ := mem_take_iff_getElem.mp ha
    refine ⟨getElem_mem _, ?_⟩
    rcases Nat.lt_or_eq_of_le (show i ≤ n - 1 by omega) with hi' | rfl
    · exact le_of_lt (hget ▸ hout i (n - 1) (by omega) hlt hi')
    · exact le_of_eq (by rw [hget])
  · rintro ⟨ha, hle⟩
    obtain ⟨i, hi, rfl⟩ := mem_iff_getElem.mp ha
    by_cases hin : i < n
    · exact mem_take_iff_getElem.mpr ⟨i, by omega, rfl⟩
    · have hbelow := hout (n - 1) i hlt hi (by omega)
      rw [hget] at hbelow
      exact absurd hle (not_le.mpr hbelow)

/-! ## One page -/

variable {limit : Nat}

theorem cut_take (out : List α) (hlimit : 0 < limit) :
    cut (out.take (limit + 1)) limit = cut out limit := by
  unfold cut
  rw [take_take, Nat.min_eq_left (by omega), length_take,
    getElem?_take_of_lt (by omega)]
  by_cases hmore : limit < out.length
  · rw [if_pos (by omega), if_pos hmore]
  · rw [if_neg (by omega), if_neg hmore]

structure PageSpec (xs : List α) (cursor : Option K) (p : Page α) : Prop where
  mem_iff : ∀ a, a ∈ p.events ↔ a ∈ xs ∧ Below key cursor a ∧ ∀ last ∈ p.next, key last ≤ key a
  descending : p.events.Pairwise fun a b => key b < key a
  next_mem : ∀ last ∈ p.next, last ∈ p.events

variable {key}

theorem page_spec {xs : List α} (h : Distinct key xs) (hlimit : 0 < limit) (cursor : Option K) :
    PageSpec key xs cursor (page key xs limit cursor) := by
  have hout : ((Keyset.descending key xs).filter (Below key cursor)).Pairwise
      fun a b => key b < key a := (pairwise_descending key h).filter _
  have hmem : ∀ a, a ∈ (Keyset.descending key xs).filter (Below key cursor) ↔
      a ∈ xs ∧ Below key cursor a := by
    intro a
    rw [mem_filter, mem_descending, decide_eq_true_iff]
  unfold page cut
  generalize (Keyset.descending key xs).filter (Below key cursor) = out at hout hmem ⊢
  by_cases hmore : limit < out.length
  · obtain ⟨last, hlast⟩ : ∃ last, out[limit - 1]? = some last :=
      ⟨_, getElem?_eq_getElem (by omega)⟩
    rw [if_pos hmore, hlast]
    have htake := fun a => mem_take_iff key hout hlimit (a := a) hlast
    refine ⟨fun a => ?_, hout.sublist (take_sublist _ _), fun b hb => ?_⟩
    · rw [htake a, hmem a, and_assoc]
      simp
    · cases hb
      exact (htake last).mpr ⟨mem_of_getElem? hlast, le_refl _⟩
  · rw [if_neg hmore, take_of_length_le (by omega)]
    exact ⟨fun a => by simp [hmem a], hout, nofun⟩

theorem countP_above {out : List α} (hout : out.Pairwise fun a b => key b < key a) {i : Nat}
    (ha : out[i]? = some a) : (out.countP fun b => key a < key b) = i := by
  induction out generalizing i with
  | nil => cases ha
  | cons b out ih =>
    obtain ⟨hfirst, hrest⟩ := pairwise_cons.mp hout
    cases i with
    | zero =>
      cases ha
      refine countP_eq_zero.mpr fun c hc => ?_
      rw [decide_eq_true_iff, not_lt]
      rcases mem_cons.mp hc with rfl | hc
      · exact le_refl _
      · exact le_of_lt (hfirst c hc)
    | succ i =>
      have hlt := hfirst a (mem_of_getElem? ha)
      rw [countP_cons_of_pos (by simpa using hlt), ih hrest ha]

/-- **The first page** holds the items with fewer than `limit` items above them. -/
theorem mem_firstPage_iff {xs : List α} (h : Distinct key xs) :
    a ∈ (page key xs limit none).events ↔
      a ∈ xs ∧ (xs.countP fun b => key a < key b) < limit := by
  have hall : (Keyset.descending key xs).filter (Below key none) = Keyset.descending key xs :=
    filter_eq_self.mpr fun b _ => decide_eq_true nofun
  have hcount := (perm_descending key xs).countP_eq fun b => key a < key b
  have hout := pairwise_descending key h
  show a ∈ ((Keyset.descending key xs).filter (Below key none)).take limit ↔ _
  have hmem : a ∈ xs ↔ a ∈ Keyset.descending key xs := (mem_descending key).symm
  rw [hall, hmem, ← hcount]
  constructor
  · intro ha
    obtain ⟨i, hi, rfl⟩ := mem_take_iff_getElem.mp ha
    refine ⟨getElem_mem _, ?_⟩
    rw [countP_above hout (getElem?_eq_getElem (by omega))]
    omega
  · rintro ⟨ha, hlt⟩
    obtain ⟨i, hi, rfl⟩ := mem_iff_getElem.mp ha
    rw [countP_above hout (getElem?_eq_getElem hi)] at hlt
    exact mem_take_iff_getElem.mpr ⟨i, by omega, rfl⟩

variable {e : α}

theorem getLast?_page {xs : List α} (hlimit : 0 < limit) {cursor : Option K}
    (h : (page key xs limit cursor).next = some e) :
    (page key xs limit cursor).events.getLast? = some e := by
  unfold page cut at h ⊢
  dsimp only at h ⊢
  split at h
  · rw [getLast?_take, if_neg (by omega), h]
    rfl
  · cases h

namespace PageSpec

variable {xs : List α} {cursor : Option K} {p : Page α}

theorem mem_or_below (h : PageSpec key xs cursor p) (ha : a ∈ xs) (hbelow : Below key cursor a) :
    a ∈ p.events ∨ ∃ last, p.next = some last ∧ Below key (some (key last)) a := by
  by_cases hmem : a ∈ p.events
  · exact .inl hmem
  · right
    cases hnext : p.next with
    | none => exact absurd ((h.mem_iff a).mpr ⟨ha, hbelow, by simp [hnext]⟩) hmem
    | some last =>
      refine ⟨last, rfl, ?_⟩
      intro k hk
      cases hk
      by_contra hle
      exact hmem ((h.mem_iff a).mpr ⟨ha, hbelow, by simpa [hnext] using hle⟩)

theorem below_of_next (h : PageSpec key xs cursor p) (hnext : p.next = some last)
    (ha : Below key (some (key last)) a) : Below key cursor a := by
  intro k hk
  have hlast := ((h.mem_iff last).mp (h.next_mem last hnext)).2.1
  exact lt_trans (ha _ rfl) (hlast k hk)

end PageSpec

/-! ## Pages one after the other -/

variable (key) in
/--
`Walk xs cursor out xs'`: from the cursor on, `out` is what the pages hold up to the last one. The
items are at first `xs` and at the end `xs'`.
-/
inductive Walk : List α → Option K → List α → List α → Prop
  | last {xs xs' : List α} {limit : Nat} {cursor : Option K} (hgrow : xs ⊆ xs')
      (hkeys : Distinct key xs') (hlimit : 0 < limit)
      (hnext : (page key xs' limit cursor).next = none) :
      Walk xs cursor (page key xs' limit cursor).events xs'
  | more {xs xs' xs'' out : List α} {limit : Nat} {cursor : Option K} {e : α} (hgrow : xs ⊆ xs')
      (hkeys : Distinct key xs') (hlimit : 0 < limit)
      (hnext : (page key xs' limit cursor).next = some e)
      (hrest : Walk xs' (some (key e)) out xs'') :
      Walk xs cursor ((page key xs' limit cursor).events ++ out) xs''

namespace Walk

variable {xs xs' out : List α} {cursor : Option K}

theorem grows (h : Walk key xs cursor out xs') : xs ⊆ xs' := by
  induction h with
  | last hgrow _ _ _ => exact hgrow
  | more hgrow _ _ _ _ ih => exact List.Subset.trans hgrow ih

theorem below_cursor (h : Walk key xs cursor out xs') : ∀ a ∈ out, Below key cursor a := by
  induction h with
  | @last _ _ _ cursor _ hkeys hlimit _ =>
    intro a ha
    exact (((page_spec hkeys hlimit cursor).mem_iff a).mp ha).2.1
  | @more _ _ _ _ _ cursor _ _ hkeys hlimit hnext _ ih =>
    intro a ha
    have hspec := page_spec hkeys hlimit cursor
    rcases mem_append.mp ha with ha | ha
    · exact ((hspec.mem_iff a).mp ha).2.1
    · exact hspec.below_of_next hnext (ih a ha)

/-- **Everything that was there at the start is returned.** -/
theorem complete (h : Walk key xs cursor out xs') :
    ∀ a ∈ xs, Below key cursor a → a ∈ out := by
  induction h with
  | @last _ _ _ cursor hgrow hkeys hlimit hnext =>
    intro a ha hbelow
    rcases (page_spec hkeys hlimit cursor).mem_or_below (hgrow ha) hbelow with hmem | ⟨e, he, -⟩
    · exact hmem
    · rw [hnext] at he
      cases he
  | @more _ _ _ _ _ cursor _ hgrow hkeys hlimit hnext _ ih =>
    intro a ha hbelow
    rw [mem_append]
    rcases (page_spec hkeys hlimit cursor).mem_or_below (hgrow ha) hbelow with hmem | ⟨e, he, hlt⟩
    · exact .inl hmem
    · rw [hnext] at he
      cases he
      exact .inr (ih a (hgrow ha) hlt)

/-- **Nothing is returned that is not there.** -/
theorem sound (h : Walk key xs cursor out xs') : ∀ a ∈ out, a ∈ xs' := by
  induction h with
  | @last _ _ _ cursor _ hkeys hlimit _ =>
    intro a ha
    exact (((page_spec hkeys hlimit cursor).mem_iff a).mp ha).1
  | @more _ _ _ _ _ cursor _ _ hkeys hlimit _ hrest ih =>
    intro a ha
    rcases mem_append.mp ha with ha | ha
    · exact hrest.grows (((page_spec hkeys hlimit cursor).mem_iff a).mp ha).1
    · exact ih a ha

/-- **The items are returned greatest key first**, over all pages. -/
theorem descending (h : Walk key xs cursor out xs') : out.Pairwise fun a b => key b < key a := by
  induction h with
  | @last _ _ _ cursor _ hkeys hlimit _ => exact (page_spec hkeys hlimit cursor).descending
  | @more _ _ _ _ _ cursor e _ hkeys hlimit hnext hrest ih =>
    have hspec := page_spec hkeys hlimit cursor
    refine pairwise_append.mpr ⟨hspec.descending, ih, fun a ha b hb => ?_⟩
    have hlast : key e ≤ key a := ((hspec.mem_iff a).mp ha).2.2 e hnext
    exact lt_of_lt_of_le (hrest.below_cursor b hb _ rfl) hlast

theorem nodup (h : Walk key xs cursor out xs') : out.Nodup :=
  h.descending.imp fun hlt => by
    rintro rfl
    exact lt_irrefl _ hlt

/-- **If the items do not change, the pages hold them all in descending order.** -/
theorem eq_descending (h : Walk key xs none out xs) (hkeys : Distinct key xs) :
    out = Keyset.descending key xs := by
  refine eq_of_mem_iff key h.descending (pairwise_descending key hkeys) fun a => ?_
  rw [mem_descending]
  exact ⟨h.sound a, fun ha => h.complete a ha nofun⟩

end Walk

theorem length_below_lt {xs : List α} {cursor : Option K} (he : e ∈ xs)
    (hbelow : Below key cursor e) :
    (xs.filter (Below key (some (key e)))).length < (xs.filter (Below key cursor)).length := by
  have hsub : (xs.filter (Below key (some (key e)))).Sublist (xs.filter (Below key cursor)) := by
    refine monotone_filter_right xs fun a ha => ?_
    rw [decide_eq_true_iff] at ha ⊢
    exact fun k hk => lt_trans (ha _ rfl) (hbelow k hk)
  refine lt_of_le_of_ne hsub.length_le fun hlen => ?_
  have hmem : e ∈ xs.filter (Below key (some (key e))) := by
    rw [hsub.eq_of_length hlen]
    exact mem_filter.mpr ⟨he, decide_eq_true hbelow⟩
  rw [mem_filter, decide_eq_true_iff] at hmem
  exact lt_irrefl _ (hmem.2 _ rfl)

/--
**If the items do not change, the pages come to an end**: what holds at a cursor whenever it holds
at the one that its page gives, holds at every cursor.
-/
theorem page_induction {xs : List α} (h : Distinct key xs) {limit : Nat} (hlimit : 0 < limit)
    {motive : Option K → Prop}
    (step : ∀ cursor, (∀ e, (page key xs limit cursor).next = some e → motive (some (key e))) →
      motive cursor)
    (cursor : Option K) : motive cursor := by
  -- Each page is below the one before, so fewer and fewer items remain.
  induction hn : (xs.filter (Below key cursor)).length using Nat.strong_induction_on
    generalizing cursor with
  | _ n ih =>
    refine step cursor fun e he => ?_
    have hspec := page_spec h hlimit cursor
    obtain ⟨hmem, hbelow, -⟩ := (hspec.mem_iff e).mp (hspec.next_mem e he)
    exact ih _ (hn ▸ length_below_lt hmem hbelow) (some (key e)) rfl

end Kseal.Infra.Keyset
