import Kseal.Infra.GoMap

/-!
# Tables that forget the least recently used entry

A map from keys to the elements of a list whose front was used last. An element is a handle; what it
holds is in `cells`, also after it was taken off the list (`eq_getLast_of_evicted`).
-/

namespace Kseal.Infra

open List

/-! ## Keys by their last use -/

section recent

variable {κ : Type} [DecidableEq κ]

def use (cap : Nat) (k : κ) (keys : List κ) : List κ := (k :: keys.erase k).take cap

def recent : List κ → List κ
  | [] => []
  | k :: h => k :: (recent h).erase k

theorem nodup_recent : ∀ h : List κ, (recent h).Nodup
  | [] => nodup_nil
  | k :: h => by
    rw [recent, nodup_cons]
    exact ⟨(nodup_recent h).not_mem_erase, (nodup_recent h).erase k⟩

theorem mem_recent {k : κ} : ∀ {h : List κ}, k ∈ recent h ↔ k ∈ h
  | [] => Iff.rfl
  | k' :: h => by
    rw [recent, mem_cons, (nodup_recent h).mem_erase_iff, mem_recent]
    by_cases hk : k = k'
    · simp [hk]
    · simp [hk]

theorem pairwise_recent : ∀ h : List κ, (recent h).Pairwise fun a b => h.idxOf a < h.idxOf b
  | [] => List.Pairwise.nil
  | k :: h => by
    have hnodup := nodup_recent h
    constructor
    · intro b hb
      have hne : k ≠ b := Ne.symm (hnodup.mem_erase_iff.mp hb).1
      rw [idxOf_cons_self, idxOf_cons_ne _ hne]
      exact Nat.succ_pos _
    · refine ((pairwise_recent h).sublist erase_sublist).imp_of_mem ?_
      intro a b ha hb hlt
      have hka : k ≠ a := Ne.symm (hnodup.mem_erase_iff.mp ha).1
      have hkb : k ≠ b := Ne.symm (hnodup.mem_erase_iff.mp hb).1
      rw [idxOf_cons_ne _ hka, idxOf_cons_ne _ hkb]
      exact Nat.succ_lt_succ hlt

theorem take_erase_take (k : κ) : ∀ (l : List κ) (n : Nat),
    ((l.take (n + 1)).erase k).take n = (l.erase k).take n
  | [], n => by simp
  | a :: l, n => by
    rw [take_succ_cons]
    by_cases ha : a = k
    · subst ha
      rw [erase_cons_head, erase_cons_head, take_take, Nat.min_self]
    · rw [erase_cons_tail (by simpa using ha), erase_cons_tail (by simpa using ha)]
      cases n with
      | zero => rfl
      | succ n => rw [take_succ_cons, take_succ_cons, take_erase_take k l n]

/-- **The keys kept are the last ones used**: a use keeps it so. -/
theorem use_recent {cap : Nat} (hcap : 0 < cap) (k : κ) (h : List κ) :
    use cap k ((recent h).take cap) = (recent (k :: h)).take cap := by
  obtain ⟨n, rfl⟩ := Nat.exists_eq_add_one.mpr hcap
  rw [use, recent, take_succ_cons, take_succ_cons, take_erase_take]

variable {cap : Nat} {k : κ} {keys : List κ}

theorem head?_use (hcap : 0 < cap) : (use cap k keys).head? = some k := by
  obtain ⟨n, rfl⟩ := Nat.exists_eq_add_one.mpr hcap
  rfl

/-- **Only the key used longest ago is forgotten**, for a new key that there was no room for. -/
theorem eq_getLast_of_evicted (hcap : 0 < cap) (hlen : keys.length ≤ cap) {a : κ}
    (ha : a ∈ keys) (hgone : a ∉ use cap k keys) :
    a ≠ k ∧ k ∉ keys ∧ keys.length = cap ∧ keys.getLast? = some a := by
  obtain ⟨n, rfl⟩ := Nat.exists_eq_add_one.mpr hcap
  rw [use, take_succ_cons, mem_cons, not_or] at hgone
  obtain ⟨hne, hgone⟩ := hgone
  have hk : k ∉ keys := by
    intro hk
    have hshort : (keys.erase k).length ≤ n := by
      rw [length_erase_of_mem hk]
      omega
    rw [take_of_length_le hshort] at hgone
    exact hgone ((mem_erase_of_ne hne).mpr ha)
  rw [erase_of_not_mem hk] at hgone
  have hfull : keys.length = n + 1 := by
    by_contra hshort
    rw [take_of_length_le (by omega)] at hgone
    exact hgone ha
  refine ⟨hne, hk, hfull, ?_⟩
  have hsplit := take_append_drop n keys
  obtain ⟨last, hlast⟩ := length_eq_one_iff.mp
    (show (keys.drop n).length = 1 by rw [length_drop]; omega)
  rw [hlast] at hsplit
  rw [← hsplit] at ha ⊢
  rcases mem_append.mp ha with ha | ha
  · exact absurd ha hgone
  · rw [mem_singleton.mp ha, getLast?_concat]

end recent

/-! ## The table -/

structure Lru (κ ν : Type) where
  byKey : GoMap κ Nat
  order : List Nat
  /-- Every element made so far, under its handle. -/
  cells : List (κ × ν)

namespace Lru

variable {κ ν : Type} [DecidableEq κ]

def empty : Lru κ ν := ⟨∅, [], []⟩

omit [DecidableEq κ] in
def keyOf (s : Lru κ ν) (id : Nat) : Option κ := s.cells[id]?.map Prod.fst

def keys (s : Lru κ ν) : List κ := s.order.filterMap s.keyOf

def entries (s : Lru κ ν) : List (κ × ν) := s.order.filterMap fun id => s.cells[id]?

def find (s : Lru κ ν) (k : κ) : Option ν := do
  let id ← s.byKey.lookup k
  let e ← s.cells[id]?
  return e.2

def touch (s : Lru κ ν) (id : Nat) : Lru κ ν :=
  { s with order := if id ∈ s.order then id :: s.order.erase id else s.order }

def evictBack (s : Lru κ ν) : Lru κ ν :=
  match s.order.getLast? with
  | none => s
  | some id =>
    { s with
      byKey := match s.keyOf id with
        | some k => s.byKey.erase k
        | none => s.byKey
      order := s.order.dropLast }

def evict (cap : Nat) : Nat → Lru κ ν → Lru κ ν
  | 0, s => s
  | rounds + 1, s => if s.order.length > cap then evict cap rounds s.evictBack else s

def getOrCreate (s : Lru κ ν) (cap : Nat) (k : κ) (fresh : ν) : Lru κ ν × Nat :=
  match s.byKey.lookup k with
  | some id => (s.touch id, id)
  | none =>
    let id := s.cells.length
    let s : Lru κ ν := ⟨s.byKey.insert k id, id :: s.order, s.cells ++ [(k, fresh)]⟩
    (s.evict cap s.order.length, id)

def modify (s : Lru κ ν) (id : Nat) (f : ν → ν) : Lru κ ν :=
  { s with cells := s.cells.modify id fun e => (e.1, f e.2) }

/-- **Map and list hold the same elements**, once each and under their own keys. -/
structure Ok (s : Lru κ ν) : Prop where
  nodup : s.order.Nodup
  known : ∀ id ∈ s.order, id < s.cells.length
  listed : ∀ k id, s.byKey.lookup k = some id ↔ id ∈ s.order ∧ s.keyOf id = some k

variable {s : Lru κ ν} {k : κ} {id : Nat}

theorem Ok.empty : Ok (empty : Lru κ ν) := by
  refine ⟨nodup_nil, by simp [Lru.empty], fun k id => ?_⟩
  simp [Lru.empty]

/-! ### Keys -/

omit [DecidableEq κ] in
theorem keyOf_eq_some : s.keyOf id = some k ↔ ∃ v, s.cells[id]? = some (k, v) := by
  unfold keyOf
  rw [Option.map_eq_some_iff]
  constructor
  · rintro ⟨⟨_, v⟩, hv, rfl⟩
    exact ⟨v, hv⟩
  · rintro ⟨v, hv⟩
    exact ⟨(k, v), hv, rfl⟩

theorem Ok.exists_key (h : s.Ok) (hid : id ∈ s.order) : ∃ k, s.keyOf id = some k := by
  unfold keyOf
  rw [getElem?_eq_getElem (h.known id hid)]
  exact ⟨_, rfl⟩

omit [DecidableEq κ] in
theorem mem_keys : k ∈ s.keys ↔ ∃ id ∈ s.order, s.keyOf id = some k := mem_filterMap

theorem Ok.mem_keys_iff (h : s.Ok) : k ∈ s.keys ↔ ∃ id, s.byKey.lookup k = some id := by
  rw [mem_keys]
  exact exists_congr fun id => (h.listed k id).symm

theorem Ok.keyOf_inj (h : s.Ok) {id' : Nat} (hid : id ∈ s.order) (hid' : id' ∈ s.order)
    (hkey : s.keyOf id = some k) (hkey' : s.keyOf id' = some k) : id = id' := by
  have h₁ := (h.listed k id).mpr ⟨hid, hkey⟩
  have h₂ := (h.listed k id').mpr ⟨hid', hkey'⟩
  rw [h₁] at h₂
  exact Option.some.inj h₂

theorem Ok.nodup_keys (h : s.Ok) : s.keys.Nodup := by
  unfold keys List.Nodup
  rw [pairwise_filterMap]
  refine h.nodup.pairwise_of_forall_ne fun id hid id' hid' hne k hk k' hk' => ?_
  rintro rfl
  exact hne (h.keyOf_inj hid hid' hk hk')

theorem Ok.isSome_keyOf (h : s.Ok) : ∀ id ∈ s.order, (s.keyOf id).isSome = true := by
  intro id hid
  obtain ⟨k, hk⟩ := h.exists_key hid
  rw [hk, Option.isSome_some]

theorem Ok.length_keys (h : s.Ok) : s.keys.length = s.order.length :=
  filterMap_length_eq_length.mpr h.isSome_keyOf

section filterMap

variable {α β : Type} {f : α → Option β}

theorem filterMap_take : ∀ {l : List α} (n : Nat), (∀ a ∈ l, (f a).isSome = true) →
    (l.take n).filterMap f = (l.filterMap f).take n
  | [], n, _ => by simp
  | a :: l, 0, _ => by simp
  | a :: l, n + 1, h => by
    rw [forall_mem_cons] at h
    obtain ⟨b, hb⟩ := Option.isSome_iff_exists.mp h.1
    rw [take_succ_cons, filterMap_cons_some hb, filterMap_cons_some hb,
      take_succ_cons, filterMap_take n h.2]

theorem filterMap_erase [DecidableEq α] [DecidableEq β] {a : α} {b : β} (hb : f a = some b) :
    ∀ {l : List α}, (∀ a' ∈ l, f a' = some b → a' = a) →
      (l.erase a).filterMap f = (l.filterMap f).erase b
  | [], _ => rfl
  | x :: l, h => by
    rw [forall_mem_cons] at h
    by_cases hx : x = a
    · subst hx
      rw [erase_cons_head, filterMap_cons_some hb, erase_cons_head]
    · rw [erase_cons_tail (by simpa using hx)]
      cases hfx : f x with
      | none => rw [filterMap_cons_none hfx, filterMap_cons_none hfx,
        filterMap_erase hb h.2]
      | some c =>
        have hc : c ≠ b := fun hcb => hx (h.1 (hcb ▸ hfx))
        rw [filterMap_cons_some hfx, filterMap_cons_some hfx,
          erase_cons_tail (by simpa using hc), filterMap_erase hb h.2]

end filterMap

/-! ### Moving to the front -/

theorem Ok.touch (h : s.Ok) (id : Nat) : (s.touch id).Ok := by
  unfold Lru.touch
  split
  · next hid =>
    have hmem : ∀ id', id' ∈ id :: s.order.erase id ↔ id' ∈ s.order := by
      intro id'
      by_cases hsame : id' = id
      · simp [hsame, hid]
      · simp [hsame]
    refine ⟨?_, fun id' hid' => h.known id' ((hmem id').mp hid'), fun k id' => ?_⟩
    · rw [nodup_cons]
      exact ⟨h.nodup.not_mem_erase, h.nodup.erase id⟩
    · rw [hmem]
      exact h.listed k id'
  · exact h

theorem Ok.keys_touch (h : s.Ok) (hid : id ∈ s.order) (hkey : s.keyOf id = some k) :
    (s.touch id).keys = k :: s.keys.erase k := by
  have herase : (s.order.erase id).filterMap s.keyOf = s.keys.erase k :=
    filterMap_erase hkey fun id' hid' hkey' => h.keyOf_inj hid' hid hkey' hkey
  show (if id ∈ s.order then id :: s.order.erase id else s.order).filterMap s.keyOf = _
  rw [if_pos hid, filterMap_cons_some hkey, herase]

/-! ### Taking off the back -/

theorem Ok.evictBack (h : s.Ok) : s.evictBack.Ok := by
  unfold Lru.evictBack
  cases hlast : s.order.getLast? with
  | none => exact h
  | some last =>
    obtain ⟨order, horder⟩ := getLast?_eq_some_iff.mp hlast
    have hdrop : s.order.dropLast = order := by rw [horder, dropLast_concat]
    have hlastmem : last ∈ s.order := by rw [horder]; simp
    obtain ⟨key, hkey⟩ := h.exists_key hlastmem
    have hnodup := h.nodup
    rw [horder, nodup_append] at hnodup
    have hnot : last ∉ order := fun hmem => hnodup.2.2 last hmem last (by simp) rfl
    simp only [hkey]
    rw [hdrop]
    refine ⟨hnodup.1, fun id hid => h.known id (by rw [horder]; simp [hid]), fun k id => ?_⟩
    by_cases hk : k = key
    · subst hk
      refine iff_of_false (by simp) ?_
      rintro ⟨hid, hidkey⟩
      have hsame := h.keyOf_inj (by rw [horder]; simp [hid]) hlastmem hidkey hkey
      exact hnot (hsame ▸ hid)
    · rw [AList.lookup_erase_ne hk, h.listed k id, horder, mem_append, mem_singleton]
      constructor
      · rintro ⟨hid | rfl, hidkey⟩
        · exact ⟨hid, hidkey⟩
        · exact absurd (Option.some.inj (hidkey.symm.trans hkey)) hk
      · exact fun ⟨hid, hidkey⟩ => ⟨.inl hid, hidkey⟩

theorem order_evictBack (s : Lru κ ν) : s.evictBack.order = s.order.dropLast := by
  unfold Lru.evictBack
  cases hlast : s.order.getLast? with
  | none => simp [getLast?_eq_none_iff.mp hlast]
  | some id => rfl

theorem cells_evictBack (s : Lru κ ν) : s.evictBack.cells = s.cells := by
  unfold Lru.evictBack
  cases s.order.getLast? <;> rfl

theorem Ok.evict (cap : Nat) : ∀ (rounds : Nat) {s : Lru κ ν}, s.Ok → (s.evict cap rounds).Ok
  | 0, _, h => h
  | rounds + 1, s, h => by
    unfold Lru.evict
    split
    · exact Ok.evict cap rounds h.evictBack
    · exact h

theorem cells_evict (cap : Nat) : ∀ (rounds : Nat) (s : Lru κ ν),
    (s.evict cap rounds).cells = s.cells
  | 0, _ => rfl
  | rounds + 1, s => by
    unfold Lru.evict
    split
    · rw [cells_evict cap rounds, cells_evictBack]
    · rfl

theorem order_evict (cap : Nat) : ∀ (rounds : Nat) (s : Lru κ ν),
    s.order.length ≤ rounds + cap → (s.evict cap rounds).order = s.order.take cap
  | 0, s, h => by
    rw [take_of_length_le (by omega)]
    rfl
  | rounds + 1, s, h => by
    unfold Lru.evict
    split
    · next hlong =>
      rw [order_evict cap rounds, order_evictBack, dropLast_eq_take, take_take,
        Nat.min_eq_left (by omega)]
      rw [order_evictBack, length_dropLast]
      omega
    · rw [take_of_length_le (by omega)]

/-! ### A new element -/

def push (s : Lru κ ν) (k : κ) (fresh : ν) : Lru κ ν :=
  ⟨s.byKey.insert k s.cells.length, s.cells.length :: s.order, s.cells ++ [(k, fresh)]⟩

omit [DecidableEq κ] in
theorem keyOf_append (hid : id < s.cells.length) (byKey : GoMap κ Nat) (order : List Nat)
    (e : κ × ν) : (Lru.mk byKey order (s.cells ++ [e])).keyOf id = s.keyOf id := by
  unfold keyOf
  rw [getElem?_append_left hid]

theorem keyOf_push_self (s : Lru κ ν) (k : κ) (fresh : ν) :
    (s.push k fresh).keyOf s.cells.length = some k := by
  unfold keyOf push
  rw [getElem?_concat_length]
  rfl

theorem Ok.push (h : s.Ok) (hk : s.byKey.lookup k = none) (fresh : ν) : (s.push k fresh).Ok := by
  have hnew : s.cells.length ∉ s.order := fun hmem => Nat.lt_irrefl _ (h.known _ hmem)
  refine ⟨nodup_cons.mpr ⟨hnew, h.nodup⟩, fun id hid => ?_, fun k' id => ?_⟩
  · show id < (s.cells ++ [(k, fresh)]).length
    rw [length_append, length_singleton]
    rcases mem_cons.mp hid with rfl | hid
    · omega
    · have := h.known id hid
      omega
  · show (s.byKey.insert k s.cells.length).lookup k' = some id ↔
      id ∈ s.cells.length :: s.order ∧ (s.push k fresh).keyOf id = some k'
    rw [GoMap.lookup_insert_eq]
    by_cases hid : id = s.cells.length
    · subst hid
      rw [keyOf_push_self]
      by_cases hkk : k' = k
      · simp [hkk]
      · rw [if_neg hkk]
        refine iff_of_false (fun hlook => hnew ((h.listed k' _).mp hlook).1) ?_
        rintro ⟨-, hkey⟩
        exact hkk (Option.some.inj hkey).symm
    · by_cases hmem : id ∈ s.order
      · rw [show (s.push k fresh).keyOf id = s.keyOf id from keyOf_append (h.known id hmem) ..]
        by_cases hkk : k' = k
        · subst hkk
          rw [if_pos rfl]
          refine iff_of_false (fun hsame => hid (Option.some.inj hsame).symm) ?_
          rintro ⟨-, hkey⟩
          rw [(h.listed k' id).mpr ⟨hmem, hkey⟩] at hk
          cases hk
        · rw [if_neg hkk, h.listed k' id]
          simp [hid]
      · refine iff_of_false (fun hlook => ?_) (by simp [hid, hmem])
        split at hlook
        · exact hid (Option.some.inj hlook).symm
        · exact hmem ((h.listed k' id).mp hlook).1

theorem Ok.keys_push (h : s.Ok) (k : κ) (fresh : ν) : (s.push k fresh).keys = k :: s.keys := by
  show (s.cells.length :: s.order).filterMap (s.push k fresh).keyOf = _
  rw [filterMap_cons_some (keyOf_push_self s k fresh)]
  congr 1
  exact filterMap_congr fun id hid => keyOf_append (h.known id hid) ..

/-! ### Get or create -/

theorem getOrCreate_of_some (h : s.byKey.lookup k = some id) (cap : Nat) (fresh : ν) :
    s.getOrCreate cap k fresh = (s.touch id, id) := by
  unfold getOrCreate
  rw [h]

theorem getOrCreate_of_none (h : s.byKey.lookup k = none) (cap : Nat) (fresh : ν) :
    s.getOrCreate cap k fresh =
      ((s.push k fresh).evict cap (s.push k fresh).order.length, s.cells.length) := by
  unfold getOrCreate
  rw [h]
  rfl

theorem Ok.getOrCreate (h : s.Ok) (cap : Nat) (k : κ) (fresh : ν) :
    (s.getOrCreate cap k fresh).1.Ok := by
  cases hk : s.byKey.lookup k with
  | some id =>
    rw [getOrCreate_of_some hk]
    exact h.touch id
  | none =>
    rw [getOrCreate_of_none hk]
    exact (h.push hk fresh).evict cap _

/-- **The keys after a use.** -/
theorem Ok.keys_getOrCreate (h : s.Ok) {cap : Nat} (hcap : s.order.length ≤ cap) (k : κ)
    (fresh : ν) : (s.getOrCreate cap k fresh).1.keys = use cap k s.keys := by
  cases hk : s.byKey.lookup k with
  | some id =>
    obtain ⟨hid, hkey⟩ := (h.listed k id).mp hk
    rw [getOrCreate_of_some hk, h.keys_touch hid hkey, use, take_of_length_le]
    rw [length_cons, length_erase_of_mem (mem_keys.mpr ⟨id, hid, hkey⟩), h.length_keys]
    have := length_pos_of_mem hid
    omega
  | none =>
    have hnew : k ∉ s.keys := by
      rw [h.mem_keys_iff]
      rintro ⟨id, hid⟩
      rw [hk] at hid
      cases hid
    have hpush := h.push hk fresh
    rw [getOrCreate_of_none hk]
    show ((s.push k fresh).evict cap (s.push k fresh).order.length).order.filterMap _ = _
    have hkeyOf : ((s.push k fresh).evict cap (s.push k fresh).order.length).keyOf =
        (s.push k fresh).keyOf := by
      unfold keyOf
      rw [cells_evict]
    rw [hkeyOf, order_evict cap _ _ (by omega), filterMap_take _ hpush.isSome_keyOf]
    show (s.push k fresh).keys.take cap = _
    rw [h.keys_push, use, erase_of_not_mem hnew]

/-! ### What the keys hold -/

omit [DecidableEq κ] in
@[simp] theorem keyOf_modify (s : Lru κ ν) (id id' : Nat) (f : ν → ν) :
    (s.modify id f).keyOf id' = s.keyOf id' := by
  unfold keyOf modify
  rw [getElem?_modify]
  cases s.cells[id']? with
  | none => rfl
  | some e => by_cases h : id = id' <;> simp [h]

omit [DecidableEq κ] in
@[simp] theorem keys_modify (s : Lru κ ν) (id : Nat) (f : ν → ν) :
    (s.modify id f).keys = s.keys := by
  exact filterMap_congr fun id' _ => keyOf_modify s id id' f

theorem Ok.modify (h : s.Ok) (id : Nat) (f : ν → ν) : (s.modify id f).Ok := by
  refine ⟨h.nodup, fun id' hid' => ?_, fun k id' => ?_⟩
  · show id' < (s.cells.modify id _).length
    rw [length_modify]
    exact h.known id' hid'
  · rw [keyOf_modify]
    exact h.listed k id'

theorem find_eq_some {v : ν} :
    s.find k = some v ↔ ∃ id, s.byKey.lookup k = some id ∧ ∃ k', s.cells[id]? = some (k', v) := by
  unfold find
  simp only [Option.bind_eq_bind, Option.bind_eq_some_iff, Option.pure_def, Option.some.injEq]
  constructor
  · rintro ⟨id, hid, ⟨k', v'⟩, hcell, rfl⟩
    exact ⟨id, hid, k', hcell⟩
  · rintro ⟨id, hid, k', hcell⟩
    exact ⟨id, hid, (k', v), hcell, rfl⟩

theorem find_of_lookup (h : s.byKey.lookup k = some id) :
    s.find k = s.cells[id]?.map Prod.snd := by
  unfold find
  rw [h]
  cases hcell : s.cells[id]? <;> simp [hcell]

theorem find_eq_none_of_lookup (h : s.byKey.lookup k = none) : s.find k = none := by
  unfold find
  rw [h]
  rfl

theorem find_congr {s' : Lru κ ν} (hlook : s'.byKey.lookup k = s.byKey.lookup k)
    (hcell : ∀ id, s.byKey.lookup k = some id → s'.cells[id]? = s.cells[id]?) :
    s'.find k = s.find k := by
  unfold find
  rw [hlook]
  cases hid : s.byKey.lookup k with
  | none => rfl
  | some id => simp only [Option.bind_eq_bind, Option.bind_some, hcell id hid]

theorem find_touch (s : Lru κ ν) (id : Nat) (k : κ) : (s.touch id).find k = s.find k := rfl

theorem Ok.getOrCreate_self (h : s.Ok) {cap : Nat} (hcap : 0 < cap) (k : κ) (fresh : ν) :
    (s.getOrCreate cap k fresh).1.byKey.lookup k = some (s.getOrCreate cap k fresh).2 ∧
      (s.getOrCreate cap k fresh).1.cells[(s.getOrCreate cap k fresh).2]? =
        some (k, (s.find k).getD fresh) := by
  cases hk : s.byKey.lookup k with
  | some id =>
    obtain ⟨v, hv⟩ := keyOf_eq_some.mp ((h.listed k id).mp hk).2
    have hfind := find_eq_some.mpr ⟨id, hk, k, hv⟩
    rw [getOrCreate_of_some hk, hfind]
    exact ⟨hk, hv⟩
  | none =>
    have hok := (h.push hk fresh).evict cap (s.push k fresh).order.length
    rw [getOrCreate_of_none hk, find_eq_none_of_lookup hk]
    refine ⟨(hok.listed _ _).mpr ⟨?_, ?_⟩, ?_⟩
    · -- The new element is at the front, so it is not taken off.
      obtain ⟨n, rfl⟩ := Nat.exists_eq_add_one.mpr hcap
      rw [order_evict _ _ _ (by omega)]
      exact mem_cons_self
    · unfold keyOf
      rw [cells_evict]
      exact keyOf_push_self s k fresh
    · rw [cells_evict]
      exact getElem?_concat_length

theorem Ok.find_getOrCreate_of_ne (h : s.Ok) (cap : Nat) {k k' : κ} (hne : k' ≠ k) (fresh : ν) :
    (s.getOrCreate cap k fresh).1.find k' =
      if k' ∈ (s.getOrCreate cap k fresh).1.keys then s.find k' else none := by
  have hok := h.getOrCreate cap k fresh
  split
  · next hmem =>
    obtain ⟨id, hid⟩ := hok.mem_keys_iff.mp hmem
    have hin := (hok.listed k' id).mp hid
    cases hk : s.byKey.lookup k with
    | some id' =>
      rw [getOrCreate_of_some hk]
      exact find_touch s id' k'
    | none =>
      rw [getOrCreate_of_none hk] at hid hin ⊢
      rw [order_evict cap _ _ (by omega)] at hin
      have hpush : (s.push k fresh).keyOf id = some k' := by
        rw [← hin.2]
        unfold keyOf
        rw [cells_evict]
      have hlook := ((h.push hk fresh).listed k' id).mpr ⟨mem_of_mem_take hin.1, hpush⟩
      have hold : s.byKey.lookup k' = some id := by
        rwa [show (s.push k fresh).byKey.lookup k' = s.byKey.lookup k' from
          AList.lookup_insert_ne hne] at hlook
      refine find_congr (hid.trans hold.symm) fun id' hid' => ?_
      rw [hold] at hid'
      cases hid'
      rw [cells_evict]
      exact getElem?_append_left (h.known id ((h.listed k' id).mp hold).1)
  · next hmem =>
    refine find_eq_none_of_lookup ?_
    cases hlook : (s.getOrCreate cap k fresh).1.byKey.lookup k' with
    | none => rfl
    | some id => exact absurd (hok.mem_keys_iff.mpr ⟨id, hlook⟩) hmem

theorem find_modify_self {v : ν} (hid : s.byKey.lookup k = some id)
    (hcell : s.cells[id]? = some (k, v)) (f : ν → ν) : (s.modify id f).find k = some (f v) := by
  refine find_eq_some.mpr ⟨id, hid, k, ?_⟩
  show (s.cells.modify id _)[id]? = _
  rw [getElem?_modify, hcell]
  simp

theorem Ok.find_modify_of_ne (h : s.Ok) {k' : κ} (hne : k' ≠ k) (hid : s.byKey.lookup k = some id)
    (f : ν → ν) : (s.modify id f).find k' = s.find k' := by
  refine find_congr rfl fun id' hid' => ?_
  have hne' : id ≠ id' := by
    rintro rfl
    have hkey := ((h.listed k id).mp hid).2
    rw [((h.listed k' id).mp hid').2] at hkey
    exact hne (Option.some.inj hkey)
  show (s.cells.modify id _)[id']? = _
  rw [getElem?_modify]
  cases s.cells[id']? with
  | none => rfl
  | some e => simp [hne']

end Lru

end Kseal.Infra
