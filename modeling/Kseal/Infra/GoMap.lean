import Mathlib.Algebra.GroupWithZero.Nat
import Mathlib.Data.List.AList
import Mathlib.Data.List.Induction

/-!
# Maps

A map is a list of entries without repeated keys; the list is some order of iteration.

* `lastOf_map` — a loop that keeps the last value with a property, after values without it changed
-/

namespace Kseal.Infra

open List AList

abbrev GoMap (κ α : Type) := AList fun _ : κ => α

namespace GoMap

variable {κ κ' α β : Type}

def pairs (m : GoMap κ α) : List (κ × α) := m.entries.map fun e => (e.1, e.2)

def mapValues (f : κ → α → β) (m : GoMap κ α) : GoMap κ β where
  entries := m.entries.map (Sigma.map id f)
  nodupKeys := m.nodupKeys.map₂ f

def rekey [DecidableEq κ'] (read : κ → Option κ') (m : GoMap κ α) : GoMap κ' α :=
  m.pairs.foldl (fun out e =>
    match read e.1 with
    | some k => out.insert k e.2
    | none => out) ∅

def lastRead [DecidableEq κ'] (read : κ → Option κ') (m : GoMap κ α) (k : κ') : Option α :=
  (m.pairs.reverse.find? fun e => read e.1 = some k).map Prod.snd

variable [DecidableEq κ]

def prune (keep : α → Bool) (m : GoMap κ α) : GoMap κ α :=
  m.pairs.foldl (fun out e => if keep e.2 then out else out.erase e.1) m

theorem mem_pairs {m : GoMap κ α} {k : κ} {v : α} : (k, v) ∈ m.pairs ↔ m.lookup k = some v := by
  rw [← Option.mem_def, mem_lookup_iff, pairs, mem_map]
  constructor
  · rintro ⟨e, he, heq⟩
    cases heq
    exact he
  · exact fun h => ⟨⟨k, v⟩, h, rfl⟩

theorem mem_of_lookup {m : GoMap κ α} {k : κ} {v : α} (h : m.lookup k = some v) : k ∈ m :=
  lookup_isSome.mp (by rw [h]; rfl)

theorem value_unique {m : GoMap κ α} {k k' : κ} {v v' : α} (h : m.lookup k = some v)
    (h' : m.lookup k' = some v') (hkey : k = k') : v = v' := by
  rw [hkey, h'] at h
  exact (Option.some.inj h).symm

theorem lookup_insert_eq (m : GoMap κ α) (k k' : κ) (v : α) :
    (m.insert k v).lookup k' = if k' = k then some v else m.lookup k' := by
  split
  · next h =>
    rw [h]
    exact lookup_insert m
  · next h => exact lookup_insert_ne h

def writeAll (m : GoMap κ α) (es : List (κ × α)) : GoMap κ α :=
  es.foldl (fun out e => out.insert e.1 e.2) m

theorem writeAll_append (m : GoMap κ α) (es es' : List (κ × α)) :
    m.writeAll (es ++ es') = (m.writeAll es).writeAll es' :=
  foldl_append

theorem lookup_writeAll_of_mem {es : List (κ × α)} {e : κ × α} (he : e ∈ es) (m : GoMap κ α) :
    ∃ e' ∈ es, e'.1 = e.1 ∧ (m.writeAll es).lookup e.1 = some e'.2 := by
  induction es using List.reverseRecOn with
  | nil => cases he
  | append_singleton es last ih =>
    rw [writeAll_append]
    show ∃ e' ∈ es ++ [last], e'.1 = e.1 ∧
      (AList.insert last.1 last.2 (m.writeAll es)).lookup e.1 = some e'.2
    rw [lookup_insert_eq]
    by_cases hkey : e.1 = last.1
    · exact ⟨last, by simp, hkey.symm, if_pos hkey⟩
    · have hmem : e ∈ es := by
        rcases mem_append.mp he with he | he
        · exact he
        · exact absurd (congrArg Prod.fst (mem_singleton.mp he)) hkey
      obtain ⟨e', he', hsame, hlook⟩ := ih hmem
      exact ⟨e', by simp [he'], hsame, by rw [if_neg hkey, hlook]⟩

theorem lookup_writeAll_of_notMem {es : List (κ × α)} {k : κ} (hk : ∀ e ∈ es, e.1 ≠ k)
    (m : GoMap κ α) : (m.writeAll es).lookup k = m.lookup k := by
  induction es generalizing m with
  | nil => rfl
  | cons e es ih =>
    rw [forall_mem_cons] at hk
    rw [writeAll, foldl_cons, ← writeAll, ih hk.2, lookup_insert_ne hk.1.symm]

/-- **Everything can be read back if and only if no key was written with two values.** -/
theorem lookup_writeAll_iff {m : GoMap κ α} {es : List (κ × α)} :
    (∀ e ∈ es, (m.writeAll es).lookup e.1 = some e.2) ↔
      ∀ e ∈ es, ∀ e' ∈ es, e.1 = e'.1 → e.2 = e'.2 := by
  constructor
  · intro h e he e' he' hkey
    have hlook := h e he
    rw [hkey, h e' he'] at hlook
    exact (Option.some.inj hlook).symm
  · intro h e he
    obtain ⟨e', he', hkey, hlook⟩ := lookup_writeAll_of_mem he m
    rw [hlook, h e he e' he' hkey.symm]

theorem lookup_writeAll_empty {es : List (κ × α)}
    (h : ∀ e ∈ es, ∀ e' ∈ es, e.1 = e'.1 → e.2 = e'.2) {k : κ} {v : α} :
    ((∅ : GoMap κ α).writeAll es).lookup k = some v ↔ (k, v) ∈ es := by
  constructor
  · intro hlook
    by_cases hk : ∀ e ∈ es, e.1 ≠ k
    · rw [lookup_writeAll_of_notMem hk] at hlook
      cases hlook
    · push Not at hk
      obtain ⟨e, he, rfl⟩ := hk
      rw [lookup_writeAll_iff.mpr h e he] at hlook
      cases hlook
      exact he
  · exact lookup_writeAll_iff.mpr h (k, v)

theorem lookup_writeAll_perm {m : GoMap κ α} {es : List (κ × α)} (h : es.Perm m.pairs) (k : κ) :
    ((∅ : GoMap κ α).writeAll es).lookup k = m.lookup k := by
  have hunique : ∀ e ∈ es, ∀ e' ∈ es, e.1 = e'.1 → e.2 = e'.2 := by
    intro e he e' he' hkey
    exact value_unique (mem_pairs.mp (h.mem_iff.mp he)) (mem_pairs.mp (h.mem_iff.mp he')) hkey
  refine Option.ext fun v => ?_
  rw [lookup_writeAll_empty hunique, h.mem_iff, mem_pairs]

theorem lookup_foldl_erase (keep : α → Bool) (es : List (κ × α)) (m : GoMap κ α) (k : κ) :
    (es.foldl (fun out e => if keep e.2 then out else out.erase e.1) m).lookup k =
      if ∃ e ∈ es, e.1 = k ∧ keep e.2 = false then none else m.lookup k := by
  induction es generalizing m with
  | nil => simp
  | cons e es ih =>
    rw [foldl_cons, ih]
    by_cases hrest : ∃ e ∈ es, e.1 = k ∧ keep e.2 = false
    · obtain ⟨e', he', hk⟩ := hrest
      rw [if_pos ⟨e', he', hk⟩, if_pos ⟨e', mem_cons_of_mem _ he', hk⟩]
    · rw [if_neg hrest]
      simp only [exists_mem_cons_iff, hrest, or_false]
      by_cases hkeep : keep e.2 = true
      · simp [hkeep]
      · rw [if_neg hkeep]
        by_cases hk : e.1 = k
        · rw [if_pos ⟨hk, by simpa using hkeep⟩, hk, lookup_erase]
        · rw [if_neg (fun h => hk h.1), lookup_erase_ne (Ne.symm hk)]

theorem lookup_prune (keep : α → Bool) (m : GoMap κ α) (k : κ) :
    (m.prune keep).lookup k = (m.lookup k).filter keep := by
  rw [prune, lookup_foldl_erase]
  cases hlook : m.lookup k with
  | none => simp
  | some v =>
    have hiff : (∃ e ∈ m.pairs, e.1 = k ∧ keep e.2 = false) ↔ keep v = false := by
      constructor
      · rintro ⟨⟨k', v'⟩, he, rfl, hv⟩
        rw [mem_pairs.mp he] at hlook
        cases hlook
        exact hv
      · exact fun hv => ⟨(k, v), mem_pairs.mpr hlook, rfl, hv⟩
    rw [Option.filter_some]
    by_cases hv : keep v = true
    · rw [if_neg (by rw [hiff, hv]; simp), if_pos hv]
    · rw [if_pos (hiff.mpr (by simpa using hv)), if_neg hv]

theorem lookup_mapValues (f : κ → α → β) (m : GoMap κ α) (k : κ) :
    (m.mapValues f).lookup k = (m.lookup k).map (f k) :=
  dlookup_map₂ k

omit [DecidableEq κ] in
theorem pairs_mapValues (f : κ → α → β) (m : GoMap κ α) :
    (m.mapValues f).pairs = m.pairs.map fun e => (e.1, f e.1 e.2) := by
  simp [pairs, mapValues, Sigma.map]

theorem pairs_insert {m : GoMap κ α} {k : κ} {v : α} (h : m.lookup k = none) :
    pairs (m.insert k v) = (k, v) :: m.pairs := by
  unfold pairs
  rw [entries_insert_of_notMem (lookup_eq_none.mp h)]
  rfl

theorem mapValues_insert (f : α → β) (m : GoMap κ α) (k : κ) (v : α) :
    mapValues (fun _ => f) (m.insert k v) = (mapValues (fun _ => f) m).insert k (f v) := by
  have herase : ∀ es : List (Sigma fun _ : κ => α),
      ((es.kerase k).map fun e => (⟨e.1, f e.2⟩ : Sigma fun _ : κ => β)) =
        (es.map fun e => ⟨e.1, f e.2⟩).kerase k := by
    intro es
    induction es with
    | nil => rfl
    | cons e es ih =>
      by_cases hk : k = e.1
      · simp [hk]
      · simp [hk, ih]
  apply AList.ext
  exact congrArg (List.cons _) (herase m.entries)

theorem sum_pairs (w : α → Nat) (m : GoMap κ α) (k : κ) :
    (m.pairs.map fun e => if e.1 = k then w e.2 else 0).sum = ((m.lookup k).map w).getD 0 := by
  obtain ⟨es, hnodup⟩ := m
  show ((es.map fun e => (e.1, e.2)).map fun e : κ × α => if e.1 = k then w e.2 else 0).sum =
    ((es.dlookup k).map w).getD 0
  rw [map_map]
  induction es with
  | nil => rfl
  | cons e es ih =>
    obtain ⟨hkey, hrest⟩ := nodupKeys_cons.mp hnodup
    rw [map_cons, sum_cons, ih hrest]
    obtain ⟨key, v⟩ := e
    by_cases hk : key = k
    · subst hk
      simp [dlookup_eq_none.mpr hkey]
    · simp [hk, dlookup_cons_ne es ⟨key, v⟩ (Ne.symm hk)]

omit [DecidableEq κ] in
theorem mapValues_mapValues {γ : Type} (f : κ → α → β) (g : κ → β → γ) (m : GoMap κ α) :
    (m.mapValues f).mapValues g = m.mapValues fun k v => g k (f k v) := by
  simp [mapValues, Sigma.map, Function.comp_def]

omit [DecidableEq κ] in
theorem lookup_rekey [DecidableEq κ'] (read : κ → Option κ') (m : GoMap κ α) (k : κ') :
    (m.rekey read).lookup k = m.lastRead read k := by
  unfold rekey lastRead
  -- The last entry is inserted last, and is the first of the reversed list.
  induction m.pairs using List.reverseRecOn with
  | nil => rfl
  | append_singleton es e ih =>
    rw [foldl_append, reverse_append, reverse_singleton, singleton_append,
      find?_cons, foldl_cons]
    by_cases h : read e.1 = some k
    · simp only [h]
      exact lookup_insert _
    · simp only [h, decide_false]
      rw [← ih]
      cases hread : read e.1 with
      | none => rfl
      | some k' =>
        have hne : k ≠ k' := by
          rintro rfl
          exact h hread
        exact lookup_insert_ne hne

variable {k : κ'}

omit [DecidableEq κ] in
theorem lookup_rekey_congr [DecidableEq κ'] {read read' : κ → Option κ'}
    (h : ∀ key, read key = some k ↔ read' key = some k) (m : GoMap κ α) :
    (m.rekey read).lookup k = (m.rekey read').lookup k := by
  rw [lookup_rekey, lookup_rekey, lastRead, lastRead]
  simp only [h]

variable {key : κ}

theorem lastRead_isSome [DecidableEq κ'] {read : κ → Option κ'} {m : GoMap κ α} {v : α}
    (hlook : m.lookup key = some v) (hread : read key = some k) :
    (m.lastRead read k).isSome = true := by
  unfold lastRead
  rw [Option.isSome_map, find?_isSome]
  exact ⟨(key, v), mem_reverse.mpr (mem_pairs.mpr hlook), by simpa using hread⟩

theorem exists_of_lastRead [DecidableEq κ'] {read : κ → Option κ'} {m : GoMap κ α} {v : α}
    (h : m.lastRead read k = some v) : ∃ key, m.lookup key = some v ∧ read key = some k := by
  obtain ⟨e, he, rfl⟩ := Option.map_eq_some_iff.mp h
  exact ⟨e.1, mem_pairs.mp (mem_reverse.mp (mem_of_find?_eq_some he)),
    by simpa using find?_some he⟩

theorem lookup_rekey_of_unique [DecidableEq κ'] {read : κ → Option κ'}
    (h : ∀ key', read key' = some k ↔ key' = key) (m : GoMap κ α) :
    (m.rekey read).lookup k = m.lookup key := by
  rw [lookup_rekey]
  refine Option.ext fun v => ?_
  constructor
  · intro hv
    obtain ⟨key', hlook, hread⟩ := exists_of_lastRead hv
    rwa [(h key').mp hread] at hlook
  · intro hlook
    obtain ⟨v', hv'⟩ := Option.isSome_iff_exists.mp (lastRead_isSome hlook ((h key).mpr rfl))
    obtain ⟨key', hlook', hread⟩ := exists_of_lastRead hv'
    rw [hv', value_unique hlook' hlook ((h key').mp hread)]

/-! ### Other orders of iteration -/

section order

variable [DecidableEq κ'] {read : κ → Option κ'} {m m' : GoMap κ α}

def Unambiguous (read : κ → Option κ') (m : GoMap κ α) : Prop :=
  ∀ e ∈ m.pairs, ∀ e' ∈ m.pairs, (read e.1).isSome = true → read e.1 = read e'.1 → e.2 = e'.2

omit [DecidableEq κ] in
instance [DecidableEq α] (read : κ → Option κ') (m : GoMap κ α) : Decidable (Unambiguous read m) :=
  inferInstanceAs (Decidable (∀ e ∈ m.pairs, ∀ e' ∈ m.pairs, _ → _ → _))

omit [DecidableEq κ'] in
theorem unambiguous_of_injective
    (h : ∀ key key' k, key ∈ m → key' ∈ m → read key = some k → read key' = some k → key = key') :
    Unambiguous read m := by
  rintro ⟨key, v⟩ he ⟨key', v'⟩ he' hsome hread
  obtain ⟨k, hk⟩ := Option.isSome_iff_exists.mp hsome
  have hlook := mem_pairs.mp he
  have hlook' := mem_pairs.mp he'
  exact value_unique hlook hlook' (h key key' k (mem_of_lookup hlook) (mem_of_lookup hlook') hk
    (hread.symm.trans hk))

theorem lookup_rekey_of_unambiguous (h : Unambiguous read m) {v : α} (hlook : m.lookup key = some v)
    (hread : read key = some k) :
    (m.rekey read).lookup k = some v := by
  rw [lookup_rekey]
  obtain ⟨v', hv'⟩ := Option.isSome_iff_exists.mp (lastRead_isSome hlook hread)
  obtain ⟨key', hlook', hread'⟩ := exists_of_lastRead hv'
  rw [hv']
  exact congrArg some (h (key', v') (mem_pairs.mpr hlook') (key, v) (mem_pairs.mpr hlook)
    (by rw [hread', Option.isSome_some]) (hread'.trans hread.symm))

omit [DecidableEq κ'] in
theorem Unambiguous.congr (h : Unambiguous read m) (hsame : ∀ key, m'.lookup key = m.lookup key) :
    Unambiguous read m' := by
  have hmem : ∀ e ∈ m'.pairs, e ∈ m.pairs := fun e he =>
    mem_pairs.mpr ((hsame e.1).symm.trans (mem_pairs.mp he))
  exact fun e he e' he' => h e (hmem e he) e' (hmem e' he')

theorem lookup_rekey_eq_some_iff (h : Unambiguous read m) {v : α} :
    (m.rekey read).lookup k = some v ↔ ∃ key, m.lookup key = some v ∧ read key = some k := by
  constructor
  · intro hk
    rw [lookup_rekey] at hk
    exact exists_of_lastRead hk
  · rintro ⟨key, hlook, hread⟩
    exact lookup_rekey_of_unambiguous h hlook hread

theorem lookup_rekey_ext (h : Unambiguous read m) (hsame : ∀ key, m'.lookup key = m.lookup key)
    (k : κ') : (m'.rekey read).lookup k = (m.rekey read).lookup k := by
  refine Option.ext fun v => ?_
  rw [lookup_rekey_eq_some_iff (h.congr hsame), lookup_rekey_eq_some_iff h]
  simp only [hsame]

theorem lookup_rekey_perm (h : Unambiguous read m) (hperm : m'.entries.Perm m.entries) (k : κ') :
    (m'.rekey read).lookup k = (m.rekey read).lookup k :=
  lookup_rekey_ext h (fun _ => perm_lookup hperm) k

theorem exists_order {v : α} (hlook : m.lookup key = some v) (hread : read key = some k) :
    ∃ m' : GoMap κ α, m'.entries.Perm m.entries ∧ (m'.rekey read).lookup k = some v := by
  obtain ⟨before, after, hsplit⟩ := append_of_mem (mem_lookup_iff.mp hlook)
  have hperm : (before ++ after ++ [Sigma.mk key v]).Perm m.entries := by
    rw [hsplit, append_assoc]
    exact (perm_append_singleton _ _).append_left before
  have hnodup := (perm_nodupKeys hperm).mpr m.nodupKeys
  refine ⟨⟨_, hnodup⟩, hperm, ?_⟩
  rw [lookup_rekey, lastRead, pairs, map_append]
  simp [hread]

/-- **All orders fill the same map if and only if no two keys read alike have different values.** -/
theorem rekey_perm_iff {out : GoMap κ' α} (hout : ∃ m' : GoMap κ α, m'.entries.Perm m.entries ∧
      out = m'.rekey read) :
    (∀ m' : GoMap κ α, m'.entries.Perm m.entries →
        ∀ k, out.lookup k = (m'.rekey read).lookup k) ↔ Unambiguous read m := by
  constructor
  · rintro hall ⟨key, v⟩ he ⟨key', v'⟩ he' hsome hread
    obtain ⟨k, hk⟩ := Option.isSome_iff_exists.mp hsome
    obtain ⟨m₁, hm₁, hv⟩ := exists_order (mem_pairs.mp he) hk
    obtain ⟨m₂, hm₂, hv'⟩ := exists_order (mem_pairs.mp he') (hread.symm.trans hk)
    rw [← hall m₁ hm₁] at hv
    rw [← hall m₂ hm₂, hv] at hv'
    exact Option.some.inj hv'
  · intro h m₁ hm₁ k
    obtain ⟨m₂, hm₂, rfl⟩ := hout
    rw [lookup_rekey_perm h hm₁, lookup_rekey_perm h hm₂]

end order

/-! ### Counting -/

def incr (m : GoMap κ Nat) (k : κ) : GoMap κ Nat := m.insert k ((m.lookup k).getD 0 + 1)

def tally (ks : List κ) : GoMap κ Nat := ks.foldl incr ∅

def total (m : GoMap κ Nat) : Nat := (m.pairs.map Prod.snd).sum

theorem lookup_tally (ks : List κ) (k : κ) :
    (tally ks).lookup k = if ks.count k = 0 then none else some (ks.count k) := by
  unfold tally
  induction ks using List.reverseRecOn with
  | nil => rfl
  | append_singleton ks k' ih =>
    rw [foldl_append, foldl_cons, foldl_nil, incr, lookup_insert_eq,
      count_append]
    by_cases hk : k = k'
    · subst hk
      rw [ih]
      by_cases hz : ks.count k = 0
      · simp [hz]
      · simp [hz]
    · rw [if_neg hk, ih]
      simp [Ne.symm hk]

theorem count_tally (ks : List κ) (k : κ) : ((tally ks).lookup k).getD 0 = ks.count k := by
  rw [lookup_tally]
  split
  · next h => rw [h, Option.getD_none]
  · rfl

theorem total_insert (m : GoMap κ Nat) (k : κ) (v : Nat) :
    total (m.insert k v) + (m.lookup k).getD 0 = total m + v := by
  -- Inserting puts the entry in front and takes the old one away.
  have herase : ∀ es : List (Sigma fun _ : κ => Nat),
      ((es.kerase k).map Sigma.snd).sum + (es.dlookup k).getD 0 = (es.map Sigma.snd).sum := by
    intro es
    induction es with
    | nil => rfl
    | cons e es ih =>
      obtain ⟨key, n⟩ := e
      by_cases hk : k = key
      · subst hk
        simp [Nat.add_comm]
      · rw [kerase_cons_ne hk, dlookup_cons_ne es ⟨key, n⟩ hk, map_cons,
          map_cons, sum_cons, sum_cons]
        omega
  have hentries : ∀ m : GoMap κ Nat, total m = (m.entries.map Sigma.snd).sum := by
    intro m
    rw [total, pairs, map_map]
    rfl
  have hold := herase m.entries
  rw [hentries, hentries, entries_insert, map_cons, sum_cons]
  show v + _ + (m.entries.dlookup k).getD 0 = _
  omega

theorem total_tally (ks : List κ) : total (tally ks) = ks.length := by
  unfold tally
  induction ks using List.reverseRecOn with
  | nil => rfl
  | append_singleton ks k ih =>
    rw [foldl_append, foldl_cons, foldl_nil, incr, length_append,
      length_singleton]
    have h := total_insert (ks.foldl incr ∅) k (((ks.foldl incr ∅).lookup k).getD 0 + 1)
    omega

end GoMap

/-! ## The last value with a property -/

section lastOf

variable {κ α : Type} {p : α → Bool} {es : List (κ × α)}

def lastOf (p : α → Bool) (es : List (κ × α)) : Option α :=
  (es.reverse.find? fun e => p e.2).map Prod.snd

@[simp] theorem lastOf_nil : lastOf p ([] : List (κ × α)) = none := rfl

theorem lastOf_cons (e : κ × α) :
    lastOf p (e :: es) = (lastOf p es).or (if p e.2 then some e.2 else none) := by
  unfold lastOf
  rw [reverse_cons, find?_append, find?_singleton, Option.map_or]
  cases p e.2 <;> rfl

theorem mem_of_lastOf {v : α} (h : lastOf p es = some v) : (∃ k, (k, v) ∈ es) ∧ p v = true := by
  obtain ⟨e, he, rfl⟩ := Option.map_eq_some_iff.mp h
  have hp := find?_some he
  exact ⟨⟨e.1, mem_reverse.mp (mem_of_find?_eq_some he)⟩, hp⟩

theorem lastOf_isSome (h : ∃ e ∈ es, p e.2 = true) : ∃ v, lastOf p es = some v := by
  obtain ⟨e, he, hp⟩ := h
  cases hv : lastOf p es with
  | some v => exact ⟨v, rfl⟩
  | none =>
    have hnone := find?_eq_none.mp (Option.map_eq_none_iff.mp hv) e (mem_reverse.mpr he)
    exact absurd hp hnone

theorem lastOf_eq_none (h : ∀ e ∈ es, p e.2 = false) : lastOf p es = none := by
  cases hv : lastOf p es with
  | none => rfl
  | some v =>
    obtain ⟨⟨k, hmem⟩, hp⟩ := mem_of_lastOf hv
    rw [h _ hmem] at hp
    cases hp

theorem lastOf_eq_some {v : α} (hex : ∃ e ∈ es, p e.2 = true)
    (huniq : ∀ e ∈ es, p e.2 = true → e.2 = v) : lastOf p es = some v := by
  obtain ⟨u, hu⟩ := lastOf_isSome hex
  obtain ⟨⟨k, hmem⟩, hp⟩ := mem_of_lastOf hu
  rw [hu, ← huniq _ hmem hp]

theorem lastOf_map {f : κ → α → α} (hp : ∀ e ∈ es, p (f e.1 e.2) = p e.2)
    (hf : ∀ e ∈ es, p e.2 = true → f e.1 e.2 = e.2) :
    lastOf p (es.map fun e => (e.1, f e.1 e.2)) = lastOf p es := by
  induction es with
  | nil => rfl
  | cons e es ih =>
    rw [forall_mem_cons] at hp hf
    rw [map_cons, lastOf_cons, lastOf_cons, ih hp.2 hf.2, hp.1]
    by_cases he : p e.2 = true
    · rw [if_pos he, if_pos he, hf.1 he]
    · rw [if_neg he, if_neg he]

end lastOf

end Kseal.Infra
