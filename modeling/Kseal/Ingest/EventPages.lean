import Mathlib.Data.List.Lex
import Mathlib.Data.Prod.Lex
import Kseal.Infra.Base64
import Kseal.Infra.Decimal
import Kseal.Infra.Keyset
import Kseal.Ingest.EventCodec

/-!
# Pages of stored events (`ingest/writer.go`)

Latest time bucket first, greatest id first in a bucket. The cursor of a page is the pair of its
last event, in base64. Texts are byte strings and are compared byte by byte (`pages_exact`).
-/

namespace Kseal.Ingest

open Infra List

/-! ## Queries -/

structure Query where
  tenantID : Bytes
  appID : Bytes
  eventTypes : List Int32
  riskLevels : List Int32
  policyHash : Bytes
  fromTime : Int64
  toTime : Int64
deriving DecidableEq

def Query.matches (q : Query) (e : StoredEvent) : Bool :=
  if q.tenantID ≠ [] ∧ e.tenantID ≠ q.tenantID then false
  else if q.appID ≠ [] ∧ e.appID ≠ q.appID then false
  else if q.policyHash ≠ [] ∧ e.policyHash ≠ q.policyHash then false
  else if q.fromTime ≠ 0 ∧ e.timeBucket < q.fromTime then false
  else if q.toTime ≠ 0 ∧ e.timeBucket > q.toTime then false
  else if q.eventTypes.length > 0 ∧ ¬ q.eventTypes.any (e.eventType = ·) then false
  else if q.riskLevels.length > 0 ∧ ¬ q.riskLevels.any (e.riskLevel = ·) then false
  else true

theorem Query.matches_iff (q : Query) (e : StoredEvent) :
    q.matches e = true ↔
      (q.tenantID = [] ∨ e.tenantID = q.tenantID) ∧ (q.appID = [] ∨ e.appID = q.appID) ∧
      (q.policyHash = [] ∨ e.policyHash = q.policyHash) ∧
      (q.fromTime = 0 ∨ ¬ e.timeBucket < q.fromTime) ∧
      (q.toTime = 0 ∨ ¬ q.toTime < e.timeBucket) ∧
      (q.eventTypes = [] ∨ e.eventType ∈ q.eventTypes) ∧
      (q.riskLevels = [] ∨ e.riskLevel ∈ q.riskLevels) := by
  have hlist : ∀ (xs : List Int32) (x : Int32),
      ¬ (xs.length > 0 ∧ ¬ xs.any (x = ·) = true) ↔ xs = [] ∨ x ∈ xs := by
    intro xs x
    rw [not_and_or, gt_iff_lt]
    simp
  unfold Query.matches
  simp

def count (events : List StoredEvent) (q : Query) : Nat := events.countP q.matches

/-! ## Cursors -/

inductive CursorError where
  | corruptInput
  /-- `errBadCursor`, "invalid page cursor"; the texts of the others are those of the library. -/
  | badCursor
  | parseInt
deriving Repr, DecidableEq

def cursorSeparator : UInt8 := 58

def encodeCursor (tb : Int64) (id : Bytes) : Bytes :=
  rawURLEncode (ascii tb.toInt.repr ++ cursorSeparator :: id)

def decodeCursor (cursor : Bytes) : Except CursorError (Option (Int64 × Bytes)) :=
  if cursor = [] then .ok none
  else
    match rawURLDecode cursor with
    | none => .error .corruptInput
    | some raw =>
      -- `strings.SplitN(raw, ":", 2)`
      match raw.dropWhile (· ≠ cursorSeparator) with
      | [] => .error .badCursor
      | _ :: id =>
        match parseInt64 ((raw.takeWhile (· ≠ cursorSeparator)).map (Char.ofNat ·.toNat)) with
        | none => .error .parseInt
        | some tb => .ok (some (tb, id))

/-! ## Pages -/

structure EventPage where
  events : List StoredEvent
  nextCursor : Bytes
deriving DecidableEq

def defaultEventPageSize : Int := 50
def maxEventPageSize : Int := 500

def pageLimit (limit : Int) : Nat :=
  let limit := if limit ≤ 0 then defaultEventPageSize else limit
  let limit := if limit > maxEventPageSize then maxEventPageSize else limit
  limit.toNat

def eventLess (a b : StoredEvent) : Bool :=
  if a.timeBucket ≠ b.timeBucket then a.timeBucket < b.timeBucket else a.id < b.id

def afterCursor (cur : Int64 × Bytes) (e : StoredEvent) : Bool :=
  e.timeBucket < cur.1 || (e.timeBucket = cur.1 && e.id < cur.2)

def skipTo (cur : Option (Int64 × Bytes)) (out : List StoredEvent) : List StoredEvent :=
  match cur with
  | some cur => out.dropWhile (! afterCursor cur ·)
  | none => out

def cutPage (out : List StoredEvent) (limit : Nat) : EventPage :=
  if h : out.length > limit then
    let last := out[limit - 1]
    ⟨out.take limit, encodeCursor last.timeBucket last.id⟩
  else ⟨out, []⟩

def listEvents (events : List StoredEvent) (q : Query) (limit : Int) (cursor : Bytes) :
    Except CursorError EventPage := do
  let cur ← decodeCursor cursor
  let out := (events.filter q.matches).insertionSort fun a b => ¬ eventLess a b
  return cutPage (skipTo cur out) (pageLimit limit)

/-! ## A cursor is decoded to its pair -/

theorem chars_ascii_repr (n : Int) :
    (ascii n.repr).map (Char.ofNat ·.toNat) = n.repr.toList := by
  unfold ascii
  rw [map_map]
  refine (map_congr_left fun c hc => ?_).trans (map_id _)
  have hsmall : c.toNat < 256 := by
    by_contra hlarge
    refine notMem_repr (c := c) ?_ ?_ n hc
    · rw [Char.isDigit, Bool.and_eq_false_iff]
      right
      rw [decide_eq_false_iff_not]
      intro hle
      have hle' : c.toNat ≤ 57 := hle
      omega
    · rintro rfl
      exact hlarge (by decide)
  show Char.ofNat (UInt8.ofNat c.toNat).toNat = c
  rw [UInt8.toNat_ofNat_of_lt' hsmall, Char.ofNat_toNat]

theorem separator_notMem_ascii_repr (n : Int) : ∀ b ∈ ascii n.repr, b ≠ cursorSeparator := by
  rintro b hb rfl
  have hmem : Char.ofNat cursorSeparator.toNat ∈ (ascii n.repr).map (Char.ofNat ·.toNat) :=
    mem_map_of_mem hb
  rw [chars_ascii_repr] at hmem
  exact notMem_repr (by decide) (by decide) n hmem

theorem encodeCursor_ne_nil (tb : Int64) (id : Bytes) : encodeCursor tb id ≠ [] :=
  rawURLEncode_ne_nil (by simp)

/-- **A cursor is decoded to its pair**, even if the separator is in the id. -/
theorem decodeCursor_encodeCursor (tb : Int64) (id : Bytes) :
    decodeCursor (encodeCursor tb id) = .ok (some (tb, id)) := by
  have hsep : ∀ b ∈ ascii tb.toInt.repr, decide (b ≠ cursorSeparator) = true :=
    fun b hb => decide_eq_true (separator_notMem_ascii_repr _ b hb)
  unfold decodeCursor
  rw [if_neg (encodeCursor_ne_nil tb id), encodeCursor, rawURLDecode_rawURLEncode]
  dsimp only
  rw [dropWhile_append_of_pos hsep, takeWhile_append_of_pos hsep,
    dropWhile_cons_of_neg (by simp), takeWhile_cons_of_neg (by simp), append_nil,
    chars_ascii_repr, parseInt64_repr]

/-! ## The order of the pages -/

def pageKey (cur : Int64 × Bytes) : ℤ ×ₗ List ℕ := toLex (cur.1.toInt, cur.2.map UInt8.toNat)

def StoredEvent.key (e : StoredEvent) : ℤ ×ₗ List ℕ := pageKey (e.timeBucket, e.id)

theorem pageKey_lt_iff (a b : Int64 × Bytes) :
    pageKey a < pageKey b ↔ a.1 < b.1 ∨ a.1 = b.1 ∧ a.2 < b.2 := by
  unfold pageKey
  rw [Prod.Lex.toLex_lt_toLex, Int64.lt_iff_toInt_lt, Int64.toInt_inj, bytes_lt_iff]

theorem pageKey_injective : Function.Injective pageKey := by
  intro a b h
  obtain ⟨htb, hid⟩ := Prod.mk.inj (toLex.injective h)
  have hbytes : Function.Injective (List.map UInt8.toNat) :=
    map_injective_iff.mpr fun _ _ => UInt8.toNat_inj.mp
  exact Prod.ext (Int64.toInt_inj.mp htb) (hbytes hid)

theorem eventLess_iff (a b : StoredEvent) : eventLess a b = true ↔ a.key < b.key := by
  rw [StoredEvent.key, StoredEvent.key, pageKey_lt_iff]
  unfold eventLess
  by_cases h : a.timeBucket = b.timeBucket
  · simp [h]
  · simp [h]

theorem afterCursor_iff (cur : Int64 × Bytes) (e : StoredEvent) :
    afterCursor cur e = true ↔ e.key < pageKey cur := by
  rw [StoredEvent.key, pageKey_lt_iff]
  simp [afterCursor]

/-! ## A page of the store -/

def ofKeysetPage (p : Keyset.Page StoredEvent) : EventPage where
  events := p.events
  nextCursor := (p.next.map fun e => encodeCursor e.timeBucket e.id).getD []

theorem pageLimit_pos (limit : Int) : 0 < pageLimit limit := by
  rw [pageLimit, defaultEventPageSize, maxEventPageSize]
  split <;> split <;> omega

theorem sort_eq_descending (out : List StoredEvent) :
    (out.insertionSort fun a b => ¬ eventLess a b) = Keyset.descending StoredEvent.key out := by
  refine Keyset.insertionSort_eq_descending _ (fun a b => ?_) out
  rw [eventLess_iff, not_lt]

theorem cutPage_eq (out : List StoredEvent) {limit : Nat} (hlimit : 0 < limit) :
    cutPage out limit = ofKeysetPage (Keyset.cut out limit) := by
  unfold cutPage ofKeysetPage Keyset.cut
  by_cases hmore : limit < out.length
  · rw [dif_pos hmore, if_pos hmore, getElem?_eq_getElem (by omega)]
    rfl
  · rw [dif_neg hmore, if_neg hmore, take_of_length_le (by omega)]
    rfl

theorem skipTo_descending (cur : Option (Int64 × Bytes)) (out : List StoredEvent) :
    skipTo cur (Keyset.descending StoredEvent.key out) =
      (Keyset.descending StoredEvent.key out).filter
        (Keyset.Below StoredEvent.key (cur.map pageKey)) := by
  cases cur with
  | none => exact (filter_eq_self.mpr fun a _ => decide_eq_true nofun).symm
  | some cur =>
    rw [← Keyset.dropWhile_descending, skipTo]
    congr 1
    funext e
    rw [Bool.eq_iff_iff, Bool.not_eq_true', ← Bool.not_eq_true,
      afterCursor_iff]
    simp [Keyset.Below]

variable {cursor : Bytes}

variable {cur : Option (Int64 × Bytes)}

/-- **A page of the store is a page of keyset pagination.** -/
theorem listEvents_eq (events : List StoredEvent) (q : Query) (limit : Int)
    (hcur : decodeCursor cursor = .ok cur) :
    listEvents events q limit cursor = .ok (ofKeysetPage (Keyset.page StoredEvent.key
      (events.filter q.matches) (pageLimit limit) (cur.map pageKey))) := by
  unfold listEvents
  rw [hcur, ok_bind]
  dsimp only
  rw [sort_eq_descending, skipTo_descending, cutPage_eq _ (pageLimit_pos limit)]
  rfl

variable {events : List StoredEvent} {q : Query}

variable {limit : Int} {page : EventPage}

theorem listEvents_ok (h : listEvents events q limit cursor = .ok page) :
    ∃ cur, decodeCursor cursor = .ok cur ∧ page = ofKeysetPage (Keyset.page StoredEvent.key
      (events.filter q.matches) (pageLimit limit) (cur.map pageKey)) := by
  obtain ⟨cur, hcur, -⟩ := bind_eq_ok h
  rw [listEvents_eq events q limit hcur] at h
  exact ⟨cur, hcur, (Except.ok.inj h).symm⟩

theorem ofKeysetPage_nextCursor {p : Keyset.Page StoredEvent} :
    ((ofKeysetPage p).nextCursor = [] ↔ p.next = none) ∧
      ∀ e, p.next = some e → (ofKeysetPage p).nextCursor = encodeCursor e.timeBucket e.id := by
  unfold ofKeysetPage
  cases p.next with
  | none => exact ⟨⟨fun _ => rfl, fun _ => rfl⟩, nofun⟩
  | some e =>
    have hne := encodeCursor_ne_nil e.timeBucket e.id
    dsimp only [Option.map_some, Option.getD_some]
    refine ⟨iff_of_false hne nofun, fun e' he => ?_⟩
    rw [Option.some.inj he]

/-! ## Following the cursors -/

def DistinctPairs (events : List StoredEvent) : Prop :=
  (events.map fun e => (e.timeBucket, e.id)).Nodup

instance (events : List StoredEvent) : Decidable (DistinctPairs events) :=
  inferInstanceAs (Decidable (List.Nodup _))

/--
`Follows q events cursor returned events'`: the pages from `cursor` on, each with some limit, up to
the one with an empty cursor. Before each page events may be added; at first there are `events`, at
the end `events'`.
-/
inductive Follows (q : Query) :
    List StoredEvent → Bytes → List StoredEvent → List StoredEvent → Prop
  | last {events now out : List StoredEvent} {limit : Int} {cursor : Bytes}
      (hgrow : events <+: now) (hdistinct : DistinctPairs now)
      (hpage : listEvents now q limit cursor = .ok ⟨out, []⟩) :
      Follows q events cursor out now
  | more {events now events' out rest : List StoredEvent} {limit : Int} {cursor next : Bytes}
      (hgrow : events <+: now) (hdistinct : DistinctPairs now)
      (hpage : listEvents now q limit cursor = .ok ⟨out, next⟩) (hnext : next ≠ [])
      (hrest : Follows q now next rest events') :
      Follows q events cursor (out ++ rest) events'

theorem DistinctPairs.keys (h : DistinctPairs events) (q : Query) :
    Keyset.Distinct StoredEvent.key (events.filter q.matches) := by
  have hkeys : (events.map StoredEvent.key).Nodup := by
    have := List.Nodup.map pageKey_injective h
    rwa [map_map] at this
  exact hkeys.sublist (filter_sublist.map _)

theorem filter_subset_of_grow {now : List StoredEvent} (h : events <+: now) (q : Query) :
    events.filter q.matches ⊆ now.filter q.matches :=
  (h.sublist.filter _).subset

theorem Follows.walk {out events' : List StoredEvent} (h : Follows q events cursor out events')
    (hcur : decodeCursor cursor = .ok cur) :
    Keyset.Walk StoredEvent.key (events.filter q.matches) (cur.map pageKey) out
      (events'.filter q.matches) := by
  induction h generalizing cur with
  | @last _ _ _ limit _ hgrow hdistinct hpage =>
    rw [listEvents_eq _ _ _ hcur] at hpage
    obtain ⟨rfl, hnext⟩ := EventPage.mk.inj (Except.ok.inj hpage)
    exact .last (filter_subset_of_grow hgrow q) (hdistinct.keys q) (pageLimit_pos limit)
      (ofKeysetPage_nextCursor.1.mp hnext)
  | @more _ _ _ _ _ limit _ _ hgrow hdistinct hpage hne _ ih =>
    rw [listEvents_eq _ _ _ hcur] at hpage
    obtain ⟨rfl, rfl⟩ := EventPage.mk.inj (Except.ok.inj hpage)
    obtain ⟨e, he⟩ := Option.ne_none_iff_exists'.mp (ofKeysetPage_nextCursor.1.not.mp hne)
    have hdecode := decodeCursor_encodeCursor e.timeBucket e.id
    rw [← ofKeysetPage_nextCursor.2 e he] at hdecode
    exact .more (filter_subset_of_grow hgrow q) (hdistinct.keys q) (pageLimit_pos limit) he
      (ih hdecode)

/-- **If no events are added, following the cursors comes to an end.** -/
theorem exists_follows (q : Query) (h : DistinctPairs events) :
    ∃ out, Follows q events [] out events := by
  have hall : ∀ (key : Option (ℤ ×ₗ List ℕ)) cursor cur, decodeCursor cursor = .ok cur →
      cur.map pageKey = key → ∃ out, Follows q events cursor out events := by
    refine Keyset.page_induction (h.keys q) (pageLimit_pos 0) ?_
    intro key ih cursor cur hcur hkey
    have hpage := listEvents_eq events q 0 hcur
    rw [hkey] at hpage
    cases hnext : (Keyset.page StoredEvent.key (events.filter q.matches) (pageLimit 0) key).next with
    | none =>
      have hend := ofKeysetPage_nextCursor.1.mpr hnext
      exact ⟨_, .last (prefix_refl _) h (hpage.trans (by rw [← hend]))⟩
    | some e =>
      have hcursor := ofKeysetPage_nextCursor.2 e hnext
      obtain ⟨out, hout⟩ := ih e hnext (encodeCursor e.timeBucket e.id) _
        (decodeCursor_encodeCursor _ _) rfl
      exact ⟨_, .more (prefix_refl _) h (hpage.trans (by rw [← hcursor]))
        (encodeCursor_ne_nil _ _) hout⟩
  exact hall none [] none rfl rfl

theorem nextCursor_eq (h : listEvents events q limit cursor = .ok page)
    (hnext : page.nextCursor ≠ []) :
    ∃ e, page.events.getLast? = some e ∧ page.nextCursor = encodeCursor e.timeBucket e.id := by
  obtain ⟨cur, -, rfl⟩ := listEvents_ok h
  obtain ⟨e, he⟩ := Option.ne_none_iff_exists'.mp (ofKeysetPage_nextCursor.1.not.mp hnext)
  exact ⟨e, Keyset.getLast?_page (pageLimit_pos limit) he, ofKeysetPage_nextCursor.2 e he⟩

/--
**Following the cursors is exact.** Every event that matches and was there at the start is returned
once; nothing is returned that does not match; the events come in descending order over all pages; a
cursor is decoded to the pair of the last event of its page. If no events are added the pages come to
an end.
-/
theorem pages_exact (q : Query) :
    (∀ events returned events', Follows q events [] returned events' →
      (∀ e ∈ events, q.matches e = true → returned.count e = 1) ∧
      (∀ e ∈ returned, e ∈ events' ∧ q.matches e = true) ∧
      returned.Pairwise fun a b => eventLess b a = true) ∧
    (∀ events limit cursor page, listEvents events q limit cursor = .ok page →
      page.nextCursor ≠ [] → ∃ e, page.events.getLast? = some e ∧
        page.nextCursor = encodeCursor e.timeBucket e.id ∧
        decodeCursor page.nextCursor = .ok (some (e.timeBucket, e.id))) ∧
    ∀ events, DistinctPairs events → ∃ returned, Follows q events [] returned events := by
  refine ⟨fun events returned events' h => ?_, fun events limit cursor page hpage hnext => ?_,
    fun events h => exists_follows q h⟩
  · have hwalk : Keyset.Walk StoredEvent.key (events.filter q.matches) none returned
        (events'.filter q.matches) := h.walk rfl
    refine ⟨fun e he hmatch => ?_, fun e he => ?_, ?_⟩
    · refine count_eq_one_of_mem hwalk.nodup ?_
      exact hwalk.complete e (mem_filter.mpr ⟨he, hmatch⟩) nofun
    · exact mem_filter.mp (hwalk.sound e he)
    · exact hwalk.descending.imp fun {a b} hlt => (eventLess_iff b a).mpr hlt
  · obtain ⟨e, hlast, hcursor⟩ := nextCursor_eq hpage hnext
    exact ⟨e, hlast, hcursor, by rw [hcursor, decodeCursor_encodeCursor]⟩

def sampleStored (id : Bytes) (timeBucket : Int64) : StoredEvent :=
  ⟨id, [0x74], [0x61], 1, 2, 0, 2, 3, [], [], [], timeBucket, [], 1, 0⟩

def sampleQuery : Query := ⟨[0x74], [], [], [], [], 0, 0⟩

theorem sample_follows :
    Follows sampleQuery [sampleStored [0x3a, 0x3a] 3600, sampleStored [0x78] 7200] []
      ([sampleStored [0x78] 7200] ++ [sampleStored [0x3a, 0x3a] 3600, sampleStored [0x3a] 3600])
      [sampleStored [0x3a, 0x3a] 3600, sampleStored [0x78] 7200, sampleStored [0x3a] 3600] := by
  have hfirst : listEvents [sampleStored [0x3a, 0x3a] 3600, sampleStored [0x78] 7200] sampleQuery 1
      [] = .ok ⟨[sampleStored [0x78] 7200], encodeCursor 7200 [0x78]⟩ := rfl
  have hsecond : listEvents [sampleStored [0x3a, 0x3a] 3600, sampleStored [0x78] 7200,
      sampleStored [0x3a] 3600] sampleQuery 5 (encodeCursor 7200 [0x78]) =
      .ok ⟨[sampleStored [0x3a, 0x3a] 3600, sampleStored [0x3a] 3600], []⟩ := by
    unfold listEvents
    rfl
  refine .more (prefix_refl _) (by decide) hfirst (encodeCursor_ne_nil _ _) ?_
  exact .last ⟨[sampleStored [0x3a] 3600], rfl⟩ (by decide) hsecond

theorem pages_exact_sample :
    ([sampleStored [0x78] 7200] ++
        [sampleStored [0x3a, 0x3a] 3600, sampleStored [0x3a] 3600]).count
      (sampleStored [0x3a, 0x3a] 3600) = 1 :=
  ((pages_exact sampleQuery).1 _ _ _ sample_follows).1 _ mem_cons_self rfl

end Kseal.Ingest
