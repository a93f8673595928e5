import Kseal.Infra.Keyset
import Kseal.Server.Audit

/-!
# Listing the audit chain (`control-plane/compliance/mem.go`, `postgres.go`)

The in-memory store walks its chain backwards and stops at the first event that no longer fits; the
database filters and sorts the rows of its table (`lists_alike_iff`).
-/

namespace Kseal.Audit

open Infra Wire List Keyset

/-! ## Filters and tokens -/

structure AuditFilter where
  action : String
  resourceType : String
  fromMillis : Int64
  toMillis : Int64

def clampPageSize (n : Int) : Nat :=
  if n ≤ 0 then 50 else if n > 500 then 500 else n.toNat

def matchAuditFilter (f : AuditFilter) (ev : AuditEvent) : Bool :=
  if f.action ≠ "" ∧ ev.action ≠ f.action then false
  else if f.resourceType ≠ "" ∧ ev.resourceType ≠ f.resourceType then false
  else if f.fromMillis > 0 ∧ ev.createdAt < f.fromMillis then false
  else if f.toMillis > 0 ∧ ev.createdAt > f.toMillis then false
  else true

inductive ListError where
  | tenantRequired
  | badToken
deriving Repr, DecidableEq

structure AuditPage where
  events : List AuditEvent
  next : String

def tokenCursor (pageToken : String) : Except ListError Int64 :=
  if pageToken ≠ "" then
    match parseInt64 pageToken.toList with
    | none => .error .badToken
    | some v => .ok v
  else .ok (-1)

def seqToken (ev : AuditEvent) : String := ev.seq.toInt.repr

def lastToken (out : List AuditEvent) : String := (out.getLast?.map seqToken).getD ""

/-! ## The in-memory store -/

def memLoop (f : AuditFilter) (size : Nat) (cursor : Int64) :
    List AuditEvent → List AuditEvent → AuditPage
  | out, [] => ⟨out, ""⟩
  | out, ev :: rest =>
    if cursor ≥ 0 ∧ ev.seq ≥ cursor then memLoop f size cursor out rest
    else if !matchAuditFilter f ev then memLoop f size cursor out rest
    else if out.length = size then ⟨out, lastToken out⟩
    else memLoop f size cursor (out ++ [ev]) rest

def memListAudit (chain : List AuditEvent) (tenantID : String) (f : AuditFilter) (pageSize : Int)
    (pageToken : String) : Except ListError AuditPage :=
  if tenantID = "" then .error .tenantRequired
  else do
    let cursor ← tokenCursor pageToken
    pure (memLoop f (clampPageSize pageSize) cursor [] chain.reverse)

/-! ## The database -/

def sqlFilter (f : AuditFilter) (ev : AuditEvent) : Bool :=
  (f.action = "" || ev.action = f.action) && (f.resourceType = "" || ev.resourceType = f.resourceType) &&
    (f.fromMillis = 0 || ev.createdAt ≥ f.fromMillis) && (f.toMillis = 0 || ev.createdAt ≤ f.toMillis)

def selectAudit (table : List AuditEvent) (tenantID : String) (f : AuditFilter) (cursor : Int64)
    (limit : Nat) : List AuditEvent :=
  ((table.filter fun ev => ev.tenantId = tenantID && (cursor < 0 || ev.seq < cursor) &&
    sqlFilter f ev).insertionSort fun a b => b.seq ≤ a.seq).take limit

def cutAudit (out : List AuditEvent) (size : Nat) : AuditPage :=
  if out.length > size then ⟨out.take size, lastToken (out.take size)⟩ else ⟨out, ""⟩

def pgListAudit (table : List AuditEvent) (tenantID : String) (f : AuditFilter) (pageSize : Int)
    (pageToken : String) : Except ListError AuditPage :=
  if tenantID = "" then .error .tenantRequired
  else do
    let cursor ← tokenCursor pageToken
    let size := clampPageSize pageSize
    pure (cutAudit (selectAudit table tenantID f cursor (size + 1)) size)

/-! ## Numbered chains -/

def seqKey (ev : AuditEvent) : ℤ := ev.seq.toInt

def Numbered (chain : List AuditEvent) : Prop :=
  ∀ (i : Nat) ev, chain[i]? = some ev → seqKey ev = i + 1

structure Stored (tenantID : String) (chain table : List AuditEvent) : Prop where
  numbered : Numbered chain
  rows : (table.filter fun ev => ev.tenantId = tenantID).Perm chain

variable {ev : AuditEvent}

namespace Numbered

variable {chain : List AuditEvent}

theorem ascending (h : Numbered chain) : chain.Pairwise fun a b => seqKey a < seqKey b := by
  rw [pairwise_iff_getElem]
  intro i j hi hj hij
  rw [h i _ (getElem?_eq_getElem hi), h j _ (getElem?_eq_getElem hj)]
  omega

theorem pos (h : Numbered chain) (hev : ev ∈ chain) : 0 < seqKey ev := by
  obtain ⟨i, hi, rfl⟩ := mem_iff_getElem.mp hev
  rw [h i _ (getElem?_eq_getElem hi)]
  omega

theorem distinct (h : Numbered chain) : Distinct seqKey chain :=
  pairwise_map.mpr (h.ascending.imp fun hlt => ne_of_lt hlt)

theorem descending_filter (h : Numbered chain) (p : AuditEvent → Bool) :
    descending seqKey (chain.filter p) = (chain.filter p).reverse := by
  have hdistinct : Distinct seqKey (chain.filter p) :=
    h.distinct.sublist (filter_sublist.map _)
  refine eq_of_mem_iff seqKey (pairwise_descending seqKey hdistinct) ?_ ?_
  · rw [pairwise_reverse]
    exact h.ascending.filter p
  · intro ev
    rw [mem_descending, mem_reverse]

end Numbered

/-! ## Either store serves keyset pages -/

def cursorKey (cursor : Int64) : Option ℤ := if cursor < 0 then none else some cursor.toInt

def ofKeysetPage (p : Page AuditEvent) : AuditPage := ⟨p.events, (p.next.map seqToken).getD ""⟩

def Paged (list : Int → String → Except ListError AuditPage) (xs : List AuditEvent) : Prop :=
  ∀ pageSize pageToken, list pageSize pageToken = (tokenCursor pageToken).map fun cursor =>
    ofKeysetPage (page seqKey xs (clampPageSize pageSize) (cursorKey cursor))

theorem clampPageSize_pos (n : Int) : 0 < clampPageSize n := by
  unfold clampPageSize
  split
  · omega
  · split <;> omega

theorem below_cursorKey_iff (cursor : Int64) (ev : AuditEvent) :
    Below seqKey (cursorKey cursor) ev ↔ cursor < 0 ∨ ev.seq < cursor := by
  unfold cursorKey
  by_cases h : cursor < 0
  · rw [if_pos h]
    exact iff_of_true nofun (.inl h)
  · rw [Int64.lt_iff_toInt_lt (x := ev.seq)]
    simp [Below, seqKey, h]

variable {size : Nat}

theorem cutAudit_eq (out : List AuditEvent) (hsize : 0 < size) :
    cutAudit out size = ofKeysetPage (cut out size) := by
  unfold cutAudit ofKeysetPage cut lastToken
  by_cases hmore : size < out.length
  · rw [if_pos hmore, if_pos hmore, getLast?_take, if_neg (by omega),
      getElem?_eq_getElem (by omega)]
    rfl
  · rw [if_neg hmore, if_neg hmore, take_of_length_le (by omega)]
    rfl

theorem memLoop_eq (f : AuditFilter) (cursor : Int64) {out : List AuditEvent}
    (hout : out.length ≤ size) (rest : List AuditEvent) :
    memLoop f size cursor out rest =
      cutAudit (out ++ (rest.filter (matchAuditFilter f)).filter
        (Below seqKey (cursorKey cursor))) size := by
  induction rest generalizing out with
  | nil =>
    rw [memLoop, filter_nil, filter_nil, append_nil, cutAudit, if_neg (by omega)]
  | cons ev rest ih =>
    have hskip : cursor ≥ 0 ∧ ev.seq ≥ cursor ↔ ¬ Below seqKey (cursorKey cursor) ev := by
      rw [below_cursorKey_iff, not_or, Int64.not_lt, Int64.not_lt]
    rw [memLoop]
    by_cases hmatch : matchAuditFilter f ev = true
    · rw [filter_cons_of_pos hmatch]
      by_cases hbelow : Below seqKey (cursorKey cursor) ev
      · rw [if_neg (mt hskip.mp (not_not.mpr hbelow)), hmatch, filter_cons_of_pos (by simpa)]
        by_cases hfull : out.length = size
        · simp [hfull, cutAudit]
        · simp only [Bool.not_true, Bool.false_eq_true, if_false, if_neg hfull]
          rw [ih (by rw [length_append, length_singleton]; omega), append_assoc]
          rfl
      · rw [if_pos (hskip.mpr hbelow), ih hout, filter_cons_of_neg (by simpa)]
    · simp [hmatch, ih hout]

section stored

variable {tenantID : String} {chain table : List AuditEvent}

theorem memListAudit_paged (h : Numbered chain) (htenant : tenantID ≠ "") (f : AuditFilter) :
    Paged (memListAudit chain tenantID f) (chain.filter (matchAuditFilter f)) := by
  intro pageSize pageToken
  unfold memListAudit
  rw [if_neg htenant]
  cases tokenCursor pageToken with
  | error e => rfl
  | ok cursor =>
    have hsize := clampPageSize_pos pageSize
    show Except.ok (memLoop f (clampPageSize pageSize) cursor [] chain.reverse) = .ok _
    rw [memLoop_eq f cursor (Nat.zero_le _), cutAudit_eq _ hsize,
      filter_reverse, ← h.descending_filter]
    rfl

theorem selectAudit_eq (h : Stored tenantID chain table) (f : AuditFilter) (cursor : Int64)
    (limit : Nat) :
    selectAudit table tenantID f cursor limit =
      ((descending seqKey (chain.filter (sqlFilter f))).filter
        (Below seqKey (cursorKey cursor))).take limit := by
  have hrows : Distinct seqKey (table.filter fun ev => ev.tenantId = tenantID &&
      (cursor < 0 || ev.seq < cursor) && sqlFilter f ev) := by
    refine List.Nodup.sublist (List.Sublist.map _ ?_)
      ((h.rows.map seqKey).nodup_iff.mpr h.numbered.distinct)
    refine monotone_filter_right table fun ev hev => ?_
    simp only [Bool.and_eq_true] at hev
    exact hev.1.1
  unfold selectAudit
  rw [insertionSort_eq_descending seqKey fun a b => Int64.le_iff_toInt_le]
  congr 1
  refine eq_of_mem_iff seqKey (pairwise_descending seqKey hrows)
    ((pairwise_descending seqKey
      (h.numbered.distinct.sublist (filter_sublist.map _))).filter _) fun ev => ?_
  have hmem : ev ∈ chain ↔ ev ∈ table ∧ ev.tenantId = tenantID := by
    rw [← h.rows.mem_iff, mem_filter, decide_eq_true_iff]
  simp only [mem_descending, mem_filter, Bool.and_eq_true, Bool.or_eq_true,
    decide_eq_true_iff, below_cursorKey_iff]
  tauto

theorem pgListAudit_paged (h : Stored tenantID chain table) (htenant : tenantID ≠ "")
    (f : AuditFilter) :
    Paged (pgListAudit table tenantID f) (chain.filter (sqlFilter f)) := by
  intro pageSize pageToken
  unfold pgListAudit
  rw [if_neg htenant]
  cases tokenCursor pageToken with
  | error e => rfl
  | ok cursor =>
    have hsize := clampPageSize_pos pageSize
    show Except.ok (cutAudit (selectAudit table tenantID f cursor (clampPageSize pageSize + 1))
      (clampPageSize pageSize)) = .ok _
    rw [selectAudit_eq h, cutAudit_eq _ hsize, cut_take _ hsize]
    rfl

/-! ## Following the tokens -/

/-- `FollowsTokens list token out`: the pages from `token` on, each of some size, up to the one
without a next token, hold `out`. -/
inductive FollowsTokens (list : Int → String → Except ListError AuditPage) :
    String → List AuditEvent → Prop
  | last {pageSize : Int} {pageToken : String} {out : List AuditEvent}
      (hpage : list pageSize pageToken = .ok ⟨out, ""⟩) : FollowsTokens list pageToken out
  | more {pageSize : Int} {pageToken next : String} {out rest : List AuditEvent}
      (hpage : list pageSize pageToken = .ok ⟨out, next⟩) (hnext : next ≠ "")
      (hrest : FollowsTokens list next rest) : FollowsTokens list pageToken (out ++ rest)

theorem seqToken_ne_empty (ev : AuditEvent) : seqToken ev ≠ "" := by
  intro h
  have hparse := parseInt64_repr ev.seq
  rw [show ev.seq.toInt.repr = "" from h] at hparse
  cases hparse

theorem tokenCursor_seqToken (ev : AuditEvent) : tokenCursor (seqToken ev) = .ok ev.seq := by
  unfold tokenCursor
  rw [if_pos (seqToken_ne_empty ev), seqToken, parseInt64_repr]

theorem cursorKey_seq (h : 0 < seqKey ev) : cursorKey ev.seq = some (seqKey ev) := by
  unfold cursorKey
  rw [if_neg]
  · rfl
  · rw [Int64.not_lt, Int64.le_iff_toInt_le]
    exact le_of_lt h

theorem ofKeysetPage_next {p : Page AuditEvent} :
    ((ofKeysetPage p).next = "" ↔ p.next = none) ∧
      ∀ ev, p.next = some ev → (ofKeysetPage p).next = seqToken ev := by
  unfold ofKeysetPage
  cases p.next with
  | none => exact ⟨⟨fun _ => rfl, fun _ => rfl⟩, nofun⟩
  | some ev =>
    refine ⟨⟨fun h => absurd h (seqToken_ne_empty ev), nofun⟩, fun ev' hev => ?_⟩
    cases hev
    rfl

variable {list : Int → String → Except ListError AuditPage} {xs out : List AuditEvent}

variable {pageToken : String} {cursor : Int64}

theorem Paged.eq_ok (hlist : Paged list xs) (pageSize : Int)
    (hcursor : tokenCursor pageToken = .ok cursor) :
    list pageSize pageToken = .ok
      (ofKeysetPage (page seqKey xs (clampPageSize pageSize) (cursorKey cursor))) := by
  rw [hlist, hcursor]
  rfl

theorem FollowsTokens.walk (h : FollowsTokens list pageToken out) (hlist : Paged list xs)
    (hkeys : Distinct seqKey xs) (hpos : ∀ ev ∈ xs, 0 < seqKey ev)
    (hcursor : tokenCursor pageToken = .ok cursor) :
    Walk seqKey xs (cursorKey cursor) out xs := by
  induction h generalizing cursor with
  | @last pageSize pageToken out hpage =>
    rw [hlist.eq_ok pageSize hcursor] at hpage
    obtain ⟨rfl, hnext⟩ := AuditPage.mk.inj (Except.ok.inj hpage)
    exact .last (List.Subset.refl _) hkeys (clampPageSize_pos pageSize)
      (ofKeysetPage_next.1.mp hnext)
  | @more pageSize pageToken next out rest hpage hne _ ih =>
    rw [hlist.eq_ok pageSize hcursor] at hpage
    obtain ⟨rfl, rfl⟩ := AuditPage.mk.inj (Except.ok.inj hpage)
    obtain ⟨ev, hev⟩ := Option.ne_none_iff_exists'.mp (ofKeysetPage_next.1.not.mp hne)
    have hspec := page_spec hkeys (clampPageSize_pos pageSize) (cursorKey cursor)
    have hmem : ev ∈ xs := ((hspec.mem_iff ev).mp (hspec.next_mem ev hev)).1
    refine .more (List.Subset.refl _) hkeys (clampPageSize_pos pageSize) hev ?_
    rw [← cursorKey_seq (hpos ev hmem)]
    have hdecode := tokenCursor_seqToken ev
    rw [← ofKeysetPage_next.2 ev hev] at hdecode
    exact ih hdecode

/-- **Following the tokens lists every event once, latest first.** -/
theorem followsTokens_eq (hlist : Paged list xs) (hkeys : Distinct seqKey xs)
    (hpos : ∀ ev ∈ xs, 0 < seqKey ev) (h : FollowsTokens list "" out) :
    out = descending seqKey xs := by
  have hwalk : Walk seqKey xs none out xs := h.walk hlist hkeys hpos rfl
  exact hwalk.eq_descending hkeys

/-- **Following the tokens comes to an end.** -/
theorem exists_followsTokens (hlist : Paged list xs) (hkeys : Distinct seqKey xs)
    (hpos : ∀ ev ∈ xs, 0 < seqKey ev) : ∃ out, FollowsTokens list "" out := by
  have hall : ∀ (key : Option ℤ) pageToken cursor, tokenCursor pageToken = .ok cursor →
      cursorKey cursor = key → ∃ out, FollowsTokens list pageToken out := by
    refine page_induction hkeys (clampPageSize_pos 0) ?_
    intro key ih pageToken cursor hcursor hkey
    have hpage := hlist.eq_ok 0 hcursor
    rw [hkey] at hpage
    cases hnext : (page seqKey xs (clampPageSize 0) key).next with
    | none =>
      have hend := ofKeysetPage_next.1.mpr hnext
      exact ⟨_, .last (hpage.trans (by rw [← hend]))⟩
    | some ev =>
      have hspec := page_spec hkeys (clampPageSize_pos 0) key
      have hmem : ev ∈ xs := ((hspec.mem_iff ev).mp (hspec.next_mem ev hnext)).1
      obtain ⟨out, hout⟩ := ih ev hnext (seqToken ev) _ (tokenCursor_seqToken ev)
        (cursorKey_seq (hpos ev hmem))
      have hmore := ofKeysetPage_next.2 ev hnext
      exact ⟨_, .more (hpage.trans (by rw [← hmore])) (seqToken_ne_empty ev) hout⟩
  exact hall none "" (-1) rfl rfl

/-! ## When the stores list alike -/

structure Selected (f : AuditFilter) (ev : AuditEvent) : Prop where
  action : f.action = "" ∨ ev.action = f.action
  resourceType : f.resourceType = "" ∨ ev.resourceType = f.resourceType
  fromMillis : 0 < f.fromMillis → f.fromMillis ≤ ev.createdAt
  toMillis : 0 < f.toMillis → ev.createdAt ≤ f.toMillis

def OutsideNegative (f : AuditFilter) (ev : AuditEvent) : Prop :=
  f.fromMillis < 0 ∧ ev.createdAt < f.fromMillis ∨ f.toMillis < 0 ∧ f.toMillis < ev.createdAt

theorem matchAuditFilter_iff (f : AuditFilter) (ev : AuditEvent) :
    matchAuditFilter f ev = true ↔ Selected f ev := by
  unfold matchAuditFilter
  simp only [ite_false_eq_true, not_and_or, not_not, Int64.not_lt, and_true]
  constructor
  · rintro ⟨haction, htype, hfrom, hto⟩
    exact ⟨haction, htype, fun h => hfrom.resolve_left (Int64.not_le.mpr h),
      fun h => hto.resolve_left (Int64.not_le.mpr h)⟩
  · rintro ⟨haction, htype, hfrom, hto⟩
    refine ⟨haction, htype, ?_, ?_⟩
    · exact (Int64.le_or_lt f.fromMillis 0).imp_right hfrom
    · exact (Int64.le_or_lt f.toMillis 0).imp_right hto

theorem sqlFilter_iff (f : AuditFilter) (ev : AuditEvent) :
    sqlFilter f ev = true ↔ Selected f ev ∧ ¬ OutsideNegative f ev := by
  have hbound : ∀ (b : Int64) (inside : Prop), b = 0 ∨ inside ↔
      (0 < b → inside) ∧ (b < 0 → inside) := by
    intro b inside
    have hcases : 0 < b ∨ b < 0 ↔ b ≠ 0 := by
      rw [Int64.lt_iff_toInt_lt, Int64.lt_iff_toInt_lt, ne_eq, ← Int64.toInt_inj]
      omega
    rw [← or_imp, hcases, imp_iff_not_or, not_not]
  unfold sqlFilter OutsideNegative
  simp only [Bool.and_eq_true, Bool.or_eq_true, decide_eq_true_iff, hbound]
  rw [not_or, not_and, not_and, Int64.not_lt, Int64.not_lt]
  constructor
  · rintro ⟨⟨⟨haction, htype⟩, hfrom⟩, hto⟩
    exact ⟨⟨haction, htype, hfrom.1, hto.1⟩, hfrom.2, hto.2⟩
  · rintro ⟨⟨haction, htype, hfrom, hto⟩, hfrom', hto'⟩
    exact ⟨⟨⟨haction, htype⟩, hfrom, hfrom'⟩, hto, hto'⟩

/-- Following the tokens from the empty one comes to an end, and always lists the events latest
first. -/
def ListsAll (list : Int → String → Except ListError AuditPage) (xs : List AuditEvent) : Prop :=
  (∃ out, FollowsTokens list "" out) ∧ ∀ out, FollowsTokens list "" out → out = xs.reverse

theorem listsAll_of_paged (h : Numbered chain) {p : AuditEvent → Bool}
    (hlist : Paged list (chain.filter p)) : ListsAll list (chain.filter p) := by
  have hkeys : Distinct seqKey (chain.filter p) :=
    h.distinct.sublist (filter_sublist.map _)
  have hpos : ∀ ev ∈ chain.filter p, 0 < seqKey ev := fun ev hev => h.pos (mem_filter.mp hev).1
  refine ⟨exists_followsTokens hlist hkeys hpos, fun out hout => ?_⟩
  rw [followsTokens_eq hlist hkeys hpos hout, h.descending_filter]

/--
**The stores list alike exactly if no event is outside a negative time bound.** They then return the
same page for every size and token, and following the tokens of either lists the events of the
filter, each once and latest first.
-/
theorem lists_alike_iff (h : Stored tenantID chain table) (f : AuditFilter) :
    ((∀ pageSize pageToken, memListAudit chain tenantID f pageSize pageToken =
        pgListAudit table tenantID f pageSize pageToken) ∧
      (tenantID ≠ "" →
        ListsAll (memListAudit chain tenantID f) (chain.filter (matchAuditFilter f)) ∧
        ListsAll (pgListAudit table tenantID f) (chain.filter (matchAuditFilter f)))) ↔
    (tenantID ≠ "" → ∀ ev ∈ chain, Selected f ev → ¬ OutsideNegative f ev) := by
  constructor
  · rintro ⟨hsame, -⟩ htenant ev hev hselected
    -- The tokens of the one function lead to the events of both filters.
    have hlists : memListAudit chain tenantID f = pgListAudit table tenantID f :=
      funext fun pageSize => funext fun pageToken => hsame pageSize pageToken
    have hmem := listsAll_of_paged h.numbered (memListAudit_paged h.numbered htenant f)
    have hpg := listsAll_of_paged h.numbered (pgListAudit_paged h htenant f)
    rw [hlists] at hmem
    obtain ⟨out, hout⟩ := hmem.1
    have hfilters := (hmem.2 out hout).symm.trans (hpg.2 out hout)
    have hin : ev ∈ (chain.filter (matchAuditFilter f)).reverse := by
      rw [mem_reverse, mem_filter]
      exact ⟨hev, (matchAuditFilter_iff f ev).mpr hselected⟩
    rw [hfilters, mem_reverse, mem_filter, sqlFilter_iff] at hin
    exact hin.2.2
  · intro hcond
    by_cases htenant : tenantID = ""
    · refine ⟨fun pageSize pageToken => ?_, fun hne => absurd htenant hne⟩
      rw [memListAudit, pgListAudit, if_pos htenant, if_pos htenant]
    · have hfilters : chain.filter (sqlFilter f) = chain.filter (matchAuditFilter f) := by
        refine filter_congr fun ev hev => ?_
        rw [Bool.eq_iff_iff, sqlFilter_iff, matchAuditFilter_iff]
        exact and_iff_left_of_imp (hcond htenant ev hev)
      have hmem := memListAudit_paged h.numbered htenant f
      have hpg := pgListAudit_paged h htenant f
      rw [hfilters] at hpg
      refine ⟨fun pageSize pageToken => ?_, fun _ =>
        ⟨listsAll_of_paged h.numbered hmem, listsAll_of_paged h.numbered hpg⟩⟩
      rw [hmem, hpg]

end stored

theorem stored_first : Stored "t" [firstPromotion ∅] [firstPromotion ∅] where
  numbered := by
    intro i ev hev
    rw [getElem?_singleton] at hev
    obtain ⟨hi, ⟨⟩⟩ := guard_some hev
    rw [hi]
    rfl
  rows := .refl _

/-- Events up to a second before 1970: the in-memory store lists the first promotion, the database
does not. -/
theorem negative_bound_differs :
    Stored "t" [firstPromotion ∅] [firstPromotion ∅] ∧
      memListAudit [firstPromotion ∅] "t" ⟨"", "", 0, -1000⟩ 0 "" = .ok ⟨[firstPromotion ∅], ""⟩ ∧
      pgListAudit [firstPromotion ∅] "t" ⟨"", "", 0, -1000⟩ 0 "" = .ok ⟨[], ""⟩ :=
  ⟨stored_first, rfl, rfl⟩

theorem lists_alike_first :
    ListsAll (pgListAudit [firstPromotion ∅] "t" ⟨"canary.promote", "", 1, 0⟩)
      ([firstPromotion ∅].filter (matchAuditFilter ⟨"canary.promote", "", 1, 0⟩)) := by
  refine (((lists_alike_iff stored_first ⟨"canary.promote", "", 1, 0⟩).mpr ?_).2 (by decide)).2
  intro _ ev _ _ hout
  rcases hout with ⟨hneg, -⟩ | ⟨hneg, -⟩
  · exact absurd hneg (by decide)
  · exact absurd hneg (by decide)

end Kseal.Audit
