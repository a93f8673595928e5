import Mathlib.Algebra.Group.Int.Defs
import Mathlib.Data.List.Dedup
import Kseal.Ingest.EventPages

/-!
# Events in ClickHouse (`ingest/store_clickhouse.go`)

Statements are read as what they mean on rows; arguments are bound to the question marks from left
to right. The column of the time bucket holds unix seconds of 32 bits (`stores_agree`).
-/

namespace Kseal.Ingest

open Infra List Keyset

/-! ## Conditions and their arguments -/

inductive SqlValue where
  | text (s : Bytes)
  | dateTime (sec : UInt32)
  | int (n : Int32)
deriving DecidableEq

def bindTime (sec : Int64) : SqlValue := .dateTime sec.toUInt64.toUInt32

inductive SqlColumn where
  | tenantId
  | appId
  | id
  | eventType
  | riskLevel
  | policyHash
  | timeBucket
deriving DecidableEq

def SqlColumn.value (e : StoredEvent) : SqlColumn → SqlValue
  | .tenantId => .text e.tenantID
  | .appId => .text e.appID
  | .id => .text e.id
  | .eventType => .int e.eventType
  | .riskLevel => .int e.riskLevel
  | .policyHash => .text e.policyHash
  | .timeBucket => bindTime e.timeBucket

inductive SqlCmp where
  | eq
  | lt
  | le
  | ge
deriving DecidableEq

def SqlCmp.holds {α : Type} [DecidableEq α] [LT α] [DecidableLT α] (a b : α) : SqlCmp → Bool
  | .eq => a = b
  | .lt => a < b
  | .le => a < b || a = b
  | .ge => b < a || a = b

def SqlCmp.compare (op : SqlCmp) : SqlValue → SqlValue → Option Bool
  | .text a, .text b => some (op.holds a b)
  | .dateTime a, .dateTime b => some (op.holds a b)
  | .int a, .int b => some (op.holds a b)
  | _, _ => none

inductive SqlPred where
  /-- `column = ?` -/
  | cmp (c : SqlColumn) (op : SqlCmp)
  /-- `column IN (?,…,?)` -/
  | isIn (c : SqlColumn) (n : Nat)
  | and (p q : SqlPred)
  | or (p q : SqlPred)

def SqlPred.eval (e : StoredEvent) : SqlPred → List SqlValue → Option (Bool × List SqlValue)
  | .cmp _ _, [] => none
  | .cmp c op, arg :: args => (op.compare (c.value e) arg).map (·, args)
  | .isIn c n, args =>
    if args.length < n then none
    else ((args.take n).mapM (SqlCmp.eq.compare (c.value e))).map fun hits =>
      (hits.any id, args.drop n)
  | .and p q, args => do
    let (b, args) ← p.eval e args
    let (b', args) ← q.eval e args
    return (b && b', args)
  | .or p q, args => do
    let (b, args) ← p.eval e args
    let (b', args) ← q.eval e args
    return (b || b', args)

structure SqlWhere where
  preds : List SqlPred
  args : List SqlValue

def SqlWhere.add (w : SqlWhere) (p : SqlPred) (args : List SqlValue) : SqlWhere :=
  ⟨w.preds ++ [p], w.args ++ args⟩

def SqlWhere.addWhen (w : SqlWhere) (c : Prop) [Decidable c] (p : SqlPred) (args : List SqlValue) :
    SqlWhere :=
  if c then w.add p args else w

def SqlPred.evalAll (e : StoredEvent) :
    List SqlPred → List SqlValue → Option (Bool × List SqlValue)
  | [], args => some (true, args)
  | p :: ps, args => do
    let (b, args) ← p.eval e args
    let (b', args) ← evalAll e ps args
    return (b && b', args)

def SqlWhere.holds (w : SqlWhere) (e : StoredEvent) : Option Bool :=
  match SqlPred.evalAll e w.preds w.args with
  | some (b, []) => some b
  | _ => none

def selectRows (w : SqlWhere) : List StoredEvent → Option (List StoredEvent)
  | [] => some []
  | e :: rows => do
    let keep ← w.holds e
    let out ← selectRows w rows
    return if keep then e :: out else out

/-! ## The statements -/

def Query.clickhouseWhere (q : Query) : SqlWhere :=
  let w : SqlWhere := ⟨[], []⟩
  let w := w.addWhen (q.tenantID ≠ []) (.cmp .tenantId .eq) [.text q.tenantID]
  let w := w.addWhen (q.appID ≠ []) (.cmp .appId .eq) [.text q.appID]
  let w := w.addWhen (q.policyHash ≠ []) (.cmp .policyHash .eq) [.text q.policyHash]
  let w := w.addWhen (q.fromTime ≠ 0) (.cmp .timeBucket .ge) [bindTime q.fromTime]
  let w := w.addWhen (q.toTime ≠ 0) (.cmp .timeBucket .le) [bindTime q.toTime]
  let w := w.addWhen (q.eventTypes.length > 0) (.isIn .eventType q.eventTypes.length)
    (q.eventTypes.map .int)
  let w := w.addWhen (q.riskLevels.length > 0) (.isIn .riskLevel q.riskLevels.length)
    (q.riskLevels.map .int)
  w

def keysetPred : SqlPred :=
  .or (.cmp .timeBucket .lt) (.and (.cmp .timeBucket .eq) (.cmp .id .lt))

def pageWhere (q : Query) (cur : Option (Int64 × Bytes)) : SqlWhere :=
  match cur with
  | some (tb, id) => q.clickhouseWhere.add keysetPred [bindTime tb, bindTime tb, .text id]
  | none => q.clickhouseWhere

def rowLess (a b : StoredEvent) : Bool :=
  let tb := a.timeBucket.toUInt64.toUInt32
  let tb' := b.timeBucket.toUInt64.toUInt32
  tb < tb' || (tb = tb' && a.id < b.id)

inductive ClickHouseError where
  | cursor (e : CursorError)
  | query
deriving DecidableEq

def clickhouseListEvents (rows : List StoredEvent) (q : Query) (limit : Int) (cursor : Bytes) :
    Except ClickHouseError EventPage := do
  let cur ← (decodeCursor cursor).mapError .cursor
  match selectRows (pageWhere q cur) rows with
  | none => throw .query
  | some out =>
    let out := (out.insertionSort fun a b => ¬ rowLess a b).take (pageLimit limit + 1)
    return cutPage out (pageLimit limit)

def clickhouseCount (rows : List StoredEvent) (q : Query) : Option Nat :=
  (selectRows q.clickhouseWhere rows).map fun out => (out.map StoredEvent.id).dedup.length

/-! ## Seconds that fit the column -/

def InRange (sec : Int64) : Prop := 0 ≤ sec.toInt ∧ sec.toInt < 2 ^ 32

instance (sec : Int64) : Decidable (InRange sec) := inferInstanceAs (Decidable (_ ∧ _))

theorem InRange.toNat {sec : Int64} (h : InRange sec) :
    (sec.toUInt64.toUInt32.toNat : Int) = sec.toInt := by
  obtain ⟨hlo, hhi⟩ := h
  have hlt := sec.toUInt64.toNat_lt
  change 0 ≤ sec.toBitVec.toInt at hlo
  change sec.toBitVec.toInt < 2 ^ 32 at hhi
  show ((sec.toBitVec.toNat % 2 ^ 32 : Nat) : Int) = sec.toBitVec.toInt
  rw [BitVec.toInt_eq_toNat_cond] at hlo hhi ⊢
  split at hlo <;> omega

theorem bindTime_lt_iff {a b : Int64} (ha : InRange a) (hb : InRange b) :
    a.toUInt64.toUInt32 < b.toUInt64.toUInt32 ↔ a < b := by
  rw [UInt32.lt_iff_toNat_lt, Int64.lt_iff_toInt_lt, ← ha.toNat, ← hb.toNat, Int.ofNat_lt]

theorem bindTime_eq_iff {a b : Int64} (ha : InRange a) (hb : InRange b) :
    a.toUInt64.toUInt32 = b.toUInt64.toUInt32 ↔ a = b := by
  rw [← UInt32.toNat_inj, ← Int64.toInt_inj, ← ha.toNat, ← hb.toNat, Int.ofNat_inj]

theorem rowLess_iff {a b : StoredEvent} (ha : InRange a.timeBucket) (hb : InRange b.timeBucket) :
    rowLess a b = true ↔ a.key < b.key := by
  rw [StoredEvent.key, StoredEvent.key, pageKey_lt_iff]
  simp [rowLess, bindTime_lt_iff ha hb, bindTime_eq_iff ha hb]

theorem ge_holds_iff {a b : Int64} (ha : InRange a) (hb : InRange b) :
    SqlCmp.ge.holds a.toUInt64.toUInt32 b.toUInt64.toUInt32 = true ↔ ¬ a < b := by
  simp only [SqlCmp.holds, Bool.or_eq_true, decide_eq_true_iff, bindTime_lt_iff hb ha,
    bindTime_eq_iff ha hb, Int64.lt_iff_toInt_lt, ← Int64.toInt_inj]
  omega

theorem le_holds_iff {a b : Int64} (ha : InRange a) (hb : InRange b) :
    SqlCmp.le.holds a.toUInt64.toUInt32 b.toUInt64.toUInt32 = true ↔ ¬ b < a := by
  simp only [SqlCmp.holds, Bool.or_eq_true, decide_eq_true_iff, bindTime_lt_iff ha hb,
    bindTime_eq_iff ha hb, Int64.lt_iff_toInt_lt, ← Int64.toInt_inj]
  omega

/-! ## What a generated condition means -/

def SqlPred.Means (p : SqlPred) (args : List SqlValue) (e : StoredEvent) (b : Bool) : Prop :=
  ∀ rest, p.eval e (args ++ rest) = some (b, rest)

def SqlWhere.Means (w : SqlWhere) (e : StoredEvent) (b : Bool) : Prop :=
  ∀ rest, SqlPred.evalAll e w.preds (w.args ++ rest) = some (b, rest)

section means

variable {e : StoredEvent} {b b' : Bool} {p p' : SqlPred} {args args' : List SqlValue}
  {w : SqlWhere}

theorem means_cmp {c : SqlColumn} {op : SqlCmp} {arg : SqlValue}
    (h : op.compare (c.value e) arg = some b) : (SqlPred.cmp c op).Means [arg] e b := by
  intro rest
  rw [singleton_append, SqlPred.eval, h]
  rfl

theorem means_text {c : SqlColumn} {s : Bytes} (hc : c.value e = .text s) (op : SqlCmp) (t : Bytes) :
    (SqlPred.cmp c op).Means [.text t] e (op.holds s t) :=
  means_cmp (by rw [hc]; rfl)

theorem means_time (op : SqlCmp) (sec : Int64) :
    (SqlPred.cmp .timeBucket op).Means [bindTime sec] e
      (op.holds e.timeBucket.toUInt64.toUInt32 sec.toUInt64.toUInt32) :=
  means_cmp rfl

theorem means_or (h : p.Means args e b) (h' : p'.Means args' e b') :
    (p.or p').Means (args ++ args') e (b || b') := by
  intro rest
  rw [append_assoc]
  simp only [SqlPred.eval, h _, h' _, Option.bind_eq_bind, Option.bind_some, Option.pure_def]

theorem means_and (h : p.Means args e b) (h' : p'.Means args' e b') :
    (p.and p').Means (args ++ args') e (b && b') := by
  intro rest
  rw [append_assoc]
  simp only [SqlPred.eval, h _, h' _, Option.bind_eq_bind, Option.bind_some, Option.pure_def]

theorem means_isIn {c : SqlColumn} {x : Int32} (hc : c.value e = .int x) (xs : List Int32) :
    (SqlPred.isIn c xs.length).Means (xs.map .int) e (xs.any (x = ·)) := by
  have hhits : ∀ ys : List Int32, (ys.map SqlValue.int).mapM (SqlCmp.eq.compare (c.value e)) =
      some (ys.map (decide <| x = ·)) := by
    intro ys
    induction ys with
    | nil => rfl
    | cons y ys ih =>
      rw [map_cons, mapM_cons, ih, hc]
      rfl
  intro rest
  have hlen : (xs.map SqlValue.int).length = xs.length := length_map _
  rw [SqlPred.eval, if_neg (by simp), take_left' hlen, drop_left' hlen, hhits,
    Option.map_some, any_map]
  rfl

theorem evalAll_append (e : StoredEvent) (ps : List SqlPred) (p : SqlPred) (args : List SqlValue) :
    SqlPred.evalAll e (ps ++ [p]) args =
      (SqlPred.evalAll e ps args).bind fun r =>
        (p.eval e r.2).map fun r' => (r.1 && r'.1, r'.2) := by
  induction ps generalizing args with
  | nil =>
    simp only [nil_append, SqlPred.evalAll, Option.bind_some]
    cases p.eval e args with
    | none => rfl
    | some r => simp
  | cons p' ps ih =>
    simp only [cons_append, SqlPred.evalAll, Option.bind_eq_bind, Option.pure_def]
    cases p'.eval e args with
    | none => rfl
    | some r =>
      simp only [Option.bind_some, ih]
      cases SqlPred.evalAll e ps r.2 with
      | none => rfl
      | some r' =>
        simp only [Option.bind_some]
        cases p.eval e r'.2 with
        | none => rfl
        | some r'' => simp [Bool.and_assoc]

theorem SqlWhere.Means.add (h : w.Means e b) (hp : p.Means args e b') :
    (w.add p args).Means e (b && b') := by
  intro rest
  show SqlPred.evalAll e (w.preds ++ [p]) (w.args ++ args ++ rest) = _
  rw [evalAll_append, append_assoc, h, Option.bind_some, hp]
  rfl

theorem SqlWhere.Means.addWhen (h : w.Means e b) (c : Prop) [Decidable c]
    (hp : p.Means args e b') : (w.addWhen c p args).Means e (b && (!decide c || b')) := by
  unfold SqlWhere.addWhen
  split
  · next hc => simpa [hc] using h.add hp
  · next hc => simpa [hc] using h

theorem SqlWhere.Means.holds (h : w.Means e b) : w.holds e = some b := by
  have hall := h []
  rw [append_nil] at hall
  unfold SqlWhere.holds
  rw [hall]

/-- **The generated condition selects the events that match the query.** -/
theorem clickhouseWhere_means {q : Query} {e : StoredEvent} (hfrom : InRange q.fromTime)
    (hto : InRange q.toTime) (he : InRange e.timeBucket) :
    q.clickhouseWhere.Means e (q.matches e) := by
  have hnone : (⟨[], []⟩ : SqlWhere).Means e true := fun _ => rfl
  have h := hnone.addWhen (q.tenantID ≠ []) (means_text (c := .tenantId) rfl .eq q.tenantID)
  replace h := h.addWhen (q.appID ≠ []) (means_text (c := .appId) rfl .eq q.appID)
  replace h := h.addWhen (q.policyHash ≠ []) (means_text (c := .policyHash) rfl .eq q.policyHash)
  replace h := h.addWhen (q.fromTime ≠ 0) (means_time .ge q.fromTime)
  replace h := h.addWhen (q.toTime ≠ 0) (means_time .le q.toTime)
  replace h := h.addWhen (q.eventTypes.length > 0) (means_isIn (c := .eventType) rfl q.eventTypes)
  replace h := h.addWhen (q.riskLevels.length > 0) (means_isIn (c := .riskLevel) rfl q.riskLevels)
  have hmatch : q.matches e = (true && (!decide (q.tenantID ≠ []) || decide (e.tenantID = q.tenantID))
      && (!decide (q.appID ≠ []) || decide (e.appID = q.appID))
      && (!decide (q.policyHash ≠ []) || decide (e.policyHash = q.policyHash))
      && (!decide (q.fromTime ≠ 0) ||
        SqlCmp.ge.holds e.timeBucket.toUInt64.toUInt32 q.fromTime.toUInt64.toUInt32)
      && (!decide (q.toTime ≠ 0) ||
        SqlCmp.le.holds e.timeBucket.toUInt64.toUInt32 q.toTime.toUInt64.toUInt32)
      && (!decide (q.eventTypes.length > 0) || q.eventTypes.any (e.eventType = ·))
      && (!decide (q.riskLevels.length > 0) || q.riskLevels.any (e.riskLevel = ·))) := by
    rw [Bool.eq_iff_iff, Query.matches_iff]
    simp only [Bool.and_eq_true, Bool.or_eq_true, Bool.not_eq_true', decide_eq_false_iff_not,
      decide_eq_true_iff, not_not, true_and, ge_holds_iff he hfrom, le_holds_iff he hto, and_assoc,
      any_eq_true, length_pos_iff, exists_eq_right']
  rw [hmatch]
  exact h

theorem pageWhere_means {q : Query} {e : StoredEvent} {cur : Option (Int64 × Bytes)}
    (hfrom : InRange q.fromTime) (hto : InRange q.toTime) (he : InRange e.timeBucket)
    (hcur : ∀ p ∈ cur, InRange p.1) :
    (pageWhere q cur).Means e
      (q.matches e && decide (Below StoredEvent.key (cur.map pageKey) e)) := by
  have hq := clickhouseWhere_means hfrom hto he
  cases cur with
  | none => simpa [pageWhere, Below] using hq
  | some p =>
    obtain ⟨tb, id⟩ := p
    have htb : InRange tb := hcur (tb, id) rfl
    have hpred : keysetPred.Means [bindTime tb, bindTime tb, .text id] e _ :=
      means_or (means_time .lt tb)
        (means_and (means_time .eq tb) (means_text (c := .id) rfl .lt id))
    have hafter : (SqlCmp.lt.holds e.timeBucket.toUInt64.toUInt32 tb.toUInt64.toUInt32 ||
        (SqlCmp.eq.holds e.timeBucket.toUInt64.toUInt32 tb.toUInt64.toUInt32 &&
          SqlCmp.lt.holds e.id id)) =
        decide (Below StoredEvent.key (some (pageKey (tb, id))) e) := by
      simp [SqlCmp.holds, bindTime_lt_iff he htb, bindTime_eq_iff he htb, Below,
        StoredEvent.key, pageKey_lt_iff]
    rw [hafter] at hpred
    exact hq.add hpred

end means

theorem selectRows_eq {w : SqlWhere} {rows : List StoredEvent} {f : StoredEvent → Bool}
    (h : ∀ e ∈ rows, w.Means e (f e)) : selectRows w rows = some (rows.filter f) := by
  induction rows with
  | nil => rfl
  | cons e rows ih =>
    rw [selectRows, (h e mem_cons_self).holds,
      ih fun e' he' => h e' (mem_cons_of_mem e he')]
    show some (if f e then e :: rows.filter f else rows.filter f) = _
    rw [filter_cons]

/-! ## The two stores -/

def rowKey (e : StoredEvent) : ℕ ×ₗ List ℕ :=
  toLex (e.timeBucket.toUInt64.toUInt32.toNat, e.id.map UInt8.toNat)

theorem rowKey_lt_iff {a b : StoredEvent} : rowKey a < rowKey b ↔ rowLess a b = true := by
  rw [rowKey, rowKey, Prod.Lex.toLex_lt_toLex, ← bytes_lt_iff]
  simp [rowLess, UInt32.lt_iff_toNat_lt, ← UInt32.toNat_inj]

theorem sort_eq_rows (out : List StoredEvent) :
    (out.insertionSort fun a b => ¬ rowLess a b) = descending rowKey out := by
  refine insertionSort_eq_descending _ (fun a b => ?_) out
  rw [← rowKey_lt_iff, not_lt]

theorem rowKey_le_iff {a b : StoredEvent} (ha : InRange a.timeBucket) (hb : InRange b.timeBucket) :
    rowKey a ≤ rowKey b ↔ a.key ≤ b.key := by
  rw [← not_lt, ← not_lt, rowKey_lt_iff, rowLess_iff hb ha]

theorem eq_of_key_eq {events : List StoredEvent} (hids : (events.map StoredEvent.id).Nodup)
    {a b : StoredEvent} (ha : a ∈ events) (hb : b ∈ events) (h : a.key = b.key) : a = b :=
  inj_on_of_nodup_map hids ha hb (Prod.mk.inj (pageKey_injective h)).2

theorem rows_eq {events rows : List StoredEvent} (hperm : rows.Perm events)
    (hids : (events.map StoredEvent.id).Nodup) (hbuckets : ∀ e ∈ events, InRange e.timeBucket)
    (f : StoredEvent → Bool) (cursor : Option (ℤ ×ₗ List ℕ)) :
    descending rowKey
        (rows.filter fun e => f e && decide (Below StoredEvent.key cursor e)) =
      (descending StoredEvent.key (events.filter f)).filter
        (Below StoredEvent.key cursor) := by
  have hrows : ∀ e ∈ descending rowKey
      (rows.filter fun e => f e && decide (Below StoredEvent.key cursor e)), e ∈ events := by
    intro e he
    rw [mem_descending, mem_filter] at he
    exact hperm.mem_iff.mp he.1
  have hevents : ∀ e ∈ (descending StoredEvent.key (events.filter f)).filter
      (Below StoredEvent.key cursor), e ∈ events := by
    intro e he
    rw [mem_filter, mem_descending, mem_filter] at he
    exact he.1.1
  refine @List.Perm.eq_of_pairwise _ (fun a b => b.key ≤ a.key) _ _ ?_ ?_ ?_ ?_
  · intro a b ha hb hba hab
    exact eq_of_key_eq hids (hrows a ha) (hevents b hb) (le_antisymm hab hba)
  · refine List.Pairwise.imp_of_mem ?_ (pairwise_le_descending rowKey _)
    intro a b ha hb hle
    exact (rowKey_le_iff (hbuckets b (hrows b hb)) (hbuckets a (hrows a ha))).mp hle
  · exact (pairwise_le_descending StoredEvent.key _).filter _
  · refine (perm_descending rowKey _).trans ?_
    have hboth : (events.filter fun e => f e && decide (Below StoredEvent.key cursor e)) =
        (events.filter f).filter (Below StoredEvent.key cursor) := by
      rw [filter_filter]
      simp only [Bool.and_comm]
    refine (hperm.filter _).trans ?_
    rw [hboth]
    exact ((perm_descending StoredEvent.key _).filter _).symm

theorem cutPage_take (out : List StoredEvent) {limit : Nat} (hlimit : 0 < limit) :
    cutPage (out.take (limit + 1)) limit = cutPage out limit := by
  rw [cutPage_eq _ hlimit, cutPage_eq _ hlimit, cut_take _ hlimit]

/--
**The two stores serve the same pages and counts**, whatever the order of the rows is, if no two
events have the same id and the times fit the column.
-/
theorem stores_agree {events rows : List StoredEvent} (hperm : rows.Perm events)
    (hids : (events.map StoredEvent.id).Nodup) (hbuckets : ∀ e ∈ events, InRange e.timeBucket)
    (q : Query) (hfrom : InRange q.fromTime) (hto : InRange q.toTime) (limit : Int) (cursor : Bytes)
    (hcursor : cursor = [] ∨ ∃ tb id, InRange tb ∧ cursor = encodeCursor tb id) :
    (∃ page, listEvents events q limit cursor = .ok page ∧
      clickhouseListEvents rows q limit cursor = .ok page) ∧
    clickhouseCount rows q = some (count events q) := by
  have hrange : ∀ e ∈ rows, InRange e.timeBucket := fun e he => hbuckets e (hperm.mem_iff.mp he)
  constructor
  · obtain ⟨cur, hcur, hin⟩ : ∃ cur, decodeCursor cursor = .ok cur ∧ ∀ p ∈ cur, InRange p.1 := by
      rcases hcursor with rfl | ⟨tb, id, htb, rfl⟩
      · exact ⟨none, rfl, nofun⟩
      · exact ⟨some (tb, id), decodeCursor_encodeCursor tb id, by rintro p ⟨⟩; exact htb⟩
    refine ⟨_, listEvents_eq events q limit hcur, ?_⟩
    have hselect := selectRows_eq fun e he => pageWhere_means hfrom hto (hrange e he) hin
    unfold clickhouseListEvents
    rw [hcur]
    show (match selectRows (pageWhere q cur) rows with
      | none => throw ClickHouseError.query
      | some out =>
        pure (cutPage ((out.insertionSort fun a b => ¬ rowLess a b).take (pageLimit limit + 1))
          (pageLimit limit))) = _
    rw [hselect]
    dsimp only
    rw [sort_eq_rows, rows_eq hperm hids hbuckets, cutPage_take _ (pageLimit_pos limit),
      cutPage_eq _ (pageLimit_pos limit)]
    rfl
  · have hselect := selectRows_eq fun e he => clickhouseWhere_means hfrom hto (hrange e he)
    have hnodup : ((rows.filter q.matches).map StoredEvent.id).Nodup :=
      ((hperm.map _).nodup_iff.mpr hids).sublist (filter_sublist.map _)
    unfold clickhouseCount count
    rw [hselect, Option.map_some, dedup_eq_self.mpr hnodup, length_map,
      ← countP_eq_length_filter, hperm.countP_eq]

theorem stores_agree_sample :
    ∃ page, listEvents [sampleStored [0x3a] 3600, sampleStored [0x78] 7200] sampleQuery 1
        (encodeCursor 7200 [0x79]) = .ok page ∧
      clickhouseListEvents [sampleStored [0x78] 7200, sampleStored [0x3a] 3600] sampleQuery 1
        (encodeCursor 7200 [0x79]) = .ok page :=
  (stores_agree (.swap _ _ _) (by decide) (by decide) sampleQuery (by decide) (by decide) 1 _
    (.inr ⟨7200, [0x79], by decide, rfl⟩)).1

end Kseal.Ingest
