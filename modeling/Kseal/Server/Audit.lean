import Kseal.Infra.Framing
import Kseal.Wire.Messages
import Mathlib.Data.List.Sort
import Mathlib.Data.String.Basic

/-!
# The audit chain (`control-plane/compliance/audit.go`)

Every change in the control plane is recorded in an event of the tenant's chain. The hash of an
event covers its fields and the hash of the event before it.

* `chain_tamperEvident` — intact chains with the same last hash are the same
-/

namespace Kseal.Audit

open Infra Wire List GoMap

/-! ## What is hashed -/

def auditDomain : Bytes := ascii "kseal/v1/audit-event"

structure Entry where
  action : String
  resourceType : String
  resourceID : String
  actorKeyID : String
  metadata : GoMap String String

def sortedPairs (md : GoMap String String) : List (String × String) :=
  ((md.pairs.map Prod.fst).mergeSort fun a b => decide (a ≤ b)).map fun k =>
    (k, (md.lookup k).getD "")

def canonicalMetadata (md : GoMap String String) : Bytes :=
  if md.pairs.length = 0 then []
  else (sortedPairs md).flatMap fun e => lp (utf8 e.1) ++ lp (utf8 e.2)

def auditPreimage (tenantID : String) (seq : Int64) (e : Entry) (createdAtMillis : Int64)
    (prevHash : String) : Bytes :=
  lp auditDomain ++ (lp (utf8 tenantID) ++ (i64Be seq ++ (lp (utf8 e.action) ++
    (lp (utf8 e.resourceType) ++ (lp (utf8 e.resourceID) ++ (lp (utf8 e.actorKeyID) ++
    (lp (canonicalMetadata e.metadata) ++ (i64Be createdAtMillis ++ lp (utf8 prevHash)))))))))

def hashAuditEvent (sha256 : Bytes → Bytes) (tenantID : String) (seq : Int64) (e : Entry)
    (createdAtMillis : Int64) (prevHash : String) : String :=
  hexEncode (sha256 (auditPreimage tenantID seq e createdAtMillis prevHash))

/-! ## The chain -/

structure VerifyResult where
  intact : Bool
  verifiedCount : Int64
  brokenSeq : Int64
  headHash : String
deriving DecidableEq

def entryOf (ev : AuditEvent) : Entry :=
  ⟨ev.action, ev.resourceType, ev.resourceId, ev.actorKeyId, ev.metadata⟩

def recomputeLoop (sha256 : Bytes → Bytes) (tenantID : String) :
    VerifyResult → String → Int64 → List AuditEvent → VerifyResult
  | res, _, _, [] => res
  | res, prevHash, expectSeq, ev :: rest =>
    if ev.seq ≠ expectSeq then { res with intact := false, brokenSeq := ev.seq }
    else
      let want := hashAuditEvent sha256 tenantID ev.seq (entryOf ev) ev.createdAt prevHash
      if ev.prevHash ≠ prevHash ∨ ev.hash ≠ want then
        { res with intact := false, brokenSeq := ev.seq }
      else
        recomputeLoop sha256 tenantID
          { res with verifiedCount := res.verifiedCount + 1, headHash := ev.hash }
          ev.hash (expectSeq + 1) rest

def recompute (sha256 : Bytes → Bytes) (tenantID : String) (events : List AuditEvent) :
    VerifyResult :=
  recomputeLoop sha256 tenantID ⟨true, 0, 0, ""⟩ "" 1 events

def validateEntry (e : Entry) : Except String Unit :=
  if e.action = "" then .error "compliance: audit action required" else .ok ()

def appendLocked (sha256 : Bytes → Bytes) (tenantID : String) (chain : List AuditEvent) (e : Entry)
    (created : Int64) : Except String (AuditEvent × List AuditEvent) := do
  validateEntry e
  let prevHash := (chain.getLast?.map AuditEvent.hash).getD ""
  let seq := Int64.ofNat (chain.length + 1)
  let ev : AuditEvent :=
    { tenantId := tenantID
      seq := seq
      action := e.action
      resourceType := e.resourceType
      resourceId := e.resourceID
      actorKeyId := e.actorKeyID
      metadata := e.metadata
      prevHash := prevHash
      hash := hashAuditEvent sha256 tenantID seq e created prevHash
      createdAt := created }
  pure (ev, chain ++ [ev])

/-! ## The bytes determine the event -/

theorem mem_sortedPairs {md : GoMap String String} {k v : String} :
    (k, v) ∈ sortedPairs md ↔ md.lookup k = some v := by
  unfold sortedPairs
  rw [mem_map]
  constructor
  · rintro ⟨k', hk', heq⟩
    cases heq
    rw [mem_mergeSort, mem_map] at hk'
    obtain ⟨⟨k'', v⟩, hpair, rfl⟩ := hk'
    have hlook := mem_pairs.mp hpair
    rw [hlook]
    rfl
  · intro hlook
    refine ⟨k, ?_, by rw [hlook]; rfl⟩
    rw [mem_mergeSort, mem_map]
    exact ⟨(k, v), mem_pairs.mpr hlook, rfl⟩

theorem canonicalMetadata_eq (md : GoMap String String) :
    canonicalMetadata md = (sortedPairs md).flatMap fun e => lp (utf8 e.1) ++ lp (utf8 e.2) := by
  unfold canonicalMetadata
  split
  · next hempty =>
    have hnil : sortedPairs md = [] := by
      simp [sortedPairs, eq_nil_of_length_eq_zero hempty]
    rw [hnil]
    rfl
  · rfl

def ShortPair (e : String × String) : Prop :=
  (utf8 e.1).length < 2 ^ 32 ∧ (utf8 e.2).length < 2 ^ 32

theorem flatMap_lp_inj {es es' : List (String × String)} (hes : ∀ e ∈ es, ShortPair e)
    (hes' : ∀ e ∈ es', ShortPair e)
    (h : (es.flatMap fun e => lp (utf8 e.1) ++ lp (utf8 e.2)) =
      es'.flatMap fun e => lp (utf8 e.1) ++ lp (utf8 e.2)) : es = es' := by
  induction es generalizing es' with
  | nil =>
    cases es' with
    | nil => rfl
    | cons e' es' =>
      have hlen := congrArg List.length h
      simp at hlen
      omega
  | cons e es ih =>
    cases es' with
    | nil =>
      have hlen := congrArg List.length h
      simp at hlen
    | cons e' es' =>
      rw [forall_mem_cons] at hes hes'
      rw [flatMap_cons, flatMap_cons, append_assoc, append_assoc] at h
      obtain ⟨hkey, h⟩ := lp_append_inj_of_lt hes.1.1 hes'.1.1 h
      obtain ⟨hvalue, h⟩ := lp_append_inj_of_lt hes.1.2 hes'.1.2 h
      rw [Prod.ext (utf8_injective hkey) (utf8_injective hvalue), ih hes.2 hes'.2 h]

/-- **The bytes of two maps are the same only if the maps are.** -/
theorem canonicalMetadata_inj {md md' : GoMap String String}
    (hmd : ∀ k v, md.lookup k = some v → ShortPair (k, v))
    (hmd' : ∀ k v, md'.lookup k = some v → ShortPair (k, v))
    (h : canonicalMetadata md = canonicalMetadata md') (k : String) :
    md.lookup k = md'.lookup k := by
  rw [canonicalMetadata_eq, canonicalMetadata_eq] at h
  have hpairs := flatMap_lp_inj (fun e he => hmd _ _ (mem_sortedPairs.mp he))
    (fun e he => hmd' _ _ (mem_sortedPairs.mp he)) h
  apply Option.ext
  intro v
  rw [← mem_sortedPairs, ← mem_sortedPairs, hpairs]

theorem nodup_keys (md : GoMap String String) : (md.pairs.map Prod.fst).Nodup := by
  have hkeys : md.pairs.map Prod.fst = md.keys := by
    simp [pairs, AList.keys, List.keys]
  rw [hkeys]
  exact md.keys_nodup

/-- **The bytes do not depend on the order of iteration.** -/
theorem canonicalMetadata_congr {md md' : GoMap String String}
    (h : ∀ k, md.lookup k = md'.lookup k) : canonicalMetadata md = canonicalMetadata md' := by
  have hkeys : (md.pairs.map Prod.fst).Perm (md'.pairs.map Prod.fst) := by
    rw [perm_ext_iff_of_nodup (nodup_keys md) (nodup_keys md')]
    intro k
    simp only [mem_map, Prod.exists, mem_pairs, h]
  have hsorted : sortedPairs md = sortedPairs md' := by
    unfold sortedPairs
    rw [((mergeSort_perm _ _).trans (hkeys.trans (mergeSort_perm _ _).symm)).eq_of_pairwise'
      (pairwise_mergeSort' (· ≤ ·) _) (pairwise_mergeSort' (· ≤ ·) _)]
    simp only [h]
  rw [canonicalMetadata_eq, canonicalMetadata_eq, hsorted]

structure ShortEntry (e : Entry) : Prop where
  action : (utf8 e.action).length < 2 ^ 32
  resourceType : (utf8 e.resourceType).length < 2 ^ 32
  resourceID : (utf8 e.resourceID).length < 2 ^ 32
  actorKeyID : (utf8 e.actorKeyID).length < 2 ^ 32
  metadata : ∀ k v, e.metadata.lookup k = some v → ShortPair (k, v)

structure SameEntry (e e' : Entry) : Prop where
  action : e.action = e'.action
  resourceType : e.resourceType = e'.resourceType
  resourceID : e.resourceID = e'.resourceID
  actorKeyID : e.actorKeyID = e'.actorKeyID
  metadata : ∀ k, e.metadata.lookup k = e'.metadata.lookup k

def auditFields (seq : Int64) (e : Entry) (createdAtMillis : Int64) (prevHash : String) : Bytes :=
  i64Be seq ++ (lp (utf8 e.action) ++ (lp (utf8 e.resourceType) ++ (lp (utf8 e.resourceID) ++
    (lp (utf8 e.actorKeyID) ++ (lp (canonicalMetadata e.metadata) ++ (i64Be createdAtMillis ++
    lp (utf8 prevHash)))))))

theorem auditPreimage_eq (tenantID : String) (seq : Int64) (e : Entry) (createdAtMillis : Int64)
    (prevHash : String) :
    auditPreimage tenantID seq e createdAtMillis prevHash =
      lp auditDomain ++ (lp (utf8 tenantID) ++ auditFields seq e createdAtMillis prevHash) := rfl

variable {seq created : Int64}

/-- **The bytes after the tenant determine the event.** -/
theorem auditFields_inj {seq' created' : Int64} {e e' : Entry} {prevHash prevHash' : String}
    (he : ShortEntry e) (he' : ShortEntry e') (hprev : (utf8 prevHash).length < 2 ^ 32)
    (hprev' : (utf8 prevHash').length < 2 ^ 32)
    (h : auditFields seq e created prevHash = auditFields seq' e' created' prevHash') :
    seq = seq' ∧ SameEntry e e' ∧ created = created' ∧ prevHash = prevHash' := by
  obtain ⟨hseq, h⟩ := i64Be_append_inj h
  obtain ⟨haction, h⟩ := lp_append_inj_of_lt he.action he'.action h
  obtain ⟨htype, h⟩ := lp_append_inj_of_lt he.resourceType he'.resourceType h
  obtain ⟨hid, h⟩ := lp_append_inj_of_lt he.resourceID he'.resourceID h
  obtain ⟨hactor, h⟩ := lp_append_inj_of_lt he.actorKeyID he'.actorKeyID h
  -- The lengths of the metadata differ by as much as those of the hashes, which are short.
  have hlen := congrArg List.length h
  simp only [length_append, length_lp, length_i64Be] at hlen
  obtain ⟨hmetadata, h⟩ := lp_append_inj (by omega) (by omega) h
  obtain ⟨hcreated, h⟩ := i64Be_append_inj h
  refine ⟨hseq, ?_, hcreated, utf8_injective (lp_inj hprev hprev' h)⟩
  exact
    { action := utf8_injective haction
      resourceType := utf8_injective htype
      resourceID := utf8_injective hid
      actorKeyID := utf8_injective hactor
      metadata := canonicalMetadata_inj he.metadata he'.metadata hmetadata }

structure Short (ev : AuditEvent) : Prop where
  action : (utf8 ev.action).length < 2 ^ 32
  resourceType : (utf8 ev.resourceType).length < 2 ^ 32
  resourceId : (utf8 ev.resourceId).length < 2 ^ 32
  actorKeyId : (utf8 ev.actorKeyId).length < 2 ^ 32
  metadata : ∀ k v, ev.metadata.lookup k = some v → ShortPair (k, v)
  prevHash : (utf8 ev.prevHash).length < 2 ^ 32

variable {ev : AuditEvent}

theorem Short.entry (h : Short ev) : ShortEntry (entryOf ev) :=
  ⟨h.action, h.resourceType, h.resourceId, h.actorKeyId, h.metadata⟩

structure SameEvent (ev ev' : AuditEvent) : Prop where
  seq : ev.seq = ev'.seq
  action : ev.action = ev'.action
  resourceType : ev.resourceType = ev'.resourceType
  resourceId : ev.resourceId = ev'.resourceId
  actorKeyId : ev.actorKeyId = ev'.actorKeyId
  metadata : ∀ k, ev.metadata.lookup k = ev'.metadata.lookup k
  createdAt : ev.createdAt = ev'.createdAt
  prevHash : ev.prevHash = ev'.prevHash
  hash : ev.hash = ev'.hash

def preimageOf (tenantID : String) (ev : AuditEvent) : Bytes :=
  auditPreimage tenantID ev.seq (entryOf ev) ev.createdAt ev.prevHash

/-- **The bytes that are hashed determine the event.** -/
theorem preimageOf_inj {tenantID : String} {ev' : AuditEvent} (hev : Short ev) (hev' : Short ev')
    (hhash : ev.hash = ev'.hash) (h : preimageOf tenantID ev = preimageOf tenantID ev') :
    SameEvent ev ev' := by
  unfold preimageOf at h
  obtain ⟨hseq, hentry, hcreated, hprev⟩ := auditFields_inj hev.entry hev'.entry hev.prevHash
    hev'.prevHash (append_cancel_left (append_cancel_left h))
  exact
    { seq := hseq
      action := hentry.action
      resourceType := hentry.resourceType
      resourceId := hentry.resourceID
      actorKeyId := hentry.actorKeyID
      metadata := hentry.metadata
      createdAt := hcreated
      prevHash := hprev
      hash := hhash }

/-! ## When a chain is intact -/

section chain

variable (sha256 : Bytes → Bytes) (tenantID : String)

structure Follows (prevHash : String) (seq : Int64) (ev : AuditEvent) : Prop where
  seq : ev.seq = seq
  prevHash : ev.prevHash = prevHash
  hash : ev.hash = hexEncode (sha256 (preimageOf tenantID ev))

def Linked : String → Int64 → List AuditEvent → Prop
  | _, _, [] => True
  | prevHash, seq, ev :: rest =>
    Follows sha256 tenantID prevHash seq ev ∧ Linked ev.hash (seq + 1) rest

def headOf (prevHash : String) (events : List AuditEvent) : String :=
  (events.getLast?.map AuditEvent.hash).getD prevHash

variable {sha256 tenantID}

theorem headOf_cons (prevHash : String) (ev : AuditEvent) (events : List AuditEvent) :
    headOf prevHash (ev :: events) = headOf ev.hash events := by
  unfold headOf
  rw [getLast?_cons]
  cases events.getLast? <;> rfl

theorem follows_iff {prevHash : String} :
    Follows sha256 tenantID prevHash seq ev ↔
      ev.seq = seq ∧ ¬ (ev.prevHash ≠ prevHash ∨
        ev.hash ≠ hashAuditEvent sha256 tenantID ev.seq (entryOf ev) ev.createdAt prevHash) := by
  rw [not_or, not_not, not_not]
  constructor
  · rintro ⟨hseq, rfl, hhash⟩
    exact ⟨hseq, rfl, hhash⟩
  · rintro ⟨hseq, rfl, hhash⟩
    exact ⟨hseq, rfl, hhash⟩

variable {res : VerifyResult}

theorem recomputeLoop_eq {prevHash : String} (seq : Int64) (events : List AuditEvent)
    (hres : res.intact = true) (hhead : res.headHash = prevHash) :
    ((recomputeLoop sha256 tenantID res prevHash seq events).intact = true ↔
        Linked sha256 tenantID prevHash seq events) ∧
      (Linked sha256 tenantID prevHash seq events →
        (recomputeLoop sha256 tenantID res prevHash seq events).headHash =
          headOf prevHash events) := by
  induction events generalizing res prevHash seq with
  | nil => exact ⟨iff_of_true hres trivial, fun _ => hhead⟩
  | cons ev events ih =>
    rw [recomputeLoop, headOf_cons]
    by_cases hfollows : Follows sha256 tenantID prevHash seq ev
    · obtain ⟨hseq, hlink⟩ := follows_iff.mp hfollows
      obtain ⟨hintact, hlast⟩ := @ih
        { res with verifiedCount := res.verifiedCount + 1, headHash := ev.hash } ev.hash (seq + 1)
        hres rfl
      rw [if_neg (not_not.mpr hseq)]
      rw [if_neg hlink]
      exact ⟨hintact.trans (and_iff_right hfollows).symm, fun h => hlast h.2⟩
    · refine ⟨iff_of_false ?_ fun h => hfollows h.1, fun h => absurd h.1 hfollows⟩
      rw [follows_iff] at hfollows
      split
      · exact Bool.false_ne_true
      · next hseq =>
        rw [if_pos (by tauto)]
        exact Bool.false_ne_true

/-- **What `recompute` finds.** -/
theorem recompute_eq (events : List AuditEvent) :
    ((recompute sha256 tenantID events).intact = true ↔ Linked sha256 tenantID "" 1 events) ∧
      (Linked sha256 tenantID "" 1 events →
        (recompute sha256 tenantID events).headHash = headOf "" events) :=
  recomputeLoop_eq 1 events rfl rfl

variable {events : List AuditEvent}

theorem recomputeLoop_count {prevHash : String} (h : Linked sha256 tenantID prevHash seq events) :
    (recomputeLoop sha256 tenantID res prevHash seq events).verifiedCount =
      res.verifiedCount + Int64.ofNat events.length := by
  induction events generalizing res prevHash seq with
  | nil => simp [recomputeLoop]
  | cons ev events ih =>
    obtain ⟨hfollows, hrest⟩ := h
    obtain ⟨hseq, hlink⟩ := follows_iff.mp hfollows
    rw [recomputeLoop, if_neg (not_not.mpr hseq)]
    rw [if_neg hlink, ih hrest, length_cons, Int64.ofNat_add, Int64.add_assoc,
      Int64.add_comm 1]
    rfl

theorem recompute_count (h : Linked sha256 tenantID "" 1 events) :
    (recompute sha256 tenantID events).verifiedCount = Int64.ofNat events.length := by
  rw [recompute, recomputeLoop_count h, Int64.zero_add]

theorem headOf_concat (prevHash : String) (events : List AuditEvent) (ev : AuditEvent) :
    headOf prevHash (events ++ [ev]) = ev.hash := by
  simp [headOf]

theorem linked_concat {prevHash : String} :
    Linked sha256 tenantID prevHash seq (events ++ [ev]) ↔
      Linked sha256 tenantID prevHash seq events ∧
        Follows sha256 tenantID (headOf prevHash events) (seq + Int64.ofNat events.length) ev := by
  induction events generalizing prevHash seq with
  | nil => simp [Linked, headOf]
  | cons ev' events ih =>
    have hseq : seq + Int64.ofNat (events.length + 1) = seq + 1 + Int64.ofNat events.length := by
      rw [Int64.ofNat_add, Int64.add_assoc, Int64.add_comm 1]
      rfl
    rw [cons_append, Linked, Linked, ih, headOf_cons, length_cons, hseq, and_assoc]

/-- **A chain stays intact when an event is appended to it.** -/
theorem linked_appendLocked {chain chain' : List AuditEvent} {e : Entry}
    (h : appendLocked sha256 tenantID chain e created = .ok (ev, chain'))
    (hchain : Linked sha256 tenantID "" 1 chain) : Linked sha256 tenantID "" 1 chain' := by
  obtain ⟨-, -, h⟩ := bind_eq_ok h
  cases h
  refine linked_concat.mpr ⟨hchain, ?_, rfl, rfl⟩
  rw [Int64.ofNat_add, Int64.add_comm]
  rfl

/-! ## Chains with the same last hash -/

def NoCollision (sha256 : Bytes → Bytes) (tenantID : String) (es es' : List AuditEvent) : Prop :=
  ∀ ev ∈ es, ∀ ev' ∈ es', sha256 (preimageOf tenantID ev) = sha256 (preimageOf tenantID ev') →
    preimageOf tenantID ev = preimageOf tenantID ev'

theorem Follows.hash_ne_empty {prevHash : String} (hsha : ∀ m, (sha256 m).length = 32)
    (h : Follows sha256 tenantID prevHash seq ev) :
    ev.hash ≠ "" := by
  rw [h.hash]
  apply hexEncode_ne_empty
  intro hnil
  have hlen := hsha (preimageOf tenantID ev)
  rw [hnil] at hlen
  simp at hlen

theorem Follows.same {prevHash prevHash' : String} {seq seq' : Int64} {ev ev' : AuditEvent}
    (h : Follows sha256 tenantID prevHash seq ev) (h' : Follows sha256 tenantID prevHash' seq' ev')
    (hcoll : sha256 (preimageOf tenantID ev) = sha256 (preimageOf tenantID ev') →
      preimageOf tenantID ev = preimageOf tenantID ev')
    (hev : Short ev) (hev' : Short ev') (hhash : ev.hash = ev'.hash) : SameEvent ev ev' := by
  refine preimageOf_inj hev hev' hhash (hcoll (hexEncode_injective ?_))
  rw [← h.hash, ← h'.hash, hhash]

theorem Linked.same {es es' : List AuditEvent} (hsha : ∀ m, (sha256 m).length = 32)
    (hcoll : NoCollision sha256 tenantID es es') (hes : ∀ ev ∈ es, Short ev)
    (hes' : ∀ ev ∈ es', Short ev) (h : Linked sha256 tenantID "" 1 es)
    (h' : Linked sha256 tenantID "" 1 es') (hhead : headOf "" es = headOf "" es') :
    List.Forall₂ SameEvent es es' := by
  induction es using List.reverseRecOn generalizing es' with
  | nil =>
    rcases eq_nil_or_concat es' with rfl | ⟨es', ev', rfl⟩
    · exact .nil
    · rw [concat_eq_append] at h' hhead
      rw [headOf_concat] at hhead
      exact absurd hhead.symm ((linked_concat.mp h').2.hash_ne_empty hsha)
  | append_singleton es ev ih =>
    obtain ⟨hlinked, hfollows⟩ := linked_concat.mp h
    rw [headOf_concat] at hhead
    rcases eq_nil_or_concat es' with rfl | ⟨es', ev', rfl⟩
    · exact absurd hhead (hfollows.hash_ne_empty hsha)
    · rw [concat_eq_append] at *
      obtain ⟨hlinked', hfollows'⟩ := linked_concat.mp h'
      rw [headOf_concat] at hhead
      have hsame : SameEvent ev ev' := hfollows.same hfollows'
        (hcoll ev (by simp) ev' (by simp)) (hes ev (by simp)) (hes' ev' (by simp)) hhead
      -- The hashes before the two events are part of them.
      have hprev : headOf "" es = headOf "" es' := by
        rw [← hfollows.prevHash, ← hfollows'.prevHash, hsame.prevHash]
      have hinit := ih
        (fun e he e' he' => hcoll e (mem_append_left _ he) e' (mem_append_left _ he'))
        (fun e he => hes e (mem_append_left _ he))
        (fun e he => hes' e (mem_append_left _ he)) hlinked hlinked' hprev
      exact rel_append hinit (.cons hsame .nil)

/-- **Tamper evidence**: two lists of events that are both intact and have the same last hash have
the same length and agree event by event. -/
theorem chain_tamperEvident (sha256 : Bytes → Bytes) (tenantID : String)
    (es es' : List AuditEvent) (hsha : ∀ m, (sha256 m).length = 32)
    (hcoll : NoCollision sha256 tenantID es es') (hes : ∀ ev ∈ es, Short ev)
    (hes' : ∀ ev ∈ es', Short ev)
    (hintact : (recompute sha256 tenantID es).intact = true)
    (hintact' : (recompute sha256 tenantID es').intact = true)
    (hhead : (recompute sha256 tenantID es).headHash = (recompute sha256 tenantID es').headHash) :
    es.length = es'.length ∧ List.Forall₂ SameEvent es es' := by
  have hlinked := (recompute_eq es).1.mp hintact
  have hlinked' := (recompute_eq es').1.mp hintact'
  rw [(recompute_eq es).2 hlinked, (recompute_eq es').2 hlinked'] at hhead
  have hsame := hlinked.same hsha hcoll hes hes' hlinked' hhead
  exact ⟨hsame.length_eq, hsame⟩

end chain

def firstPromotion (metadata : GoMap String String) : AuditEvent where
  tenantId := "t"
  seq := 1
  action := "canary.promote"
  resourceType := "canary"
  resourceId := "a"
  actorKeyId := "k"
  metadata := metadata
  prevHash := ""
  hash := "f995493e39484a0cf8be126280011df4c8b6771088533228d454589e191cff44"
  createdAt := 1700000000000

def firstDigest : Bytes :=
  [249, 149, 73, 62, 57, 72, 74, 12, 248, 190, 18, 98, 128, 1, 29, 244, 200, 182, 119, 16, 136, 83,
    50, 40, 212, 84, 88, 158, 25, 28, 255, 68]

def promotedInApp : GoMap String String :=
  ((∅ : GoMap String String).insert "policy_id" "p").insert "app_id" "a"

def appPromoted : GoMap String String :=
  ((∅ : GoMap String String).insert "app_id" "a").insert "policy_id" "p"

theorem pairs_promotedInApp : promotedInApp.pairs = [("app_id", "a"), ("policy_id", "p")] := by
  decide +kernel

theorem pairs_appPromoted : appPromoted.pairs = [("policy_id", "p"), ("app_id", "a")] := by
  decide +kernel

theorem lookup_promotedInApp (k : String) : promotedInApp.lookup k = appPromoted.lookup k := by
  apply Option.ext
  intro v
  rw [← mem_pairs, ← mem_pairs]
  exact (List.Perm.swap _ _ _).mem_iff

theorem short_firstPromotion {metadata : GoMap String String}
    (h : ∀ e ∈ metadata.pairs, ShortPair e) : Short (firstPromotion metadata) where
  action := show (utf8 "canary.promote").length < 2 ^ 32 by decide +kernel
  resourceType := show (utf8 "canary").length < 2 ^ 32 by decide +kernel
  resourceId := show (utf8 "a").length < 2 ^ 32 by decide +kernel
  actorKeyId := show (utf8 "k").length < 2 ^ 32 by decide +kernel
  metadata := fun _ _ hlook => h _ (mem_pairs.mpr hlook)
  prevHash := show (utf8 "").length < 2 ^ 32 by decide +kernel

theorem firstPromotion_tamperEvident :
    (recompute (fun _ => firstDigest) "t" [firstPromotion promotedInApp]).intact = true ∧
      List.Forall₂ SameEvent [firstPromotion promotedInApp] [firstPromotion appPromoted] := by
  have happ : ShortPair ("app_id", "a") := by constructor <;> decide +kernel
  have hpolicy : ShortPair ("policy_id", "p") := by constructor <;> decide +kernel
  refine ⟨by decide +kernel, (chain_tamperEvident (fun _ => firstDigest) "t" _ _ (fun _ => rfl) ?_
    ?_ ?_ (by decide +kernel) (by decide +kernel) (by decide +kernel)).2⟩
  · intro ev hev ev' hev' _
    rw [mem_singleton] at hev hev'
    subst hev hev'
    simp only [preimageOf, auditPreimage, entryOf, firstPromotion,
      canonicalMetadata_congr lookup_promotedInApp]
  · rw [forall_mem_singleton]
    apply short_firstPromotion
    rw [pairs_promotedInApp]
    simp [happ, hpolicy]
  · rw [forall_mem_singleton]
    apply short_firstPromotion
    rw [pairs_appPromoted]
    simp [happ, hpolicy]

end Kseal.Audit
