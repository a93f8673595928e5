import Kseal.Ingest.QueryService

/-!
# `kseal events tail` (`kseal-cli/internal/cli/events.go`)

Each poll prints what is new on the newest page, in the order of time buckets. An event is printed
once exactly if it is on that page when it arrives (`printed_once_iff`).
-/

namespace Kseal.Cli

open Infra Ingest Server List

/-! ## The command -/

structure EventFilterFlags where
  appID : Bytes
  eventTypes : List Int32
  riskLevels : List Int32
  start : Int64
  stop : Int64

def EventFilterFlags.request (f : EventFilterFlags) (tenant : String) (pageSize : Int32)
    (pageToken : Bytes) : ListEventsRequest :=
  ⟨tenant, f.appID, f.eventTypes, f.riskLevels, f.start, f.stop, pageSize, pageToken⟩

def tailPageSize (pageSize : Int32) : Int32 := if pageSize ≤ 0 then 100 else pageSize

def maxSeen : Nat := 10000

def pruneSeen (seen : List Bytes) (recent : List EventRecord) : List Bytes :=
  if seen.length ≤ maxSeen then seen else seen.filter (· ∈ recent.map EventRecord.id)

def freshLoop : List EventRecord → List Bytes → List EventRecord × List Bytes
  | [], seen => ([], seen)
  | e :: es, seen =>
    if e.id ∈ seen then freshLoop es seen
    else (e :: (freshLoop es (e.id :: seen)).1, (freshLoop es (e.id :: seen)).2)

structure TailState where
  events : List StoredEvent
  seen : List Bytes

def poll (ctx : Option Principal) (m : ListEventsRequest) (s : TailState) :
    Except QueryError (List EventRecord × TailState) := do
  let resp ← queryListEvents s.events ctx m
  let (fresh, seen) := freshLoop resp.events.reverse s.seen
  return (fresh, { s with seen := pruneSeen seen resp.events })

def tailRun (ctx : Option Principal) (m : ListEventsRequest) :
    TailState → List (List StoredEvent) → Except QueryError (List (List EventRecord) × TailState)
  | s, [] => .ok ([], s)
  | s, added :: rest => do
    let (printed, s) ← poll ctx m { s with events := s.events ++ added }
    let (printeds, s) ← tailRun ctx m s rest
    return (printed :: printeds, s)

def TailState.start (events : List StoredEvent) : TailState := ⟨events, []⟩

/-! ## One page -/

theorem freshLoop_spec (es : List EventRecord) (seen : List Bytes)
    (h : (es.map EventRecord.id).Nodup) :
    (freshLoop es seen).1 = es.filter (·.id ∉ seen) ∧
      ∀ id, id ∈ (freshLoop es seen).2 ↔ id ∈ seen ∨ id ∈ es.map EventRecord.id := by
  induction es generalizing seen with
  | nil => simp [freshLoop]
  | cons e es ih =>
    rw [map_cons, nodup_cons] at h
    unfold freshLoop
    split
    · next hmem =>
      obtain ⟨hfresh, hseen⟩ := ih seen h.2
      rw [filter_cons_of_neg (by simpa using hmem)]
      refine ⟨hfresh, fun id => ?_⟩
      rw [hseen, map_cons, mem_cons]
      constructor
      · rintro (h | h)
        · exact .inl h
        · exact .inr (.inr h)
      · rintro (h | rfl | h)
        · exact .inl h
        · exact .inl hmem
        · exact .inr h
    · next hmem =>
      obtain ⟨hfresh, hseen⟩ := ih (e.id :: seen) h.2
      rw [filter_cons_of_pos (by simpa using hmem)]
      refine ⟨?_, fun id => ?_⟩
      · rw [hfresh]
        refine congrArg (e :: ·) (filter_congr fun e' he' => ?_)
        have hne : e'.id ≠ e.id := by
          intro heq
          exact h.1 (heq ▸ mem_map_of_mem he')
        simp [hne]
      · rw [hseen, map_cons, mem_cons, mem_cons, or_comm (a := id = e.id), or_assoc]

variable {seen : List Bytes} {recent : List EventRecord} {id : Bytes}

theorem mem_of_mem_pruneSeen (h : id ∈ pruneSeen seen recent) : id ∈ seen := by
  unfold pruneSeen at h
  split at h
  · exact h
  · exact (mem_filter.mp h).1

theorem mem_pruneSeen (h : id ∈ seen) (hrecent : id ∈ recent.map EventRecord.id) :
    id ∈ pruneSeen seen recent := by
  unfold pruneSeen
  split
  · exact h
  · exact mem_filter.mpr ⟨h, decide_eq_true hrecent⟩

/-! ## One poll -/

section poll

variable (ctx : Option Principal) (m : ListEventsRequest) (tenant : String)

def above (events : List StoredEvent) (e : StoredEvent) : Nat :=
  (events.filter (requestQuery tenant m).matches).countP fun e' => eventLess e e'

variable {ctx m tenant} {s s' : TailState} {printed : List EventRecord}

def newestPage (m : ListEventsRequest) (tenant : String) (events : List StoredEvent) :
    List StoredEvent :=
  (Keyset.page StoredEvent.key (events.filter (requestQuery tenant m).matches)
    (pageLimit m.pageSize.toInt) none).events

variable {events : List StoredEvent}

theorem mem_newestPage (hids : (events.map StoredEvent.id).Nodup) (e : StoredEvent) :
    e ∈ newestPage m tenant events ↔ e ∈ events ∧ (requestQuery tenant m).matches e = true ∧
      above m tenant events e < pageLimit m.pageSize.toInt := by
  have hkeys := (distinctPairs_of_ids hids).keys (requestQuery tenant m)
  have habove : ∀ e' : StoredEvent, eventLess e e' = decide (e.key < e'.key) := fun e' => by
    rw [Bool.eq_iff_iff, eventLess_iff, decide_eq_true_iff]
  unfold newestPage above
  rw [Keyset.mem_firstPage_iff hkeys, mem_filter, and_assoc]
  simp only [habove]

theorem nodup_newestPage (hids : (events.map StoredEvent.id).Nodup) :
    ((newestPage m tenant events).map StoredEvent.id).Nodup := by
  have hkeys := (distinctPairs_of_ids hids).keys (requestQuery tenant m)
  have hdescending := (Keyset.page_spec hkeys (pageLimit_pos m.pageSize.toInt) none).descending
  refine List.Nodup.map_on (fun a ha b hb hab => ?_) (hdescending.imp fun hlt => ?_)
  · exact inj_on_of_nodup_map hids ((mem_newestPage hids a).mp ha).1
      ((mem_newestPage hids b).mp hb).1 hab
  · rintro rfl
    exact lt_irrefl _ hlt

theorem poll_eq (htenant : requireTenant ctx m.tenantId = .ok tenant) (htoken : m.pageToken = [])
    (h : poll ctx m s = .ok (printed, s')) :
    printed = (freshLoop ((newestPage m tenant s.events).map toEventRecord).reverse s.seen).1 ∧
      s' = ⟨s.events, pruneSeen
        (freshLoop ((newestPage m tenant s.events).map toEventRecord).reverse s.seen).2
        ((newestPage m tenant s.events).map toEventRecord)⟩ := by
  have hm : { m with pageToken := [] } = m := by
    cases m
    cases htoken
    rfl
  have hresp : queryListEvents s.events ctx { m with pageToken := [] } = .ok ⟨_, _⟩ :=
    queryListEvents_eq s.events htenant (show decodeCursor [] = .ok none from rfl)
  rw [hm] at hresp
  unfold poll at h
  rw [hresp] at h
  cases h
  exact ⟨rfl, rfl⟩

structure PollSpec (m : ListEventsRequest) (tenant : String) (s s' : TailState)
    (printed : List EventRecord) : Prop where
  events : s'.events = s.events
  count_printed : ∀ e ∈ s.events, (requestQuery tenant m).matches e = true →
    printed.count (toEventRecord e) =
      if e.id ∉ s.seen ∧ above m tenant s.events e < pageLimit m.pageSize.toInt then 1 else 0
  printed_mem : ∀ r ∈ printed, ∃ e ∈ s.events, r = toEventRecord e
  seen_mem : ∀ id ∈ s'.seen, id ∈ s.seen ∨ id ∈ s.events.map StoredEvent.id
  settled : ∀ e ∈ s.events, (requestQuery tenant m).matches e = true →
    e.id ∈ s'.seen ∨ pageLimit m.pageSize.toInt ≤ above m tenant s.events e

theorem poll_spec (htenant : requireTenant ctx m.tenantId = .ok tenant) (htoken : m.pageToken = [])
    (hids : (s.events.map StoredEvent.id).Nodup) (h : poll ctx m s = .ok (printed, s')) :
    PollSpec m tenant s s' printed := by
  obtain ⟨rfl, rfl⟩ := poll_eq htenant htoken h
  have hmem : ∀ e, e ∈ newestPage m tenant s.events ↔ _ := mem_newestPage hids
  have hpage : ((newestPage m tenant s.events).map StoredEvent.id).Nodup := nodup_newestPage hids
  generalize newestPage m tenant s.events = page at hmem hpage ⊢
  have hids' : (page.map toEventRecord).reverse.map EventRecord.id =
      (page.map StoredEvent.id).reverse := by
    rw [map_reverse, map_map]
    rfl
  obtain ⟨hfresh, hseen⟩ := freshLoop_spec (page.map toEventRecord).reverse s.seen
    (by rw [hids']; exact nodup_reverse.mpr hpage)
  have hnodup : (page.map toEventRecord).reverse.Nodup :=
    List.Nodup.of_map EventRecord.id (by rw [hids']; exact nodup_reverse.mpr hpage)
  -- A record is on the page if its event is, since records have the ids of their events.
  have hrecord : ∀ e ∈ s.events, toEventRecord e ∈ (page.map toEventRecord).reverse ↔ e ∈ page := by
    intro e he
    rw [mem_reverse, mem_map]
    constructor
    · rintro ⟨e', he', hsame⟩
      have heq : e' = e := inj_on_of_nodup_map hids ((hmem e').mp he').1 he
        (congrArg EventRecord.id hsame)
      exact heq ▸ he'
    · exact fun h => ⟨e, h, rfl⟩
  refine ⟨rfl, ?_, ?_, ?_, ?_⟩
  · intro e he hmatch
    rw [hfresh]
    split
    · next hprint =>
      refine count_eq_one_of_mem (hnodup.filter _) (mem_filter.mpr ⟨?_, ?_⟩)
      · exact (hrecord e he).mpr ((hmem e).mpr ⟨he, hmatch, hprint.2⟩)
      · exact decide_eq_true hprint.1
    · next hskip =>
      refine count_eq_zero.mpr fun hin => hskip ?_
      rw [mem_filter, hrecord e he, hmem, decide_eq_true_iff] at hin
      exact ⟨hin.2, hin.1.2.2⟩
  · intro r hr
    rw [hfresh, mem_filter, mem_reverse, mem_map] at hr
    obtain ⟨⟨e, he, rfl⟩, -⟩ := hr
    exact ⟨e, ((hmem e).mp he).1, rfl⟩
  · intro id hid
    have hid' := mem_of_mem_pruneSeen hid
    rw [hseen, hids', mem_reverse] at hid'
    rcases hid' with hold | hnew
    · exact .inl hold
    · obtain ⟨e, he, rfl⟩ := mem_map.mp hnew
      exact .inr (mem_map_of_mem ((hmem e).mp he).1)
  · intro e he hmatch
    rcases Nat.lt_or_ge (above m tenant s.events e) (pageLimit m.pageSize.toInt) with hlt | hge
    · left
      have hon : e ∈ page := (hmem e).mpr ⟨he, hmatch, hlt⟩
      have hid : e.id ∈ page.map StoredEvent.id := mem_map_of_mem hon
      refine mem_pruneSeen ?_ ?_
      · rw [hseen, hids', mem_reverse]
        exact .inr hid
      · rw [map_map]
        exact hid
    · exact .inr hge

end poll

/-! ## Many polls -/

section runs

variable {ctx : Option Principal} {m : ListEventsRequest} {tenant : String} {s s' : TailState}
  {batches : List (List StoredEvent)} {printeds : List (List EventRecord)}

variable {added : List StoredEvent}

theorem tailRun_cons (h : tailRun ctx m s (added :: batches) = .ok (printeds, s')) :
    ∃ printed s₁ rest, poll ctx m { s with events := s.events ++ added } = .ok (printed, s₁) ∧
      tailRun ctx m s₁ batches = .ok (rest, s') ∧ printeds = printed :: rest := by
  obtain ⟨⟨printed, s₁⟩, hpoll, h⟩ := bind_eq_ok h
  obtain ⟨⟨rest, s₂⟩, hrest, h⟩ := bind_eq_ok h
  cases h
  exact ⟨printed, s₁, rest, hpoll, hrest, rfl⟩

theorem tailRun_cons_spec (htenant : requireTenant ctx m.tenantId = .ok tenant)
    (htoken : m.pageToken = [])
    (hids : ((s.events ++ (added :: batches).flatten).map StoredEvent.id).Nodup)
    (h : tailRun ctx m s (added :: batches) = .ok (printeds, s')) :
    ∃ printed s₁ rest, PollSpec m tenant { s with events := s.events ++ added } s₁ printed ∧
      s₁.events = s.events ++ added ∧ ((s₁.events ++ batches.flatten).map StoredEvent.id).Nodup ∧
      tailRun ctx m s₁ batches = .ok (rest, s') ∧ printeds = printed :: rest := by
  obtain ⟨printed, s₁, rest, hpoll, hrest, rfl⟩ := tailRun_cons h
  rw [flatten_cons, ← append_assoc] at hids
  have hnow : ((s.events ++ added).map StoredEvent.id).Nodup :=
    hids.sublist ((sublist_append_left _ _).map _)
  have hspec := poll_spec htenant htoken hnow hpoll
  have hevents : s₁.events = s.events ++ added := hspec.events
  exact ⟨printed, s₁, rest, hspec, hevents, by rwa [hevents], hrest, rfl⟩

theorem tailRun_append {pre post : List (List StoredEvent)}
    (h : tailRun ctx m s (pre ++ post) = .ok (printeds, s')) :
    ∃ before s₁ rest, tailRun ctx m s pre = .ok (before, s₁) ∧
      tailRun ctx m s₁ post = .ok (rest, s') ∧ printeds = before ++ rest ∧
      before.length = pre.length := by
  induction pre generalizing s printeds with
  | nil => exact ⟨[], s, printeds, rfl, h, rfl, rfl⟩
  | cons added pre ih =>
    obtain ⟨printed, s₁, rest, hpoll, hrest, rfl⟩ := tailRun_cons h
    obtain ⟨before, s₂, rest', hbefore, hpost, rfl, hlen⟩ := ih hrest
    refine ⟨printed :: before, s₂, rest', ?_, hpost, rfl, by simp [hlen]⟩
    show (poll ctx m { s with events := s.events ++ added } >>= fun p =>
      tailRun ctx m p.2 pre >>= fun q => pure (p.1 :: q.1, q.2)) = _
    rw [hpoll, ok_bind, hbefore]
    rfl

theorem above_append (events added : List StoredEvent) (e : StoredEvent) :
    above m tenant events e ≤ above m tenant (events ++ added) e := by
  unfold above
  rw [filter_append, countP_append]
  omega

def SeenStored (s : TailState) : Prop := ∀ id ∈ s.seen, id ∈ s.events.map StoredEvent.id

structure RunSpec (s s' : TailState) (batches : List (List StoredEvent))
    (printeds : List (List EventRecord)) : Prop where
  events : s'.events = s.events ++ batches.flatten
  seen : SeenStored s'
  printed_mem : ∀ printed ∈ printeds, ∀ r ∈ printed, ∃ e ∈ s'.events, r = toEventRecord e

theorem run_spec (htenant : requireTenant ctx m.tenantId = .ok tenant) (htoken : m.pageToken = [])
    (hids : ((s.events ++ batches.flatten).map StoredEvent.id).Nodup) (hseen : SeenStored s)
    (h : tailRun ctx m s batches = .ok (printeds, s')) : RunSpec s s' batches printeds := by
  induction batches generalizing s printeds with
  | nil =>
    cases h
    exact ⟨by simp, hseen, nofun⟩
  | cons added batches ih =>
    obtain ⟨printed, s₁, rest, hspec, hevents, hids', hrest, rfl⟩ :=
      tailRun_cons_spec htenant htoken hids h
    have hrun := ih hids' ?_ hrest
    · refine ⟨?_, hrun.seen, ?_⟩
      · rw [hrun.events, hevents, flatten_cons, append_assoc]
      · intro p hp r hr
        rcases mem_cons.mp hp with rfl | hp
        · obtain ⟨e, he, rfl⟩ := hspec.printed_mem r hr
          refine ⟨e, ?_, rfl⟩
          rw [hrun.events, hevents]
          exact mem_append_left _ he
        · exact hrun.printed_mem p hp r hr
    · intro id hid
      rw [hevents]
      rcases hspec.seen_mem id hid with hold | hnew
      · rw [map_append]
        exact mem_append_left _ (hseen id hold)
      · exact hnew

/-- **An event that was seen, or is not on the page, is not printed any more.** -/
theorem not_printed_later (htenant : requireTenant ctx m.tenantId = .ok tenant)
    (htoken : m.pageToken = []) (hids : ((s.events ++ batches.flatten).map StoredEvent.id).Nodup)
    (h : tailRun ctx m s batches = .ok (printeds, s')) {e : StoredEvent} (he : e ∈ s.events)
    (hmatch : (requestQuery tenant m).matches e = true)
    (hsettled : e.id ∈ s.seen ∨ pageLimit m.pageSize.toInt ≤ above m tenant s.events e) :
    ∀ printed ∈ printeds, printed.count (toEventRecord e) = 0 := by
  induction batches generalizing s printeds with
  | nil =>
    cases h
    nofun
  | cons added batches ih =>
    obtain ⟨printed, s₁, rest, hspec, hevents, hids', hrest, rfl⟩ :=
      tailRun_cons_spec htenant htoken hids h
    have he' : e ∈ s.events ++ added := mem_append_left _ he
    have hmore : above m tenant s.events e ≤ above m tenant (s.events ++ added) e :=
      above_append s.events added e
    intro p hp
    rcases mem_cons.mp hp with rfl | hp
    · rw [hspec.count_printed e he' hmatch]
      refine if_neg ?_
      rintro ⟨hnew, hlt⟩
      rcases hsettled with hold | hge
      · exact hnew hold
      · dsimp only at hlt
        omega
    · refine ih hids' hrest (hevents ▸ he') ?_ p hp
      rw [hevents]
      exact hspec.settled e he' hmatch

theorem count_eq_iff {before later : List (List EventRecord)} {printed : List EventRecord}
    {r : EventRecord} (hbefore : ∀ p ∈ before, p.count r = 0)
    (hlater : ∀ p ∈ later, p.count r = 0) :
    (∀ i p, (before ++ printed :: later)[i]? = some p →
      p.count r = if i = before.length then 1 else 0) ↔ printed.count r = 1 := by
  constructor
  · intro h
    have hone := h before.length printed (by simp)
    rwa [if_pos rfl] at hone
  · intro hone i p hp
    rcases Nat.lt_trichotomy i before.length with hi | rfl | hi
    · rw [getElem?_append_left hi] at hp
      rw [hbefore p (mem_of_getElem? hp), if_neg (by omega)]
    · rw [getElem?_append_right (Nat.le_refl _), Nat.sub_self] at hp
      cases hp
      rw [hone, if_pos rfl]
    · rw [getElem?_append_right (by omega)] at hp
      obtain ⟨j, hj⟩ := Nat.exists_eq_succ_of_ne_zero (show i - before.length ≠ 0 by omega)
      rw [hj] at hp
      rw [hlater p (mem_of_getElem? hp), if_neg (by omega)]

/--
**An event is printed once, by the poll after its arrival, exactly if fewer events than the page holds
are then before it.** The events of `pre` arrive before earlier polls, those of `post` later.
-/
theorem printed_once_iff (f : EventFilterFlags) {pageSize : Int32} {body : String}
    (htenant : requireTenant ctx body = .ok tenant) {events : List StoredEvent}
    {pre post : List (List StoredEvent)} {added : List StoredEvent}
    (hids : ((events ++ (pre ++ added :: post).flatten).map StoredEvent.id).Nodup)
    (h : tailRun ctx (f.request body (tailPageSize pageSize) []) (.start events)
      (pre ++ added :: post) = .ok (printeds, s'))
    {e : StoredEvent} (he : e ∈ added)
    (hmatch : (requestQuery tenant (f.request body (tailPageSize pageSize) [])).matches e = true) :
    (∀ i printed, printeds[i]? = some printed →
      printed.count (toEventRecord e) = if i = pre.length then 1 else 0) ↔
    above (f.request body (tailPageSize pageSize) []) tenant (events ++ pre.flatten ++ added) e <
      pageLimit (tailPageSize pageSize).toInt := by
  obtain ⟨before, s₁, rest, hbefore, hrest, rfl, hlen⟩ := tailRun_append h
  obtain ⟨printed, s₂, later, hpoll, hlater, rfl⟩ := tailRun_cons hrest
  rw [flatten_append, flatten_cons, ← append_assoc, ← append_assoc] at hids
  have hnow : ((events ++ pre.flatten ++ added).map StoredEvent.id).Nodup :=
    hids.sublist ((sublist_append_left _ _).map _)
  have hstored : ((events ++ pre.flatten).map StoredEvent.id).Nodup :=
    hnow.sublist ((sublist_append_left _ _).map _)
  have hrun := run_spec htenant rfl hstored (fun _ hid => by cases hid) hbefore
  have hevents : s₁.events = events ++ pre.flatten := hrun.events
  have hspec := poll_spec (s := { s₁ with events := s₁.events ++ added }) htenant rfl
    (by rwa [hevents]) hpoll
  have hevents₂ : s₂.events = s₁.events ++ added := hspec.events
  have hmem : e ∈ s₁.events ++ added := mem_append_right _ he
  -- The event is new: nothing in the store had its id.
  have hnew : e.id ∉ s₁.events.map StoredEvent.id := by
    rw [hevents]
    rw [map_append, nodup_append] at hnow
    exact fun hold => hnow.2.2 _ hold _ (mem_map_of_mem he) rfl
  have hcount := hspec.count_printed e hmem hmatch
  rw [hevents] at hcount
  replace hcount : printed.count (toEventRecord e) =
      if above (f.request body (tailPageSize pageSize) []) tenant (events ++ pre.flatten ++ added) e <
        pageLimit (tailPageSize pageSize).toInt then 1 else 0 := by
    rw [hcount]
    exact if_congr (and_iff_right fun hseen => hnew (hrun.seen _ hseen)) rfl rfl
  have hearlier : ∀ p ∈ before, p.count (toEventRecord e) = 0 := by
    intro p hp
    refine count_eq_zero.mpr fun hin => ?_
    obtain ⟨e', he', hsame⟩ := hrun.printed_mem p hp _ hin
    exact hnew (mem_map.mpr ⟨e', he', (congrArg EventRecord.id hsame).symm⟩)
  have hlater' : ∀ p ∈ later, p.count (toEventRecord e) = 0 := by
    refine not_printed_later htenant rfl ?_ hlater (hevents₂ ▸ hmem) hmatch ?_
    · rw [hevents₂, hevents]
      exact hids
    · rw [hevents₂]
      exact hspec.settled e hmem hmatch
  rw [← hlen, count_eq_iff hearlier hlater', hcount]
  split
  · next hlt => exact iff_of_true rfl hlt
  · next hge => exact iff_of_false Nat.zero_ne_one hge

end runs

def allEvents : EventFilterFlags := ⟨[], [], [], 0, 0⟩

theorem printed_once_iff_sample :
    tailRun (some samplePrincipal) (allEvents.request "t" (tailPageSize 1) []) (.start [])
        [[sampleStored [0x78] 3600], [sampleStored [0x79] 7200]] =
      .ok ([[toEventRecord (sampleStored [0x78] 3600)], [toEventRecord (sampleStored [0x79] 7200)]],
        ⟨[sampleStored [0x78] 3600, sampleStored [0x79] 7200], [[0x79], [0x78]]⟩) ∧
    ∀ i printed, [[toEventRecord (sampleStored [0x78] 3600)],
        [toEventRecord (sampleStored [0x79] 7200)]][i]? = some printed →
      printed.count (toEventRecord (sampleStored [0x79] 7200)) = if i = 1 then 1 else 0 := by
  have hrun : tailRun (some samplePrincipal) (allEvents.request "t" (tailPageSize 1) []) (.start [])
        ([[sampleStored [0x78] 3600]] ++ [sampleStored [0x79] 7200] :: []) =
      .ok ([[toEventRecord (sampleStored [0x78] 3600)], [toEventRecord (sampleStored [0x79] 7200)]],
        ⟨[sampleStored [0x78] 3600, sampleStored [0x79] 7200], [[0x79], [0x78]]⟩) := rfl
  have htenant : requireTenant (some samplePrincipal) "t" = .ok "t" := by decide +kernel
  exact ⟨hrun, (printed_once_iff allEvents htenant (by decide) hrun (mem_singleton_self _)
    (by decide +kernel)).mpr (by decide +kernel)⟩

/-- **An event whose bucket is before that of the page is never printed**, though only one event
arrived since the last poll and a page holds one. -/
theorem late_event_missed :
    ∃ s, tailRun (some samplePrincipal) (allEvents.request "t" (tailPageSize 1) []) (.start [])
        [[sampleStored [0x78] 7200], [sampleStored [0x79] 3600]] =
      .ok ([[toEventRecord (sampleStored [0x78] 7200)], []], s) ∧
    sampleStored [0x79] 3600 ∈ s.events ∧
    (requestQuery "t" (allEvents.request "t" (tailPageSize 1) [])).matches
      (sampleStored [0x79] 3600) = true :=
  ⟨⟨[sampleStored [0x78] 7200, sampleStored [0x79] 3600], [[0x78]]⟩, rfl, by simp, by decide +kernel⟩

end Kseal.Cli
