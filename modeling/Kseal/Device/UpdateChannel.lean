import Kseal.Infra.Decimal
import Mathlib.Data.List.GetD
import Mathlib.Order.PiLex

/-!
# The update channel (`SecureUpdate.cs`, `SecureUpdate.swift`)

The components of a version are read into an `int` of 32 bits in C# and of 64 bits in Swift, and one
that does not fit is read as 0 (`checkForUpdate_newest`).
-/

namespace Kseal.Update

open Infra List

/-! ## Versions -/

def number (part : List Char) : Nat := digitsValue (part.takeWhile isDigit)

def components (limit : Nat) (raw : String) : List Nat :=
  (raw.toList.splitOn '.').map fun part => if number part < limit then number part else 0

def firstDifference (a b : List Nat) : Option (Nat × Nat) :=
  ((List.range (max a.length b.length)).find? fun i => a.getD i 0 ≠ b.getD i 0).map fun i =>
    (a.getD i 0, b.getD i 0)

def compareTo (a b : String) : Ordering :=
  match firstDifference (components (2 ^ 31) a) (components (2 ^ 31) b) with
  | some (l, r) => compare l r
  | none => .eq

def lessThan (a b : String) : Bool :=
  match firstDifference (components (2 ^ 63) a) (components (2 ^ 63) b) with
  | some (l, r) => l < r
  | none => false

/-! ## The channel -/

structure Item where
  version : String
  contentLength : Int
  /-- What the text decodes to; in Swift the bytes are there already. -/
  edSignature : Option Bytes
  minimumOs : Option String

structure Policy where
  publicKey : Bytes
  currentVersion : String
  currentOs : Option String
  /-- `RequireAuthenticode` or `requireNotarization`. -/
  requirePackage : Bool

inductive UpdateError where
  | feed (message : String)
  | lengthMismatch (expected : Int) (actual : Nat)
  | signatureInvalid
  | packageInvalid
  | invalidChannelKey

structure Boundary where
  fetchItems : Except UpdateError (List Item)
  fetchArchive : Item → Except UpdateError Bytes
  verifySignature : Bytes → Bytes → Bytes → Bool
  verifyPackage : Bytes → Item → Bool

def canRun (atLeast : String → String → Bool) (policy : Policy) (item : Item) : Bool :=
  match item.minimumOs, policy.currentOs with
  | some minimum, some current => atLeast current minimum
  | _, _ => true

def applicable (newer atLeast : String → String → Bool) (policy : Policy) (items : List Item) :
    List Item :=
  (items.filter fun i => newer i.version policy.currentVersion).filter (canRun atLeast policy)

def selectNewest (policy : Policy) (items : List Item) : Option Item :=
  (((applicable (fun a b => compareTo a b = .gt) (fun a b => compareTo a b ≠ .lt) policy
    items).filter fun i => i.edSignature.isSome).mergeSort fun a b =>
      compareTo a.version b.version ≠ .lt).head?

def maxBy {α : Type} (increasing : α → α → Bool) : List α → Option α
  | [] => none
  | a :: l => some (l.foldl (fun best e => if increasing best e then e else best) a)

def selectMax (policy : Policy) (items : List Item) : Option Item :=
  maxBy (fun a b => lessThan a.version b.version)
    (applicable (fun a b => lessThan b a) (fun a b => !lessThan a b) policy items)

def checkForUpdate (select : Policy → List Item → Option Item) (policy : Policy) (w : Boundary) :
    Except UpdateError (Option (Item × Bytes)) :=
  if policy.publicKey.length ≠ 32 then .error .invalidChannelKey
  else do
    match select policy (← w.fetchItems) with
    | none => pure none
    | some item =>
      let archive ← w.fetchArchive item
      if (archive.length : Int) ≠ item.contentLength then
        .error (.lengthMismatch item.contentLength archive.length)
      else if !w.verifySignature archive (item.edSignature.getD []) policy.publicKey then
        .error .signatureInvalid
      else if policy.requirePackage && !w.verifyPackage archive item then .error .packageInvalid
      else pure (some (item, archive))

/-! ## The order of versions -/

def value (l : List Nat) : Lex (ℕ → ℕ) := toLex fun i => l.getD i 0

def numbers (raw : String) : Lex (ℕ → ℕ) :=
  toLex fun i => number ((raw.toList.splitOn '.').getD i [])

def Fits (limit : Nat) (raw : String) : Prop :=
  ∀ part ∈ raw.toList.splitOn '.', number part < limit

theorem components_of_fits {limit : Nat} {raw : String} (h : Fits limit raw) :
    value (components limit raw) = numbers raw := by
  have hcomponents : components limit raw = (raw.toList.splitOn '.').map number :=
    map_congr_left fun part hpart => if_pos (h part hpart)
  rw [hcomponents]
  exact congrArg toLex (funext fun i => getD_map _ [] number)

/-- **Lists are compared where they differ first.** -/
theorem firstDifference_spec (a b : List Nat) :
    (firstDifference a b = none ∧ value a = value b) ∨
      ∃ l r, firstDifference a b = some (l, r) ∧
        (l < r ∧ value a < value b ∨ r < l ∧ value b < value a) := by
  unfold firstDifference
  cases h : (List.range (max a.length b.length)).find? fun i => a.getD i 0 ≠ b.getD i 0 with
  | none =>
    refine .inl ⟨rfl, congrArg toLex (funext fun i => ?_)⟩
    rcases Nat.lt_or_ge i (max a.length b.length) with hi | hi
    · have hnone := find?_eq_none.mp h i (mem_range.mpr hi)
      simpa using hnone
    · obtain ⟨ha, hb⟩ := Nat.max_le.mp hi
      rw [getD_eq_default _ _ ha, getD_eq_default _ _ hb]
  | some i =>
    obtain ⟨hi, -, hbefore⟩ := find?_range_eq_some.mp h
    replace hbefore : ∀ j < i, a.getD j 0 = b.getD j 0 := fun j hj => by simpa using hbefore j hj
    refine .inr ⟨_, _, rfl, ?_⟩
    rcases Nat.lt_or_gt_of_ne (of_decide_eq_true hi) with hlt | hgt
    · exact .inl ⟨hlt, i, hbefore, hlt⟩
    · exact .inr ⟨hgt, i, fun j hj => (hbefore j hj).symm, hgt⟩

theorem compareTo_iff (a b : String) :
    (compareTo a b = .lt ↔ value (components (2 ^ 31) a) < value (components (2 ^ 31) b)) ∧
      (compareTo a b = .gt ↔ value (components (2 ^ 31) b) < value (components (2 ^ 31) a)) := by
  unfold compareTo
  generalize components (2 ^ 31) a = a, components (2 ^ 31) b = b
  rcases firstDifference_spec a b with ⟨h, heq⟩ | ⟨l, r, h, ⟨hlr, hlt⟩ | ⟨hlr, hlt⟩⟩
  · have hirrefl : ¬ value b < value b := lt_irrefl _
    simp [h, heq, hirrefl]
  · have hnot : ¬ value b < value a := hlt.not_gt
    simp [h, Nat.compare_eq_lt.mpr hlr, hlt, hnot]
  · have hnot : ¬ value a < value b := hlt.not_gt
    simp [h, Nat.compare_eq_gt.mpr hlr, hlt, hnot]

theorem lessThan_iff (a b : String) : lessThan a b = true ↔
    value (components (2 ^ 63) a) < value (components (2 ^ 63) b) := by
  unfold lessThan
  generalize components (2 ^ 63) a = a, components (2 ^ 63) b = b
  rcases firstDifference_spec a b with ⟨h, heq⟩ | ⟨l, r, h, ⟨hlr, hlt⟩ | ⟨hlr, hlt⟩⟩
  · have hirrefl : ¬ value b < value b := lt_irrefl _
    simp [h, heq, hirrefl]
  · simp [h, hlr, hlt]
  · have hnot : ¬ value a < value b := hlt.not_gt
    simp [h, hlr.le, hnot]

/-! ## The item that is selected -/

section pick

variable {α β : Type} [LinearOrder β] {f : α → β} {l : List α}

def IsMax (f : α → β) (l : List α) (pick : Option α) : Prop :=
  (pick = none ↔ l = []) ∧ ∀ a ∈ pick, a ∈ l ∧ ∀ b ∈ l, f b ≤ f a

theorem isMax_mergeSort {ge : α → α → Bool} (hge : ∀ a b, ge a b = true ↔ f b ≤ f a) :
    IsMax f l (l.mergeSort ge).head? := by
  have htrans : ∀ a b c, ge a b = true → ge b c = true → ge a c = true := fun a b c hab hbc =>
    (hge a c).mpr (((hge b c).mp hbc).trans ((hge a b).mp hab))
  have htotal : ∀ a b, (ge a b || ge b a) = true := by
    intro a b
    rw [Bool.or_eq_true, hge, hge]
    exact le_total (f b) (f a)
  have hsorted := pairwise_mergeSort htrans htotal l
  have hperm : (l.mergeSort ge).Perm l := mergeSort_perm l ge
  cases h : l.mergeSort ge with
  | nil =>
    rw [h] at hperm
    exact ⟨iff_of_true rfl hperm.nil_eq.symm, nofun⟩
  | cons a rest =>
    rw [h] at hperm hsorted
    have hmem : a ∈ l := hperm.subset mem_cons_self
    refine ⟨iff_of_false nofun (ne_nil_of_mem hmem), ?_⟩
    rintro _ ⟨⟩
    refine ⟨hmem, fun b hb => ?_⟩
    rcases mem_cons.mp (hperm.symm.subset hb) with rfl | hb
    · exact le_refl _
    · exact (hge a b).mp (rel_of_pairwise_cons hsorted hb)

theorem isMax_maxBy {lt : α → α → Bool} (hlt : ∀ a b, lt a b = true ↔ f a < f b) :
    IsMax f l (maxBy lt l) := by
  cases l with
  | nil => exact ⟨iff_of_true rfl rfl, nofun⟩
  | cons a l =>
    refine ⟨iff_of_false nofun nofun, ?_⟩
    rintro _ ⟨⟩
    induction l generalizing a with
    | nil => simp
    | cons e l ih =>
      obtain ⟨hmem, hmax⟩ := ih (if lt a e then e else a)
      obtain ⟨hbest, hrest⟩ := forall_mem_cons.mp hmax
      have hstep : (if lt a e then e else a) ∈ [a, e] ∧
          f a ≤ f (if lt a e then e else a) ∧ f e ≤ f (if lt a e then e else a) := by
        split
        · next h => exact ⟨by simp, ((hlt a e).mp h).le, le_refl _⟩
        · next h => exact ⟨by simp, le_refl _, not_lt.mp (mt (hlt a e).mpr h)⟩
      refine ⟨?_, ?_⟩
      · rcases mem_cons.mp hmem with hmem | hmem
        · rw [foldl_cons, hmem]
          exact mem_append_left l hstep.1
        · exact mem_cons_of_mem _ (mem_cons_of_mem _ hmem)
      · simp only [forall_mem_cons]
        exact ⟨hstep.2.1.trans hbest, hstep.2.2.trans hbest, hrest⟩

end pick

/-! ## Checking for an update -/

/-- The pick is an applicable item that is newer, by its numbers, than the current version, and none
of those is newer than the pick; if there is none, there is no such item. -/
def Newest (ok : Item → Prop) (current : String) (items : List Item) (pick : Option Item) : Prop :=
  (pick = none ↔ ∀ i ∈ items, ok i → ¬ numbers current < numbers i.version) ∧
    ∀ i ∈ pick, i ∈ items ∧ ok i ∧ numbers current < numbers i.version ∧
      ∀ j ∈ items, ok j → numbers current < numbers j.version → numbers j.version ≤ numbers i.version

theorem newest_of_isMax {ok : Item → Prop} {current : String} {items l : List Item}
    {pick : Option Item} {f : Item → Lex (ℕ → ℕ)} (hf : ∀ i ∈ items, f i = numbers i.version)
    (hl : ∀ i, i ∈ l ↔ i ∈ items ∧ ok i ∧ numbers current < numbers i.version)
    (h : IsMax f l pick) : Newest ok current items pick := by
  refine ⟨?_, fun i hi => ?_⟩
  · rw [h.1, eq_nil_iff_forall_not_mem]
    simp only [hl, not_and]
  · obtain ⟨hmem, hmax⟩ := h.2 i hi
    obtain ⟨hitem, hok, hnewer⟩ := (hl i).mp hmem
    refine ⟨hitem, hok, hnewer, fun j hj hokj hnewerj => ?_⟩
    rw [← hf j hj, ← hf i hitem]
    exact hmax j ((hl j).mpr ⟨hj, hokj, hnewerj⟩)

theorem checkForUpdate_item {select : Policy → List Item → Option Item} {policy : Policy}
    {w : Boundary} {items : List Item} {r : Option (Item × Bytes)} (hitems : w.fetchItems = .ok items)
    (h : checkForUpdate select policy w = .ok r) : r.map Prod.fst = select policy items := by
  unfold checkForUpdate at h
  rw [hitems, ok_bind] at h
  obtain ⟨-, h⟩ := guard_ok h
  split at h
  · next hselect =>
    cases h
    exact hselect.symm
  · next item hselect =>
    obtain ⟨archive, -, h⟩ := bind_eq_ok h
    split_ifs at h
    cases h
    exact hselect.symm

theorem newest_selectNewest (policy : Policy) (items : List Item)
    (hcurrent : Fits (2 ^ 31) policy.currentVersion) (hitems : ∀ i ∈ items, Fits (2 ^ 31) i.version) :
    Newest (fun i => canRun (fun a b => compareTo a b ≠ .lt) policy i = true ∧ i.edSignature.isSome)
      policy.currentVersion items (selectNewest policy items) := by
  refine newest_of_isMax (fun i hi => components_of_fits (hitems i hi)) ?_
    (isMax_mergeSort fun a b => ?_)
  · intro i
    have hnewer : i ∈ items → (compareTo i.version policy.currentVersion = .gt ↔
        numbers policy.currentVersion < numbers i.version) := fun hi => by
      rw [(compareTo_iff _ _).2, components_of_fits hcurrent, components_of_fits (hitems i hi)]
    simp only [applicable, mem_filter, decide_eq_true_iff]
    tauto
  · rw [decide_eq_true_iff, ne_eq, (compareTo_iff _ _).1]
    exact not_lt

theorem newest_selectMax (policy : Policy) (items : List Item)
    (hcurrent : Fits (2 ^ 63) policy.currentVersion) (hitems : ∀ i ∈ items, Fits (2 ^ 63) i.version) :
    Newest (fun i => canRun (fun a b => !lessThan a b) policy i = true) policy.currentVersion items
      (selectMax policy items) := by
  refine newest_of_isMax (fun i hi => components_of_fits (hitems i hi)) ?_
    (isMax_maxBy fun a b => lessThan_iff a.version b.version)
  intro i
  have hnewer : i ∈ items → (lessThan policy.currentVersion i.version = true ↔
      numbers policy.currentVersion < numbers i.version) := fun hi => by
    rw [lessThan_iff, components_of_fits hcurrent, components_of_fits (hitems i hi)]
  simp only [applicable, mem_filter]
  tauto

def oldItem : Item := ⟨"1", 0, some [], none⟩

def installed (currentVersion : String) : Policy := ⟨List.replicate 32 0, currentVersion, none, false⟩

def signedFeed : Boundary := ⟨.ok [oldItem], fun _ => .ok [], fun _ _ _ => true, fun _ _ => true⟩

end Kseal.Update
