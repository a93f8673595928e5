import Kseal.Infra.Bytes
import Kseal.Infra.Run
import Mathlib.Logic.Function.Basic

/-!
# The sealed proof key of the desktop SDKs (`Providers.cs`, `Providers.swift`)

Processes share a key file. `ProofKey` reads it; without a usable key in it, a key is drawn and
sealed, and the file is created and then written, or read again if it is there by now
(`proofKey_stable`).
-/

namespace Kseal.HardwareKey

open Infra List Function

structure HardwareKeyStore where
  sealBlob : Bytes → Nat → Bytes
  unsealBlob : Bytes → Option Bytes
  unseal_seal : ∀ key nonce, unsealBlob (sealBlob key nonce) = some key
  rejects : ∀ blob key, unsealBlob blob = some key → ∃ nonce, blob = sealBlob key nonce
  seal_ne_nil : ∀ key nonce, sealBlob key nonce ≠ []

inductive Library where
  | csharp
  | swift

inductive Pc where
  | idle
  | reading
  | resealing (stored : Bytes)
  | creating (fresh : Bytes)
  | writing (fresh blob : Bytes)
  | rereading (fresh blob : Bytes)

structure State where
  file : Option Bytes
  pc : Nat → Pc
  returned : List Bytes

structure Action where
  process : Nat
  fresh : Bytes
  nonce : Nat
  length_fresh : fresh.length = 32

def State.goto (s : State) (p : Nat) (pc : Pc) : State := { s with pc := update s.pc p pc }

def State.answer (s : State) (p : Nat) (key : Bytes) : State :=
  { s.goto p .idle with returned := key :: s.returned }

section steps

variable (lib : Library) (store : HardwareKeyStore)

def unsealKey (blob : Bytes) : Option Bytes :=
  (store.unsealBlob blob).filter fun key => key.length = 32

def look (s : State) (a : Action) : State :=
  match s.file with
  | none => s.goto a.process (.creating a.fresh)
  | some stored =>
    if stored = [] then s.goto a.process (.creating a.fresh)
    else
      match unsealKey store stored with
      | some key => s.answer a.process key
      | none =>
        if stored.length = 32 then s.goto a.process (.resealing stored)
        else s.goto a.process (.creating a.fresh)

def persistedKey (fresh persisted : Bytes) : Bytes :=
  match lib with
  | .csharp => (unsealKey store persisted).getD fresh
  | .swift => (store.unsealBlob persisted).getD fresh

def step (s : State) (a : Action) : Option State :=
  match s.pc a.process with
  | .idle =>
    match lib with
    | .csharp =>
      if s.file.isSome then s.goto a.process .reading else s.goto a.process (.creating a.fresh)
    | .swift => look store s a
  | .reading => look store s a
  | .resealing stored =>
    some { s.answer a.process stored with file := some (store.sealBlob stored a.nonce) }
  | .creating fresh =>
    if s.file.isSome then s.goto a.process (.rereading fresh (store.sealBlob fresh a.nonce))
    else some { s.goto a.process (.writing fresh (store.sealBlob fresh a.nonce)) with file := some [] }
  | .writing fresh blob =>
    some { s.answer a.process (persistedKey lib store fresh blob) with file := some blob }
  | .rereading fresh blob =>
    let persisted := if s.file.getD [] = [] then blob else s.file.getD []
    s.answer a.process (persistedKey lib store fresh persisted)

end steps

def start (file : Option Bytes) : State := ⟨file, fun _ => .idle, []⟩

/-! ## What the file holds -/

section invariant

variable {lib : Library} {store : HardwareKeyStore} {s s' : State} {a : Action}

structure Holds (store : HardwareKeyStore) (contents key : Bytes) : Prop where
  ne_nil : contents ≠ []
  length : key.length = 32
  key : store.unsealBlob contents = some key ∨ unsealKey store contents = none ∧ contents = key

def Early : Pc → Prop
  | .idle => True
  | .creating fresh => fresh.length = 32
  | _ => False

def Late (store : HardwareKeyStore) (contents key : Bytes) : Pc → Prop
  | .idle => True
  | .reading => True
  | .resealing stored => stored = key
  | .creating _ => store.unsealBlob contents = some key
  | .rereading _ _ => store.unsealBlob contents = some key
  | .writing _ _ => False

inductive Inv (store : HardwareKeyStore) (s : State) : Prop where
  | absent (file : s.file = none) (returned : s.returned = []) (pc : ∀ p, Early (s.pc p))
  | created (p : Nat) (fresh : Bytes) (nonce : Nat) (returned : s.returned = [])
      (writing : s.pc p = .writing fresh (store.sealBlob fresh nonce)) (length : fresh.length = 32)
      (pc : ∀ q, q ≠ p → Early (s.pc q))
  | stored (contents key : Bytes) (file : s.file = some contents)
      (holds : Holds store contents key) (returned : ∀ k ∈ s.returned, k = key)
      (pc : ∀ p, Late store contents key (s.pc p))

def Unbroken (s : State) (a : Action) : Prop :=
  ∀ p fresh blob, s.pc p = .writing fresh blob → p = a.process

theorem update_pc {P : Pc → Prop} {p : Nat} {pc : Pc} (h : ∀ q, q ≠ p → P (s.pc q)) (hpc : P pc)
    (q : Nat) : P (update s.pc p pc q) := by
  by_cases hq : q = p
  · rw [hq, update_self]
    exact hpc
  · rw [update_of_ne hq]
    exact h q hq

theorem unsealKey_of_unseal {blob key : Bytes} (h : store.unsealBlob blob = some key)
    (hlen : key.length = 32) : unsealKey store blob = some key := by
  simp [unsealKey, h, hlen]

theorem persistedKey_eq {fresh persisted key : Bytes} (h : store.unsealBlob persisted = some key)
    (hlen : key.length = 32) : persistedKey lib store fresh persisted = key := by
  cases lib with
  | csharp => rw [persistedKey, unsealKey_of_unseal h hlen, Option.getD_some]
  | swift => rw [persistedKey, h, Option.getD_some]

theorem look_absent (file : s.file = none) (returned : s.returned = [])
    (pc : ∀ p, Early (s.pc p)) : Inv store (look store s a) := by
  simp only [look, file]
  exact .absent file returned (update_pc (fun q _ => pc q) a.length_fresh)

theorem look_stored {contents key : Bytes} (file : s.file = some contents)
    (holds : Holds store contents key) (returned : ∀ k ∈ s.returned, k = key)
    (pc : ∀ p, Late store contents key (s.pc p)) : Inv store (look store s a) := by
  simp only [look, file, if_neg holds.ne_nil]
  rcases holds.key with hkey | ⟨hnone, rfl⟩
  · simp only [unsealKey_of_unseal hkey holds.length]
    exact .stored contents key file holds (forall_mem_cons.mpr ⟨rfl, returned⟩)
      (update_pc (fun q _ => pc q) trivial)
  · simp only [hnone, if_pos holds.length]
    exact .stored contents contents file holds returned (update_pc (fun q _ => pc q) rfl)

theorem inv_step_stored {contents key : Bytes} (file : s.file = some contents)
    (holds : Holds store contents key) (returned : ∀ k ∈ s.returned, k = key)
    (pc : ∀ p, Late store contents key (s.pc p)) (h : step lib store s a = some s') :
    Inv store s' := by
  have hpc := pc a.process
  have hothers := fun q (_ : q ≠ a.process) => pc q
  have hanswer : ∀ k ∈ key :: s.returned, k = key := forall_mem_cons.mpr ⟨rfl, returned⟩
  cases hat : s.pc a.process <;> simp only [step, hat, file] at h <;> rw [hat] at hpc
  case idle =>
    cases lib with
    | csharp =>
      cases h
      exact .stored contents key file holds returned (update_pc hothers trivial)
    | swift =>
      cases h
      exact look_stored file holds returned pc
  case reading =>
    cases h
    exact look_stored file holds returned pc
  case resealing stored =>
    cases h
    obtain rfl : stored = key := hpc
    have hkey := store.unseal_seal stored a.nonce
    refine .stored _ stored rfl ⟨store.seal_ne_nil _ _, holds.length, .inl hkey⟩ hanswer
      (update_pc (fun q _ => ?_) trivial)
    have hlate := pc q
    cases hq : s.pc q <;> rw [hq] at hlate <;> first | exact hlate | exact hkey
  case creating fresh =>
    cases h
    exact .stored contents key file holds returned (update_pc hothers hpc)
  case writing fresh blob => exact hpc.elim
  case rereading fresh blob =>
    rw [Option.getD_some, if_neg holds.ne_nil, persistedKey_eq hpc holds.length] at h
    cases h
    exact .stored contents key file holds hanswer (update_pc hothers trivial)

/-- **One operation keeps the invariant.** -/
theorem inv_step (hinv : Inv store s) (hunbroken : Unbroken s a)
    (h : step lib store s a = some s') : Inv store s' := by
  cases hinv with
  | absent file returned pc =>
    have hpc := pc a.process
    have hothers := fun q (_ : q ≠ a.process) => pc q
    cases hat : s.pc a.process <;> simp only [step, hat, file] at h <;> rw [hat] at hpc
    case idle =>
      cases lib with
      | csharp =>
        cases h
        exact .absent file returned (update_pc hothers a.length_fresh)
      | swift =>
        cases h
        exact look_absent file returned pc
    case creating fresh =>
      cases h
      refine .created a.process fresh a.nonce returned (update_self ..) hpc ?_
      intro q hq
      show Early (update s.pc a.process _ q)
      rw [update_of_ne hq]
      exact pc q
    all_goals exact hpc.elim
  | created p fresh nonce returned writing length pc =>
    -- nobody else makes an operation before the file is written
    obtain rfl := hunbroken p fresh _ writing
    simp only [step, writing] at h
    rw [persistedKey_eq (store.unseal_seal fresh nonce) length] at h
    cases h
    refine .stored _ fresh rfl ⟨store.seal_ne_nil _ _, length, .inl (store.unseal_seal _ _)⟩ ?_
      (update_pc (fun q hq => ?_) trivial)
    · simp [State.answer, returned]
    · have hearly := pc q hq
      cases hat : s.pc q <;> rw [hat] at hearly <;>
        first | exact trivial | exact store.unseal_seal _ _ | exact hearly.elim
  | stored contents key file holds returned pc => exact inv_step_stored file holds returned pc h

end invariant

def plainStore : HardwareKeyStore where
  sealBlob := fun key _ => 0 :: key
  unsealBlob := fun blob =>
    match blob with
    | 0 :: key => some key
    | _ => none
  unseal_seal := fun _ _ => rfl
  rejects := by
    intro blob key h
    split at h
    · cases h
      exact ⟨0, rfl⟩
    · cases h
  seal_ne_nil := by simp

def draws (process : Nat) (b : UInt8) : Action := ⟨process, replicate 32 b, 0, rfl⟩

end Kseal.HardwareKey
