import Kseal.Device.Config

/-!
# Kill switches on the device (`lib.rs`, `crypto.rs`)

The device keeps one flag, and for each scope the highest version it was given. The Ed25519 check
`verify` and the protobuf decoder `decode` are parameters.
-/

namespace Kseal.Device

open Infra Wire

def killSwitchDomain : Bytes := ascii "kseal/v1/kill-switch"

def killSwitchPreimage (ks : SignedKillSwitch) : Bytes :=
  lp killSwitchDomain ++ lp (utf8 ks.tenantId) ++ lp (utf8 ks.appId) ++ lp (utf8 ks.buildHash) ++
    i64Be ks.command.toInt32.toInt64 ++ i64Be ks.version ++ i64Be ks.issuedAt ++ lp (utf8 ks.reason)

structure KillState where
  killed : Bool
  killSwitchVersions : GoMap (String × String × String) Int64

def KillState.init : KillState := ⟨false, ∅⟩

def scopeOf (ks : SignedKillSwitch) : String × String × String :=
  (ks.tenantId, ks.appId, ks.buildHash)

def disables (ks : SignedKillSwitch) : Bool := ks.command.toInt32 = KillSwitchCommand.disable.toInt32

section apply

variable (verify : Bytes → Bytes → Bytes → Bool) (decode : Bytes → Except String SignedKillSwitch)

def verifyKillSwitch (publicKey : Bytes) (ks : SignedKillSwitch) : Bool :=
  verify publicKey (killSwitchPreimage ks) ks.signature

def applyKillSwitch (publicKey : Bytes) (state : KillState) (signedBytes : Bytes) :
    Bool × KillState :=
  match decode signedBytes with
  | .error _ => (state.killed, state)
  | .ok ks =>
    if verifyKillSwitch verify publicKey ks = false then (state.killed, state)
    else
      let scope := scopeOf ks
      if (state.killSwitchVersions.lookup scope).any fun last => ks.version < last then
        (state.killed, state)
      else
        let killed := disables ks
        (killed, ⟨killed, state.killSwitchVersions.insert scope ks.version⟩)

end apply

/-! ## What a command does -/

def KillState.accepts (s : KillState) (ks : SignedKillSwitch) : Prop :=
  ∀ last, s.killSwitchVersions.lookup (scopeOf ks) = some last → last ≤ ks.version

def KillState.take (s : KillState) (ks : SignedKillSwitch) : KillState :=
  ⟨disables ks, s.killSwitchVersions.insert (scopeOf ks) ks.version⟩

theorem KillState.accepts_init (ks : SignedKillSwitch) : KillState.init.accepts ks := by
  intro last hlook
  cases hlook

theorem KillState.accepts_take {s : KillState} {ks ks' : SignedKillSwitch} :
    (s.take ks).accepts ks' ↔
      if scopeOf ks' = scopeOf ks then ks.version ≤ ks'.version else s.accepts ks' := by
  unfold KillState.accepts KillState.take
  split
  · next hscope =>
    rw [hscope]
    simp
  · next hscope => simp [AList.lookup_insert_ne hscope]

variable {verify : Bytes → Bytes → Bytes → Bool} {decode : Bytes → Except String SignedKillSwitch}
  {publicKey signedBytes : Bytes} {ks : SignedKillSwitch}

/-- **A command that verifies is taken unless its version is too low.** -/
theorem applyKillSwitch_eq (s : KillState) (hdecode : decode signedBytes = .ok ks)
    (hverify : verifyKillSwitch verify publicKey ks = true) :
    (s.accepts ks → applyKillSwitch verify decode publicKey s signedBytes =
        (disables ks, s.take ks)) ∧
      (¬ s.accepts ks → applyKillSwitch verify decode publicKey s signedBytes = (s.killed, s)) := by
  have hany : ((s.killSwitchVersions.lookup (scopeOf ks)).any fun last => ks.version < last) = true ↔
      ¬ s.accepts ks := by
    unfold KillState.accepts
    cases s.killSwitchVersions.lookup (scopeOf ks) with
    | none => simp
    | some last => simp [Int64.not_le]
  unfold applyKillSwitch
  rw [hdecode]
  dsimp only
  rw [hverify, if_neg Bool.noConfusion]
  constructor
  · intro haccepts
    rw [if_neg (fun h => hany.mp h haccepts)]
    rfl
  · intro hrejects
    rw [if_pos (hany.mpr hrejects)]

end Kseal.Device
