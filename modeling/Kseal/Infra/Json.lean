import Kseal.Infra.Decimal
import Kseal.Infra.GoMap

/-!
# JSON documents and how Go decodes them

Numbers are kept by their text, members in order and with duplicates. Decoding goes *into* a value:
a member of the wrong type is recorded and left as it was; `null` leaves a scalar alone and empties
a map or slice; a field name matches up to case.
-/

namespace Kseal.Infra

inductive Json where
  | null
  | bool (b : Bool)
  | num (text : String)
  | str (s : String)
  | arr (items : List Json)
  | obj (members : List (String × Json))

structure Decoded (α : Type) where
  value : α
  ok : Bool

def decodeUint {α : Type} (bits : Nat) (ofNat : Nat → α) : Json → α → Decoded α
  | .null, old => ⟨old, true⟩
  | .num text, old =>
    match parseUint bits text with
    | some n => ⟨ofNat n, true⟩
    | none => ⟨old, false⟩
  | _, old => ⟨old, false⟩

def decodeUint32 : Json → UInt32 → Decoded UInt32 := decodeUint 32 UInt32.ofNat
def decodeUint64 : Json → UInt64 → Decoded UInt64 := decodeUint 64 UInt64.ofNat

def decodeString : Json → String → Decoded String
  | .null, old => ⟨old, true⟩
  | .str s, _ => ⟨s, true⟩
  | _, old => ⟨old, false⟩

section containers

variable {α σ ρ : Type}

def decodeMembers (set : String → Json → σ → Decoded σ) :
    List (String × Json) → Decoded σ → Decoded σ
  | [], acc => acc
  | (key, j) :: members, acc =>
    let d := set key j acc.value
    decodeMembers set members ⟨d.value, acc.ok && d.ok⟩

def setEntry (elem : Json → α → Decoded α) (zero : α) (key : String) (j : Json)
    (m : GoMap String α) : Decoded (GoMap String α) :=
  let d := elem j zero
  ⟨m.insert key d.value, d.ok⟩

def decodeMap (elem : Json → α → Decoded α) (zero : α) :
    Json → Option (GoMap String α) → Decoded (Option (GoMap String α))
  | .null, _ => ⟨none, true⟩
  | .obj members, old =>
    let d := decodeMembers (setEntry elem zero) members ⟨old.getD ∅, true⟩
    ⟨some d.value, d.ok⟩
  | _, old => ⟨old, false⟩

def decodeSlice (elem : Json → α → Decoded α) (zero : α) :
    Json → Option (List α) → Decoded (Option (List α))
  | .null, _ => ⟨none, true⟩
  | .arr items, old =>
    let ds := items.zipIdx.map fun p => elem p.1 (((old.getD [])[p.2]?).getD zero)
    ⟨some (ds.map Decoded.value), ds.all Decoded.ok⟩
  | _, old => ⟨old, false⟩

def decodeStruct (set : String → Json → σ → Decoded σ) : Json → σ → Decoded σ
  | .null, old => ⟨old, true⟩
  | .obj members, old => decodeMembers set members ⟨old, true⟩
  | _, old => ⟨old, false⟩

def foldRune (c : Char) : Char :=
  if 'a' ≤ c ∧ c ≤ 'z' then Char.ofNat (c.toNat - 32)
  else if c.toNat = 0x17f then 'S'
  else if c.toNat = 0x212a then 'K'
  else c

def matchesField (key name : String) : Bool :=
  key.toList.map foldRune == name.toList.map foldRune

def unmarshal (parse : String → Option Json) (decode : Json → α → Decoded α) (text : String)
    (old : α) : Decoded α :=
  match parse text with
  | some j => decode j old
  | none => ⟨old, false⟩

section proj

variable {set : String → Json → σ → Decoded σ} {set' : String → Json → ρ → Decoded ρ} {π : σ → ρ}
  (hvalue : ∀ k j s, π (set k j s).value = (set' k j (π s)).value)
  (hok : ∀ k j s, (set k j s).ok = true → (set' k j (π s)).ok = true)

include hvalue hok

theorem decodeMembers_proj (members : List (String × Json)) (d : Decoded σ) (d' : Decoded ρ)
    (hv : π d.value = d'.value) (ho : d.ok = true → d'.ok = true) :
    π (decodeMembers set members d).value = (decodeMembers set' members d').value ∧
      ((decodeMembers set members d).ok = true → (decodeMembers set' members d').ok = true) := by
  induction members generalizing d d' with
  | nil => exact ⟨hv, ho⟩
  | cons p members ih =>
    obtain ⟨k, j⟩ := p
    apply ih
    · rw [← hv]
      exact hvalue k j d.value
    · rw [Bool.and_eq_true, Bool.and_eq_true, ← hv]
      rintro ⟨h₁, h₂⟩
      exact ⟨ho h₁, hok k j d.value h₂⟩

/--
A part `π` of a struct that each member leaves alone or decodes as `set'` does, is decoded by
`set'`; a document the struct accepts is accepted for the part.
-/
theorem decodeStruct_proj (j : Json) (s : σ) :
    π (decodeStruct set j s).value = (decodeStruct set' j (π s)).value ∧
      ((decodeStruct set j s).ok = true → (decodeStruct set' j (π s)).ok = true) := by
  cases j with
  | null | bool | num | str | arr => exact ⟨rfl, id⟩
  | obj members => exact decodeMembers_proj hvalue hok members ⟨s, true⟩ ⟨π s, true⟩ rfl fun _ => rfl

end proj

end containers

end Kseal.Infra
