import Mathlib.Algebra.Group.Int.Defs
import Kseal.Infra.Bytes
import Kseal.Infra.Result

/-!
# Decoding the result of a request proof on the desktop (`RequestProofResultProto`)

The decoders are the same up to their integers: `Int` has 64 bits in Swift and traps, `int` has 32
bits in C# and wraps. The fields of a message are also read off independently of the language, for
two meanings of a length: as written, or modulo `2 ^ 32` (`decoders_agree_iff`).
-/

namespace Kseal.Desktop

open Infra List

/-! ## Integers -/

inductive Crash where
  /-- Swift stops the process. -/
  | trap
  /-- `IndexOutOfRangeException` -/
  | indexOutOfRange
  /-- `ArgumentOutOfRangeException` -/
  | argumentOutOfRange
deriving Repr, DecidableEq

inductive Failure where
  /-- `TrustSessionError`, `TrustSessionException` -/
  | trustSession (message : String)
  | crash (c : Crash)
  | outOfFuel
deriving Repr, DecidableEq

structure Arith where
  ofVarint : UInt64 → Except Failure Int
  add : Int → Int → Except Failure Int

def swiftInt : Arith where
  ofVarint v := if v.toNat < 2 ^ 63 then .ok v.toNat else .error (.crash .trap)
  add x y :=
    if -2 ^ 63 ≤ x + y ∧ x + y < 2 ^ 63 then .ok (x + y) else .error (.crash .trap)

def csharpInt : Arith where
  ofVarint v := .ok ((v.toNat : Int).bmod (2 ^ 32))
  add x y := .ok ((x + y).bmod (2 ^ 32))

/-! ## `ProtoReader` -/

section reader

variable (a : Arith) (utf8Decode : Bytes → String) (bytes : Bytes)

def byteAt (offset : Int) : Except Failure UInt8 :=
  if 0 ≤ offset ∧ offset < bytes.length then .ok (bytes.getD offset.toNat 0)
  else .error (.crash .indexOutOfRange)

def readVarintLoop : Nat → UInt64 → Nat → Int → Except Failure (UInt64 × Int)
  | 0, _, _, _ => .error .outOfFuel
  | fuel + 1, result, shift, offset =>
    if offset ≥ bytes.length then
      .error (.trustSession "malformed protobuf: truncated varint")
    else do
      let byte ← byteAt bytes offset
      let result := result ||| ((byte &&& 0x7f).toUInt64 <<< UInt64.ofNat shift)
      if byte &&& 0x80 = 0 then pure (result, offset + 1)
      else if shift + 7 < 64 then readVarintLoop fuel result (shift + 7) (offset + 1)
      else .error (.trustSession "malformed protobuf: varint too long")

def readVarint (offset : Int) : Except Failure (UInt64 × Int) := readVarintLoop bytes 10 0 0 offset

def getString (offset length : Int) : Except Failure String :=
  if 0 ≤ offset ∧ 0 ≤ length ∧ length ≤ bytes.length - offset then
    .ok (utf8Decode ((bytes.drop offset.toNat).take length.toNat))
  else .error (.crash .argumentOutOfRange)

def takeString (v : UInt64) (offset : Int) : Except Failure (String × Int) := do
  let length ← a.ofVarint v
  if length < 0 then .error (.trustSession "malformed protobuf: string overruns buffer")
  else
    let stop ← a.add offset length
    if stop > bytes.length then
      .error (.trustSession "malformed protobuf: string overruns buffer")
    else
      let value ← getString utf8Decode bytes offset length
      let offset ← a.add offset length
      pure (value, offset)

def readString (offset : Int) : Except Failure (String × Int) := do
  let (v, offset) ← readVarint bytes offset
  takeString a utf8Decode bytes v offset

def advance (offset count : Int) : Except Failure Int :=
  if count < 0 then .error (.trustSession "malformed protobuf: field overruns buffer")
  else do
    let stop ← a.add offset count
    if stop > bytes.length then
      .error (.trustSession "malformed protobuf: field overruns buffer")
    else a.add offset count

def skip (wireType : UInt64) (offset : Int) : Except Failure Int :=
  if wireType = 0 then do
    let (_, offset) ← readVarint bytes offset
    pure offset
  else if wireType = 1 then advance a bytes offset 8
  else if wireType = 2 then do
    let (v, offset) ← readVarint bytes offset
    let count ← a.ofVarint v
    advance a bytes offset count
  else if wireType = 5 then advance a bytes offset 4
  else
    .error (.trustSession ("malformed protobuf: unsupported wire type " ++ wireType.toNat.repr))

/-! ## `decode` -/

inductive TrustDecision where
  | unspecified
  | allow
  | stepUp
  | deny
deriving Repr, DecidableEq

def decisionOf (code : Int) : TrustDecision :=
  if code = 1 then .allow else if code = 2 then .stepUp else if code = 3 then .deny
  else .unspecified

structure Draft where
  decisionCode : Int
  reason : String
  offset : Int

def decodeField (s : Draft) : Except Failure Draft := do
  let (tag, offset) ← readVarint bytes s.offset
  let field := tag >>> 3
  let wireType := tag &&& 0x7
  if field = 1 ∧ wireType = 0 then
    let (v, offset) ← readVarint bytes offset
    let code ← a.ofVarint v
    pure { s with decisionCode := code, offset := offset }
  else if field = 2 ∧ wireType = 2 then
    let (reason, offset) ← readString a utf8Decode bytes offset
    pure { s with reason := reason, offset := offset }
  else
    let offset ← skip a bytes wireType offset
    pure { s with offset := offset }

def decodeLoop : Nat → Draft → Except Failure (TrustDecision × String)
  | fuel, s =>
    if s.offset < bytes.length then
      match fuel with
      | 0 => .error .outOfFuel
      | fuel + 1 => do
        let s ← decodeField a utf8Decode bytes s
        decodeLoop fuel s
    else .ok (decisionOf s.decisionCode, s.reason)

def decode : Except Failure (TrustDecision × String) :=
  decodeLoop a utf8Decode bytes (bytes.length + 1) ⟨0, "", 0⟩

end reader

def swiftDecode (utf8Decode : Bytes → String) (data : Bytes) :
    Except Failure (TrustDecision × String) := decode swiftInt utf8Decode data

def csharpDecode (utf8Decode : Bytes → String) (data : Bytes) :
    Except Failure (TrustDecision × String) := decode csharpInt utf8Decode data

/-! ## The fields of a message -/

inductive Field where
  | decision (value : UInt64) (stop : Int)
  /-- A text or another field that begins with its length; `reason` tells which. -/
  | sized (reason : Bool) (length : UInt64) (start : Int)
  | fixed (count start : Int)
  | varint (stop : Int)
deriving DecidableEq

def Field.start : Field → Int
  | .decision _ stop => stop
  | .sized _ _ start => start
  | .fixed _ start => start
  | .varint stop => stop

def Field.stop (size : UInt64 → Int) : Field → Int
  | .decision _ stop => stop
  | .sized _ length start => start + size length
  | .fixed count start => start + count
  | .varint stop => stop

variable {fuel : Nat} {f : Field} {size : UInt64 → Int} {Safe : Field → Prop} {length : UInt64}

section fields

variable (a : Arith) (utf8Decode : Bytes → String) (bytes : Bytes)

def fieldAt (offset : Int) : Except Failure Field := do
  let (tag, offset) ← readVarint bytes offset
  let field := tag >>> 3
  let wireType := tag &&& 0x7
  if field = 1 ∧ wireType = 0 then
    let (v, offset) ← readVarint bytes offset
    pure (.decision v offset)
  else if field = 2 ∧ wireType = 2 then
    let (v, offset) ← readVarint bytes offset
    pure (.sized true v offset)
  else if wireType = 0 then
    let (_, offset) ← readVarint bytes offset
    pure (.varint offset)
  else if wireType = 1 then pure (.fixed 8 offset)
  else if wireType = 2 then
    let (v, offset) ← readVarint bytes offset
    pure (.sized false v offset)
  else if wireType = 5 then pure (.fixed 4 offset)
  else
    .error (.trustSession ("malformed protobuf: unsupported wire type " ++ wireType.toNat.repr))

/-- The fields from an offset on, up to the first that cannot be read or does not fit, and whether
they end where the message does. -/
def fieldsFrom (size : UInt64 → Int) : Nat → Int → List Field × Bool
  | 0, _ => ([], false)
  | fuel + 1, offset =>
    if offset < bytes.length then
      match fieldAt bytes offset with
      | .error _ => ([], false)
      | .ok f =>
        if f.stop size ≤ bytes.length then
          (f :: (fieldsFrom size fuel (f.stop size)).1, (fieldsFrom size fuel (f.stop size)).2)
        else ([f], false)
    else ([], true)

def fields (size : UInt64 → Int) : List Field × Bool := fieldsFrom bytes size (bytes.length + 1) 0

def applyField (s : Draft) : Field → Except Failure Draft
  | .decision v stop => do
    let code ← a.ofVarint v
    pure { s with decisionCode := code, offset := stop }
  | .sized true v start => do
    let (reason, offset) ← takeString a utf8Decode bytes v start
    pure { s with reason := reason, offset := offset }
  | .sized false v start => do
    let count ← a.ofVarint v
    let offset ← advance a bytes start count
    pure { s with offset := offset }
  | .fixed count start => do
    let offset ← advance a bytes start count
    pure { s with offset := offset }
  | .varint stop => pure { s with offset := stop }

/-! ### Reading a field -/

variable {bytes}

theorem byteAt_eq {offset : Int} (h : 0 ≤ offset) (hlt : offset < bytes.length) :
    byteAt bytes offset = .ok (bytes.getD offset.toNat 0) := if_pos ⟨h, hlt⟩

theorem readVarintLoop_spec {shift : Nat} {result : UInt64} {offset : Int} (h : 0 ≤ offset)
    (hshift : shift < 64) (hfuel : 64 ≤ shift + 7 * fuel) :
    (∃ m, readVarintLoop bytes fuel result shift offset = .error (.trustSession m)) ∨
      ∃ v stop, readVarintLoop bytes fuel result shift offset = .ok (v, stop) ∧ offset < stop ∧
        stop ≤ bytes.length := by
  induction fuel generalizing result shift offset with
  | zero => omega
  | succ fuel ih =>
    rw [readVarintLoop]
    by_cases hend : offset ≥ bytes.length
    · exact .inl ⟨_, if_pos hend⟩
    · rw [if_neg hend, byteAt_eq h (by omega), ok_bind]
      split
      · exact .inr ⟨_, _, rfl, by omega, by omega⟩
      · split
        · next hmore =>
          rcases @ih (shift + 7) _ (offset + 1) (by omega) hmore (by omega) with
            herr | ⟨v, stop, hv, hlt, hle⟩
          · exact .inl herr
          · exact .inr ⟨v, stop, hv, by omega, hle⟩
        · exact .inl ⟨_, rfl⟩

variable (bytes) in
/-- **A number is read**, or the message is malformed. -/
theorem readVarint_spec {offset : Int} (h : 0 ≤ offset) :
    (∃ m, readVarint bytes offset = .error (.trustSession m)) ∨
      ∃ v stop, readVarint bytes offset = .ok (v, stop) ∧ offset < stop ∧ stop ≤ bytes.length :=
  readVarintLoop_spec h (by decide) (by decide)

theorem readVarint_negative {offset : Int} (h : offset < 0) :
    readVarint bytes offset = .error (.crash .indexOutOfRange) := by
  have hbyte : byteAt bytes offset = .error (.crash .indexOutOfRange) := if_neg (by omega)
  unfold readVarint
  rw [readVarintLoop, if_neg (by omega), hbyte]
  rfl

structure Field.InBounds (bytes : Bytes) (offset : Int) (f : Field) : Prop where
  start_gt : offset < f.start
  start_le : f.start ≤ bytes.length
  count : ∀ count start, f = .fixed count start → 0 ≤ count ∧ count ≤ 8

variable (bytes) in
/-- **A field is read**, or the message is malformed. -/
theorem fieldAt_spec {offset : Int} (h : 0 ≤ offset) :
    (∃ m, fieldAt bytes offset = .error (.trustSession m)) ∨
      ∃ f, fieldAt bytes offset = .ok f ∧ f.InBounds bytes offset := by
  unfold fieldAt
  rcases readVarint_spec bytes h with ⟨m, hm⟩ | ⟨tag, o, htag, hlt, hle⟩
  · exact .inl ⟨m, by rw [hm]; rfl⟩
  · rw [htag, ok_bind]
    dsimp only
    have hnumber : ∀ make : UInt64 → Int → Field, (∀ v stop, (make v stop).start = stop) →
        (∀ v stop count start, make v stop ≠ .fixed count start) →
        (∃ m, (readVarint bytes o >>= fun r => pure (make r.1 r.2)) =
            (.error (.trustSession m) : Except Failure Field)) ∨
          ∃ f, (readVarint bytes o >>= fun r => pure (make r.1 r.2)) = .ok f ∧
            f.InBounds bytes offset := by
      intro make hstart hfixed
      have ho : 0 ≤ o := by omega
      rcases readVarint_spec bytes ho with ⟨m, hm⟩ | ⟨v, stop, hv, hlt', hle'⟩
      · exact .inl ⟨m, by rw [hm]; rfl⟩
      · exact .inr ⟨make v stop, by rw [hv]; rfl, by rw [hstart]; omega, by rw [hstart]; exact hle',
          fun count start h => absurd h (hfixed v stop count start)⟩
    have hplain : ∀ f : Field, f.start = o → (∀ count start, f = .fixed count start →
        0 ≤ count ∧ count ≤ 8) → f.InBounds bytes offset :=
      fun f hstart hcount => ⟨by omega, by omega, hcount⟩
    split
    · exact hnumber .decision (fun _ _ => rfl) nofun
    split
    · exact hnumber (.sized true) (fun _ _ => rfl) nofun
    split
    · exact hnumber (fun _ => .varint) (fun _ _ => rfl) nofun
    split
    · exact .inr ⟨_, rfl, hplain _ rfl fun count start hf => by cases hf; omega⟩
    split
    · exact hnumber (.sized false) (fun _ _ => rfl) nofun
    split
    · exact .inr ⟨_, rfl, hplain _ rfl fun count start hf => by cases hf; omega⟩
    · exact .inl ⟨_, rfl⟩

theorem decodeField_eq (s : Draft) :
    decodeField a utf8Decode bytes s =
      fieldAt bytes s.offset >>= applyField a utf8Decode bytes s := by
  unfold decodeField fieldAt
  cases readVarint bytes s.offset with
  | error e => rfl
  | ok r =>
    obtain ⟨tag, o⟩ := r
    rw [ok_bind, ok_bind]
    dsimp only
    split
    · cases readVarint bytes o <;> rfl
    split
    · unfold readString
      cases readVarint bytes o <;> rfl
    unfold skip
    split
    · cases readVarint bytes o <;> rfl
    split
    · rfl
    split
    · cases readVarint bytes o with
      | error e => rfl
      | ok r =>
        obtain ⟨v, start⟩ := r
        show ((a.ofVarint v >>= _) >>= _) = (a.ofVarint v >>= _)
        cases a.ofVarint v <;> rfl
    split
    · rfl
    · rfl

/-! ### Following the fields -/

def Draft.take (utf8Decode : Bytes → String) (bytes : Bytes) (code : UInt64 → Int) (s : Draft)
    (f : Field) (stop : Int) : Draft :=
  match f with
  | .decision v _ => { s with decisionCode := code v, offset := stop }
  | .sized true _ start =>
    { s with
      reason := utf8Decode ((bytes.drop start.toNat).take (stop - start).toNat)
      offset := stop }
  | .sized false _ _ => { s with offset := stop }
  | .fixed _ _ => { s with offset := stop }
  | .varint _ => { s with offset := stop }

def Draft.takeAll (utf8Decode : Bytes → String) (bytes : Bytes) (size code : UInt64 → Int)
    (s : Draft) (fs : List Field) : Draft :=
  fs.foldl (fun s f => s.take utf8Decode bytes code f (f.stop size)) s

@[simp] theorem Draft.take_offset (utf8Decode : Bytes → String) (bytes : Bytes)
    (code : UInt64 → Int) (s : Draft) (f : Field) (stop : Int) :
    (s.take utf8Decode bytes code f stop).offset = stop := by
  cases f with
  | sized reason length start => cases reason <;> rfl
  | _ => rfl

/--
A decoder follows the fields: one that is safe is taken if it fits, and is an error of the message if
it does not; one that is not safe makes it crash, at the latest when it reads on.
-/
structure Follows (bytes : Bytes) (size code : UInt64 → Int) (Safe : Field → Prop) : Prop where
  size_nonneg : ∀ v, 0 ≤ size v
  follows : ∀ {offset f} s, 0 ≤ offset → f.InBounds bytes offset → Safe f →
    (f.stop size ≤ bytes.length →
      applyField a utf8Decode bytes s f = .ok (s.take utf8Decode bytes code f (f.stop size))) ∧
    (¬ f.stop size ≤ bytes.length →
      ∃ m, applyField a utf8Decode bytes s f = .error (.trustSession m))
  crashes : ∀ {offset f} s, 0 ≤ offset → f.InBounds bytes offset → ¬ Safe f → ∀ fuel, ∃ c,
    (applyField a utf8Decode bytes s f >>= decodeLoop a utf8Decode bytes (fuel + 1)) =
      .error (.crash c)

variable {a utf8Decode}

theorem decodeLoop_more {s : Draft} (hmore : s.offset < bytes.length)
    (hf : fieldAt bytes s.offset = .ok f) (fuel : Nat) :
    decodeLoop a utf8Decode bytes (fuel + 1) s =
      applyField a utf8Decode bytes s f >>= decodeLoop a utf8Decode bytes fuel := by
  rw [decodeLoop, if_pos hmore, decodeField_eq, hf]
  rfl

theorem Field.InBounds.lt_stop {offset : Int} (h : f.InBounds bytes offset)
    (hsize : ∀ v, 0 ≤ size v) : offset < f.stop size := by
  have hstart := h.start_gt
  cases f with
  | decision v stop => exact hstart
  | sized reason length start =>
    have hlen := hsize length
    simp only [Field.start, Field.stop] at hstart ⊢
    omega
  | fixed count start =>
    have hcount := (h.count count start rfl).1
    simp only [Field.start, Field.stop] at hstart ⊢
    omega
  | varint stop => exact hstart

/-- **A decoder follows the fields of a message**: it returns if they are safe and end where the
message does, and crashes if one is not safe. -/
theorem decodeLoop_fields {code : UInt64 → Int} (h : Follows a utf8Decode bytes size code Safe)
    {s : Draft} (hpos : 0 ≤ s.offset) (hle : s.offset ≤ bytes.length)
    (hfuel : bytes.length - s.offset < fuel) :
    ((∀ f ∈ (fieldsFrom bytes size fuel s.offset).1, Safe f) →
      ((fieldsFrom bytes size fuel s.offset).2 = true →
        decodeLoop a utf8Decode bytes fuel s =
          .ok (decisionOf (s.takeAll utf8Decode bytes size code
              (fieldsFrom bytes size fuel s.offset).1).decisionCode,
            (s.takeAll utf8Decode bytes size code
              (fieldsFrom bytes size fuel s.offset).1).reason)) ∧
      ((fieldsFrom bytes size fuel s.offset).2 = false →
        ∃ m, decodeLoop a utf8Decode bytes fuel s = .error (.trustSession m))) ∧
    ((∃ f ∈ (fieldsFrom bytes size fuel s.offset).1, ¬ Safe f) →
      ∃ c, decodeLoop a utf8Decode bytes fuel s = .error (.crash c)) := by
  induction fuel generalizing s with
  | zero => omega
  | succ fuel ih =>
    rw [fieldsFrom]
    by_cases hmore : s.offset < bytes.length
    · rw [if_pos hmore]
      rcases fieldAt_spec bytes hpos with ⟨m, hm⟩ | ⟨f, hf, hbounds⟩
      · rw [hm]
        refine ⟨fun _ => ⟨nofun, fun _ => ⟨m, ?_⟩⟩, by simp⟩
        rw [decodeLoop, if_pos hmore, decodeField_eq, hm]
        rfl
      · rw [hf]
        dsimp only
        have hloop : decodeLoop a utf8Decode bytes (fuel + 1) s = _ := decodeLoop_more hmore hf fuel
        by_cases hsafe : Safe f
        · by_cases hfits : f.stop size ≤ bytes.length
          · have hlt := hbounds.lt_stop h.size_nonneg
            rw [if_pos hfits]
            rw [(h.follows s hpos hbounds hsafe).1 hfits, ok_bind] at hloop
            have hrest := ih (s := s.take utf8Decode bytes code f (f.stop size))
              (by rw [Draft.take_offset]; omega) (by rw [Draft.take_offset]; exact hfits)
              (by rw [Draft.take_offset]; omega)
            rw [Draft.take_offset, ← hloop] at hrest
            refine ⟨fun hall => hrest.1 fun g hg => hall g (mem_cons_of_mem _ hg), ?_⟩
            rintro ⟨g, hg, hunsafe⟩
            rcases mem_cons.mp hg with rfl | hg
            · exact absurd hsafe hunsafe
            · exact hrest.2 ⟨g, hg, hunsafe⟩
          · obtain ⟨m, hm⟩ := (h.follows s hpos hbounds hsafe).2 hfits
            rw [if_neg hfits]
            rw [hm] at hloop
            refine ⟨fun _ => ⟨nofun, fun _ => ⟨m, hloop⟩⟩, ?_⟩
            rintro ⟨g, hg, hunsafe⟩
            rw [mem_singleton] at hg
            exact absurd (hg ▸ hsafe) hunsafe
        · obtain ⟨fuel, rfl⟩ : ∃ k, fuel = k + 1 := ⟨fuel - 1, by omega⟩
          obtain ⟨c, hc⟩ := h.crashes s hpos hbounds hsafe fuel
          rw [hc] at hloop
          refine ⟨fun hall => absurd (hall f ?_) hsafe, fun _ => ⟨c, hloop⟩⟩
          split <;> exact mem_cons_self
    · rw [if_neg hmore]
      have hend : decodeLoop a utf8Decode bytes (fuel + 1) s =
          .ok (decisionOf s.decisionCode, s.reason) := by rw [decodeLoop, if_neg hmore]
      exact ⟨fun _ => ⟨fun _ => hend, nofun⟩, by simp⟩

/-! ## The two languages -/

def exactSize (v : UInt64) : Int := v.toNat

def lowSize (v : UInt64) : Int := (v.toNat % 2 ^ 32 : Nat)

def lowCode (v : UInt64) : Int := (v.toNat : Int).bmod (2 ^ 32)

def NoTrap : Field → Prop
  | .decision v _ => v.toNat < 2 ^ 63
  | .sized _ length start => start + exactSize length < 2 ^ 63
  | .fixed _ _ => True
  | .varint _ => True

def NoWrap : Field → Prop
  | .decision _ _ => True
  | .sized _ length start => lowSize length < 2 ^ 31 → start + lowSize length < 2 ^ 31
  | .fixed count start => start + count < 2 ^ 31
  | .varint _ => True

variable {v : UInt64}

section sized

variable {s : Draft} {code : UInt64 → Int} {start len : Int}

variable (bytes) in
theorem advance_bind (f : Int → Draft) (hlen : 0 ≤ len)
    (hadd : a.add start len = .ok (start + len)) :
    (start + len ≤ bytes.length →
      (advance a bytes start len >>= fun o => pure (f o)) = .ok (f (start + len))) ∧
    (¬ start + len ≤ bytes.length →
      ∃ m, (advance a bytes start len >>= fun o => pure (f o)) = .error (.trustSession m)) := by
  unfold advance
  rw [if_neg (by omega), hadd, ok_bind]
  exact ⟨fun hfits => by rw [if_neg (by omega)]; rfl,
    fun hlong => ⟨_, by rw [if_pos (by omega)]; rfl⟩⟩

theorem applyField_sized (hstart : 0 ≤ start) (hv : a.ofVarint v = .ok len) (hlen : 0 ≤ len)
    (hadd : a.add start len = .ok (start + len)) (reason : Bool) :
    (start + len ≤ bytes.length → applyField a utf8Decode bytes s (.sized reason v start) =
        .ok (s.take utf8Decode bytes code (.sized reason v start) (start + len))) ∧
      (¬ start + len ≤ bytes.length → ∃ m,
        applyField a utf8Decode bytes s (.sized reason v start) = .error (.trustSession m)) := by
  cases reason with
  | false =>
    rw [applyField, hv, ok_bind]
    exact advance_bind bytes _ hlen hadd
  | true =>
    rw [applyField, takeString, hv, ok_bind, if_neg (by omega), hadd, ok_bind]
    constructor
    · intro h
      have hstring : getString utf8Decode bytes start len =
          .ok (utf8Decode ((bytes.drop start.toNat).take len.toNat)) := if_pos (by omega)
      rw [if_neg (by omega), hstring]
      show Except.ok _ = Except.ok _
      rw [Draft.take, show start + len - start = len by omega]
    · intro h
      rw [if_pos (by omega)]
      exact ⟨_, rfl⟩

theorem applyField_fixed (hlen : 0 ≤ len) (hadd : a.add start len = .ok (start + len)) :
    (start + len ≤ bytes.length → applyField a utf8Decode bytes s (.fixed len start) =
        .ok (s.take utf8Decode bytes code (.fixed len start) (start + len))) ∧
      (¬ start + len ≤ bytes.length → ∃ m,
        applyField a utf8Decode bytes s (.fixed len start) = .error (.trustSession m)) :=
  advance_bind bytes _ hlen hadd

end sized

section swift

theorem exactSize_nonneg (v : UInt64) : 0 ≤ exactSize v := by
  unfold exactSize
  omega

theorem swiftInt_add {x y : Int} (hx : 0 ≤ x) (hy : 0 ≤ y) (h : x + y < 2 ^ 63) :
    swiftInt.add x y = .ok (x + y) := if_pos ⟨by omega, h⟩

theorem swiftInt_add_trap {x y : Int} (h : ¬ x + y < 2 ^ 63) :
    swiftInt.add x y = .error (.crash .trap) := if_neg fun hxy => h hxy.2

theorem swiftInt_ofVarint (h : v.toNat < 2 ^ 63) :
    swiftInt.ofVarint v = .ok (exactSize v) := if_pos h

theorem swiftInt_ofVarint_trap (h : ¬ v.toNat < 2 ^ 63) :
    swiftInt.ofVarint v = .error (.crash .trap) := if_neg h

theorem swift_sized_traps {s : Draft} {start : Int} (h : ¬ start + exactSize length < 2 ^ 63)
    (reason : Bool) :
    applyField swiftInt utf8Decode bytes s (.sized reason length start) =
      .error (.crash .trap) := by
  by_cases hv : length.toNat < 2 ^ 63
  · have hsize := exactSize_nonneg length
    have hadd := swiftInt_add_trap h
    cases reason with
    | false =>
      rw [applyField, swiftInt_ofVarint hv, ok_bind, advance, hadd]
      rfl
    | true =>
      rw [applyField, takeString, swiftInt_ofVarint hv, ok_bind, hadd]
      rfl
  · have htrap := swiftInt_ofVarint_trap hv
    cases reason with
    | false =>
      rw [applyField, htrap]
      rfl
    | true =>
      rw [applyField, takeString, htrap]
      rfl

/-- **The fields that Swift gets through.** -/
theorem swift_follows (utf8Decode : Bytes → String) (hlen : bytes.length < 2 ^ 31) :
    Follows swiftInt utf8Decode bytes exactSize exactSize NoTrap where
  size_nonneg := exactSize_nonneg
  follows := by
    intro offset f s hpos hbounds hsafe
    have hgt := hbounds.start_gt
    have hle := hbounds.start_le
    cases f with
    | decision v stop =>
      refine ⟨fun _ => ?_, fun h => absurd hle h⟩
      rw [applyField, swiftInt_ofVarint hsafe]
      rfl
    | sized reason length start =>
      have hsize := exactSize_nonneg length
      simp only [Field.start, NoTrap] at hgt hsafe
      refine applyField_sized (by omega) (swiftInt_ofVarint ?_) hsize
        (swiftInt_add (by omega) hsize hsafe) reason
      unfold exactSize at hsafe
      omega
    | fixed count start =>
      obtain ⟨hcount, hsmall⟩ := hbounds.count count start rfl
      simp only [Field.start] at hgt hle
      exact applyField_fixed hcount (swiftInt_add (by omega) hcount (by omega))
    | varint stop => exact ⟨fun _ => rfl, fun h => absurd hle h⟩
  crashes := by
    intro offset f s hpos hbounds hunsafe fuel
    refine ⟨.trap, ?_⟩
    cases f with
    | decision v stop =>
      rw [applyField, swiftInt_ofVarint_trap hunsafe]
      rfl
    | sized reason length start =>
      rw [swift_sized_traps hunsafe reason]
      rfl
    | fixed count start => exact absurd trivial hunsafe
    | varint stop => exact absurd trivial hunsafe

end swift

section csharp

theorem bmod_eq_self {x : Int} (hx : 0 ≤ x) (h : x < 2 ^ 31) : x.bmod (2 ^ 32) = x := by
  rw [Int.bmod]
  split <;> omega

theorem bmod_neg {x : Int} (hx : 2 ^ 31 ≤ x) (h : x < 2 ^ 32) : x.bmod (2 ^ 32) < 0 := by
  rw [Int.bmod]
  split <;> omega

theorem lowCode_eq (v : UInt64) : lowCode v = (lowSize v).bmod (2 ^ 32) := by
  unfold lowCode lowSize
  exact (Int.emod_bmod _ _).symm

theorem lowSize_bounds (v : UInt64) : 0 ≤ lowSize v ∧ lowSize v < 2 ^ 32 := by
  unfold lowSize
  omega

theorem decodeLoop_negative {s : Draft} (h : s.offset < 0) (fuel : Nat) :
    decodeLoop csharpInt utf8Decode bytes (fuel + 1) s = .error (.crash .indexOutOfRange) := by
  rw [decodeLoop, if_pos (by omega), decodeField, readVarint_negative h]
  rfl

variable (bytes) in
theorem advance_wraps {start len : Int} (hlen : 0 ≤ len) (hwrap : 2 ^ 31 ≤ start + len)
    (hsmall : start + len < 2 ^ 32) :
    ∃ offset, advance csharpInt bytes start len = .ok offset ∧ offset < 0 := by
  have hneg := bmod_neg hwrap hsmall
  refine ⟨_, ?_, hneg⟩
  unfold advance
  rw [if_neg (by omega)]
  show (if (start + len).bmod (2 ^ 32) > bytes.length then _ else _) = _
  rw [if_neg (by omega)]
  rfl

theorem csharpInt_ofVarint (v : UInt64) :
    csharpInt.ofVarint v = .ok ((lowSize v).bmod (2 ^ 32)) := congrArg Except.ok (lowCode_eq v)

theorem csharpInt_ofVarint_short (h : lowSize v < 2 ^ 31) :
    csharpInt.ofVarint v = .ok (lowSize v) := by
  rw [csharpInt_ofVarint, bmod_eq_self (lowSize_bounds v).1 h]

theorem csharp_sized_refused {s : Draft} {length : UInt64} {start : Int}
    (h : 2 ^ 31 ≤ lowSize length) (reason : Bool) :
    ∃ m, applyField csharpInt utf8Decode bytes s (.sized reason length start) =
      .error (.trustSession m) := by
  have hv := csharpInt_ofVarint length
  have hneg := bmod_neg h (lowSize_bounds length).2
  cases reason with
  | false =>
    rw [applyField, hv, ok_bind, advance, if_pos hneg]
    exact ⟨_, rfl⟩
  | true =>
    rw [applyField, takeString, hv, ok_bind, if_pos hneg]
    exact ⟨_, rfl⟩

theorem csharp_takeString_wraps {start : Int} (hlen : bytes.length < 2 ^ 31)
    (hstart : start ≤ bytes.length) (hshort : lowSize length < 2 ^ 31)
    (hwrap : 2 ^ 31 ≤ start + lowSize length) :
    takeString csharpInt utf8Decode bytes length start = .error (.crash .argumentOutOfRange) := by
  have hneg := bmod_neg hwrap (by omega)
  have hget : getString utf8Decode bytes start (lowSize length) =
      .error (.crash .argumentOutOfRange) := if_neg (by omega)
  unfold takeString
  rw [csharpInt_ofVarint_short hshort, ok_bind]
  show (if (start + lowSize length).bmod (2 ^ 32) > bytes.length then _ else _) = _
  rw [if_neg (by omega), hget]
  rfl

/-- **The fields that C# gets through.** -/
theorem csharp_follows (utf8Decode : Bytes → String) (hlen : bytes.length < 2 ^ 31) :
    Follows csharpInt utf8Decode bytes lowSize lowCode NoWrap where
  size_nonneg := fun v => (lowSize_bounds v).1
  follows := by
    intro offset f s hpos hbounds hsafe
    have hgt := hbounds.start_gt
    have hle := hbounds.start_le
    cases f with
    | decision v stop => exact ⟨fun _ => rfl, fun h => absurd hle h⟩
    | sized reason length start =>
      obtain ⟨hsize, -⟩ := lowSize_bounds length
      simp only [Field.start] at hgt hle hsafe
      by_cases hshort : lowSize length < 2 ^ 31
      · refine applyField_sized (by omega) (csharpInt_ofVarint_short hshort) hsize
          (congrArg Except.ok ?_) reason
        exact bmod_eq_self (by omega) (hsafe hshort)
      · refine ⟨fun h => absurd h ?_, fun _ => csharp_sized_refused (by omega) reason⟩
        simp only [Field.stop]
        omega
    | fixed count start =>
      obtain ⟨hcount, -⟩ := hbounds.count count start rfl
      simp only [Field.start] at hgt hsafe
      refine applyField_fixed hcount (congrArg Except.ok ?_)
      exact bmod_eq_self (by omega) hsafe
    | varint stop => exact ⟨fun _ => rfl, fun h => absurd hle h⟩
  crashes := by
    intro offset f s hpos hbounds hunsafe fuel
    have hgt := hbounds.start_gt
    have hle := hbounds.start_le
    cases f with
    | decision v stop => exact absurd trivial hunsafe
    | sized reason length start =>
      obtain ⟨hsize, -⟩ := lowSize_bounds length
      simp only [Field.start, NoWrap, not_forall, Int.not_lt] at hgt hle hunsafe
      obtain ⟨hshort, hwrap⟩ := hunsafe
      cases reason with
      | false =>
        obtain ⟨o, ho, hneg⟩ := advance_wraps bytes hsize hwrap (by omega)
        refine ⟨.indexOutOfRange, ?_⟩
        rw [applyField, csharpInt_ofVarint_short hshort, ok_bind, ho]
        exact decodeLoop_negative hneg fuel
      | true =>
        refine ⟨.argumentOutOfRange, ?_⟩
        rw [applyField, csharp_takeString_wraps hlen hle hshort hwrap]
        rfl
    | fixed count start =>
      obtain ⟨hcount, hsmall⟩ := hbounds.count count start rfl
      simp only [Field.start, NoWrap, Int.not_lt] at hgt hle hunsafe
      obtain ⟨o, ho, hneg⟩ := advance_wraps bytes hcount hunsafe (by omega)
      refine ⟨.indexOutOfRange, ?_⟩
      rw [applyField, ho]
      exact decodeLoop_negative hneg fuel
    | varint stop => exact absurd trivial hunsafe

end csharp

end fields

/-! ## When the decoders agree -/

def lastDecision : List Field → Option UInt64
  | [] => none
  | .decision v _ :: fs => some ((lastDecision fs).getD v)
  | _ :: fs => lastDecision fs

section agree

variable {utf8Decode : Bytes → String} {bytes : Bytes}

theorem decisionCode_takeAll (size code : UInt64 → Int) (s : Draft) (fs : List Field) :
    (s.takeAll utf8Decode bytes size code fs).decisionCode =
      ((lastDecision fs).map code).getD s.decisionCode := by
  induction fs generalizing s with
  | nil => rfl
  | cons f fs ih =>
    show ((s.take utf8Decode bytes code f (f.stop size)).takeAll utf8Decode bytes size code
      fs).decisionCode = _
    rw [ih]
    cases f with
    | decision v stop =>
      rw [lastDecision]
      cases lastDecision fs <;> rfl
    | sized reason length start => cases reason <;> rfl
    | fixed count start => rfl
    | varint stop => rfl

def SameSizes (size size' : UInt64 → Int) (fs : List Field) : Prop :=
  ∀ reason length start, Field.sized reason length start ∈ fs → size length = size' length

variable {size' : UInt64 → Int}

theorem Field.stop_congr
    (h : ∀ reason length start, f = .sized reason length start → size length = size' length) :
    f.stop size = f.stop size' := by
  cases f with
  | sized reason length start => simp only [Field.stop, h reason length start rfl]
  | _ => rfl

theorem reason_takeAll {code code' : UInt64 → Int} {s s' : Draft} (h : s.reason = s'.reason)
    {fs : List Field} (hsizes : SameSizes size size' fs) :
    (s.takeAll utf8Decode bytes size code fs).reason =
      (s'.takeAll utf8Decode bytes size' code' fs).reason := by
  induction fs generalizing s s' with
  | nil => exact h
  | cons f fs ih =>
    have hstop : f.stop size = f.stop size' := Field.stop_congr fun reason length start hf =>
      hsizes reason length start (hf ▸ mem_cons_self)
    refine ih ?_ fun reason length start hf =>
      hsizes reason length start (mem_cons_of_mem _ hf)
    show (s.take utf8Decode bytes code f (f.stop size)).reason =
      (s'.take utf8Decode bytes code' f (f.stop size')).reason
    rw [hstop]
    cases f with
    | sized reason length start =>
      cases reason with
      | false => exact h
      | true => rfl
    | _ => exact h

theorem fieldsFrom_congr {offset : Int}
    (h : SameSizes size size' (fieldsFrom bytes size fuel offset).1) :
    fieldsFrom bytes size' fuel offset = fieldsFrom bytes size fuel offset := by
  induction fuel generalizing offset with
  | zero => rfl
  | succ fuel ih =>
    rw [fieldsFrom] at h ⊢
    rw [fieldsFrom]
    split at h
    · next hmore =>
      rw [if_pos hmore, if_pos hmore]
      cases hf : fieldAt bytes offset with
      | error e => rfl
      | ok f =>
        rw [hf] at h
        dsimp only at h ⊢
        have hmem : f ∈ (if f.stop size ≤ bytes.length then
            (f :: (fieldsFrom bytes size fuel (f.stop size)).1,
              (fieldsFrom bytes size fuel (f.stop size)).2)
            else ([f], false)).1 := by
          split <;> exact mem_cons_self
        have hstop : f.stop size = f.stop size' :=
          Field.stop_congr fun reason length start hsized => h reason length start (hsized ▸ hmem)
        rw [← hstop]
        split at h
        · next hfits =>
          rw [if_pos hfits, if_pos hfits,
            ih fun reason length start hg => h reason length start (mem_cons_of_mem _ hg)]
        · next hfits => rw [if_neg hfits, if_neg hfits]
    · next hmore => rw [if_neg hmore, if_neg hmore]

variable {reason : Bool}

theorem length_le_of_complete (hsize : ∀ v, 0 ≤ size v) {offset : Int} (hpos : 0 ≤ offset)
    (hend : (fieldsFrom bytes size fuel offset).2 = true) {start : Int}
    (hf : Field.sized reason length start ∈ (fieldsFrom bytes size fuel offset).1) :
    size length ≤ bytes.length := by
  induction fuel generalizing offset with
  | zero => cases hend
  | succ fuel ih =>
    rw [fieldsFrom] at hend hf
    split at hend
    · next hmore =>
      rw [if_pos hmore] at hf
      rcases fieldAt_spec bytes hpos with ⟨m, hm⟩ | ⟨f, hat, hbounds⟩
      · rw [hm] at hend
        cases hend
      · rw [hat] at hend hf
        dsimp only at hend hf
        split at hend
        · next hfits =>
          rw [if_pos hfits] at hf
          have hlt := hbounds.lt_stop hsize
          rcases mem_cons.mp hf with rfl | hf
          · have hgt := hbounds.start_gt
            simp only [Field.start, Field.stop] at hgt hfits
            omega
          · exact ih (by omega) hend hf
        · cases hend
    · next hmore =>
      rw [if_neg hmore] at hf
      cases hf

def Agree {α : Type} (x y : Except Failure α) : Prop :=
  (∃ m m', x = .error (.trustSession m) ∧ y = .error (.trustSession m')) ∨
    ∃ r, x = .ok r ∧ y = .ok r

theorem Agree.left_ne_crash {α : Type} {x y : Except Failure α} (h : Agree x y) (c : Crash) :
    x ≠ .error (.crash c) := by
  rcases h with ⟨m, m', rfl, -⟩ | ⟨r, rfl, -⟩ <;> exact nofun

theorem Agree.right_ne_crash {α : Type} {x y : Except Failure α} (h : Agree x y) (c : Crash) :
    y ≠ .error (.crash c) := by
  rcases h with ⟨m, m', -, rfl⟩ | ⟨r, -, rfl⟩ <;> exact nofun

theorem Agree.left_eq_ok {α : Type} {x y : Except Failure α} (h : Agree x y) {r : α}
    (hy : y = .ok r) : x = .ok r := by
  rcases h with ⟨m, m', -, rfl⟩ | ⟨r', rfl, rfl⟩
  · cases hy
  · exact hy

def CodeFits (v : UInt64) : Prop :=
  ¬ (2 ^ 32 ≤ v.toNat ∧ 1 ≤ v.toNat % 2 ^ 32 ∧ v.toNat % 2 ^ 32 ≤ 3)

theorem decisionOf_eq_unspecified_iff (code : Int) :
    decisionOf code = .unspecified ↔ ¬ (1 ≤ code ∧ code ≤ 3) := by
  unfold decisionOf
  split
  · exact iff_of_false nofun (by omega)
  split
  · exact iff_of_false nofun (by omega)
  split
  · exact iff_of_false nofun (by omega)
  · exact iff_of_true rfl (by omega)

theorem lowSize_eq_exactSize_iff (v : UInt64) : exactSize v = lowSize v ↔ v.toNat < 2 ^ 32 := by
  unfold exactSize lowSize
  omega

theorem sameSizes_of_small {fs : List Field}
    (h : ∀ reason length start, .sized reason length start ∈ fs → length.toNat < 2 ^ 32) :
    SameSizes lowSize exactSize fs := fun reason length start hf =>
  ((lowSize_eq_exactSize_iff length).mpr (h reason length start hf)).symm

theorem decisionOf_eq_iff (v : UInt64) :
    decisionOf (exactSize v) = decisionOf (lowCode v) ↔ CodeFits v := by
  obtain ⟨hpos, hlow⟩ := lowSize_bounds v
  have hcode := lowCode_eq v
  by_cases hshort : lowSize v < 2 ^ 31
  · rw [hcode, bmod_eq_self hpos hshort]
    by_cases hsmall : v.toNat < 2 ^ 32
    · rw [(lowSize_eq_exactSize_iff v).mpr hsmall]
      exact iff_of_true rfl fun h => absurd h.1 (by omega)
    · have hexact : decisionOf (exactSize v) = .unspecified := by
        rw [decisionOf_eq_unspecified_iff]
        unfold exactSize
        omega
      rw [hexact, eq_comm, decisionOf_eq_unspecified_iff]
      unfold CodeFits lowSize
      omega
  · have hneg := bmod_neg (by omega) hlow
    have hcsharp : decisionOf (lowCode v) = .unspecified := by
      rw [decisionOf_eq_unspecified_iff]
      omega
    rw [hcsharp, decisionOf_eq_unspecified_iff]
    unfold CodeFits exactSize
    unfold lowSize at hshort
    omega

/-- If the lengths are read as they are written, a message that is read to its end has none that
does not fit. -/
theorem small_of_complete (hlen : bytes.length < 2 ^ 31) (hend : (fields bytes exactSize).2 = true)
    {start : Int} (hf : .sized reason length start ∈ (fields bytes exactSize).1) :
    length.toNat < 2 ^ 32 := by
  have hle := length_le_of_complete exactSize_nonneg (Int.le_refl 0) hend hf
  unfold exactSize at hle
  omega

theorem fields_low_of_complete (hlen : bytes.length < 2 ^ 31)
    (hend : (fields bytes exactSize).2 = true) :
    fields bytes lowSize = fields bytes exactSize :=
  fieldsFrom_congr fun _ length _ hf =>
    (lowSize_eq_exactSize_iff length).mpr (small_of_complete hlen hend hf)

def message (utf8Decode : Bytes → String) (bytes : Bytes) (size code : UInt64 → Int) : Draft :=
  (Draft.mk 0 "" 0).takeAll utf8Decode bytes size code (fields bytes size).1

structure Ends (utf8Decode : Bytes → String) (bytes : Bytes) (size code : UInt64 → Int)
    (Safe : Field → Prop) (r : Except Failure (TrustDecision × String)) : Prop where
  returns : (∀ f ∈ (fields bytes size).1, Safe f) → (fields bytes size).2 = true →
    r = .ok (decisionOf (message utf8Decode bytes size code).decisionCode,
      (message utf8Decode bytes size code).reason)
  malformed : (∀ f ∈ (fields bytes size).1, Safe f) → (fields bytes size).2 = false →
    ∃ m, r = .error (.trustSession m)
  crashes : ∀ f ∈ (fields bytes size).1, ¬ Safe f → ∃ c, r = .error (.crash c)

theorem Follows.ends {a : Arith} {code : UInt64 → Int}
    (h : Follows a utf8Decode bytes size code Safe) :
    Ends utf8Decode bytes size code Safe (decode a utf8Decode bytes) := by
  have hfuel : (bytes.length : Int) - 0 < (bytes.length + 1 : Nat) := by omega
  obtain ⟨hsafe, hunsafe⟩ := decodeLoop_fields (s := ⟨0, "", 0⟩) h (Int.le_refl 0)
    (Int.natCast_nonneg _) hfuel
  exact ⟨fun hall => (hsafe hall).1, fun hall => (hsafe hall).2,
    fun f hf hcrash => hunsafe ⟨f, hf, hcrash⟩⟩

theorem message_eq_iff (utf8Decode : Bytes → String)
    (hsizes : SameSizes lowSize exactSize (fields bytes lowSize).1)
    (hfields : fields bytes exactSize = fields bytes lowSize) :
    (decisionOf (message utf8Decode bytes exactSize exactSize).decisionCode,
        (message utf8Decode bytes exactSize exactSize).reason) =
      (decisionOf (message utf8Decode bytes lowSize lowCode).decisionCode,
        (message utf8Decode bytes lowSize lowCode).reason) ↔
    ∀ v ∈ lastDecision (fields bytes lowSize).1, CodeFits v := by
  have hreason : (message utf8Decode bytes exactSize exactSize).reason =
      (message utf8Decode bytes lowSize lowCode).reason := by
    unfold message
    rw [hfields]
    exact (reason_takeAll rfl hsizes).symm
  rw [Prod.mk.injEq, and_iff_left hreason]
  unfold message
  rw [hfields, decisionCode_takeAll, decisionCode_takeAll]
  cases lastDecision (fields bytes lowSize).1 with
  | none =>
    rw [Option.map_none]
    exact iff_of_true rfl nofun
  | some v =>
    rw [Option.map_some, Option.map_some, Option.getD_some, Option.getD_some, decisionOf_eq_iff]
    exact ⟨fun h v' hv' => by cases hv'; exact h, fun h => h v rfl⟩

/--
**When the decoders agree.** Read the fields of the message twice, with each length as the number that
is written and with its low 32 bits. The decoders agree exactly if: of the first fields, none has a
decision or an end that is not in the range of Swift's `Int`; of the second, none has a length in the
range of C#'s `int` and an end that is not; and if the second fields end where the message does, none
of their lengths and not the last decision is changed by taking the low 32 bits.
-/
theorem decoders_agree_iff (utf8Decode : Bytes → String) (hlen : bytes.length < 2 ^ 31) :
    Agree (swiftDecode utf8Decode bytes) (csharpDecode utf8Decode bytes) ↔
      (∀ f ∈ (fields bytes exactSize).1, NoTrap f) ∧ (∀ f ∈ (fields bytes lowSize).1, NoWrap f) ∧
      ((fields bytes lowSize).2 = true →
        (∀ reason length start, .sized reason length start ∈ (fields bytes lowSize).1 →
          length.toNat < 2 ^ 32) ∧
        ∀ v ∈ lastDecision (fields bytes lowSize).1, CodeFits v) := by
  have hswift : Ends utf8Decode bytes exactSize exactSize NoTrap (swiftDecode utf8Decode bytes) :=
    (swift_follows utf8Decode hlen).ends
  have hcsharp : Ends utf8Decode bytes lowSize lowCode NoWrap (csharpDecode utf8Decode bytes) :=
    (csharp_follows utf8Decode hlen).ends
  constructor
  · intro hagree
    have htrap : ∀ f ∈ (fields bytes exactSize).1, NoTrap f := by
      intro f hf
      by_contra hunsafe
      obtain ⟨c, hc⟩ := hswift.crashes f hf hunsafe
      exact hagree.left_ne_crash c hc
    have hwrap : ∀ f ∈ (fields bytes lowSize).1, NoWrap f := by
      intro f hf
      by_contra hunsafe
      obtain ⟨c, hc⟩ := hcsharp.crashes f hf hunsafe
      exact hagree.right_ne_crash c hc
    refine ⟨htrap, hwrap, fun hend => ?_⟩
    -- C# returns, so Swift returns as well and has read to the end.
    have hreturns := hagree.left_eq_ok (hcsharp.returns hwrap hend)
    have hend' : (fields bytes exactSize).2 = true := by
      cases hfalse : (fields bytes exactSize).2 with
      | true => rfl
      | false =>
        obtain ⟨m, hm⟩ := hswift.malformed htrap hfalse
        rw [hm] at hreturns
        cases hreturns
    have hfields := fields_low_of_complete hlen hend'
    have hsmall : ∀ reason length start,
        Field.sized reason length start ∈ (fields bytes lowSize).1 → length.toNat < 2 ^ 32 := by
      intro reason length start hf
      rw [hfields] at hf
      exact small_of_complete hlen hend' hf
    refine ⟨hsmall, (message_eq_iff utf8Decode (sameSizes_of_small hsmall) hfields.symm).mp ?_⟩
    rw [hswift.returns htrap hend'] at hreturns
    exact Except.ok.inj hreturns
  · rintro ⟨htrap, hwrap, hend⟩
    cases hlow : (fields bytes lowSize).2 with
    | true =>
      obtain ⟨hsmall, hcode⟩ := hend hlow
      have hsizes := sameSizes_of_small hsmall
      have hfields : fields bytes exactSize = fields bytes lowSize := fieldsFrom_congr hsizes
      refine .inr ⟨_, hswift.returns htrap (hfields ▸ hlow), ?_⟩
      rw [(message_eq_iff utf8Decode hsizes hfields).mpr hcode]
      exact hcsharp.returns hwrap hlow
    | false =>
      obtain ⟨m', hm'⟩ := hcsharp.malformed hwrap hlow
      have hexact : (fields bytes exactSize).2 = false := by
        cases htrue : (fields bytes exactSize).2 with
        | false => rfl
        | true =>
          rw [fields_low_of_complete hlen htrue, htrue] at hlow
          cases hlow
      obtain ⟨m, hm⟩ := hswift.malformed htrap hexact
      exact .inl ⟨m, m', hm, hm'⟩

end agree

/-- A decision of `2 ^ 32 + 1` is none in Swift and the first one in C#; one of `2 ^ 63` stops the
process in Swift; and a length of `2 ^ 31 - 1` makes C# read before the message. -/
theorem large_numbers_differ :
    swiftDecode (fun _ => "") [0x08, 0x81, 0x80, 0x80, 0x80, 0x10] = .ok (.unspecified, "") ∧
      csharpDecode (fun _ => "") [0x08, 0x81, 0x80, 0x80, 0x80, 0x10] = .ok (.allow, "") ∧
      swiftDecode (fun _ => "")
        [0x08, 0x80, 0x80, 0x80, 0x80, 0x80, 0x80, 0x80, 0x80, 0x80, 0x01] =
          .error (.crash .trap) ∧
      csharpDecode (fun _ => "") [0x1a, 0xff, 0xff, 0xff, 0xff, 0x07] =
        .error (.crash .indexOutOfRange) := by
  decide +kernel

def sampleMessage : Bytes := [0x08, 0x01, 0x12, 0x02, 0x6f, 0x6b]

theorem decoders_agree_sample :
    Agree (swiftDecode (fun _ => "ok") sampleMessage)
      (csharpDecode (fun _ => "ok") sampleMessage) := by
  have hexact : fields sampleMessage exactSize = ([.decision 1 2, .sized true 2 4], true) := rfl
  have hlow : fields sampleMessage lowSize = ([.decision 1 2, .sized true 2 4], true) := rfl
  refine (decoders_agree_iff (fun _ => "ok") (by decide)).mpr ?_
  rw [hexact, hlow]
  refine ⟨?_, ?_, fun _ => ⟨?_, ?_⟩⟩
  · simp [NoTrap, exactSize]
  · simp [NoWrap, lowSize]
  · intro reason length start hf
    simp only [mem_cons, Field.sized.injEq, not_mem_nil, or_false, reduceCtorEq,
      false_or] at hf
    rw [hf.2.1]
    decide
  · intro v hv
    cases hv
    unfold CodeFits
    decide

end Kseal.Desktop
