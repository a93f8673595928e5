import Kseal.Infra.Perm
import Kseal.Infra.SplitMix

/-!
# The white-box MAC

Each byte of the two key blocks of HMAC is sent through a shuffled byte table. The index of an
exchange is drawn by rejection, a loop without a bound of its own (`whitebox_hmac`).
-/

namespace Kseal.Device

open Infra

/-! ## The tables -/

def block : Nat := 64
def positions : Nat := 2 * block

def ipad : UInt8 := 0x36
def opad : UInt8 := 0x5c

def publicTestProofKey : Bytes :=
  [0x6b, 0x73, 0x65, 0x61, 0x6c, 0x2d, 0x74, 0x65, 0x73, 0x74, 0x2d, 0x69, 0x6e, 0x73, 0x74, 0x61,
    0x6e, 0x63, 0x65, 0x2d, 0x6b, 0x65, 0x79]
def masterSeed : UInt64 := 0xA5A51234DEADBEEF

structure WbTables where
  enc : Bytes
  sinv : List Bytes

def smStep (state : UInt64) : UInt64 × UInt64 :=
  let ns := state + 0x9E3779B97F4A7C15
  let z := (ns ^^^ (ns >>> 30)) * 0xBF58476D1CE4E5B9
  let z := (z ^^^ (z >>> 27)) * 0x94D049BB133111EB
  (ns, z ^^^ (z >>> 31))

def posSeed (masterSeed : UInt64) (i : Nat) : UInt64 :=
  (smStep (masterSeed ^^^ UInt64.ofNat i * 0x9E3779B97F4A7C15)).2

def limit (bound : UInt64) : UInt64 := 0xFFFFFFFFFFFFFFFF - 0xFFFFFFFFFFFFFFFF % bound

def bounded : Nat → UInt64 → UInt64 → Option (UInt64 × UInt64)
  | 0, _, _ => none
  | fuel + 1, s, bound =>
    let (ns, r) := smStep s
    if r < limit bound then some (ns, r % bound) else bounded fuel ns bound

def shuffle (fuel : Nat) : Nat → UInt64 → Bytes → Option Bytes
  | 0, _, p => some p
  | j + 1, state, p => do
    let (ns, r) ← bounded fuel state (UInt64.ofNat (j + 1) + 1)
    let k := r.toNat
    let tmp ← p[j + 1]?
    let pk ← p[k]?
    shuffle fuel j ns ((p.set (j + 1) pk).set k tmp)

def genPerm (fuel : Nat) (seed : UInt64) : Option (Bytes × Bytes) := do
  let p ← shuffle fuel 255 seed (identityTable 256)
  pure (p, invert 256 p)

def keyBlockByte (key : Bytes) (i : Nat) : UInt8 :=
  let pos := i % block
  let kb := key.getD pos 0
  let pad := if i < block then ipad else opad
  kb ^^^ pad

def encodeAt (fuel : Nat) (masterSeed : UInt64) (key : Bytes) (i : Nat) :
    Option (UInt8 × Bytes) := do
  let (fwd, inv) ← genPerm fuel (posSeed masterSeed i)
  let e ← fwd[(keyBlockByte key i).toNat]?
  pure (e, inv)

def buildTables (fuel : Nat) (masterSeed : UInt64) (key : Bytes) : Option WbTables := do
  let rows ← (List.range positions).mapM (encodeAt fuel masterSeed key)
  pure { enc := rows.map Prod.fst, sinv := rows.map Prod.snd }

def WbTables.decodeAt (tables : WbTables) (i : Nat) : Option UInt8 := do
  let row ← tables.sinv[i]?
  let e ← tables.enc[i]?
  row[e.toNat]?

def keyIpadOpad (tables : WbTables) : Option (Bytes × Bytes) := do
  let kIpad ← (List.range block).mapM fun i => tables.decodeAt i
  let kOpad ← (List.range block).mapM fun i => tables.decodeAt (block + i)
  pure (kIpad, kOpad)

def whiteboxHmacSha256 (sha256 : Bytes → Vector UInt8 32) (tables : WbTables) (message : Bytes) :
    Option (Vector UInt8 32) := do
  let (kIpad, kOpad) ← keyIpadOpad tables
  let innerDigest := sha256 (kIpad ++ message)
  pure (sha256 (kOpad ++ innerDigest.toList))

/-! ## HMAC -/

def blockKey (sha256 : Bytes → Vector UInt8 32) (key : Bytes) : Bytes :=
  let k := if block < key.length then (sha256 key).toList else key
  k ++ List.replicate (block - k.length) 0

def hmacSha256 (sha256 : Bytes → Vector UInt8 32) (key message : Bytes) : Vector UInt8 32 :=
  let k := blockKey sha256 key
  sha256 (k.map (· ^^^ opad) ++ (sha256 (k.map (· ^^^ ipad) ++ message)).toList)

/-! ## The draw -/

theorem smStep_eq (state : UInt64) :
    smStep state = (state + SplitMix.gamma, SplitMix.output state 0) := by
  have hone : UInt64.ofNat (0 + 1) * SplitMix.gamma = SplitMix.gamma := by decide
  rfl

theorem limit_le {bound : UInt64} (hb : 0 < bound.toNat) :
    2 ^ 64 - (limit bound).toNat ≤ bound.toNat := by
  have hmod := Nat.mod_lt (2 ^ 64 - 1) hb
  have hle : (0xFFFFFFFFFFFFFFFF % bound : UInt64) ≤ 0xFFFFFFFFFFFFFFFF := by
    exact Nat.mod_le _ _
  have hnat : (limit bound).toNat = 2 ^ 64 - 1 - (2 ^ 64 - 1) % bound.toNat := by
    rw [limit, UInt64.toNat_sub_of_le _ _ hle]
    rfl
  omega

theorem bounded_of_output_lt {bound : UInt64} {i : Nat} {s : UInt64}
    (h : SplitMix.output s i < limit bound) : ∃ r, ∀ fuel > i, bounded fuel s bound = some r := by
  induction i generalizing s with
  | zero =>
    refine ⟨(s + SplitMix.gamma, SplitMix.output s 0 % bound), fun fuel hfuel => ?_⟩
    obtain ⟨fuel, rfl⟩ := Nat.exists_eq_add_of_lt hfuel
    simp [bounded, smStep_eq, h]
  | succ i ih =>
    by_cases hfirst : SplitMix.output s 0 < limit bound
    · refine ⟨(s + SplitMix.gamma, SplitMix.output s 0 % bound), fun fuel hfuel => ?_⟩
      obtain ⟨fuel, rfl⟩ := Nat.exists_eq_add_of_lt hfuel
      simp [bounded, smStep_eq, hfirst]
    · rw [← SplitMix.output_add_gamma] at h
      obtain ⟨r, hr⟩ := ih h
      refine ⟨r, fun fuel hfuel => ?_⟩
      obtain ⟨fuel, rfl⟩ := Nat.exists_eq_add_of_lt hfuel
      have hrest := hr (i + 1 + fuel) (by omega)
      simpa [bounded, smStep_eq, hfirst] using hrest

/-- **The rejection loop returns for every state.** -/
theorem bounded_returns (s bound : UInt64) (hb : 0 < bound.toNat)
    (hle : bound.toNat ≤ 256) : ∃ r, ∀ fuel ≥ 257, bounded fuel s bound = some r := by
  have hlimit : 2 ^ 64 - (limit bound).toNat ≤ 256 := (limit_le hb).trans hle
  obtain ⟨i, hi, hlt⟩ := SplitMix.exists_output_lt s (by decide) hlimit
  obtain ⟨r, hr⟩ := bounded_of_output_lt hlt
  exact ⟨r, fun fuel hfuel => hr fuel (by omega)⟩

theorem bounded_lt {fuel : Nat} {s bound : UInt64} {ns r : UInt64} (hb : 0 < bound.toNat)
    (h : bounded fuel s bound = some (ns, r)) : r.toNat < bound.toNat := by
  induction fuel generalizing s with
  | zero => cases h
  | succ fuel ih =>
    rw [bounded] at h
    dsimp only at h
    split at h
    · simp only [Option.some.injEq, Prod.mk.injEq] at h
      rw [← h.2, UInt64.toNat_mod]
      exact Nat.mod_lt _ hb
    · exact ih h

/-! ## The shuffle -/

theorem toNat_shuffleBound {j : Nat} (hj : j < 256) :
    (UInt64.ofNat (j + 1) + 1).toNat = j + 2 := by
  rw [UInt64.toNat_add, UInt64.toNat_ofNat', UInt64.toNat_one]
  omega

theorem shuffle_perm {fuel j : Nat} {state : UInt64} {p p' : Bytes}
    (h : shuffle fuel j state p = some p') : p'.Perm p := by
  induction j generalizing state p with
  | zero =>
    cases h
    exact List.Perm.refl _
  | succ j ih =>
    simp only [shuffle, Option.bind_eq_bind, Option.bind_eq_some_iff] at h
    obtain ⟨⟨ns, r⟩, _, tmp, htmp, pk, hpk, hrest⟩ := h
    have hswap : swap p (j + 1) r.toNat = (p.set (j + 1) pk).set r.toNat tmp := by
      simp [swap, htmp, hpk]
    exact (ih hrest).trans (hswap ▸ swap_perm _ _ _)

theorem shuffle_returns {j : Nat} (hj : j < 256) (state : UInt64) {p : Bytes}
    (hp : p.length = 256) : ∃ p', ∀ fuel ≥ 257, shuffle fuel j state p = some p' := by
  induction j generalizing state p with
  | zero => exact ⟨p, fun _ _ => rfl⟩
  | succ j ih =>
    have hbound := toNat_shuffleBound (show j < 256 by omega)
    obtain ⟨⟨ns, r⟩, hr⟩ := bounded_returns state (UInt64.ofNat (j + 1) + 1) (by omega) (by omega)
    have hlt : r.toNat < j + 2 := hbound ▸ bounded_lt (by omega) (hr 257 (by omega))
    obtain ⟨tmp, htmp⟩ : ∃ tmp, p[j + 1]? = some tmp := ⟨_, List.getElem?_eq_getElem (by omega)⟩
    obtain ⟨pk, hpk⟩ : ∃ pk, p[r.toNat]? = some pk := ⟨_, List.getElem?_eq_getElem (by omega)⟩
    have hlen : ((p.set (j + 1) pk).set r.toNat tmp).length = 256 := by simpa using hp
    obtain ⟨p', hp'⟩ := ih (by omega) ns hlen
    refine ⟨p', fun fuel hfuel => ?_⟩
    rw [shuffle, hr fuel hfuel]
    simp [htmp, hpk, hp' fuel hfuel]

theorem length_identityTable (n : Nat) : (identityTable n).length = n := by simp [identityTable]

/-- **Whatever the seed, the shuffle returns a permutation of the bytes and its inverse.** -/
theorem genPerm_spec {fuel : Nat} {seed : UInt64} {p inv : Bytes}
    (h : genPerm fuel seed = some (p, inv)) :
    p.Perm (identityTable 256) ∧ Inverse 256 p inv := by
  simp only [genPerm, Option.bind_eq_bind, Option.bind_eq_some_iff] at h
  obtain ⟨p', hp', heq⟩ := h
  cases heq
  have hperm := shuffle_perm hp'
  exact ⟨hperm, inverse_invert (Nat.le_refl _) hperm⟩

theorem genPerm_returns (seed : UInt64) : ∃ r, ∀ fuel ≥ 257, genPerm fuel seed = some r := by
  obtain ⟨p, hp⟩ := shuffle_returns (show 255 < 256 by decide) seed (length_identityTable 256)
  exact ⟨(p, invert 256 p), fun fuel hfuel => by simp [genPerm, hp fuel hfuel]⟩

/-! ## The key blocks -/

theorem mapM_eq_some_map {α β : Type} {f : α → Option β} {g : α → β} {l : List α}
    (h : ∀ x ∈ l, f x = some (g x)) : l.mapM f = some (l.map g) := by
  induction l with
  | nil => rfl
  | cons x l ih =>
    rw [List.mapM_cons, h x List.mem_cons_self, ih fun y hy => h y (List.mem_cons_of_mem _ hy)]
    rfl

theorem encodeAt_returns (masterSeed : UInt64) (key : Bytes) (i : Nat) :
    ∃ e inv, (∀ fuel ≥ 257, encodeAt fuel masterSeed key i = some (e, inv)) ∧
      inv[e.toNat]? = some (keyBlockByte key i) := by
  obtain ⟨⟨fwd, inv⟩, hgen⟩ := genPerm_returns (posSeed masterSeed i)
  obtain ⟨-, hinv⟩ := genPerm_spec (hgen 257 (by omega))
  obtain ⟨e, he, hback⟩ := hinv.forward _ (keyBlockByte key i).toNat_lt
  exact ⟨e, inv, fun fuel hfuel => by simp [encodeAt, hgen fuel hfuel, he], hback⟩

/-- **The tables are built, and each position decodes to its byte of the key blocks.** -/
theorem buildTables_returns (masterSeed : UInt64) (key : Bytes) :
    ∃ tables, (∀ fuel ≥ 257, buildTables fuel masterSeed key = some tables) ∧
      ∀ i < positions, tables.decodeAt i = some (keyBlockByte key i) := by
  choose e inv hencode hback using encodeAt_returns masterSeed key
  refine ⟨⟨(List.range positions).map e, (List.range positions).map inv⟩, ?_, ?_⟩
  · intro fuel hfuel
    have hrows := mapM_eq_some_map (l := List.range positions) fun i _ => hencode i fuel hfuel
    simp [buildTables, hrows, Function.comp_def]
  · intro i hi
    simp [WbTables.decodeAt, hi, hback]

theorem keyIpadOpad_of_decodeAt {tables : WbTables} {key : Bytes}
    (h : ∀ i < positions, tables.decodeAt i = some (keyBlockByte key i)) :
    keyIpadOpad tables = some ((List.range block).map (keyBlockByte key),
      (List.range block).map fun i => keyBlockByte key (block + i)) := by
  have hlt : ∀ i ∈ List.range block, i < block := fun i => List.mem_range.mp
  have hi := mapM_eq_some_map fun i hi => h i (by have := hlt i hi; unfold positions; omega)
  have ho := mapM_eq_some_map fun i hi =>
    h (block + i) (by have := hlt i hi; unfold positions; omega)
  simp [keyIpadOpad, hi, ho]

theorem map_range_getD {key : Bytes} (hkey : key.length ≤ block) :
    (List.range block).map (fun i => key.getD i 0) =
      key ++ List.replicate (block - key.length) 0 := by
  refine List.ext_getElem? fun i => ?_
  rcases Nat.lt_or_ge i key.length with hi | hi
  · rw [List.getElem?_append_left hi]
    simp [List.getElem?_range (show i < block by omega), hi]
  · rw [List.getElem?_append_right hi, List.getElem?_replicate]
    rcases Nat.lt_or_ge i block with hb | hb
    · simp [List.getElem?_range hb, hi, show i - key.length < block - key.length by omega]
    · simp [hb, show ¬ i - key.length < block - key.length by omega]

theorem blockKey_eq (sha256 : Bytes → Vector UInt8 32) {key : Bytes}
    (hkey : key.length ≤ block) :
    blockKey sha256 key = (List.range block).map fun i => key.getD i 0 := by
  rw [map_range_getD hkey]
  simp [blockKey, Nat.not_lt.mpr hkey]

theorem keyBlocks_eq (sha256 : Bytes → Vector UInt8 32) (key : Bytes)
    (hkey : key.length ≤ block) :
    (List.range block).map (keyBlockByte key) = (blockKey sha256 key).map (· ^^^ ipad) ∧
      (List.range block).map (fun i => keyBlockByte key (block + i)) =
        (blockKey sha256 key).map (· ^^^ opad) := by
  rw [blockKey_eq sha256 hkey, List.map_map, List.map_map]
  constructor
  · refine List.map_congr_left fun i hi => ?_
    have hlt := List.mem_range.mp hi
    simp [keyBlockByte, hlt, Nat.mod_eq_of_lt hlt]
  · refine List.map_congr_left fun i hi => ?_
    have hlt := List.mem_range.mp hi
    simp [keyBlockByte, Nat.mod_eq_of_lt hlt]

/--
**The white-box MAC is HMAC-SHA256, whatever seed and key are built in.**

The shuffle returns for every seed, and what it returns is a permutation with its inverse.
-/
theorem whitebox_hmac (sha256 : Bytes → Vector UInt8 32) (masterSeed : UInt64) {key : Bytes}
    (hkey : key.length ≤ 64) :
    (∀ seed, ∃ p inv, (∀ fuel ≥ 257, genPerm fuel seed = some (p, inv)) ∧
      p.Perm (identityTable 256) ∧ Inverse 256 p inv) ∧
    (∀ fuel seed p inv, genPerm fuel seed = some (p, inv) →
      p.Perm (identityTable 256) ∧ Inverse 256 p inv) ∧
    ∃ tables, (∀ fuel ≥ 257, buildTables fuel masterSeed key = some tables) ∧
      ∀ message, whiteboxHmacSha256 sha256 tables message =
        some (hmacSha256 sha256 key message) := by
  refine ⟨?_, fun fuel seed p inv => genPerm_spec, ?_⟩
  · intro seed
    obtain ⟨⟨p, inv⟩, hgen⟩ := genPerm_returns seed
    exact ⟨p, inv, hgen, genPerm_spec (hgen 257 (by omega))⟩
  · obtain ⟨tables, hbuild, hdecode⟩ := buildTables_returns masterSeed key
    refine ⟨tables, hbuild, fun message => ?_⟩
    obtain ⟨hipad, hopad⟩ := keyBlocks_eq sha256 key hkey
    simp [whiteboxHmacSha256, keyIpadOpad_of_decodeAt hdecode, hipad, hopad, hmacSha256]

theorem whitebox_hmac_testKey :
    publicTestProofKey.length ≤ 64 ∧
    ∃ tables, (∀ fuel ≥ 257, buildTables fuel masterSeed publicTestProofKey = some tables) ∧
      ∀ message, whiteboxHmacSha256 (fun _ => Vector.replicate 32 0) tables message =
        some (hmacSha256 (fun _ => Vector.replicate 32 0) publicTestProofKey message) :=
  have hkey : publicTestProofKey.length ≤ 64 := by decide
  ⟨hkey, (whitebox_hmac (fun _ => Vector.replicate 32 0) masterSeed hkey).2.2⟩

end Kseal.Device
