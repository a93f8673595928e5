import Kseal.Infra.Decimal
import Kseal.Infra.GoMap

/-!
# The build hash of the Xcode plugin

The SHA-256 of the strings that say what was built, each with the byte `0x1f` behind it; a string
may hold it too (`buildHash_binds_iff`).
-/

namespace Kseal.Xcode

open Infra List

/-! ## The engine -/

def ksealSDKVersion : String := "0.1.0"
def ksealHardenVersion : String := "0.1.0"

structure PolymorphismSeed where
  bytes : Bytes
  length_ge : 16 ≤ bytes.length

structure HardenRequest where
  targetName : String
  sdkVersion : String := ksealSDKVersion
  versionName : String := "0.0.0"
  versionCode : Int64 := 0
  protectionProfileId : String := ""
  secureStrings : GoMap String String := ∅
  platform : String := "ios"
  extraToolVersions : GoMap String String := ∅

structure BuildProofManifest where
  platform : String
  sdkVersion : String
  buildHash : String
  versionName : String
  versionCode : Int64
  protectionProfileId : String
  seedDigest : String
  toolVersions : GoMap String String

structure HardenOutput where
  generatedSwiftSource : String
  manifest : BuildProofManifest

/--
`HardenEngine`, with the order of the strings of Swift, which compares them in their normal form,
and SHA-256. The string hardener gives the source it generates for the strings of a target.
-/
structure HardenEngine where
  le : String → String → Bool
  sha256 : Bytes → Bytes
  stringHardener : GoMap String String → PolymorphismSeed → String

structure HashInputs where
  request : HardenRequest
  seed : PolymorphismSeed
  generatedSource : String
  toolVersions : GoMap String String

def add (material : Bytes) (s : String) : Bytes := material ++ utf8 s ++ [0x1f]

namespace HardenEngine

variable (e : HardenEngine)

def digestHex (seed : PolymorphismSeed) : String := hexEncode (e.sha256 seed.bytes)

def sortedKeys (toolVersions : GoMap String String) : List String :=
  toolVersions.keys.mergeSort e.le

def material (i : HashInputs) : Bytes :=
  let material := add [] "kseal-build-hash/v1"
  let material := add material i.request.platform
  let material := add material i.request.sdkVersion
  let material := add material i.request.targetName
  let material := add material i.request.versionName
  let material := add material i.request.versionCode.toInt.repr
  let material := add material i.request.protectionProfileId
  let material := add material (e.digestHex i.seed)
  let material := (e.sortedKeys i.toolVersions).foldl
    (fun material key => add (add material key) ((i.toolVersions.lookup key).getD "")) material
  add material i.generatedSource

def computeBuildHash (i : HashInputs) : String := hexEncode (e.sha256 (e.material i))

def toolVersions (request : HardenRequest) : GoMap String String :=
  request.extraToolVersions.pairs.foldl (fun m kv => m.insert kv.1 kv.2)
    ((∅ : GoMap String String).insert "ksealHarden" ksealHardenVersion)

def inputs (request : HardenRequest) (seed : PolymorphismSeed) : HashInputs where
  request := request
  seed := seed
  generatedSource := e.stringHardener request.secureStrings seed
  toolVersions := toolVersions request

def run (request : HardenRequest) (seed : PolymorphismSeed) : HardenOutput :=
  let generated := e.stringHardener request.secureStrings seed
  { generatedSwiftSource := generated
    manifest :=
      { platform := request.platform
        sdkVersion := request.sdkVersion
        buildHash := e.computeBuildHash (e.inputs request seed)
        versionName := request.versionName
        versionCode := request.versionCode
        protectionProfileId := request.protectionProfileId
        seedDigest := e.digestHex seed
        toolVersions := toolVersions request } }

end HardenEngine

/-! ## What is to be bound -/

namespace HashInputs

def strings (i : HashInputs) : List String :=
  [i.request.platform, i.request.sdkVersion, i.request.targetName, i.request.versionName,
    i.request.protectionProfileId, i.generatedSource] ++
    i.toolVersions.pairs.flatMap fun kv => [kv.1, kv.2]

def Over (allowed : Char → Prop) (i : HashInputs) : Prop :=
  ∀ s ∈ i.strings, ∀ c ∈ s.toList, allowed c

structure Same (e : HardenEngine) (i i' : HashInputs) : Prop where
  platform : i.request.platform = i'.request.platform
  sdkVersion : i.request.sdkVersion = i'.request.sdkVersion
  targetName : i.request.targetName = i'.request.targetName
  versionName : i.request.versionName = i'.request.versionName
  versionCode : i.request.versionCode = i'.request.versionCode
  protectionProfileId : i.request.protectionProfileId = i'.request.protectionProfileId
  seedDigest : e.digestHex i.seed = e.digestHex i'.seed
  toolVersions : ∀ key, i.toolVersions.lookup key = i'.toolVersions.lookup key
  generatedSource : i.generatedSource = i'.generatedSource

def NoCollision (e : HardenEngine) (i i' : HashInputs) : Prop :=
  e.sha256 (e.material i) = e.sha256 (e.material i') → e.material i = e.material i'

end HashInputs

/-! ## The strings that are hashed -/

variable {allowed : Char → Prop}

section segments

variable (e : HardenEngine)

def sortedPairs (m : GoMap String String) : List (String × String) :=
  (e.sortedKeys m).map fun key => (key, (m.lookup key).getD "")

def segments (i : HashInputs) : List String :=
  ["kseal-build-hash/v1", i.request.platform, i.request.sdkVersion, i.request.targetName,
    i.request.versionName, i.request.versionCode.toInt.repr, i.request.protectionProfileId,
    e.digestHex i.seed] ++
    ((sortedPairs e i.toolVersions).flatMap (fun kv => [kv.1, kv.2]) ++ [i.generatedSource])

theorem foldl_add (ss : List String) (material : Bytes) :
    ss.foldl add material = material ++ ss.flatMap fun s => utf8 s ++ [0x1f] := by
  induction ss generalizing material with
  | nil => simp
  | cons s ss ih => rw [foldl_cons, ih, add, flatMap_cons, append_assoc,
      append_assoc, append_assoc]

theorem foldl_add_pairs (m : GoMap String String) (keys : List String) (material : Bytes) :
    keys.foldl (fun material key => add (add material key) ((m.lookup key).getD "")) material =
      ((keys.map fun key => (key, (m.lookup key).getD "")).flatMap
        fun kv => [kv.1, kv.2]).foldl add material := by
  induction keys generalizing material with
  | nil => rfl
  | cons key keys ih => rw [foldl_cons, ih]; rfl

/-- **What is hashed is each string with a separator behind it.** -/
theorem material_eq (i : HashInputs) :
    e.material i = (segments e i).flatMap fun s => utf8 s ++ [0x1f] := by
  rw [← nil_append ((segments e i).flatMap _), ← foldl_add, segments, foldl_append,
    foldl_append, sortedPairs, ← foldl_add_pairs]
  rfl

theorem flatMap_utf8 (ss : List String) :
    (ss.flatMap fun s => utf8 s ++ [0x1f]) =
      utf8 (String.ofList ((ss.map String.toList).flatMap fun s => s ++ ['\x1f'])) := by
  have hsep : utf8 "\x1f" = [0x1f] := by decide
  induction ss with
  | nil => rfl
  | cons s ss ih =>
    rw [flatMap_cons, ih, map_cons, flatMap_cons, String.ofList_append, utf8_append,
      String.ofList_append, utf8_append, String.ofList_toList, ← hsep]

variable {e}

theorem mem_sortedPairs {m : GoMap String String} {key value : String} :
    (key, value) ∈ sortedPairs e m ↔ m.lookup key = some value := by
  rw [sortedPairs, mem_map]
  constructor
  · rintro ⟨key', hmem, heq⟩
    cases heq
    rw [HardenEngine.sortedKeys, mem_mergeSort, ← AList.mem_keys,
      ← AList.lookup_isSome] at hmem
    obtain ⟨value, hvalue⟩ := Option.isSome_iff_exists.mp hmem
    rw [hvalue, Option.getD_some]
  · intro hlook
    have hmem : key ∈ m.keys := AList.mem_keys.mp (GoMap.mem_of_lookup hlook)
    exact ⟨key, mem_mergeSort.mpr hmem, by rw [hlook, Option.getD_some]⟩

theorem flatMap_pair_inj {kvs kvs' : List (String × String)}
    (h : kvs.flatMap (fun kv => [kv.1, kv.2]) = kvs'.flatMap fun kv => [kv.1, kv.2]) :
    kvs = kvs' := by
  induction kvs generalizing kvs' with
  | nil =>
    cases kvs' with
    | nil => rfl
    | cons kv' kvs' => simp at h
  | cons kv kvs ih =>
    cases kvs' with
    | nil => simp at h
    | cons kv' kvs' =>
      simp only [flatMap_cons, cons_append, List.cons.injEq] at h
      rw [Prod.ext h.1 h.2.1, ih h.2.2]

variable {i i' : HashInputs}

/-- **The strings tell the inputs apart.** -/
theorem segments_inj (h : segments e i = segments e i') :
    HashInputs.Same e i i' := by
  simp only [segments, cons_append, nil_append, List.cons.injEq, true_and] at h
  obtain ⟨hplatform, hsdk, htarget, hname, hcode, hprofile, hseed, h⟩ := h
  obtain ⟨htools, hsource⟩ := append_inj' h rfl
  have hpairs := flatMap_pair_inj htools
  exact {
    platform := hplatform
    sdkVersion := hsdk
    targetName := htarget
    versionName := hname
    versionCode := Int64.toInt_inj.mp (repr_injective hcode)
    protectionProfileId := hprofile
    seedDigest := hseed
    toolVersions := fun key => Option.ext fun value => by
      rw [← mem_sortedPairs (e := e), hpairs, mem_sortedPairs]
    generatedSource := (List.cons.inj hsource).1 }

theorem sep_notMem_hexEncode (bs : Bytes) : '\x1f' ∉ (hexEncode bs).toList := by
  intro h
  obtain ⟨n, hn⟩ := exists_of_mem_hexEncode h
  have hall : ∀ n : Fin 16, '\x1f' ≠ hexDigit n := by decide
  exact hall n hn

theorem sep_notMem_segments (hi : i.Over allowed) (hsep : ¬ allowed '\x1f') :
    ∀ s ∈ (segments e i).map String.toList, '\x1f' ∉ s := by
  have hstrings : ∀ s ∈ i.strings, '\x1f' ∉ s.toList := fun s hs hmem => hsep (hi s hs _ hmem)
  have hpairs : ∀ kv ∈ sortedPairs e i.toolVersions, kv ∈ i.toolVersions.pairs :=
    fun kv hkv => GoMap.mem_pairs.mpr (mem_sortedPairs.mp hkv)
  simp only [HashInputs.strings, forall_mem_append, forall_mem_cons,
    mem_flatMap] at hstrings
  obtain ⟨⟨hplatform, hsdk, htarget, hname, hprofile, hsource, -⟩, htools⟩ := hstrings
  rw [forall_mem_map]
  simp only [segments, forall_mem_append, forall_mem_cons, mem_flatMap]
  refine ⟨⟨by decide, hplatform, hsdk, htarget, hname, ?_, hprofile, ?_, nofun⟩, ?_, hsource,
    nofun⟩
  · exact notMem_repr (by decide) (by decide) _
  · exact sep_notMem_hexEncode _
  · rintro s ⟨kv, hkv, hs⟩
    exact htools s ⟨kv, hpairs kv hkv, hs⟩

theorem same_of_hash_eq (hsep : ¬ allowed '\x1f') (hi : i.Over allowed) (hi' : i'.Over allowed)
    (hsha : HashInputs.NoCollision e i i') (h : e.computeBuildHash i = e.computeBuildHash i') :
    HashInputs.Same e i i' := by
  have hbytes := hsha (hexEncode_injective h)
  rw [material_eq, material_eq, flatMap_utf8, flatMap_utf8] at hbytes
  have hparts := flatMap_sep_inj (sep_notMem_segments hi hsep) (sep_notMem_segments hi' hsep)
    (String.ofList_injective (utf8_injective hbytes))
  exact segments_inj ((List.map_inj_right fun _ _ => String.toList_injective).mp hparts)

end segments

/-! ## Strings with separators -/

def shifted (platform sdkVersion : String) : HashInputs where
  request :=
    { targetName := "", sdkVersion := sdkVersion, versionName := "", platform := platform }
  seed := ⟨List.replicate 16 0, by decide⟩
  generatedSource := ""
  toolVersions := ∅

theorem over_shifted (hsep : allowed '\x1f') :
    (shifted "\x1f" "").Over allowed ∧ (shifted "" "\x1f").Over allowed := by
  constructor
  · simpa [HashInputs.Over, HashInputs.strings, shifted, GoMap.pairs] using hsep
  · simpa [HashInputs.Over, HashInputs.strings, shifted, GoMap.pairs] using hsep

theorem material_shifted (e : HardenEngine) :
    e.material (shifted "\x1f" "") = e.material (shifted "" "\x1f") := by
  have hplatform : add (add (add [] "kseal-build-hash/v1") "\x1f") "" =
      add (add (add [] "kseal-build-hash/v1") "") "\x1f" := by decide
  simp only [HardenEngine.material, shifted, hplatform]

/--
**When the build hash binds its inputs.** Let the strings be made of some characters. Then equal
hashes are hashes of equal inputs if and only if `U+001F` is not one of these characters.
-/
theorem buildHash_binds_iff (e : HardenEngine) (allowed : Char → Prop) :
    (∀ i i' : HashInputs, i.Over allowed → i'.Over allowed → HashInputs.NoCollision e i i' →
      e.computeBuildHash i = e.computeBuildHash i' → HashInputs.Same e i i') ↔
    ¬ allowed '\x1f' := by
  constructor
  · intro h hsep
    obtain ⟨hover, hover'⟩ := over_shifted hsep
    have hmaterial := material_shifted e
    have hsame := h _ _ hover hover' (fun _ => hmaterial)
      (congrArg (fun bs => hexEncode (e.sha256 bs)) hmaterial)
    exact absurd hsame.platform (by decide)
  · intro hsep i i' hi hi' hsha hhash
    exact same_of_hash_eq hsep hi hi' hsha hhash

/-! ## Runs -/

def versioned (versionName : String) (versionCode : Int64) (protectionProfileId : String) :
    HardenRequest :=
  { targetName := "DemoApp", versionName, versionCode, protectionProfileId }

/-- **Two versions of a target with one build hash**, under every seed. -/
theorem version_not_bound :
    (∀ (e : HardenEngine) (seed : PolymorphismSeed),
      (e.run (versioned "2.0\x1f43" 42 "p") seed).manifest.buildHash =
        (e.run (versioned "2.0" 43 "42\x1fp") seed).manifest.buildHash) ∧
      (versioned "2.0\x1f43" 42 "p").versionCode ≠ (versioned "2.0" 43 "42\x1fp").versionCode := by
  refine ⟨?_, by decide⟩
  intro e seed
  have hadd : ∀ material, add (add (add material "2.0\x1f43") (42 : Int64).toInt.repr) "p" =
      add (add (add material "2.0") (43 : Int64).toInt.repr) "42\x1fp" := by
    intro material
    have htext : utf8 "2.0\x1f43" ++ [0x1f] ++ utf8 (42 : Int64).toInt.repr ++ [0x1f] ++
        utf8 "p" ++ [0x1f] = utf8 "2.0" ++ [0x1f] ++ utf8 (43 : Int64).toInt.repr ++ [0x1f] ++
        utf8 "42\x1fp" ++ [0x1f] := by decide
    simp only [add, append_assoc] at htext ⊢
    rw [htext]
  simp only [HardenEngine.run, HardenEngine.computeBuildHash, HardenEngine.material,
    HardenEngine.inputs, HardenEngine.toolVersions, versioned, hadd]

end Kseal.Xcode
