import Kseal.Gradle.Json

/-!
# The build hash of the Gradle plugin

The SHA-256 of the manifest's JSON text, with the artifacts sorted by path. The bytes of the text
have a question mark in the place of a surrogate that stands alone (`json_faithful`).
-/

namespace Kseal.BuildProof

open Infra KotlinJson List

/-! ## The manifest -/

structure TransformRecord where
  name : Utf16
  status : Utf16
deriving DecidableEq

structure ArtifactDigest where
  path : Utf16
  sha256 : Utf16
deriving DecidableEq

structure BuildProofManifest where
  platform : Utf16
  packageId : Utf16
  versionName : Utf16
  versionCode : Int64
  sdkName : Utf16
  sdkVersion : Utf16
  seedDigestHex : Utf16
  transforms : List TransformRecord
  artifacts : List ArtifactDigest

def schema : Utf16 := chars "kseal.build-proof/v1"

variable {F : Type}

namespace BuildProofManifest

def appMap (m : BuildProofManifest) : Value F :=
  .obj [(chars "package_id", .str m.packageId), (chars "version_name", .str m.versionName),
    (chars "version_code", .num m.versionCode)]

def sdkMap (m : BuildProofManifest) : Value F :=
  .obj [(chars "name", .str m.sdkName), (chars "version", .str m.sdkVersion)]

def buildHashTransforms (m : BuildProofManifest) : List TransformRecord :=
  m.transforms.filter fun t =>
    !(t.name = chars "selective-virtualization" && t.status = chars "skipped")

def sortedArtifacts (m : BuildProofManifest) : List ArtifactDigest :=
  m.artifacts.mergeSort fun a b => decide (a.path ≤ b.path)

def transformMap (t : TransformRecord) : Value F :=
  .obj [(chars "name", .str t.name), (chars "status", .str t.status)]

def artifactMap (a : ArtifactDigest) : Value F :=
  .obj [(chars "path", .str a.path), (chars "sha256", .str a.sha256)]

def core (m : BuildProofManifest) : Value F :=
  .obj [(chars "schema", .str schema), (chars "platform", .str m.platform), (chars "app", m.appMap),
    (chars "sdk", m.sdkMap), (chars "seed_digest", .str m.seedDigestHex),
    (chars "transforms", .arr (m.buildHashTransforms.map transformMap)),
    (chars "artifacts", .arr (m.sortedArtifacts.map artifactMap))]

def coreBytes (doubles : Doubles F) (m : BuildProofManifest) : Option Bytes := do
  let json ← write doubles m.core false
  return utf8 (text json)

def computeBuildHash (doubles : Doubles F) (sha256 : Bytes → Bytes) (m : BuildProofManifest) :
    Option String := do
  let bytes ← m.coreBytes doubles
  return hexEncode (sha256 bytes)

structure IsText (m : BuildProofManifest) : Prop where
  platform : WellFormed m.platform
  packageId : WellFormed m.packageId
  versionName : WellFormed m.versionName
  sdkName : WellFormed m.sdkName
  sdkVersion : WellFormed m.sdkVersion
  seedDigestHex : WellFormed m.seedDigestHex
  transforms : ∀ t ∈ m.transforms, WellFormed t.name ∧ WellFormed t.status
  artifacts : ∀ a ∈ m.artifacts, WellFormed a.path ∧ WellFormed a.sha256

structure Agrees (m m' : BuildProofManifest) : Prop where
  platform : m.platform = m'.platform
  packageId : m.packageId = m'.packageId
  versionName : m.versionName = m'.versionName
  versionCode : m.versionCode = m'.versionCode
  sdkName : m.sdkName = m'.sdkName
  sdkVersion : m.sdkVersion = m'.sdkVersion
  seedDigestHex : m.seedDigestHex = m'.seedDigestHex
  transforms : m.buildHashTransforms = m'.buildHashTransforms
  artifacts : m.artifacts.Perm m'.artifacts

def NoCollision (doubles : Doubles F) (sha256 : Bytes → Bytes) (m m' : BuildProofManifest) :
    Prop :=
  (m.coreBytes doubles).map sha256 = (m'.coreBytes doubles).map sha256 →
    m.coreBytes doubles = m'.coreBytes doubles

end BuildProofManifest

open BuildProofManifest

/-! ## Texts -/

mutual
def TextTree : Value F → Prop
  | .null | .bool _ | .num _ => True
  | .dbl _ => False
  | .str s => WellFormed s
  | .arr items => TextItems items
  | .obj members => TextMembers members
def TextItems : List (Value F) → Prop
  | [] => True
  | v :: vs => TextTree v ∧ TextItems vs
def TextMembers : List (Utf16 × Value F) → Prop
  | [] => True
  | (k, v) :: ms => WellFormed k ∧ TextTree v ∧ TextMembers ms
end

theorem map_ch (cs : List Char) (h : ∀ c ∈ cs, c.toNat < 0x10000) :
    cs.map ch = cs.flatMap units := by
  induction cs with
  | nil => rfl
  | cons c cs ih =>
    rw [forall_mem_cons] at h
    rw [map_cons, flatMap_cons, ih h.2, units, if_pos h.1]
    rfl

theorem wellFormed_chars {s : String} (h : ∀ c ∈ s.toList, c.toNat < 0x10000) :
    WellFormed (chars s) := by
  have heq : chars s = utf16 s := map_ch s.toList h
  exact heq ▸ wellFormed_utf16 s

theorem wellFormed_repr (n : Int64) : WellFormed (chars n.toInt.repr) := by
  refine wellFormed_chars fun c hc => ?_
  by_contra hge
  refine notMem_repr ?_ ?_ n.toInt hc
  · rw [Char.isDigit, Bool.and_eq_false_iff]
    right
    rw [decide_eq_false_iff_not]
    intro hle
    have : c.toNat ≤ 57 := hle
    omega
  · rintro rfl
    exact hge (by decide)

variable {u : UInt16}

theorem not_surrogate_of_whitespace (h : isWhitespace u = true) :
    isSurrogate u = false := by
  simp only [isWhitespace, Bool.or_eq_true, Bool.and_eq_true, decide_eq_true_eq, beq_iff_eq] at h
  simp only [isSurrogate, isHigh, isLow, Bool.or_eq_false_iff, Bool.and_eq_false_iff,
    decide_eq_false_iff_not]
  omega

theorem wellFormed_blank {ws : Utf16} (h : Blank ws) : WellFormed ws :=
  wellFormed_of_forall fun u hu => not_surrogate_of_whitespace (h u hu)

theorem escapeUnit_of_le (h : 128 ≤ u.toNat) : escapeUnit u = [u] := by
  have hne : ∀ c : Char, c.toNat < 128 → u ≠ ch c := by
    rintro c hc rfl
    rw [ch, toNat_ofNat_of_lt (by omega)] at h
    omega
  have hlt : ¬ u < ch ' ' := by
    rw [UInt16.lt_iff_toNat_lt, show (ch ' ').toNat = 32 by decide]
    omega
  unfold escapeUnit
  rw [if_neg (hne _ (by decide)), if_neg (hne _ (by decide)), if_neg (hne _ (by decide)),
    if_neg (hne _ (by decide)), if_neg (hne _ (by decide)), if_neg (hne _ (by decide)),
    if_neg (hne _ (by decide)), if_neg hlt]

theorem wellFormed_escapeUnit (h : isSurrogate u = false) :
    WellFormed (escapeUnit u) := by
  rcases Nat.lt_or_ge u.toNat 128 with hlt | hge
  · have hall : ∀ n < 128, WellFormed (escapeUnit (UInt16.ofNat n)) := by decide +kernel
    exact UInt16.ofNat_toNat (x := u) ▸ hall u.toNat hlt
  · rw [escapeUnit_of_le hge]
    exact wellFormed_of_forall fun v hv => by rwa [mem_singleton.mp hv]

theorem wellFormed_escape (s : Utf16) (h : WellFormed s) : WellFormed (s.flatMap escapeUnit) := by
  cases scanned s with
  | nil => exact h
  | @single u rest hu hscan =>
    rw [WellFormed, hscan, forall_mem_cons] at h
    exact (wellFormed_escapeUnit hu).append (wellFormed_escape rest h.2)
  | @pair u v rest hu hv hscan =>
    rw [WellFormed, hscan, forall_mem_cons] at h
    have hpair : WellFormed [u, v] := by
      rw [WellFormed, scan_pair hu hv]
      simp [scan]
    simp only [isHigh, isLow, Bool.and_eq_true, decide_eq_true_eq] at hu hv
    have hrest := hpair.append (wellFormed_escape rest h.2)
    rw [flatMap_cons, flatMap_cons, escapeUnit_of_le (by omega),
      escapeUnit_of_le (by omega)]
    exact hrest
  | @alone u rest hu hscan =>
    rw [WellFormed, hscan, forall_mem_cons] at h
    cases h.1
termination_by s.length

theorem wellFormed_writeString {s : Utf16} (h : WellFormed s) : WellFormed (writeString s) := by
  have hquote : WellFormed [ch '"'] := by decide
  exact hquote.append ((wellFormed_escape s h).append hquote)

theorem wellFormed_newlineIndent (depth : Depth) : WellFormed (newlineIndent depth) :=
  wellFormed_blank (blank_newlineIndent depth)

theorem wellFormed_comma (first : Bool) : WellFormed (comma first) := by
  cases first
  · decide
  · decide

theorem wellFormed_colon (depth : Depth) : WellFormed (colon depth) := by
  unfold colon
  split
  · decide
  · decide

variable {items : List Utf16}

theorem wellFormed_separated (depth : Depth) (first : Bool) (h : ∀ item ∈ items, WellFormed item) :
    WellFormed (separated depth first items) := by
  induction items generalizing first with
  | nil => exact wellFormed_of_forall nofun
  | cons item items ih =>
    rw [forall_mem_cons] at h
    exact (wellFormed_comma first).append
      ((wellFormed_newlineIndent depth).append (h.1.append (ih false h.2)))

theorem wellFormed_container {opening closing : UInt16} (depth : Depth)
    (hopen : WellFormed [opening]) (hclose : WellFormed [closing])
    (h : ∀ item ∈ items, WellFormed item) :
    WellFormed (container opening closing depth items) := by
  unfold container
  split
  · exact hopen.append hclose
  · exact hopen.append ((wellFormed_separated _ true h).append
      ((wellFormed_newlineIndent depth).append hclose))

section writer

variable {doubles : Doubles F}

mutual
/-- **The text of a tree of texts is a text.** -/
theorem wellFormed_writeValue (depth : Depth) : ∀ v : Value F, TextTree v →
    ∀ s ∈ writeValue doubles depth v, WellFormed s
  | .null, _ => by
    rintro s ⟨⟩
    decide
  | .bool true, _ | .bool false, _ => by
    rintro s ⟨⟩
    decide
  | .num n, _ => by
    rintro s ⟨⟩
    exact wellFormed_repr n
  | .dbl x, hv => by
    exact hv.elim
  | .str t, hv => by
    rintro s ⟨⟩
    exact wellFormed_writeString hv
  | .arr vs, hv => by
    intro s hs
    obtain ⟨items, hitems, rfl⟩ := Option.map_eq_some_iff.mp (by rwa [writeValue] at hs)
    exact wellFormed_container depth (by decide) (by decide)
      (wellFormed_writeItems (nextDepth depth) vs hv items hitems)
  | .obj ms, hv => by
    intro s hs
    obtain ⟨items, hitems, rfl⟩ := Option.map_eq_some_iff.mp (by rwa [writeValue] at hs)
    exact wellFormed_container depth (by decide) (by decide)
      (wellFormed_writeMembers (nextDepth depth) ms hv items hitems)
theorem wellFormed_writeItems (depth : Depth) : ∀ vs : List (Value F), TextItems vs →
    ∀ items ∈ writeItems doubles depth vs, ∀ item ∈ items, WellFormed item
  | [], _ => by
    rintro items ⟨⟩
    nofun
  | v :: vs, hvs => by
    rw [TextItems] at hvs
    intro items hitems
    rw [writeItems] at hitems
    obtain ⟨value, hvalue, hitems⟩ := Option.bind_eq_some_iff.mp hitems
    obtain ⟨rest, hrest, ⟨⟩⟩ := Option.bind_eq_some_iff.mp hitems
    rw [forall_mem_cons]
    exact ⟨wellFormed_writeValue depth v hvs.1 value hvalue,
      wellFormed_writeItems depth vs hvs.2 rest hrest⟩
theorem wellFormed_writeMembers (depth : Depth) : ∀ ms : List (Utf16 × Value F), TextMembers ms →
    ∀ items ∈ writeMembers doubles depth ms, ∀ item ∈ items, WellFormed item
  | [], _ => by
    rintro items ⟨⟩
    nofun
  | (k, v) :: ms, hms => by
    rw [TextMembers] at hms
    intro items hitems
    rw [writeMembers] at hitems
    obtain ⟨value, hvalue, hitems⟩ := Option.bind_eq_some_iff.mp hitems
    obtain ⟨rest, hrest, ⟨⟩⟩ := Option.bind_eq_some_iff.mp hitems
    have hv := wellFormed_writeValue depth v hms.2.1 value hvalue
    rw [forall_mem_cons]
    exact ⟨(wellFormed_writeString hms.1).append ((wellFormed_colon depth).append hv),
      wellFormed_writeMembers depth ms hms.2.2 rest hrest⟩
end

end writer

/-! ## The hashed tree -/

section core

variable {m m' : BuildProofManifest}

variable {α : Type} {f : α → Value F}

theorem plainItems_map (hf : ∀ a, (f a).Plain) (l : List α) :
    PlainItems (l.map f) := by
  induction l with
  | nil => simp [PlainItems]
  | cons a l ih => simp [PlainItems, hf a, ih]

theorem textItems_map {l : List α} (hf : ∀ a ∈ l, TextTree (f a)) :
    TextItems (l.map f) := by
  induction l with
  | nil => simp [TextItems]
  | cons a l ih =>
    rw [forall_mem_cons] at hf
    simp [TextItems, hf.1, ih hf.2]

theorem plain_transformMap (t : TransformRecord) :
    (transformMap t : Value F).Plain := by
  have hkeys : [chars "name", chars "status"].Nodup := by decide
  simpa [transformMap, Value.Plain, PlainMembers] using hkeys

theorem plain_artifactMap (a : ArtifactDigest) :
    (artifactMap a : Value F).Plain := by
  have hkeys : [chars "path", chars "sha256"].Nodup := by decide
  simpa [artifactMap, Value.Plain, PlainMembers] using hkeys

theorem plain_core (m : BuildProofManifest) : (m.core : Value F).Plain := by
  have htop : [chars "schema", chars "platform", chars "app", chars "sdk", chars "seed_digest",
    chars "transforms", chars "artifacts"].Nodup := by decide
  have happ : [chars "package_id", chars "version_name", chars "version_code"].Nodup := by decide
  have hsdk : [chars "name", chars "version"].Nodup := by decide
  have htransforms := plainItems_map (F := F) plain_transformMap m.buildHashTransforms
  have hartifacts := plainItems_map (F := F) plain_artifactMap m.sortedArtifacts
  exact ⟨htop, trivial, trivial, ⟨happ, trivial, trivial, trivial, trivial⟩,
    ⟨hsdk, trivial, trivial, trivial⟩, trivial, htransforms, hartifacts, trivial⟩

theorem sortedArtifacts_perm (m : BuildProofManifest) : m.sortedArtifacts.Perm m.artifacts :=
  mergeSort_perm m.artifacts _

theorem textTree_transformMap {t : TransformRecord} (h : WellFormed t.name ∧ WellFormed t.status) :
    TextTree (transformMap t : Value F) := by
  exact ⟨by decide, h.1, by decide, h.2, trivial⟩

theorem textTree_artifactMap {a : ArtifactDigest} (h : WellFormed a.path ∧ WellFormed a.sha256) :
    TextTree (artifactMap a : Value F) := by
  exact ⟨by decide, h.1, by decide, h.2, trivial⟩

theorem textTree_core (h : m.IsText) : TextTree (m.core : Value F) := by
  have htransforms : TextItems (F := F) (m.buildHashTransforms.map transformMap) :=
    textItems_map fun t ht => textTree_transformMap (h.transforms t (mem_filter.mp ht).1)
  have hartifacts : TextItems (F := F) (m.sortedArtifacts.map artifactMap) :=
    textItems_map fun a ha =>
      textTree_artifactMap (h.artifacts a ((sortedArtifacts_perm m).mem_iff.mp ha))
  simp only [core, TextTree, TextMembers]
  exact ⟨by decide, by decide, by decide, h.platform,
    by decide, ⟨by decide, h.packageId, by decide, h.versionName, by decide, trivial, trivial⟩,
    by decide, ⟨by decide, h.sdkName, by decide, h.sdkVersion, trivial⟩,
    by decide, h.seedDigestHex, by decide, htransforms, by decide, hartifacts, trivial⟩

theorem transformMap_injective :
    Function.Injective (transformMap (F := F)) := by
  rintro ⟨name, status⟩ ⟨name', status'⟩ h
  simpa [transformMap] using h

theorem artifactMap_injective : Function.Injective (artifactMap (F := F)) := by
  rintro ⟨path, sha256⟩ ⟨path', sha256'⟩ h
  simpa [artifactMap] using h

/-- **The hashed tree determines the fields.** -/
theorem agrees_of_core_eq (h : (m.core : Value F) = m'.core) : m.Agrees m' := by
  simp only [core, appMap, sdkMap, Value.obj.injEq, Value.arr.injEq, Value.str.injEq,
    Value.num.injEq, List.cons.injEq, Prod.mk.injEq, true_and, and_true] at h
  obtain ⟨hplatform, ⟨hpackage, hname, hcode⟩, ⟨hsdk, hversion⟩, hseed, htransforms,
    hartifacts⟩ := h
  have hsorted := (List.map_inj_right artifactMap_injective).mp hartifacts
  exact {
    platform := hplatform
    packageId := hpackage
    versionName := hname
    versionCode := hcode
    sdkName := hsdk
    sdkVersion := hversion
    seedDigestHex := hseed
    transforms := (List.map_inj_right transformMap_injective).mp htransforms
    artifacts := (sortedArtifacts_perm m).symm.trans (hsorted ▸ sortedArtifacts_perm m') }

theorem exists_coreBytes (doubles : Doubles F) (m : BuildProofManifest) :
    ∃ json, write doubles m.core false = some json ∧ parse doubles json = .ok m.core ∧
      m.coreBytes doubles = some (utf8 (text json)) := by
  obtain ⟨json, hwrite, hparse⟩ := parse_write doubles (plain_core m) false
  refine ⟨json, hwrite, hparse, ?_⟩
  rw [coreBytes, hwrite]
  rfl

theorem core_eq_of_coreBytes_eq {doubles : Doubles F} (hm : m.IsText) (hm' : m'.IsText)
    (h : m.coreBytes doubles = m'.coreBytes doubles) : (m.core : Value F) = m'.core := by
  obtain ⟨json, hwrite, hparse, hbytes⟩ := exists_coreBytes doubles m
  obtain ⟨json', hwrite', hparse', hbytes'⟩ := exists_coreBytes doubles m'
  rw [hbytes, hbytes', Option.some.injEq] at h
  obtain rfl := eq_of_utf8_text (wellFormed_writeValue _ _ (textTree_core hm) json hwrite)
    (wellFormed_writeValue _ _ (textTree_core hm') json' hwrite') h
  exact Except.ok.inj (hparse.symm.trans hparse')

theorem coreBytes_eq_of_hash_eq {doubles : Doubles F} {sha256 : Bytes → Bytes}
    (hsha : NoCollision doubles sha256 m m')
    (h : m.computeBuildHash doubles sha256 = m'.computeBuildHash doubles sha256) :
    m.coreBytes doubles = m'.coreBytes doubles := by
  obtain ⟨json, -, -, hbytes⟩ := exists_coreBytes doubles m
  obtain ⟨json', -, -, hbytes'⟩ := exists_coreBytes doubles m'
  rw [computeBuildHash, computeBuildHash, hbytes, hbytes'] at h
  refine hsha ?_
  rw [hbytes, hbytes', Option.map_some, Option.map_some,
    hexEncode_injective (Option.some.inj h)]

end core

/--
**The plugin's JSON is a faithful encoding.** Every tree without `Double`s, with different keys in
each map, is read back from its text, with indentation and without. Hence the build hash, which is
always computed, binds the fields it is made of: manifests of texts with the same hash agree on
them, the artifacts up to their order and without the transforms that are left out.
-/
theorem json_faithful (doubles : Doubles F) :
    (∀ v : Value F, v.Plain → ∀ indent, ∃ text,
      write doubles v indent = some text ∧ parse doubles text = .ok v) ∧
    ∀ sha256 : Bytes → Bytes,
      (∀ m : BuildProofManifest, ∃ hash, m.computeBuildHash doubles sha256 = some hash) ∧
      ∀ m m' : BuildProofManifest, m.IsText → m'.IsText →
        NoCollision doubles sha256 m m' →
        m.computeBuildHash doubles sha256 = m'.computeBuildHash doubles sha256 → m.Agrees m' := by
  refine ⟨fun v hv indent => parse_write doubles hv indent, fun sha256 => ⟨?_, ?_⟩⟩
  · intro m
    obtain ⟨json, -, -, hbytes⟩ := exists_coreBytes doubles m
    rw [computeBuildHash, hbytes]
    exact ⟨_, rfl⟩
  · intro m m' hm hm' hsha hhash
    exact agrees_of_core_eq (core_eq_of_coreBytes_eq hm hm' (coreBytes_eq_of_hash_eq hsha hhash))

def sample : BuildProofManifest where
  platform := chars "android"
  packageId := chars "com.example"
  versionName := chars "1.0"
  versionCode := 7
  sdkName := chars "kseal-android"
  sdkVersion := chars "0.1.0"
  seedDigestHex := chars "00"
  transforms := [⟨chars "string-encryption", chars "applied"⟩]
  artifacts := [⟨chars "classes.jar", chars "ab"⟩]

def sampleSkipped : BuildProofManifest :=
  { sample with
    transforms := sample.transforms ++ [⟨chars "selective-virtualization", chars "skipped"⟩] }

theorem isText_sample : sample.IsText where
  platform := by decide
  packageId := by decide
  versionName := by decide
  sdkName := by decide
  sdkVersion := by decide
  seedDigestHex := by decide
  transforms := by decide
  artifacts := by decide

theorem isText_sampleSkipped : sampleSkipped.IsText :=
  { isText_sample with transforms := by decide }

theorem json_faithful_sample : sample.transforms ≠ sampleSkipped.transforms ∧
    sample.Agrees sampleSkipped := by
  let doubles : Doubles Unit := ⟨fun _ => none, fun _ => none⟩
  refine ⟨by decide, ((json_faithful doubles).2 id).2 sample sampleSkipped isText_sample
    isText_sampleSkipped ?_ ?_⟩
  · rw [NoCollision, Option.map_id]
    exact id
  · rfl

end Kseal.BuildProof
