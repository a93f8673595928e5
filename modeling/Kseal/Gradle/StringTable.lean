import Kseal.Gradle.DecoderClass
import Kseal.Infra.GoMap
import Mathlib.Data.List.Sort
import Kseal.Infra.Result

/-!
# String encryption (`BytecodeObfuscator.kt`)

Each string constant is encrypted under its position in the sorted set of them, and its load
replaced by a call of the decoder class (`string_preserved_iff`). SHA-256 and `decodeUtf8` are
parameters.
-/

namespace Kseal.Strings

open Infra Jvm

structure StringConstant where
  units : Utf16
  fits : (utf8 (text units)).length < 2 ^ 31

inductive MethodInsn (ι : Type) where
  | ldc (value : StringConstant)
  | other (insn : ι)

abbrev ClassFile (ι : Type) := List (List (MethodInsn ι))

structure StringOptions where
  encryptStrings : Bool
  minStringLength : Int32
  keepStrings : List Utf16

structure StringTable where
  index : GoMap Utf16 Int32
  ciphertexts : List Bytes
  keys : List Bytes

def StringTable.empty : StringTable := ⟨∅, [], []⟩

def StringTable.contains (table : StringTable) (value : Utf16) : Bool :=
  (table.index.lookup value).isSome

/-! ## Building the table -/

def isEligibleString (options : StringOptions) (value : Utf16) : Bool :=
  if (value.length : Int) < options.minStringLength.toInt then false
  else if value ∈ options.keepStrings then false
  else true

def addSorted (unique : List Utf16) (value : Utf16) : List Utf16 :=
  if value ∈ unique then unique else unique.orderedInsert (fun a b => a ≤ b) value

def constants {ι : Type} (method : List (MethodInsn ι)) : List StringConstant :=
  method.filterMap fun
    | .ldc value => some value
    | .other _ => none

def uniqueStrings {ι : Type} (options : StringOptions) (classes : List (ClassFile ι)) : List Utf16 :=
  let values := (classes.flatMap fun cls => cls.flatMap constants).map StringConstant.units
  (values.filter (isEligibleString options)).foldl addSorted []

def intBytes (v : Int32) : Bytes := u32Be v.toUInt32

section
variable (sha256 : Bytes → Vector UInt8 32) (masterKey : Bytes)

def keystreamFrom (index : Int32) (length pos : Nat) (counter : Int32) : Bytes :=
  if pos < length then
    let block := sha256 (masterKey ++ intBytes index ++ intBytes counter)
    let n := min 32 (length - pos)
    block.toList.take n ++ keystreamFrom index length (pos + n) (counter + 1)
  else []
termination_by length - pos

def keystream (index : Int32) (length : Nat) : Bytes :=
  if length = 0 then [] else keystreamFrom sha256 masterKey index length 0 0

def encryptBytes (pt ks : Bytes) : Bytes :=
  List.zipWith (fun p k => toByte (ofByte p ^^^ ofByte k)) pt ks

def keyOf (i : Nat) (value : Utf16) : Bytes :=
  keystream sha256 masterKey (.ofNat i) (utf8 (text value)).length

def buildStringTable {ι : Type} (options : StringOptions) (classes : List (ClassFile ι)) :
    Option StringTable :=
  let unique := uniqueStrings options classes
  if unique = [] then some .empty
  else if unique.length < 2 ^ 31 then
    some
      { index := GoMap.writeAll ∅ (unique.mapIdx fun i value => (value, Int32.ofNat i))
        ciphertexts := unique.mapIdx fun i value =>
          encryptBytes (utf8 (text value)) (keyOf sha256 masterKey i value)
        keys := unique.mapIdx (keyOf sha256 masterKey) }
  else none

def stringTable {ι : Type} (options : StringOptions) (classes : List (ClassFile ι)) :
    Option StringTable :=
  if options.encryptStrings then buildStringTable sha256 masterKey options classes else some .empty

end

/-! ## Replacing constants -/

inductive RewrittenInsn (ι : Type) where
  | push (o : Op)
  /-- The call of `s` of the decoder class. -/
  | invokeDecoder
  | ldc (value : Utf16)
  | other (insn : ι)
deriving DecidableEq

def visitLdcInsn {ι : Type} (table : StringTable) (value : Utf16) : List (RewrittenInsn ι) :=
  match table.index.lookup value with
  | some i => [.push (pushInt i), .invokeDecoder]
  | none => [.ldc value]

def Loads {ι : Type} (decodeUtf8 : Bytes → Utf16) (w : World) : List (RewrittenInsn ι) → Utf16 → Prop
  | [.ldc value], v => value = v
  | [.push o, .invokeDecoder], v =>
    ∃ i w' r, o.exec decodeUtf8 ⟨w, [], []⟩ = some ⟨w, [.int i], []⟩ ∧
      Ends (step decodeUtf8 decode) (enter decode w [.int i] 4) [] (w', some (.ref (some r))) ∧
      w'.heap[r]? = some (.string (some v))
  | _, _ => False

/-! ## The entries of the table -/

variable {value : Utf16}

section table

variable {sha256 : Bytes → Vector UInt8 32} {masterKey : Bytes}

theorem length_keystreamFrom (index : Int32) (length pos : Nat) (counter : Int32) :
    (keystreamFrom sha256 masterKey index length pos counter).length = length - pos := by
  fun_induction keystreamFrom sha256 masterKey index length pos counter with
  | case1 pos counter hlt block n ih =>
    rw [List.length_append, List.length_take, Vector.length_toList]
    omega
  | case2 pos counter hge =>
    rw [List.length_nil]
    omega

theorem length_keystream (index : Int32) (length : Nat) :
    (keystream sha256 masterKey index length).length = length := by
  unfold keystream
  split
  · next h => rw [h]; rfl
  · rw [length_keystreamFrom, Nat.sub_zero]

theorem encryptBytes_eq (pt ks : Bytes) : encryptBytes pt ks = xorBytes pt ks := by
  unfold encryptBytes xorBytes
  congr 1
  simp [toByte, ofByte]

theorem xorBytes_xorBytes {pt ks : Bytes} (h : pt.length ≤ ks.length) :
    xorBytes (xorBytes pt ks) ks = pt := by
  induction pt generalizing ks with
  | nil => rfl
  | cons p pt ih =>
    cases ks with
    | nil => cases h
    | cons k ks =>
      have hrest : xorBytes (xorBytes pt ks) ks = pt := ih (by simpa using h)
      simp only [xorBytes, List.zipWith_cons_cons] at hrest ⊢
      rw [hrest, UInt8.xor_assoc, UInt8.xor_self, UInt8.xor_zero]

variable {unique : List Utf16}

theorem mem_addSorted {v : Utf16} :
    v ∈ addSorted unique value ↔ v = value ∨ v ∈ unique := by
  unfold addSorted
  split
  · next h =>
    constructor
    · exact .inr
    · rintro (rfl | hv)
      · exact h
      · exact hv
  · rw [List.mem_orderedInsert]

theorem nodup_addSorted (h : unique.Nodup) (value : Utf16) :
    (addSorted unique value).Nodup := by
  unfold addSorted
  split
  · exact h
  · next hnew =>
    rw [(List.perm_orderedInsert _ _ _).nodup_iff]
    exact List.nodup_cons.mpr ⟨hnew, h⟩

theorem foldl_addSorted (values unique : List Utf16) (h : unique.Nodup) :
    (values.foldl addSorted unique).Nodup ∧
      ∀ v, v ∈ values.foldl addSorted unique ↔ v ∈ values ∨ v ∈ unique := by
  induction values generalizing unique with
  | nil => exact ⟨h, fun v => by simp⟩
  | cons value values ih =>
    obtain ⟨hnodup, hmem⟩ := ih _ (nodup_addSorted h value)
    refine ⟨hnodup, fun v => ?_⟩
    rw [List.foldl_cons, hmem, mem_addSorted, List.mem_cons]
    tauto

theorem nodup_uniqueStrings {ι : Type} (options : StringOptions) (classes : List (ClassFile ι)) :
    (uniqueStrings options classes).Nodup :=
  (foldl_addSorted _ [] .nil).1

theorem fits_of_mem_uniqueStrings {ι : Type} {options : StringOptions}
    {classes : List (ClassFile ι)} (h : value ∈ uniqueStrings options classes) :
    (utf8 (text value)).length < 2 ^ 31 := by
  rcases ((foldl_addSorted _ [] .nil).2 value).mp h with hmem | hmem
  · obtain ⟨constant, -, rfl⟩ := List.mem_map.mp (List.mem_of_mem_filter hmem)
    exact constant.fits
  · cases hmem

structure StringTable.HasEntry (table : StringTable) (i : Nat) (value : Utf16) (key : Bytes) : Prop where
  lookup : table.index.lookup value = some (.ofNat i)
  index : i < 2 ^ 31
  ciphertext : table.ciphertexts[i]? = some (xorBytes (utf8 (text value)) key)
  keystream : table.keys[i]? = some key
  length : key.length = (utf8 (text value)).length
  fits : (utf8 (text value)).length < 2 ^ 31

theorem lookup_index {unique : List Utf16} (hnodup : unique.Nodup) {value : Utf16}
    (h : ((GoMap.writeAll ∅ (unique.mapIdx fun i value =>
      (value, Int32.ofNat i))).lookup value).isSome = true) :
    ∃ i, unique[i]? = some value ∧
      (GoMap.writeAll ∅ (unique.mapIdx fun i value => (value, Int32.ofNat i))).lookup value =
        some (.ofNat i) := by
  have hread : ∀ e ∈ unique.mapIdx fun i value => (value, Int32.ofNat i),
      (GoMap.writeAll ∅ (unique.mapIdx fun i value => (value, Int32.ofNat i))).lookup e.1 =
        some e.2 := by
    refine GoMap.lookup_writeAll_iff.mpr ?_
    intro e he e' he' hkey
    obtain ⟨i, hi, rfl⟩ := List.mem_mapIdx.mp he
    obtain ⟨i', hi', rfl⟩ := List.mem_mapIdx.mp he'
    exact congrArg Int32.ofNat ((List.Nodup.getElem_inj_iff hnodup).mp hkey)
  by_cases hmem : value ∈ unique
  · obtain ⟨i, hi, rfl⟩ := List.getElem_of_mem hmem
    exact ⟨i, List.getElem?_eq_getElem hi, hread _ (List.mem_mapIdx.mpr ⟨i, hi, rfl⟩)⟩
  · rw [GoMap.lookup_writeAll_of_notMem] at h
    · cases h
    · intro e he heq
      obtain ⟨i, hi, rfl⟩ := List.mem_mapIdx.mp he
      exact hmem (heq ▸ List.getElem_mem hi)

/-- **Every text in the table is encrypted under the position it is found by.** -/
theorem exists_entry {ι : Type} {options : StringOptions} {classes : List (ClassFile ι)}
    {table : StringTable} (h : stringTable sha256 masterKey options classes = some table)
    (hvalue : table.contains value = true) :
    table.ciphertexts.length < 2 ^ 31 ∧ table.keys.length < 2 ^ 31 ∧
      ∃ i key, table.HasEntry i value key := by
  unfold stringTable at h
  split at h
  · rw [buildStringTable] at h
    split at h
    · cases h
      cases hvalue
    · obtain ⟨hsize, ⟨⟩⟩ := guard_some h
      obtain ⟨i, hi, hlookup⟩ := lookup_index (nodup_uniqueStrings options classes) hvalue
      have hilt : i < (uniqueStrings options classes).length :=
        (List.getElem?_eq_some_iff.mp hi).1
      refine ⟨by rw [List.length_mapIdx]; exact hsize, by rw [List.length_mapIdx]; exact hsize, i,
        keyOf sha256 masterKey i value, ?_⟩
      exact
        { lookup := hlookup
          index := by omega
          ciphertext := by rw [List.getElem?_mapIdx, hi, Option.map_some, encryptBytes_eq]
          keystream := by rw [List.getElem?_mapIdx, hi, Option.map_some]
          length := length_keystream _ _
          fits := fits_of_mem_uniqueStrings (List.mem_of_getElem? hi) }
  · cases h
    cases hvalue

end table

/-! ## What is loaded -/

section loads

variable {sha256 : Bytes → Vector UInt8 32} {masterKey : Bytes} {ι κ : Type}
  {options : StringOptions} {classes : List (ClassFile ι)} {table : StringTable}
  {decodeUtf8 : Bytes → Utf16}

/--
**What replaces a constant loads its text**, with a question mark for each surrogate that stands
alone, whatever happens on the heap outside of the decoder class.
-/
theorem loads_iff (hutf8 : ∀ s, decodeUtf8 (utf8 s) = utf16 s)
    (h : stringTable sha256 masterKey options classes = some table)
    (hvalue : table.contains value = true) (w : World) :
    ∃ w₁, Ends (step decodeUtf8 (clinit table.ciphertexts table.keys))
        (enter (clinit table.ciphertexts table.keys) w [] 0) [] (w₁, none) ∧
      ∀ heap, (∀ x o, w.heap.length ≤ x → w₁.heap[x]? = some o → heap[x]? = some o) → ∀ v,
        Loads decodeUtf8 (w₁.withHeap heap) (visitLdcInsn table value : List (RewrittenInsn κ)) v ↔
          v = utf16 (text value) := by
  obtain ⟨hct, hkeys, i, key, hentry⟩ := exists_entry h hvalue
  obtain ⟨w₁, a, b, hinit, hc, hholds, hk, hholds'⟩ := clinit_ends decodeUtf8 w hct hkeys
  refine ⟨w₁, hinit, fun heap hkept v => ?_⟩
  have hlen : (xorBytes (utf8 (text value)) key).length = (utf8 (text value)).length := by
    simp [xorBytes, hentry.length]
  obtain ⟨w₂, r, hends, hstring⟩ := decode_ends decodeUtf8 (w := w₁.withHeap heap) hc
    (hholds.kept hkept) hk (hholds'.kept hkept) hentry.index hentry.ciphertext hentry.keystream
    (by rw [hlen, hentry.length]) (by rw [hlen]; exact hentry.fits)
  rw [xorBytes_xorBytes (Nat.le_of_eq hentry.length.symm), hutf8] at hstring
  rw [visitLdcInsn, hentry.lookup]
  constructor
  · rintro ⟨j, w₃, r', hpush, hends', hstring'⟩
    rw [exec_pushInt] at hpush
    cases hpush
    obtain ⟨-, hresult⟩ := hends.det hends'
    cases hresult
    rw [hstring] at hstring'
    cases hstring'
    rfl
  · rintro rfl
    exact ⟨.ofNat i, w₂, r, exec_pushInt _, hends, hstring⟩

/--
**Which constants keep their value.** The decoder class can be initialized, and from then on the call
that replaces a constant gives its value if and only if no surrogate stands alone in it.
-/
theorem string_preserved_iff (hutf8 : ∀ s, decodeUtf8 (utf8 s) = utf16 s)
    (h : stringTable sha256 masterKey options classes = some table) {value : Utf16}
    (hvalue : table.contains value = true) (w : World) :
    ∃ w₁, Ends (step decodeUtf8 (clinit table.ciphertexts table.keys))
        (enter (clinit table.ciphertexts table.keys) w [] 0) [] (w₁, none) ∧
      ∀ heap, (∀ x o, w.heap.length ≤ x → w₁.heap[x]? = some o → heap[x]? = some o) →
        (Loads decodeUtf8 (w₁.withHeap heap) (visitLdcInsn table value : List (RewrittenInsn κ)) value ↔
          WellFormed value) := by
  obtain ⟨w₁, hinit, hloads⟩ := loads_iff (κ := κ) hutf8 h hvalue w
  refine ⟨w₁, hinit, fun heap hkept => ?_⟩
  rw [hloads heap hkept, wellFormed_iff]
  exact eq_comm

end loads

/-! ## A constant with a surrogate that stands alone -/

namespace StringSample

def decodeUtf8 (bytes : Bytes) : Utf16 := utf16 ((String.fromUTF8? ⟨bytes.toArray⟩).getD "")

theorem decodeUtf8_utf8 (s : String) : decodeUtf8 (utf8 s) = utf16 s := by
  have hbytes : (⟨(utf8 s).toArray⟩ : ByteArray) = s.toUTF8 := by
    rw [utf8]
  have hvalid : s.toUTF8.IsValidUTF8 := s.isValidUTF8
  rw [decodeUtf8, hbytes, String.fromUTF8?, dif_pos hvalid]
  rfl

def masterKey : Bytes := List.replicate 32 1

def sha256 (_ : Bytes) : Vector UInt8 32 :=
  #v[18, 103, 194, 18, 250, 130, 142, 158, 80, 10, 95, 196, 48, 113, 56, 201, 21, 10, 148, 39, 244,
    120, 40, 129, 113, 106, 200, 89, 90, 74, 199, 24]

def options : StringOptions := ⟨true, 4, []⟩

def classes (value : StringConstant) : List (ClassFile Unit) := [[[.ldc value, .other ()]]]

def table? (value : StringConstant) : Option StringTable :=
  stringTable sha256 masterKey options (classes value)

def plain : StringConstant := ⟨[0x6B, 0x65, 0x79, 0x3D], by decide +kernel⟩

def lone : StringConstant := ⟨[0x6B, 0x65, 0x79, 0xD800], by decide +kernel⟩

end StringSample

open StringSample in
theorem string_preserved_iff_sample :
    ∃ table w₁, table? plain = some table ∧
      visitLdcInsn table plain.units = [RewrittenInsn.push (ι := Unit) (.iconst 0), .invokeDecoder] ∧
      Ends (step decodeUtf8 (clinit table.ciphertexts table.keys))
        (enter (clinit table.ciphertexts table.keys) ⟨[], none, none⟩ [] 0) [] (w₁, none) ∧
      Loads decodeUtf8 w₁ (visitLdcInsn table plain.units : List (RewrittenInsn Unit))
        plain.units := by
  have heval : (table? plain).map (fun table =>
      (table.contains plain.units, visitLdcInsn (ι := Unit) table plain.units)) =
        some (true, [.push (.iconst 0), .invokeDecoder]) := by decide +kernel
  obtain ⟨table, htable, heq⟩ := Option.map_eq_some_iff.mp heval
  rw [Prod.mk.injEq] at heq
  obtain ⟨w₁, hinit, hloads⟩ := string_preserved_iff (κ := Unit) decodeUtf8_utf8 htable heq.1
    ⟨[], none, none⟩
  exact ⟨table, w₁, htable, heq.2, hinit,
    (hloads w₁.heap fun _ _ _ ho => ho).mpr (by decide +kernel)⟩

open StringSample in
theorem lone_surrogate_lost :
    ∃ table w₁, table? lone = some table ∧
      visitLdcInsn table lone.units = [RewrittenInsn.push (ι := Unit) (.iconst 0), .invokeDecoder] ∧
      Ends (step decodeUtf8 (clinit table.ciphertexts table.keys))
        (enter (clinit table.ciphertexts table.keys) ⟨[], none, none⟩ [] 0) [] (w₁, none) ∧
      Loads decodeUtf8 w₁ (visitLdcInsn table lone.units : List (RewrittenInsn Unit))
        (utf16 "key?") ∧
      ¬ Loads decodeUtf8 w₁ (visitLdcInsn table lone.units : List (RewrittenInsn Unit))
        lone.units := by
  have heval : (table? lone).map (fun table =>
      (table.contains lone.units, visitLdcInsn (ι := Unit) table lone.units)) =
        some (true, [.push (.iconst 0), .invokeDecoder]) := by decide +kernel
  obtain ⟨table, htable, heq⟩ := Option.map_eq_some_iff.mp heval
  rw [Prod.mk.injEq] at heq
  obtain ⟨w₁, hinit, hloads⟩ := loads_iff (κ := Unit) decodeUtf8_utf8 htable heq.1 ⟨[], none, none⟩
  have hsame := hloads w₁.heap fun _ _ _ ho => ho
  refine ⟨table, w₁, htable, heq.2, hinit, (hsame _).mpr ?_, fun h => ?_⟩
  · decide +kernel
  · exact absurd ((hsame _).mp h) (by decide +kernel)

end Kseal.Strings
