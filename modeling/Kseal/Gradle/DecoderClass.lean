import Kseal.Gradle.Jvm

/-!
# The decoder class (`DecoderClassGenerator.kt`)

`<clinit>` fills the ciphertexts `C` and the keys `K` from string constants; `s(int)` adds an entry
of one to that of the other, and reads the sum as UTF-8 (`decode_ends`).
-/

namespace Kseal.Strings

open Infra Jvm List

/-! ## The generator -/

def pushInt (value : Int32) : Op :=
  if -1 ≤ value ∧ value ≤ 5 then .iconst value
  else if -128 ≤ value ∧ value ≤ 127 then .bipush value.toInt8
  else if -32768 ≤ value ∧ value ≤ 32767 then .sipush value.toInt16
  else .ldcInt value

def latin1 (bytes : Bytes) : Utf16 := bytes.map UInt8.toUInt16

def initEntries (f : Field) : Nat → List Bytes → List Op
  | _, [] => []
  | i, bytes :: payloads =>
    [.getstatic f, pushInt (.ofNat i), .ldcString (latin1 bytes), .getstaticCharset .iso88591,
      .invokeGetBytes, .aastore] ++ initEntries f (i + 1) payloads

def initTable (f : Field) (payloads : List Bytes) : List Op :=
  [pushInt (.ofNat payloads.length), .anewarray, .putstatic f] ++ initEntries f 0 payloads

def clinit (ciphertexts keys : List Bytes) : List Insn :=
  (initTable .C ciphertexts ++ initTable .K keys).map .op ++ [.voidReturn]

def decodeHead : List Op :=
  [.getstatic .C, .iload 0, .aaload, .astore 1,
    .getstatic .K, .iload 0, .aaload, .astore 2,
    .aload 1, .arraylength, .newarrayByte, .astore 3,
    .iconst 0, .istore 4]

def decodeTest : List Op := [.iload 4, .aload 1, .arraylength]

def decodeBody : List Op :=
  [.aload 3, .iload 4, .aload 1, .iload 4, .baload, .aload 2, .iload 4, .baload, .ixor, .i2b,
    .bastore, .iinc 4 1]

def decodeTail : List Op :=
  [.newString, .dup, .aload 3, .getstaticCharset .utf8, .invokeStringInit]

def decodeEnd : List Insn := decodeTail.map .op ++ [.areturn]

def decodeLoop : List Insn :=
  decodeTest.map .op ++ (.ifIcmpge 1 :: (decodeBody.map .op ++ .goto 0 :: .label 1 :: decodeEnd))

def decode : List Insn := decodeHead.map .op ++ .label 0 :: decodeLoop

/-! ## Constants -/

variable {decodeUtf8 : Bytes → Utf16}

variable {stack : List Value} {locals : List (Option Value)}

theorem exec_pushInt (value : Int32) {w : World} :
    (pushInt value).exec decodeUtf8 ⟨w, stack, locals⟩ = some ⟨w, .int value :: stack, locals⟩ := by
  fun_cases pushInt value
  case case2 h =>
    rw [Int32.le_iff_toInt_le, Int32.le_iff_toInt_le] at h
    have hvalue : value.toInt8.toInt32 = value := by
      apply Int32.toInt_inj.mp
      rw [Int8.toInt_toInt32, Int32.toInt_toInt8]
      exact Int.bmod_eq_of_le (by simpa using h.1) (by simpa using Int.lt_add_one_of_le h.2)
    rw [exec_bipush, hvalue]
  case case3 h =>
    rw [Int32.le_iff_toInt_le, Int32.le_iff_toInt_le] at h
    have hvalue : value.toInt16.toInt32 = value := by
      apply Int32.toInt_inj.mp
      rw [Int16.toInt_toInt32, Int32.toInt_toInt16]
      exact Int.bmod_eq_of_le (by simpa using h.1) (by simpa using Int.lt_add_one_of_le h.2)
    rw [exec_sipush, hvalue]
  all_goals rfl

/-- **Any bytes can be carried by a string constant.** -/
theorem latin1Bytes_latin1 (bytes : Bytes) : latin1Bytes (latin1 bytes) = bytes := by
  induction bytes with
  | nil => rfl
  | cons b bytes ih =>
    have hb : b.toUInt16.toNat = b.toNat := UInt8.toNat_toUInt16 b
    have hlt := b.toNat_lt
    have hsingle : isSurrogate b.toUInt16 = false := by
      simp only [isSurrogate, isHigh, isLow, Bool.or_eq_false_iff, Bool.and_eq_false_iff,
        decide_eq_false_iff_not]
      omega
    have hchar : (Char.ofNat b.toNat).toNat = b.toNat := toNat_char_ofNat (.inl (by omega))
    show latin1Bytes (b.toUInt16 :: latin1 bytes) = b :: bytes
    rw [latin1Bytes, scan_single hsingle, map_cons, hb, Option.getD_some, hchar,
      if_pos (by omega),
      UInt8.ofNat_toNat]
    exact congrArg (b :: ·) ih

theorem toByte_xor (a b : UInt8) : toByte (ofByte (toByte (ofByte a ^^^ ofByte b))) = a ^^^ b := by
  simp [toByte, ofByte]

/-! ## The initializer -/

def Holds (heap : List Obj) (lo a : Nat) (payloads : List Bytes) : Prop :=
  lo ≤ a ∧ ∃ entries : List Nat, heap[a]? = some (.refs (entries.map some)) ∧
    List.Forall₂ (fun b bytes => lo ≤ b ∧ heap[b]? = some (.bytes bytes)) entries payloads

variable {lo a : Nat} {payloads : List Bytes}

theorem Holds.kept {heap heap' : List Obj} (h : Holds heap lo a payloads)
    (hkept : ∀ x o, lo ≤ x → heap[x]? = some o → heap'[x]? = some o) :
    Holds heap' lo a payloads := by
  obtain ⟨hlo, entries, ha, hentries⟩ := h
  exact ⟨hlo, entries, hkept a _ hlo ha,
    hentries.imp fun b bytes hb => ⟨hb.1, hkept b _ hb.1 hb.2⟩⟩

theorem Holds.entry {heap : List Obj} {i : Nat} {bytes : Bytes} (h : Holds heap lo a payloads)
    (hi : payloads[i]? = some bytes) :
    ∃ rs b, heap[a]? = some (.refs rs) ∧ rs[i]? = some (some b) ∧ heap[b]? = some (.bytes bytes) := by
  obtain ⟨-, entries, ha, hentries⟩ := h
  have hlt : i < entries.length := by
    rw [hentries.length_eq]
    exact (List.getElem?_eq_some_iff.mp hi).1
  refine ⟨_, entries[i], ha, by simp [hlt], ?_⟩
  obtain ⟨-, hb⟩ := hentries.get hlt (hentries.length_eq ▸ hlt)
  rw [List.getElem?_eq_some_iff] at hi
  obtain ⟨_, rfl⟩ := hi
  exact hb

theorem exec_initEntry {f : Field} {w : World} {done rest : List (Option Nat)} (bytes : Bytes)
    (hfield : w.static f = some a) (ha : w.heap[a]? = some (.refs (done ++ none :: rest)))
    (hlen : done.length < 2 ^ 31) :
    execAll decodeUtf8 [.getstatic f, pushInt (.ofNat done.length), .ldcString (latin1 bytes),
        .getstaticCharset .iso88591, .invokeGetBytes, .aastore] ⟨w, stack, locals⟩ =
      some ⟨w.withHeap ((w.heap ++ [Obj.string (some (latin1 bytes)), Obj.bytes bytes]).set a
        (.refs (done ++ some (w.heap.length + 1) :: rest))), stack, locals⟩ := by
  have halt : a < w.heap.length := (List.getElem?_eq_some_iff.mp ha).1
  have ha' : (w.withHeap (w.heap ++ [Obj.string (some (latin1 bytes))] ++ [Obj.bytes bytes])).heap[a]? =
      some (.refs (done ++ none :: rest)) := by
    rw [World.heap_withHeap, append_assoc, getElem?_append_left halt, ha]
  rw [execAll_cons (exec_getstatic f), hfield, execAll_cons (exec_pushInt _),
    execAll_cons (exec_ldcString _), execAll_cons (exec_getstaticCharset _),
    execAll_cons (exec_invokeGetBytes (s := latin1 bytes) .iso88591 (by simp)), Charset.encode,
    latin1Bytes_latin1, World.withHeap_withHeap, World.heap_withHeap,
    execAll_cons (exec_aastore _ ha' hlen (by simp)), execAll_nil]
  simp

variable (decodeUtf8) in
/--
The loop fills the free places of the array, each with a new array. The objects that were there
before stay as they are, but for the array itself.
-/
theorem exec_initEntries {f : Field} (stack : List Value) (locals : List (Option Value))
    (payloads : List Bytes) (w : World) (done : List (Option Nat)) (hfield : w.static f = some a)
    (ha : w.heap[a]? = some (.refs (done ++ List.replicate payloads.length none)))
    (hlen : done.length + payloads.length < 2 ^ 31) :
    ∃ heap entries, execAll decodeUtf8 (initEntries f done.length payloads) ⟨w, stack, locals⟩ =
        some ⟨w.withHeap heap, stack, locals⟩ ∧
      (∀ x, x < w.heap.length → x ≠ a → heap[x]? = w.heap[x]?) ∧ w.heap.length ≤ heap.length ∧
      heap[a]? = some (.refs (done ++ entries.map some)) ∧
      List.Forall₂ (fun b bytes => w.heap.length ≤ b ∧ heap[b]? = some (.bytes bytes)) entries
        payloads := by
  induction payloads generalizing w done with
  | nil =>
    refine ⟨w.heap, [], rfl, fun _ _ _ => rfl, Nat.le_refl _, ?_, .nil⟩
    simpa using ha
  | cons bytes payloads ih =>
    rw [length_cons] at hlen
    have halt : a < w.heap.length := (List.getElem?_eq_some_iff.mp ha).1
    obtain ⟨heap₁, hheap₁⟩ : ∃ heap₁, heap₁ =
        (w.heap ++ [Obj.string (some (latin1 bytes)), Obj.bytes bytes]).set a
          (.refs (done ++ some (w.heap.length + 1) :: List.replicate payloads.length none)) := ⟨_, rfl⟩
    have hlen₁ : heap₁.length = w.heap.length + 2 := by simp [hheap₁]
    have ha₁ : heap₁[a]? = some (.refs ((done ++ [some (w.heap.length + 1)]) ++
        List.replicate payloads.length none)) := by
      rw [hheap₁, getElem?_set_self (by rw [length_append]; omega)]
      simp
    have hold : ∀ x, x < w.heap.length → x ≠ a → heap₁[x]? = w.heap[x]? := by
      intro x hx hne
      rw [hheap₁, getElem?_set_ne (Ne.symm hne), getElem?_append_left hx]
    have hnew : heap₁[w.heap.length + 1]? = some (.bytes bytes) := by
      rw [hheap₁, getElem?_set_ne (by omega)]
      simp
    obtain ⟨heap, entries, hexec, hkept, hle, harray, hentries⟩ :=
      ih (w.withHeap heap₁) (done ++ [some (w.heap.length + 1)])
        (by rw [World.static_withHeap, hfield]) ha₁ (by simp; omega)
    rw [World.heap_withHeap] at hkept hle hentries
    refine ⟨heap, (w.heap.length + 1) :: entries, ?_, ?_, by omega, by simpa using harray, ?_⟩
    · rw [initEntries, execAll_append (exec_initEntry bytes hfield ha (by omega)), ← hheap₁]
      rw [length_append] at hexec
      exact hexec
    · intro x hx hne
      rw [hkept x (by omega) hne, hold x hx hne]
    · refine .cons ⟨by omega, ?_⟩ (hentries.imp fun b bytes hb => ⟨by omega, hb.2⟩)
      rw [hkept _ (by omega) (by omega), hnew]

variable (decodeUtf8) in
theorem exec_initTable (f : Field) (stack : List Value) (locals : List (Option Value)) (w : World)
    (hlen : payloads.length < 2 ^ 31) :
    ∃ heap, execAll decodeUtf8 (initTable f payloads) ⟨w, stack, locals⟩ =
        some ⟨(w.setStatic (some w.heap.length) f).withHeap heap, stack, locals⟩ ∧
      (∀ x, x < w.heap.length → heap[x]? = w.heap[x]?) ∧
      Holds heap w.heap.length w.heap.length payloads := by
  obtain ⟨heap, entries, hexec, hkept, -, harray, hentries⟩ :=
    exec_initEntries decodeUtf8 stack locals payloads
      ((w.setStatic (some w.heap.length) f).withHeap
        (w.heap ++ [.refs (List.replicate payloads.length none)])) []
      (by rw [World.static_withHeap, World.static_setStatic])
      (by simp) (by simpa using hlen)
  rw [World.heap_withHeap, length_append] at hkept hentries
  refine ⟨heap, ?_, ?_, Nat.le_refl _, entries, harray, hentries.imp fun b bytes hb => ⟨by omega, hb.2⟩⟩
  · rw [initTable, cons_append, cons_append, cons_append,
      execAll_cons (exec_pushInt _), execAll_cons (exec_anewarray hlen),
      execAll_cons (exec_putstatic _ _), World.setStatic_withHeap]
    exact hexec
  · intro x hx
    rw [hkept x (by omega) (by omega), getElem?_append_left hx]

variable (decodeUtf8) in
/-- **The initializer fills both arrays**, with new objects only. -/
theorem clinit_ends {ciphertexts keys : List Bytes} (w : World) (hct : ciphertexts.length < 2 ^ 31)
    (hkeys : keys.length < 2 ^ 31) :
    ∃ w₁ a b, Ends (step decodeUtf8 (clinit ciphertexts keys)) (enter (clinit ciphertexts keys) w [] 0)
        [] (w₁, none) ∧
      w₁.c = some a ∧ Holds w₁.heap w.heap.length a ciphertexts ∧
      w₁.k = some b ∧ Holds w₁.heap w.heap.length b keys := by
  obtain ⟨heap, hexec, hkept, hholds⟩ := exec_initTable decodeUtf8 .C [] [] w hct
  obtain ⟨heap', hexec', hkept', hholds'⟩ := exec_initTable decodeUtf8 .K [] []
    ((w.setStatic (some w.heap.length) .C).withHeap heap) hkeys
  rw [World.heap_withHeap] at hexec' hkept' hholds'
  have hlo : w.heap.length ≤ heap.length := by
    obtain ⟨-, entries, harray, -⟩ := hholds
    exact Nat.le_of_lt (List.getElem?_eq_some_iff.mp harray).1
  refine ⟨_, w.heap.length, heap.length,
    (reaches_block ((execAll_append hexec _).trans hexec') [.voidReturn]).ends rfl, rfl, ?_, rfl, ?_⟩
  · refine hholds.kept fun x o hx ho => ?_
    rw [World.heap_withHeap, hkept' x (List.getElem?_eq_some_iff.mp ho).1, ho]
  · obtain ⟨-, entries, harray, hentries⟩ := hholds'
    exact ⟨hlo, entries, harray, hentries.imp fun b bytes hb => ⟨by omega, hb.2⟩⟩

/-! ## Decoding -/

def xorBytes (as bs : Bytes) : Bytes := List.zipWith (· ^^^ ·) as bs

section decoding

variable {w : World} {i : Int32} {ca ka o : Nat} {ct key : Bytes}

def loopFrame (w : World) (i : Int32) (ca ka o j : Nat) : Frame where
  world := w
  stack := []
  locals := [some (.int i), some (.ref (some ca)), some (.ref (some ka)), some (.ref (some o)),
    some (.int (.ofNat j))]

theorem exec_decodeTest (j : Nat) (hca : w.heap[ca]? = some (.bytes ct)) :
    execAll decodeUtf8 decodeTest (loopFrame w i ca ka o j) =
      some { loopFrame w i ca ka o j with stack := [.int (.ofNat ct.length), .int (.ofNat j)] } := by
  rw [decodeTest, loopFrame, execAll_cons (exec_iload rfl), execAll_cons (exec_aload rfl),
    execAll_cons (exec_arraylength hca), execAll_nil]

variable {j : Nat}

theorem exec_decodeBody {out : Bytes} {x y : UInt8} (hca : w.heap[ca]? = some (.bytes ct))
    (hka : w.heap[ka]? = some (.bytes key)) (ho : w.heap[o]? = some (.bytes out)) (hj : j < 2 ^ 31)
    (hx : ct[j]? = some x) (hy : key[j]? = some y) (hlt : j < out.length) :
    execAll decodeUtf8 decodeBody (loopFrame w i ca ka o j) =
      some (loopFrame (w.withHeap (w.heap.set o (.bytes (out.set j (x ^^^ y))))) i ca ka o (j + 1)) := by
  rw [decodeBody, loopFrame, execAll_cons (exec_aload rfl), execAll_cons (exec_iload rfl),
    execAll_cons (exec_aload rfl), execAll_cons (exec_iload rfl), execAll_cons (exec_baload hca hj hx),
    execAll_cons (exec_aload rfl), execAll_cons (exec_iload rfl), execAll_cons (exec_baload hka hj hy),
    execAll_cons (exec_ixor _ _), execAll_cons exec_i2b, execAll_cons (exec_bastore ho hj hlt),
    execAll_cons (exec_iinc 1 rfl), toByte_xor, loopFrame, Int32.ofNat_add]
  rfl

theorem step_goto_loop (f : Frame) :
    step decodeUtf8 decode ⟨.goto 0 :: .label 1 :: decodeEnd, f⟩ = .go none ⟨decodeLoop, f⟩ := rfl

theorem reaches_decodeLoop (hca : w.heap[ca]? = some (.bytes ct))
    (hka : w.heap[ka]? = some (.bytes key)) (hoca : ca ≠ o) (hoka : ka ≠ o)
    (hlen : ct.length ≤ key.length) (hct : ct.length < 2 ^ 31) {j : Nat} (hj : j ≤ ct.length)
    (ho : w.heap[o]? = some (.bytes ((xorBytes ct key).take j ++ List.replicate (ct.length - j) 0))) :
    Reaches (step decodeUtf8 decode) ⟨decodeLoop, loopFrame w i ca ka o j⟩
      ⟨decodeEnd, loopFrame (w.withHeap (w.heap.set o (.bytes (xorBytes ct key)))) i ca ka o
        ct.length⟩ := by
  have hfull : (xorBytes ct key).length = ct.length := by
    simp [xorBytes, Nat.min_eq_left hlen]
  -- By the number of bytes that are left.
  obtain ⟨n, hn⟩ : ∃ n, n = ct.length - j := ⟨_, rfl⟩
  induction n generalizing j w with
  | zero =>
    obtain rfl : j = ct.length := by omega
    have hset : w.heap.set o (.bytes (xorBytes ct key)) = w.heap := by
      rw [← hfull, take_length, Nat.sub_self, replicate_zero, append_nil] at ho
      obtain ⟨hlt, hobj⟩ := List.getElem?_eq_some_iff.mp ho
      rw [← hobj, set_getElem_self]
    refine (reaches_block (exec_decodeTest _ hca) _).trans (.head ?_ (.refl _))
    rw [hset]
    simp [step, loopFrame, seek, decode, decodeHead, decodeLoop, decodeTest, decodeBody]
  | succ n ih =>
    have hjlt : j < ct.length := by omega
    have hxor : (xorBytes ct key)[j]? = some (ct[j] ^^^ key[j]) := by
      rw [xorBytes, getElem?_zipWith, getElem?_eq_getElem hjlt,
        getElem?_eq_getElem (Nat.lt_of_lt_of_le hjlt hlen)]
    have hout : ((xorBytes ct key).take j ++ List.replicate (ct.length - j) 0).set j
        (ct[j] ^^^ key[j]) = (xorBytes ct key).take (j + 1) ++ List.replicate (ct.length - (j + 1)) 0 := by
      have hdone : ((xorBytes ct key).take j).length = j := by
        rw [length_take]
        omega
      rw [← hn, replicate_succ, set_append_right _ _ (Nat.le_of_eq hdone),
        take_add_one, hxor, hdone, Nat.sub_self, show ct.length - (j + 1) = n by omega]
      simp
    have htest : Reaches (step decodeUtf8 decode) ⟨decodeLoop, loopFrame w i ca ka o j⟩
        ⟨decodeBody.map .op ++ .goto 0 :: .label 1 :: decodeEnd, loopFrame w i ca ka o j⟩ := by
      have hlt : ¬ (Int32.ofNat ct.length ≤ Int32.ofNat j) := by
        rw [Int32.le_iff_toInt_le, toInt_ofNat hct, toInt_ofNat (by omega)]
        omega
      refine (reaches_block (exec_decodeTest _ hca) _).trans (.head ?_ (.refl _))
      simp [step, loopFrame, hlt]
    have hbody : execAll decodeUtf8 decodeBody (loopFrame w i ca ka o j) =
        some (loopFrame (w.withHeap (w.heap.set o (.bytes ((xorBytes ct key).take (j + 1) ++
          List.replicate (ct.length - (j + 1)) 0)))) i ca ka o (j + 1)) := by
      rw [← hout]
      exact exec_decodeBody hca hka ho (by omega) (getElem?_eq_getElem hjlt)
        (getElem?_eq_getElem (Nat.lt_of_lt_of_le hjlt hlen)) (by simp; omega)
    refine htest.trans ((reaches_block hbody _).trans (.head (step_goto_loop _) ?_))
    have hloop := ih (w := w.withHeap (w.heap.set o (.bytes ((xorBytes ct key).take (j + 1) ++
        List.replicate (ct.length - (j + 1)) 0)))) (j := j + 1)
      (by rw [World.heap_withHeap, getElem?_set_ne hoca.symm, hca])
      (by rw [World.heap_withHeap, getElem?_set_ne hoka.symm, hka]) hjlt
      (by rw [World.heap_withHeap, getElem?_set_self (List.getElem?_eq_some_iff.mp ho).1])
      (by omega)
    rw [World.heap_withHeap, set_set] at hloop
    exact hloop

theorem exec_decodeHead {b n : Nat} {rs rs' : List (Option Nat)} (hc : w.static .C = some a)
    (ha : w.heap[a]? = some (.refs rs)) (hr : rs[n]? = some (some ca))
    (hca : w.heap[ca]? = some (.bytes ct)) (hk : w.static .K = some b)
    (hb : w.heap[b]? = some (.refs rs')) (hr' : rs'[n]? = some (some ka)) (hn : n < 2 ^ 31)
    (hsize : ct.length < 2 ^ 31) :
    execAll decodeUtf8 decodeHead ⟨w, [], [some (.int (.ofNat n)), none, none, none, none]⟩ =
      some (loopFrame (w.withHeap (w.heap ++ [.bytes (List.replicate ct.length 0)])) (.ofNat n) ca ka
        w.heap.length 0) := by
  rw [decodeHead, execAll_cons (exec_getstatic .C), hc, execAll_cons (exec_iload rfl),
    execAll_cons (exec_aaload ha hn hr), execAll_cons (exec_astore _),
    execAll_cons (exec_getstatic .K), hk, execAll_cons (exec_iload rfl),
    execAll_cons (exec_aaload hb hn hr'), execAll_cons (exec_astore _),
    execAll_cons (exec_aload rfl), execAll_cons (exec_arraylength hca),
    execAll_cons (exec_newarrayByte hsize), execAll_cons (exec_astore _), execAll_cons exec_iconst,
    execAll_cons exec_istore]
  rfl

theorem exec_decodeTail {out : Bytes} (ho : w.heap[o]? = some (.bytes out)) :
    execAll decodeUtf8 decodeTail (loopFrame w i ca ka o j) =
      some { loopFrame w i ca ka o j with
        world := w.withHeap (w.heap ++ [.string (some (decodeUtf8 out))])
        stack := [.ref (some w.heap.length)] } := by
  have holt : o < w.heap.length := (List.getElem?_eq_some_iff.mp ho).1
  have ho' : (w.withHeap (w.heap ++ [Obj.string none])).heap[o]? = some (.bytes out) := by
    rw [World.heap_withHeap, getElem?_append_left holt, ho]
  have hnew : (w.withHeap (w.heap ++ [Obj.string none])).heap[w.heap.length]? =
      some (.string none) := by simp
  rw [decodeTail, loopFrame, execAll_cons exec_newString, execAll_cons (exec_dup _),
    execAll_cons (exec_aload rfl), execAll_cons (exec_getstaticCharset _),
    execAll_cons (exec_invokeStringInit _ ho' hnew), execAll_nil, Charset.decode]
  simp

variable (decodeUtf8) in
/--
**What `s` returns.** With the arrays in their fields, it is a new string, which the bytes of the
entry of `C` with those of the entry of `K` are read as.
-/
theorem decode_ends {b n : Nat} {ciphertexts keys : List Bytes} (hc : w.c = some a)
    (hciphertexts : Holds w.heap lo a ciphertexts) (hk : w.k = some b)
    (hkeys : Holds w.heap lo b keys) (hn : n < 2 ^ 31) (hct : ciphertexts[n]? = some ct)
    (hkey : keys[n]? = some key) (hlen : ct.length ≤ key.length) (hsize : ct.length < 2 ^ 31) :
    ∃ w' r, Ends (step decodeUtf8 decode) (enter decode w [.int (.ofNat n)] 4) []
        (w', some (.ref (some r))) ∧
      w'.heap[r]? = some (.string (some (decodeUtf8 (xorBytes ct key)))) := by
  obtain ⟨rs, ca, ha, hr, hca⟩ := hciphertexts.entry hct
  obtain ⟨rs', ka, hb, hr', hka⟩ := hkeys.entry hkey
  have hcalt : ca < w.heap.length := (List.getElem?_eq_some_iff.mp hca).1
  have hkalt : ka < w.heap.length := (List.getElem?_eq_some_iff.mp hka).1
  obtain ⟨w₁, hw₁⟩ : ∃ w₁, w₁ = w.withHeap (w.heap ++ [.bytes (List.replicate ct.length 0)]) :=
    ⟨_, rfl⟩
  have hheap₁ : w₁.heap = w.heap ++ [.bytes (List.replicate ct.length 0)] := by rw [hw₁]; rfl
  have hhead : Reaches (step decodeUtf8 decode) (enter decode w [.int (.ofNat n)] 4)
      ⟨decodeLoop, loopFrame w₁ (.ofNat n) ca ka w.heap.length 0⟩ := by
    have hexec : execAll decodeUtf8 decodeHead
        ⟨w, [], [some (.int (.ofNat n)), none, none, none, none]⟩ =
          some (loopFrame w₁ (.ofNat n) ca ka w.heap.length 0) := by
      rw [hw₁]
      exact exec_decodeHead hc ha hr hca hk hb hr' hn hsize
    exact (reaches_block hexec _).trans (.head rfl (.refl _))
  have hloop : Reaches (step decodeUtf8 decode)
      ⟨decodeLoop, loopFrame w₁ (.ofNat n) ca ka w.heap.length 0⟩ _ :=
    reaches_decodeLoop (by rw [hheap₁, getElem?_append_left hcalt, hca])
      (by rw [hheap₁, getElem?_append_left hkalt, hka]) (by omega) (by omega) hlen hsize
      (Nat.zero_le _) (by simp [hheap₁])
  have hout : (w₁.withHeap (w₁.heap.set w.heap.length (.bytes (xorBytes ct key)))).heap[w.heap.length]? =
      some (.bytes (xorBytes ct key)) := by simp [hheap₁]
  exact ⟨_, _, ((hhead.trans hloop).trans (reaches_block (exec_decodeTail hout) [.areturn])).ends rfl,
    by simp⟩

end decoding

end Kseal.Strings
