import Kseal.Vm.Encode
import Kseal.Vm.Interp

/-!
# Retrace maps (`vmspike/retrace.rs`)

The number of entries is cut to 32 bits, the length of a text to 16 (`open_encryptMap`). SHA-256,
ChaCha20-Poly1305 and the lossy reader of texts are parameters.
-/

namespace Kseal.Vm

open Infra List

structure RetraceLib where
  sha256 : Bytes → Block32
  encrypt : Bytes → Bytes → Bytes → Bytes → Bytes
  decrypt : Bytes → Bytes → Bytes → Bytes → Option Bytes
  fromUtf8Lossy : Bytes → String

structure RetraceLib.Lawful (lib : RetraceLib) : Prop where
  decrypts : ∀ key nonce aad msg, lib.decrypt key nonce aad (lib.encrypt key nonce aad msg) = some msg
  length : ∀ key nonce aad msg, (lib.encrypt key nonce aad msg).length = msg.length + 16
  text : ∀ s, lib.fromUtf8Lossy (utf8 s) = s

structure ResolvedSite where
  function : String
  step : String
  sourceLine : UInt32
deriving Repr, DecidableEq

inductive RetraceError where
  | tooShort
  | badMagic
  | badVersion
  | buildHashMismatch
  | authFailed
deriving Repr, DecidableEq

def retraceMagic : Bytes := ascii "KVRM"
def retraceVersion : UInt8 := 4
def nonceLen : Nat := 12
def headerLen : Nat := 4 + 1 + 32 + nonceLen
def tagLen : Nat := 16

section
variable (lib : RetraceLib)

def deriveKey (seed : BuildSeed) (buildHash : Block32) (routine : String) (label : Bytes) : Bytes :=
  (lib.sha256 (label ++ seed.bytes.toList ++ buildHash.toList ++
    u64Be (UInt64.ofNat (utf8 routine).length) ++ utf8 routine)).toList

def deriveNonce (seed : BuildSeed) (buildHash : Block32) (routine : String) (pt : Bytes) : Bytes :=
  (lib.sha256 (ascii "kseal/vmspike/retrace-aead-nonce" ++ seed.bytes.toList ++ buildHash.toList ++
    u64Be (UInt64.ofNat (utf8 routine).length) ++ utf8 routine ++ pt)).toList.take nonceLen

def putStr (s : String) : Bytes := u16Be (UInt16.ofNat (utf8 s).length) ++ utf8 s

def putEntry (entry : UInt32 × SourceSite) : Bytes :=
  u32Be entry.1 ++ (u32Be entry.2.sourceLine ++ (putStr entry.2.function ++ putStr entry.2.step))

def entryTable (entries : List (UInt32 × SourceSite)) : Bytes :=
  u32Be (UInt32.ofNat entries.length) ++ entries.flatMap putEntry

def retraceHeader (buildHash : Block32) (nonce : Bytes) : Bytes :=
  retraceMagic ++ [retraceVersion] ++ buildHash.toList ++ nonce

def encryptMap (entries : List (UInt32 × SourceSite)) (seed : BuildSeed) (buildHash : Block32)
    (routine : String) : Bytes :=
  let pt := entryTable entries
  let key := deriveKey lib seed buildHash routine (ascii "kseal/vmspike/retrace-aead-key")
  let nonce := deriveNonce lib seed buildHash routine pt
  let header := retraceHeader buildHash nonce
  header ++ lib.encrypt key nonce header pt

def readString : Reader RetraceError String := do
  let n ← Reader.u16 .tooShort
  lib.fromUtf8Lossy <$> Reader.take .tooShort n.toNat

def readEntry : Reader RetraceError (UInt32 × ResolvedSite) := do
  let pc ← Reader.u32 .tooShort
  let sourceLine ← Reader.u32 .tooShort
  let function ← readString lib
  let step ← readString lib
  return (pc, { function := function, step := step, sourceLine := sourceLine })

structure Symbolicator where
  entries : List (UInt32 × ResolvedSite)
deriving DecidableEq

def Symbolicator.open (encrypted : Bytes) (seed : BuildSeed) (buildHash : Block32)
    (routine : String) : Except RetraceError Symbolicator :=
  if encrypted.length < headerLen + tagLen then .error .tooShort
  else
    let header := encrypted.take headerLen
    let ciphertext := encrypted.drop headerLen
    if header.take 4 ≠ retraceMagic then .error .badMagic
    else if header[4]? ≠ some retraceVersion then .error .badVersion
    else if (header.drop 5).take 32 ≠ buildHash.toList then .error .buildHashMismatch
    else
      let nonce := header.drop (5 + 32)
      let key := deriveKey lib seed buildHash routine (ascii "kseal/vmspike/retrace-aead-key")
      match lib.decrypt key nonce header ciphertext with
      | none => .error .authFailed
      | some pt => do
        let (count, rest) ← Reader.u32 .tooShort pt
        let (entries, _) ← Reader.many (readEntry lib) count.toNat rest
        return ⟨entries⟩

def Symbolicator.resolve (s : Symbolicator) (frame : VmFrame) : Option ResolvedSite :=
  (s.entries.find? fun entry => entry.1 == frame.pc).map Prod.snd

end

/-! ## Reading a table back -/

variable {lib : RetraceLib}

structure SourceSite.Short (site : SourceSite) : Prop where
  function : (utf8 site.function).length < 2 ^ 16
  step : (utf8 site.step).length < 2 ^ 16

def SourceSite.resolved (site : SourceSite) : ResolvedSite :=
  ⟨site.function, site.step, site.sourceLine⟩

theorem reads_string (hlib : lib.Lawful) {s : String} (hs : (utf8 s).length < 2 ^ 16) :
    Reader.Reads (readString lib) (putStr s) s := by
  have hlen : (UInt16.ofNat (utf8 s).length).toNat = (utf8 s).length := by
    exact Nat.mod_eq_of_lt hs
  exact (Reader.reads_u16 _ _).bind ((Reader.reads_take hlen.symm).map (hlib.text s))

theorem reads_entry (hlib : lib.Lawful) {entry : UInt32 × SourceSite} (hentry : entry.2.Short) :
    Reader.Reads (readEntry lib) (putEntry entry) (entry.1, entry.2.resolved) := by
  refine (Reader.reads_u32 _ _).bind ((Reader.reads_u32 _ _).bind ?_)
  exact (reads_string hlib hentry.function).bind
    ((reads_string hlib hentry.step).bind_nil (Reader.Reads.pure _))

variable {entries : List (UInt32 × SourceSite)}

theorem reads_entries (hlib : lib.Lawful) (hentries : ∀ entry ∈ entries, entry.2.Short) :
    Reader.Reads (Reader.many (readEntry lib) entries.length) (entries.flatMap putEntry)
      (entries.map fun entry => (entry.1, entry.2.resolved)) := by
  induction entries with
  | nil => exact Reader.Reads.many_nil _
  | cons entry entries ih =>
    obtain ⟨hentry, hrest⟩ := forall_mem_cons.mp hentries
    exact (reads_entry hlib hentry).many_cons (ih hrest)

theorem length_retraceHeader (buildHash : Block32) {nonce : Bytes} (hnonce : nonce.length = nonceLen) :
    (retraceHeader buildHash nonce).length = headerLen := by
  simp [retraceHeader, retraceMagic, ascii, headerLen]
  omega

theorem length_deriveNonce (lib : RetraceLib) (seed : BuildSeed) (buildHash : Block32)
    (routine : String) (pt : Bytes) :
    (deriveNonce lib seed buildHash routine pt).length = nonceLen := by
  simp [deriveNonce, nonceLen]

theorem retraceHeader_parts (buildHash : Block32) (nonce : Bytes) :
    (retraceHeader buildHash nonce).take 4 = retraceMagic ∧
      (retraceHeader buildHash nonce)[4]? = some retraceVersion ∧
      ((retraceHeader buildHash nonce).drop 5).take 32 = buildHash.toList ∧
      (retraceHeader buildHash nonce).drop (5 + 32) = nonce := by
  have hlen : buildHash.toList.length = 32 := by simp
  refine ⟨rfl, rfl, ?_, ?_⟩
  · show (buildHash.toList ++ nonce).take 32 = _
    rw [take_left' hlen]
  · show (buildHash.toList ++ nonce).drop 32 = _
    rw [drop_left' hlen]

/-- **Opening a sealed table.** The entries past the count that was written are lost. -/
theorem open_encryptMap (hlib : lib.Lawful) (hentries : ∀ entry ∈ entries, entry.2.Short)
    (seed : BuildSeed) (buildHash : Block32) (routine : String) :
    Symbolicator.open lib (encryptMap lib entries seed buildHash routine) seed buildHash routine =
      .ok ⟨(entries.take (entries.length % 2 ^ 32)).map fun entry => (entry.1, entry.2.resolved)⟩ := by
  have hheader := length_retraceHeader buildHash
    (length_deriveNonce lib seed buildHash routine (entryTable entries))
  obtain ⟨hmagic, hversion, hhash, hnonce⟩ := retraceHeader_parts buildHash
    (deriveNonce lib seed buildHash routine (entryTable entries))
  unfold Symbolicator.open encryptMap
  simp only []
  rw [if_neg (by rw [length_append, hlib.length, tagLen]; omega),
    take_left' hheader, drop_left' hheader, if_neg (not_not.mpr hhash), hnonce,
    hlib.decrypts]
  simp only []
  rw [entryTable, Reader.reads_u32, ok_bind]
  -- What is read are the first entries, what is left over are the others.
  have hcount : (entries.take (entries.length % 2 ^ 32)).length =
      (UInt32.ofNat entries.length).toNat := by
    rw [length_take]
    exact Nat.min_eq_left (Nat.mod_le _ _)
  have hread := reads_entries hlib fun entry hentry =>
    hentries entry (mem_of_mem_take (i := entries.length % 2 ^ 32) hentry)
  have hsplit : entries.flatMap putEntry =
      (entries.take (entries.length % 2 ^ 32)).flatMap putEntry ++
        (entries.drop (entries.length % 2 ^ 32)).flatMap putEntry := by
    rw [← flatMap_append, take_append_drop]
  rw [← hcount, hsplit, hread]
  rfl

end Kseal.Vm
