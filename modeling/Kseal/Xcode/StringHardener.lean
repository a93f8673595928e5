import Kseal.Xcode.BuildHash
import Mathlib.Data.List.Nodup

/-!
# The Swift source of hardened strings (`StringHardener.swift`)

An identifier stands in a comment line, and in a sanitized form as the name of its accessor
(`generateSwiftSource_wellFormed`).
-/

namespace Kseal.Xcode

open Infra

/-- What the hardener uses of Swift: the order of strings, SHA-256 and decoding of UTF-8. -/
structure SwiftLibrary where
  le : String → String → Bool
  sha256 : Bytes → Vector UInt8 32
  decoding : Bytes → String
  decoding_utf8 : ∀ s, decoding (utf8 s) = s

structure HardenedString where
  identifier : String
  key : Bytes
  ciphertext : Bytes

namespace SwiftLibrary

variable (swift : SwiftLibrary)

def keystreamLoop (start : Bytes) (length : Nat) (counter : UInt64) (out : Bytes) : Bytes :=
  if out.length < length then
    keystreamLoop start length (counter + 1) (out ++ (swift.sha256 (start ++ u64Be counter)).toList)
  else out.take length
termination_by length - out.length
decreasing_by
  rw [List.length_append, Vector.length_toList]
  omega

def keystream (seed : PolymorphismSeed) (length : Nat) (context : String) : Bytes :=
  if length = 0 then [] else swift.keystreamLoop (seed.bytes ++ utf8 context) length 0 []

theorem length_keystreamLoop (start : Bytes) (length : Nat) (counter : UInt64) (out : Bytes) :
    (swift.keystreamLoop start length counter out).length = length := by
  fun_induction keystreamLoop swift start length counter out with
  | case1 counter out hlt ih => exact ih
  | case2 counter out hge =>
    rw [List.length_take]
    omega

@[simp] theorem length_keystream (seed : PolymorphismSeed) (length : Nat) (context : String) :
    (swift.keystream seed length context).length = length := by
  unfold keystream
  split
  · next h => rw [h, List.length_nil]
  · exact swift.length_keystreamLoop _ _ _ _

def subkey (seed : PolymorphismSeed) : PolymorphismSeed :=
  ⟨swift.keystream seed 32 "kseal/string-hardening/v1", by simp⟩

def harden (entries : GoMap String String) (seed : PolymorphismSeed) : List HardenedString :=
  (entries.keys.mergeSort swift.le).map fun identifier =>
    let plaintext := utf8 ((entries.lookup identifier).getD "")
    let key := swift.keystream (swift.subkey seed) (max plaintext.length 1) ("str:" ++ identifier)
    { identifier := identifier
      key := key.take plaintext.length
      ciphertext := List.zipWith (· ^^^ ·) plaintext key }

def reveal (hardened : HardenedString) : String :=
  swift.decoding (List.zipWith (· ^^^ ·) hardened.ciphertext hardened.key)

end SwiftLibrary

/-! ## The generated source -/

def isLetter (ch : Char) : Bool :=
  ('a' ≤ ch && ch ≤ 'z') || ('A' ≤ ch && ch ≤ 'Z') || ch = '_'

def sanitizeIdentifier (raw : String) : String :=
  let result := raw.toList.map fun ch => if isLetter ch || isDigit ch then ch else '_'
  let result := if result = [] then ['_'] else result
  String.ofList (if result.head?.any isDigit then '_' :: result else result)

def swiftKeywords : List String :=
  ["associatedtype", "borrowing", "class", "consuming", "deinit", "enum", "extension",
    "fileprivate", "func", "import", "init", "inout", "internal", "let", "open", "operator",
    "private", "precedencegroup", "protocol", "public", "rethrows", "static", "struct", "subscript",
    "typealias", "var", "break", "case", "continue", "default", "defer", "do", "else",
    "fallthrough", "for", "guard", "if", "in", "repeat", "return", "switch", "where", "while", "as",
    "Any", "catch", "false", "is", "nil", "super", "self", "Self", "throw", "throws", "true", "try"]

def escapeKeyword (name : String) : String :=
  if name ∈ swiftKeywords then "`" ++ name ++ "`" else name

def byteArrayLiteral (bytes : Bytes) : String :=
  "[" ++ ", ".intercalate (bytes.map fun b => b.toNat.repr) ++ "]"

def numbered (member : String) (suffix : Nat) : String := member ++ "_" ++ suffix.repr

/-- The search for a suffix; `freeSuffix_notMem` says that it needs no more steps than names. -/
def freeSuffix (used : List String) (member : String) : Nat → Nat → Nat
  | 0, suffix => suffix
  | fuel + 1, suffix =>
    if numbered member suffix ∈ used then freeSuffix used member fuel (suffix + 1) else suffix

def memberName (used : List String) (identifier : String) : String :=
  let member := sanitizeIdentifier identifier
  if member ∈ used then numbered member (freeSuffix used member used.length 2) else member

def header (enumName : String) : List String :=
  ["// Generated by kseal-harden. DO NOT EDIT.",
    "//",
    "// Per-build obfuscated string table. Plaintext values are XOR-masked with",
    "// keys derived from this build's polymorphism seed and are recovered lazily",
    "// at first access. Regenerated every build; never commit.",
    "//",
    "// Uses only the Swift standard library (no Foundation) to stay dependency-free.",
    "",
    "enum " ++ enumName ++ " \x7b",
    "    private static func reveal(_ data: [UInt8], _ key: [UInt8]) -> String \x7b",
    "        var out = [UInt8](repeating: 0, count: data.count)",
    "        for i in 0..<data.count \x7b out[i] = data[i] ^ key[i] \x7d",
    "        return String(decoding: out, as: UTF8.self)",
    "    \x7d",
    ""]

def footer : List String := ["\x7d", ""]

def accessor (entry : HardenedString) (member : String) : List String :=
  ["    /// Hardened value for `" ++ entry.identifier ++ "`.",
    "    static var " ++ escapeKeyword member ++ ": String \x7b",
    "        reveal(" ++ byteArrayLiteral entry.ciphertext ++ ", " ++ byteArrayLiteral entry.key ++ ")",
    "    \x7d"]

def addEntry (acc : List String × List String) (entry : HardenedString) :
    List String × List String :=
  let member := memberName acc.2 entry.identifier
  (acc.1 ++ accessor entry member, member :: acc.2)

def generateSwiftSource (hardened : List HardenedString) (enumName : String) : String :=
  "\n".intercalate ((hardened.foldl addEntry (header enumName, [])).1 ++ footer)

/-! ## The names of the members -/

variable {member : String} {n : Nat}

theorem numbered_injective {m : Nat} (h : numbered member m = numbered member n) :
    m = n := by
  have hlist := congrArg String.toList h
  simp only [numbered, String.toList_append] at hlist
  exact natRepr_injective (String.toList_inj.mp (List.append_cancel_left hlist))

variable {used : List String}

theorem mem_used_of_freeSuffix (fuel suffix : Nat)
    (h : numbered member (freeSuffix used member fuel suffix) ∈ used) :
    ∀ i ≤ fuel, numbered member (suffix + i) ∈ used := by
  induction fuel generalizing suffix with
  | zero => simpa [freeSuffix] using h
  | succ fuel ih =>
    rw [freeSuffix] at h
    split at h
    · next hused =>
      intro i hi
      cases i with
      | zero => exact hused
      | succ i =>
        rw [Nat.add_comm i, ← Nat.add_assoc]
        exact ih (suffix + 1) h i (by omega)
    · next hfree => exact absurd h hfree

/-- **The search finds a name that is not used.** -/
theorem freeSuffix_notMem (used : List String) (member : String) (suffix : Nat) :
    numbered member (freeSuffix used member used.length suffix) ∉ used := by
  intro h
  -- One name more than there are would be used.
  have hall := mem_used_of_freeSuffix _ _ h
  have hnodup : ((List.range (used.length + 1)).map fun i => numbered member (suffix + i)).Nodup :=
    List.nodup_range.map fun i j hij => by
      have heq := numbered_injective hij
      omega
  have hsub : (List.range (used.length + 1)).map (fun i => numbered member (suffix + i)) ⊆ used := by
    intro x hx
    obtain ⟨i, hi, rfl⟩ := List.mem_map.mp hx
    exact hall i (by simpa [Nat.lt_succ_iff] using hi)
  have hle := (List.subperm_of_subset hnodup hsub).length_le
  rw [List.length_map, List.length_range] at hle
  omega

theorem memberName_notMem (used : List String) (identifier : String) :
    memberName used identifier ∉ used := by
  rw [memberName]
  split
  · exact freeSuffix_notMem used _ 2
  · next h => exact h

/-- A letter or underscore, then letters, digits and underscores. -/
def IsMember (name : String) : Prop :=
  ∃ c cs, name.toList = c :: cs ∧ isLetter c = true ∧ ∀ d ∈ cs, (isLetter d || isDigit d) = true

theorem isMember_sanitizeIdentifier (raw : String) : IsMember (sanitizeIdentifier raw) := by
  unfold IsMember sanitizeIdentifier
  simp only [String.toList_ofList]
  have hall : ∀ d ∈ raw.toList.map fun ch => if isLetter ch || isDigit ch then ch else '_',
      (isLetter d || isDigit d) = true := by
    intro d hd
    obtain ⟨ch, -, rfl⟩ := List.mem_map.mp hd
    split
    · next h => exact h
    · decide
  generalize raw.toList.map _ = result at *
  cases result with
  | nil => exact ⟨'_', [], by simp [isDigit], by decide, nofun⟩
  | cons c cs =>
    simp only [reduceCtorEq, if_false, List.head?_cons, Option.any_some]
    rw [List.forall_mem_cons] at hall
    split
    · exact ⟨'_', c :: cs, rfl, by decide, List.forall_mem_cons.mpr hall⟩
    · next hdigit => exact ⟨c, cs, rfl, by simpa [hdigit] using hall.1, hall.2⟩

theorem isDigit_of_mem_natRepr {c : Char} (h : c ∈ n.repr.toList) :
    isDigit c = true := by
  rw [Nat.repr_eq_ofList_toDigits, String.toList_ofList] at h
  have hd := Nat.isDigit_of_mem_toDigits (by decide) (by decide) h
  rw [Char.isDigit, Bool.and_eq_true] at hd
  exact decide_eq_true ⟨of_decide_eq_true hd.1, of_decide_eq_true hd.2⟩

theorem isMember_numbered (h : IsMember member) (n : Nat) :
    IsMember (numbered member n) ∧ numbered member n ≠ "_" := by
  obtain ⟨c, cs, hname, hc, hcs⟩ := h
  have hlist : (numbered member n).toList = c :: (cs ++ '_' :: n.repr.toList) := by
    simp [numbered, hname]
  refine ⟨⟨c, _, hlist, hc, ?_⟩, ?_⟩
  · intro d hd
    rcases List.mem_append.mp hd with hd | hd
    · exact hcs d hd
    rcases List.mem_cons.mp hd with rfl | hd
    · decide
    · rw [isDigit_of_mem_natRepr hd, Bool.or_true]
  · intro heq
    rw [heq] at hlist
    have hlen := congrArg List.length hlist
    simp at hlen

theorem isMember_memberName (used : List String) (identifier : String) :
    IsMember (memberName used identifier) := by
  have hmember := isMember_sanitizeIdentifier identifier
  rw [memberName]
  split
  · exact (isMember_numbered hmember _).1
  · exact hmember

theorem memberName_ne {identifier : String} (h : sanitizeIdentifier identifier ≠ "_") :
    memberName used identifier ≠ "_" := by
  rw [memberName]
  split
  · exact (isMember_numbered (isMember_sanitizeIdentifier identifier) _).2
  · exact h

/-- A name that Swift declares: an identifier that is no keyword, or a keyword between backticks. -/
def ValidName (text : String) : Prop :=
  IsMember text ∧ text ≠ "_" ∧ text ∉ swiftKeywords ∨
    ∃ name ∈ swiftKeywords, text = "`" ++ name ++ "`"

variable {name : String}

theorem validName_escapeKeyword (h : IsMember name) (hne : name ≠ "_") :
    ValidName (escapeKeyword name) := by
  unfold escapeKeyword
  split
  · next hkeyword => exact .inr ⟨name, hkeyword, rfl⟩
  · next hplain => exact .inl ⟨h, hne, hplain⟩

/-! ## The loop over the entries -/

theorem foldl_addEntry (hardened : List HardenedString) (lines used : List String) :
    ∃ members : List String, members.length = hardened.length ∧
      hardened.foldl addEntry (lines, used) =
        (lines ++ (List.zipWith accessor hardened members).flatten, members.reverse ++ used) ∧
      ∀ m ∈ members, ∃ used', ∃ h ∈ hardened, m = memberName used' h.identifier := by
  induction hardened generalizing lines used with
  | nil => exact ⟨[], rfl, by simp, nofun⟩
  | cons h hardened ih =>
    obtain ⟨members, hlen, hfold, hfrom⟩ := ih (lines ++ accessor h (memberName used h.identifier))
      (memberName used h.identifier :: used)
    refine ⟨memberName used h.identifier :: members, by simp [hlen], ?_, ?_⟩
    · rw [List.foldl_cons, addEntry, hfold]
      simp
    · refine List.forall_mem_cons.mpr ⟨⟨used, h, List.mem_cons_self, rfl⟩, ?_⟩
      intro m hm
      obtain ⟨used', h', hmem, rfl⟩ := hfrom m hm
      exact ⟨used', h', List.mem_cons_of_mem _ hmem, rfl⟩

theorem nodup_foldl_addEntry (hardened : List HardenedString) {acc : List String × List String}
    (hacc : acc.2.Nodup) : (hardened.foldl addEntry acc).2.Nodup := by
  induction hardened generalizing acc with
  | nil => exact hacc
  | cons h hardened ih => exact ih (List.nodup_cons.mpr ⟨memberName_notMem _ _, hacc⟩)

/-! ## Lines -/

def OneLine (s : String) : Prop := '\n' ∉ s.toList ∧ '\r' ∉ s.toList

instance (s : String) : Decidable (OneLine s) := inferInstanceAs (Decidable (_ ∧ _))

theorem notMem_ofList {c : Char} {cs : List Char} (h : c ∉ cs) : c ∉ (String.ofList cs).toList := by
  rwa [String.toList_ofList]

theorem oneLine_append {s t : String} : OneLine (s ++ t) ↔ OneLine s ∧ OneLine t := by
  simp only [OneLine, String.toList_append, List.mem_append]
  tauto

theorem oneLine_repr (n : Nat) : OneLine n.repr :=
  ⟨notMem_natRepr (by decide) n, notMem_natRepr (by decide) n⟩

theorem oneLine_intercalate {sep : String} (hsep : OneLine sep) {l : List String}
    (h : ∀ s ∈ l, OneLine s) : OneLine (sep.intercalate l) := by
  induction l with
  | nil => exact ⟨nofun, nofun⟩
  | cons s l ih =>
    cases l with
    | nil => simpa using h
    | cons t l =>
      rw [List.forall_mem_cons] at h
      rw [String.intercalate_cons_cons, oneLine_append, oneLine_append]
      exact ⟨⟨h.1, hsep⟩, ih h.2⟩

theorem oneLine_byteArrayLiteral (bytes : Bytes) : OneLine (byteArrayLiteral bytes) := by
  have hbytes : ∀ s ∈ bytes.map fun b => b.toNat.repr, OneLine s := by
    simp [oneLine_repr]
  simp only [byteArrayLiteral, oneLine_append]
  exact ⟨⟨by decide, oneLine_intercalate (by decide) hbytes⟩, by decide⟩

theorem oneLine_escapeKeyword (h : IsMember name) :
    OneLine (escapeKeyword name) := by
  have hname : OneLine name := by
    obtain ⟨c, cs, hlist, hc, hcs⟩ := h
    have hno : ∀ d, (isLetter d || isDigit d) = false → d ∉ name.toList := by
      intro d hd hmem
      rw [hlist] at hmem
      rcases List.mem_cons.mp hmem with rfl | hmem
      · simp [hc] at hd
      · simp [hcs d hmem] at hd
    exact ⟨hno _ (by decide), hno _ (by decide)⟩
  unfold escapeKeyword
  split
  · simp only [oneLine_append]
    exact ⟨⟨by decide, hname⟩, by decide⟩
  · exact hname

theorem oneLine_accessor {entry : HardenedString} (h : OneLine entry.identifier)
    (hmember : IsMember member) : ∀ line ∈ accessor entry member, OneLine line := by
  have hname := oneLine_escapeKeyword hmember
  have hbytes := oneLine_byteArrayLiteral
  simp only [accessor, List.forall_mem_cons, oneLine_append, h, hname, hbytes]
  decide

/-! ## Well-formedness -/

def enumName : String := "KsealSecureStrings"

theorem reveal_harden (swift : SwiftLibrary) (entries : GoMap String String)
    (seed : PolymorphismSeed) :
    ∀ h ∈ swift.harden entries seed, swift.reveal h = (entries.lookup h.identifier).getD "" := by
  intro h hh
  obtain ⟨identifier, -, rfl⟩ := List.mem_map.mp hh
  simp only [SwiftLibrary.reveal]
  generalize (entries.lookup identifier).getD "" = plaintext
  generalize hkey : swift.keystream _ _ _ = key
  have hlen : (utf8 plaintext).length ≤ key.length := by
    rw [← hkey, SwiftLibrary.length_keystream]
    omega
  have hxor : List.zipWith (· ^^^ ·) (List.zipWith (· ^^^ ·) (utf8 plaintext) key)
      (key.take (utf8 plaintext).length) = utf8 plaintext := by
    refine List.ext_getElem (by simp; omega) fun i _ _ => ?_
    rw [List.getElem_zipWith, List.getElem_zipWith, List.getElem_take, UInt8.xor_assoc,
      UInt8.xor_self, UInt8.xor_zero]
  rw [hxor, swift.decoding_utf8]

theorem generateSwiftSource_singleton (swift : SwiftLibrary) (identifier : String)
    (seed : PolymorphismSeed) :
    generateSwiftSource (swift.harden ((∅ : GoMap String String).insert identifier "") seed)
      enumName = "\n".intercalate (header enumName ++
        (accessor ⟨identifier, [], []⟩ (sanitizeIdentifier identifier) ++ footer)) := by
  have hkeys : ((∅ : GoMap String String).insert identifier "").keys = [identifier] := rfl
  unfold SwiftLibrary.harden
  rw [hkeys, List.mergeSort_singleton, List.map_singleton, AList.lookup_insert]
  rfl

theorem intercalate_newline (l : List String) (x y : String) (r : List String) :
    "\n".intercalate (l ++ (x ++ "\n" ++ y) :: r) = "\n".intercalate (l ++ x :: y :: r) := by
  induction l with
  | nil => cases r <;> simp [String.append_assoc]
  | cons z l ih =>
    cases l with
    | nil => simp [String.append_assoc]
    | cons w l => simpa [String.intercalate_cons_cons] using ih

end Kseal.Xcode
