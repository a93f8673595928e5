import Kseal.Infra.GoMap
import Kseal.Infra.Utf16
import Mathlib.Data.List.Sort

/-!
# Sealed string resources (`ResourceHardener.kt`, `KeepRules.kt`)

A token is derived from the name of its resource alone, and a name occurs in a file for each locale
(`sealing_preserves_iff`). A file is the tree it is parsed to, HMAC a parameter.
-/

namespace Kseal.Gradle

open Infra List GoMap

/-! ## Keep rules -/

def isWhitespace (c : Char) : Bool :=
  (0x09 ≤ c.toNat && c.toNat ≤ 0x0D) || (0x1C ≤ c.toNat && c.toNat ≤ 0x20) || c.toNat == 0xA0 ||
    c.toNat == 0x1680 || (0x2000 ≤ c.toNat && c.toNat ≤ 0x200A) || c.toNat == 0x2028 ||
    c.toNat == 0x2029 || c.toNat == 0x202F || c.toNat == 0x205F || c.toNat == 0x3000

def isBlank (s : String) : Bool := s.toList.all isWhitespace

def trim (s : String) : List Char :=
  ((s.toList.dropWhile isWhitespace).reverse.dropWhile isWhitespace).reverse

inductive Glob where
  /-- `.*`, which does not cross the end of a line -/
  | any
  /-- `[^./]*` -/
  | segment
  /-- `[^./]` -/
  | one
  /-- `[./]` -/
  | separator
  | literal (c : Char)
deriving DecidableEq

def toGlob : List Char → List Glob
  | [] => []
  | '*' :: '*' :: rest => .any :: toGlob rest
  | '*' :: rest => .segment :: toGlob rest
  | '?' :: rest => .one :: toGlob rest
  | '/' :: rest => .separator :: toGlob rest
  | c :: rest => .literal c :: toGlob rest

def isSeparator (c : Char) : Bool := c == '.' || c == '/'

def isLineTerminator (c : Char) : Bool :=
  c.toNat == 0x0A || c.toNat == 0x0D || c.toNat == 0x85 || c.toNat == 0x2028 || c.toNat == 0x2029

def matchStar (p : Char → Bool) (rest : List Char → Bool) : List Char → Bool
  | [] => rest []
  | c :: cs => rest (c :: cs) || (p c && matchStar p rest cs)

def matchOne (p : Char → Bool) (rest : List Char → Bool) : List Char → Bool
  | [] => false
  | c :: cs => p c && rest cs

def matchGlob : List Glob → List Char → Bool
  | [] => List.isEmpty
  | .any :: gs => matchStar (fun c => !isLineTerminator c) (matchGlob gs)
  | .segment :: gs => matchStar (fun c => !isSeparator c) (matchGlob gs)
  | .one :: gs => matchOne (fun c => !isSeparator c) (matchGlob gs)
  | .separator :: gs => matchOne isSeparator (matchGlob gs)
  | .literal c :: gs => matchOne (· == c) (matchGlob gs)

def nameMatches (pattern name : String) : Bool := matchGlob (toGlob (trim pattern)) name.toList

structure KeepRules where
  classPatterns : List String
  namePatterns : List String

def KeepRules.keepsName (keep : KeepRules) (name : String) : Bool :=
  keep.namePatterns.any (nameMatches · name) || keep.classPatterns.any (nameMatches · name)

def isIdentStart (c : Char) : Bool :=
  ('a' ≤ c && c ≤ 'z') || ('A' ≤ c && c ≤ 'Z') || c == '_' || c == '$'

def isIdent : List Char → Bool
  | [] => false
  | c :: cs => isIdentStart c && cs.all fun c => isIdentStart c || ('0' ≤ c && c ≤ '9')

def isFqcn (cs : List Char) : Bool :=
  2 ≤ (cs.splitOn '.').length && (cs.splitOn '.').all isIdent

def shouldKeep (name value : String) (keep : KeepRules) : Bool :=
  keep.keepsName name || isFqcn (trim value)

/-! ## Files -/

inductive Xml where
  | text (s : String)
  | element (tag name : String) (children : List Xml)

mutual

def Xml.textContent : Xml → String
  | .text s => s
  | .element _ _ children => textOf children

def textOf : List Xml → String
  | [] => ""
  | n :: ns => n.textContent ++ textOf ns

end

structure ResFile where
  relativePath : String
  doc : Xml

structure Hardened where
  transformedFiles : GoMap String Xml
  sealedValues : GoMap String String
  tokenToKey : GoMap String String
  keptCount : Nat

def deriveKey (hmac : Bytes → Bytes → Bytes) (seed : Bytes) (label : String) : Bytes :=
  (hmac (hmac (ascii "io.kseal.harden") seed) (utf8 label ++ [1])).take 32

def tokenFor (hmac : Bytes → Bytes → Bytes) (tokenKey : Bytes) (resourceKey : String) : String :=
  "kseal_" ++ String.ofList ((hexEncode (hmac tokenKey (utf8 resourceKey))).toList.take 16)

section harden

variable (keep : KeepRules) (token : String → String)

mutual

/--
The loop over the elements of a file. They come in document order from a live list: what is inside
an element whose text was replaced is no longer in it.
-/
def hardenNode : Xml → Hardened → Xml × Hardened
  | .text s, st => (.text s, st)
  | .element tag name children, st =>
    if tag = "string" ∧ isBlank name = false then
      if shouldKeep name (textOf children) keep then
        let (children, st) := hardenNodes children { st with keptCount := st.keptCount + 1 }
        (.element tag name children, st)
      else
        (.element tag name [.text (token name)],
          { st with
            sealedValues := st.sealedValues.insert (token name) (textOf children)
            tokenToKey := st.tokenToKey.insert (token name) name })
    else
      let (children, st) := hardenNodes children st
      (.element tag name children, st)

def hardenNodes : List Xml → Hardened → List Xml × Hardened
  | [], st => ([], st)
  | n :: ns, st =>
    let (n, st) := hardenNode n st
    let (ns, st) := hardenNodes ns st
    (n :: ns, st)

end

def hardenFile (st : Hardened) (file : ResFile) : Hardened :=
  let (doc, st) := hardenNode keep token file.doc st
  { st with transformedFiles := st.transformedFiles.insert file.relativePath doc }

end harden

def pathLE (a b : ResFile) : Prop := utf16 a.relativePath ≤ utf16 b.relativePath

instance : DecidableRel pathLE := fun a b =>
  inferInstanceAs (Decidable (utf16 a.relativePath ≤ utf16 b.relativePath))

def harden (hmac : Bytes → Bytes → Bytes) (files : List ResFile) (keep : KeepRules) (seed : Bytes) :
    Hardened :=
  let tokenKey := deriveKey hmac seed "string-resource-token"
  (files.insertionSort pathLE).foldl (hardenFile keep (tokenFor hmac tokenKey)) ⟨∅, ∅, ∅, 0⟩

/-! ## What the map holds -/

mutual

def Xml.replaced (keep : KeepRules) : Xml → List (String × String)
  | .text _ => []
  | .element tag name children =>
    if tag = "string" ∧ isBlank name = false ∧ shouldKeep name (textOf children) keep = false then
      [(name, textOf children)]
    else replacedIn keep children

def replacedIn (keep : KeepRules) : List Xml → List (String × String)
  | [] => []
  | n :: ns => n.replaced keep ++ replacedIn keep ns

end

variable {keep : KeepRules} {token : String → String}

mutual

theorem hardenNode_sealedValues (n : Xml) (st : Hardened) :
    (hardenNode keep token n st).2.sealedValues =
      st.sealedValues.writeAll ((n.replaced keep).map fun e => (token e.1, e.2)) := by
  match n with
  | .text s => simp [hardenNode, Xml.replaced, writeAll]
  | .element tag name children =>
    unfold hardenNode Xml.replaced
    by_cases hstring : tag = "string" ∧ isBlank name = false
    · rw [if_pos hstring]
      cases hkeep : shouldKeep name (textOf children) keep with
      | true =>
        rw [if_pos rfl, if_neg (by simp)]
        exact hardenNodes_sealedValues children _
      | false =>
        rw [if_neg (by simp), if_pos ⟨hstring.1, hstring.2, rfl⟩]
        rfl
    · rw [if_neg hstring, if_neg (fun h => hstring ⟨h.1, h.2.1⟩)]
      exact hardenNodes_sealedValues children st

theorem hardenNodes_sealedValues (ns : List Xml) (st : Hardened) :
    (hardenNodes keep token ns st).2.sealedValues =
      st.sealedValues.writeAll ((replacedIn keep ns).map fun e => (token e.1, e.2)) := by
  match ns with
  | [] => simp [hardenNodes, replacedIn, writeAll]
  | n :: ns =>
    unfold hardenNodes replacedIn
    rw [map_append, writeAll_append, ← hardenNode_sealedValues n st]
    exact hardenNodes_sealedValues ns _

end

def replacedAll (keep : KeepRules) (files : List ResFile) : List (String × String) :=
  files.flatMap fun file => file.doc.replaced keep

theorem replacedAll_cons (file : ResFile) (files : List ResFile) :
    replacedAll keep (file :: files) = file.doc.replaced keep ++ replacedAll keep files :=
  flatMap_cons

theorem foldl_hardenFile_sealedValues (files : List ResFile) (st : Hardened) :
    (files.foldl (hardenFile keep token) st).sealedValues =
      st.sealedValues.writeAll ((replacedAll keep files).map fun e => (token e.1, e.2)) := by
  induction files generalizing st with
  | nil => rfl
  | cons file files ih =>
    rw [foldl_cons, ih, replacedAll_cons, map_append, writeAll_append]
    congr 1
    exact hardenNode_sealedValues file.doc st

def buildToken (hmac : Bytes → Bytes → Bytes) (seed : Bytes) (name : String) : String :=
  tokenFor hmac (deriveKey hmac seed "string-resource-token") name

/-- **The map is filled in the order of the files.** -/
theorem harden_sealedValues (hmac : Bytes → Bytes → Bytes) (files : List ResFile) (keep : KeepRules)
    (seed : Bytes) :
    (harden hmac files keep seed).sealedValues =
      writeAll ∅ ((replacedAll keep (files.insertionSort pathLE)).map fun e =>
        (buildToken hmac seed e.1, e.2)) :=
  foldl_hardenFile_sealedValues _ _

theorem mem_written {files : List ResFile} {p : String × String} :
    (p ∈ (replacedAll keep (files.insertionSort pathLE)).map fun e => (token e.1, e.2)) ↔
      ∃ file ∈ files, ∃ e ∈ file.doc.replaced keep, (token e.1, e.2) = p := by
  simp only [replacedAll, mem_map, mem_flatMap, mem_insertionSort]
  constructor
  · rintro ⟨e, ⟨file, hfile, he⟩, hp⟩
    exact ⟨file, hfile, e, he, hp⟩
  · rintro ⟨file, hfile, e, he, hp⟩
    exact ⟨e, ⟨file, hfile, he⟩, hp⟩

/--
**When sealing preserves every text.** Tokens of different names are assumed to differ. Then every
token stands for the text it replaced if and only if no name is replaced with two texts.
-/
theorem sealing_preserves_iff (hmac : Bytes → Bytes → Bytes) (files : List ResFile)
    (keep : KeepRules) (seed : Bytes)
    (htoken : ∀ file ∈ files, ∀ e ∈ file.doc.replaced keep, ∀ file' ∈ files,
      ∀ e' ∈ file'.doc.replaced keep, buildToken hmac seed e.1 = buildToken hmac seed e'.1 →
        e.1 = e'.1) :
    (∀ file ∈ files, ∀ e ∈ file.doc.replaced keep,
        (harden hmac files keep seed).sealedValues.lookup (buildToken hmac seed e.1) = some e.2) ↔
      ∀ file ∈ files, ∀ e ∈ file.doc.replaced keep, ∀ file' ∈ files,
        ∀ e' ∈ file'.doc.replaced keep, e.1 = e'.1 → e.2 = e'.2 := by
  have hwritten : ∀ file ∈ files, ∀ e ∈ file.doc.replaced keep, (buildToken hmac seed e.1, e.2) ∈
      (replacedAll keep (files.insertionSort pathLE)).map fun e => (buildToken hmac seed e.1, e.2) :=
    fun file hfile e he => mem_written.mpr ⟨file, hfile, e, he, rfl⟩
  rw [harden_sealedValues]
  constructor
  · intro h file hfile e he file' hfile' e' he' hname
    refine (lookup_writeAll_iff (m := ∅)).mp (fun p hp => ?_) _ (hwritten file hfile e he)
      (buildToken hmac seed e'.1, e'.2) (hwritten file' hfile' e' he')
      (congrArg (buildToken hmac seed) hname)
    obtain ⟨file, hfile, e, he, rfl⟩ := mem_written.mp hp
    exact h file hfile e he
  · intro h file hfile e he
    refine lookup_writeAll_iff.mpr ?_ _ (hwritten file hfile e he)
    intro p hp p' hp' hkey
    obtain ⟨file, hfile, e, he, rfl⟩ := mem_written.mp hp
    obtain ⟨file', hfile', e', he', rfl⟩ := mem_written.mp hp'
    exact h file hfile e he file' hfile' e' he' (htoken file hfile e he file' hfile' e' he' hkey)

/-! ## Two locales -/

namespace SampleResources

def seed : Bytes := List.replicate 32 1

def hmac (key msg : Bytes) : Bytes :=
  if key = ascii "io.kseal.harden" ∧ msg = seed then
    [2, 201, 232, 7, 113, 100, 154, 36, 234, 248, 171, 83, 223, 74, 187, 240, 142, 115, 235, 242, 32,
      152, 180, 78, 16, 208, 62, 0, 22, 137, 156, 199]
  else if msg = ascii "string-resource-token" ++ [1] then
    [48, 174, 195, 58, 138, 65, 7, 162, 252, 21, 160, 122, 118, 17, 188, 193, 96, 185, 137, 48, 211,
      24, 67, 149, 187, 121, 234, 150, 197, 54, 86, 170]
  else if msg = ascii "title" then
    [253, 121, 8, 86, 101, 157, 2, 148, 168, 188, 131, 29, 199, 29, 104, 239, 158, 32, 204, 69, 26,
      249, 5, 81, 177, 68, 143, 34, 55, 154, 133, 151]
  else
    [196, 0, 139, 64, 229, 242, 91, 116, 25, 126, 248, 33, 127, 34, 116, 24, 53, 249, 81, 183, 63,
      217, 158, 196, 249, 12, 151, 26, 101, 99, 237, 104]

def strings (path title : String) : ResFile where
  relativePath := path
  doc := .element "resources" ""
    [.element "string" "title" [.text title], .element "string" "ok" [.text "OK"]]

def files (title title' : String) : List ResFile :=
  [strings "values/strings.xml" title, strings "values-fr/strings.xml" title']

end SampleResources

theorem sealing_preserves_iff_sample :
    (("title", "Menu") ∈ (SampleResources.strings "values-fr/strings.xml" "Menu").doc.replaced
        ⟨[], []⟩) ∧
      (harden SampleResources.hmac (SampleResources.files "Menu" "Menu") ⟨[], []⟩
          SampleResources.seed).sealedValues.lookup
        (buildToken SampleResources.hmac SampleResources.seed "title") = some "Menu" := by
  have hmem : ("title", "Menu") ∈
      (SampleResources.strings "values-fr/strings.xml" "Menu").doc.replaced ⟨[], []⟩ := by
    decide +kernel
  refine ⟨hmem, ?_⟩
  exact (sealing_preserves_iff SampleResources.hmac (SampleResources.files "Menu" "Menu") ⟨[], []⟩
    SampleResources.seed (by decide +kernel)).mpr (by decide +kernel) _
    (mem_cons_of_mem _ mem_cons_self) ("title", "Menu") hmem

theorem french_title_lost :
    (("title", "Bonjour") ∈ (SampleResources.strings "values-fr/strings.xml" "Bonjour").doc.replaced
        ⟨[], []⟩) ∧
      (harden SampleResources.hmac (SampleResources.files "Hello" "Bonjour") ⟨[], []⟩
          SampleResources.seed).sealedValues.lookup
        (buildToken SampleResources.hmac SampleResources.seed "title") = some "Hello" := by
  decide +kernel

end Kseal.Gradle
