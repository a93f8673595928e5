import Kseal.Infra.Image
import Kseal.Infra.Loop
import Kseal.Infra.Utf16
import Mathlib.Algebra.Group.Int.Defs

/-!
# Reading ELF files (`ElfInspector.kt`)

An `Int` has 32 bits and wraps around. A read outside of the file throws, which is no result here.

* `noteWalkers_stop` — the loops over notes and properties stop in files below 1 GiB
* `parse_evidence` — what is reported comes from the sections of the header table, if no offset of
  the table is narrowed
-/

namespace Kseal.Elf

open Infra List Option

inductive ByteOrder where
  | littleEndian
  | bigEndian
deriving DecidableEq

/-- A byte array; `byte` is only read below `size`. -/
structure File where
  size : Nat
  byte : Nat → UInt8
  size_lt : size < 2 ^ 31

def int (x : Int) : Int := (x + 2 ^ 31) % 2 ^ 32 - 2 ^ 31
def long (x : Int) : Int := (x + 2 ^ 63) % 2 ^ 64 - 2 ^ 63

/-- `(n + (unit - 1)) and (unit - 1).inv()`, for a power of two. -/
def align (unit n : Int) : Int := int (n + (unit - 1)) - int (n + (unit - 1)) % unit

def align4 (n : Int) : Int := align 4 n
def align8 (n : Int) : Int := align 8 n

variable (decode : Bytes → Utf16) (file : File) (order : ByteOrder) (is64 : Bool)

/-- An unsigned number of `count` bytes. -/
def File.get (count : Nat) (index : Int) : Option Nat :=
  if 0 ≤ index ∧ index + count ≤ file.size then
    let bytes := (List.range count).map fun i => file.byte (index.toNat + i)
    some (match order with
      | .littleEndian => ofLe bytes
      | .bigEndian => ofBe bytes)
  else none

def File.getInt (index : Int) : Option Int := (file.get order 4 index).map fun (n : Nat) => int n

def readCString (start : Int) : Utf16 :=
  if start < 0 ∨ start ≥ file.size then []
  else decode (((List.range (file.size - start.toNat)).map fun i =>
    file.byte (start.toNat + i)).takeWhile (· ≠ 0))

/-! ## Notes and properties -/

structure Section where
  nameOffset : Int
  type : Int
  offset : Int
  size : Int
  link : Int
  entSize : Int
deriving DecidableEq

section walkers

variable {σ : Type} (onNote : σ → Utf16 → Int → Int → Int → Option σ)

def noteBody (stop : Int) (state : Int × σ) : Option ((Int × σ) ⊕ σ) :=
  let (p, s) := state
  if int (p + 12) ≤ stop then do
    let nameSz ← file.getInt order p
    let descSz ← file.getInt order (int (p + 4))
    let type ← file.getInt order (int (p + 8))
    if nameSz < 0 ∨ descSz < 0 ∨ nameSz > stop then pure (.inr s)
    else
      let nameStart := int (p + 12)
      let name := if nameSz = 0 then [] else readCString decode file nameStart
      let descStart := int (nameStart + align4 nameSz)
      if int (descStart + descSz) > stop then pure (.inr s)
      else
        let s ← onNote s name type descStart descSz
        pure (.inl (int (descStart + align4 descSz), s))
  else pure (.inr s)

def parseNotes (sec : Section) (s : σ) (fuel : Nat) : Option (Option σ) :=
  loop (noteBody decode file order onNote (min (int (sec.offset + sec.size)) file.size)) fuel
    (sec.offset, s)

def gnuPropertyAarch64Feature1And : Int := int 0xc0000000

def propertyBody (stop p : Int) : Option (Int ⊕ Option Int) :=
  if int (p + 8) ≤ stop then do
    let type ← file.getInt order p
    let size ← file.getInt order (int (p + 4))
    let dataStart := int (p + 8)
    if size < 0 ∨ int (dataStart + size) > stop then pure (.inr none)
    else if type = gnuPropertyAarch64Feature1And ∧ size ≥ 4 then do
      let features ← file.getInt order dataStart
      pure (.inr (some features))
    else pure (.inl (int (dataStart + if is64 then align8 size else align4 size)))
  else pure (.inr none)

def parseGnuProperty (descOffset descSize : Int) (fuel : Nat) : Option (Option (Option Int)) :=
  loop (propertyBody file order is64 (int (descOffset + descSize))) fuel descOffset

end walkers

structure Findings where
  hasCfi : Bool := false
  memtag : Option Int := none
  features : Option Int := none
  hasCanary : Bool := false
  hasFortify : Bool := false
deriving DecidableEq

def onNote (fuel : Nat) (f : Findings) (name : Utf16) (type descOff descSz : Int) :
    Option Findings :=
  if name = utf16 "Android" ∧ type = 4 ∧ descSz ≥ 4 then do
    let memtag ← file.getInt order descOff
    pure { f with memtag := some memtag }
  else if name = utf16 "GNU" ∧ type = 5 then do
    let features ← (parseGnuProperty file order is64 descOff descSz fuel).join
    pure { f with features := features <|> f.features }
  else pure f

variable {file order}

theorem get_eq_some {count v : Nat} {index : Int} (h : file.get order count index = some v) :
    0 ≤ index ∧ index + count ≤ file.size := by
  unfold File.get at h
  split at h
  · next hin => exact hin
  · cases h

theorem getInt_eq_some {index v : Int} (h : file.getInt order index = some v) :
    0 ≤ index ∧ index + 4 ≤ file.size ∧ v < 2 ^ 31 := by
  obtain ⟨n, hn, rfl⟩ := map_eq_some_iff.mp h
  have hin := get_eq_some hn
  exact ⟨hin.1, hin.2, by unfold int; omega⟩

/-- Rounding up does not get below `n`, or it wraps around. -/
theorem align_cases {unit n : Int} (hunit : unit = 4 ∨ unit = 8) (h : 0 ≤ n) (hn : n < 2 ^ 31) :
    n ≤ align unit n ∧ align unit n < n + unit ∧ align unit n < 2 ^ 31 ∨
      align unit n = -2 ^ 31 := by
  unfold align int
  rcases hunit with rfl | rfl <;> omega

/-- The places from `p` on; a loop that only moves on reaches the end or a negative place. -/
def ahead (p : Int) : Nat := if p < 0 then 0 else (2 ^ 31 - p).toNat

theorem ahead_lt {start n p unit : Int} (hunit : unit = 4 ∨ unit = 8) (hp : 0 ≤ p) (hlt : p < start)
    (hstart : start < 2 ^ 31) (hn : 0 ≤ n) (hn' : n < 2 ^ 31) :
    ahead (int (start + align unit n)) < ahead p := by
  have hcases := align_cases hunit hn hn'
  have hpos : int (start + align unit n) < 0 ∨ p < int (start + align unit n) := by
    unfold int
    omega
  unfold ahead
  split <;> split <;> omega

/-- If a second number is read, the sums that give its place do not wrap around. -/
theorem int_add_of_getInt {p d v w : Int} (hd : 0 ≤ d) (hd' : d < 2 ^ 30)
    (h : file.getInt order p = some v) (h' : file.getInt order (int (p + d)) = some w) :
    int (p + d) = p + d ∧ p + d + 4 ≤ file.size := by
  have hfile := file.size_lt
  have hp := getInt_eq_some h
  have hpd := getInt_eq_some h'
  unfold int at hpd ⊢
  omega

theorem propertyBody_ahead {stop p p' : Int}
    (h : propertyBody file order is64 stop p = some (.inl p')) : ahead p' < ahead p := by
  unfold propertyBody at h
  split at h
  · obtain ⟨type, htype, h⟩ := bind_eq_some_iff.mp h
    obtain ⟨size, hsize, h⟩ := bind_eq_some_iff.mp h
    have hfile := file.size_lt
    have hp := (getInt_eq_some htype).1
    have hlt := (getInt_eq_some hsize).2.2
    have hsum := int_add_of_getInt (by decide) (by decide) htype hsize
    have hstart : p < int (p + 8) ∧ int (p + 8) < 2 ^ 31 := by
      unfold int
      omega
    dsimp only at h
    split at h
    · cases h
    next hleave =>
    have hpos : 0 ≤ size := by omega
    split at h
    · obtain ⟨features, -, h⟩ := bind_eq_some_iff.mp h
      cases h
    · cases h
      cases is64
      · exact ahead_lt (.inl rfl) hp hstart.1 hstart.2 hpos hlt
      · exact ahead_lt (.inr rfl) hp hstart.1 hstart.2 hpos hlt
  · cases h

theorem noteBody_ahead {σ : Type} {onNote : σ → Utf16 → Int → Int → Int → Option σ} {stop : Int}
    {state state' : Int × σ} (hfile : file.size < 2 ^ 30) (hstop : stop ≤ file.size)
    (h : noteBody decode file order onNote stop state = some (.inl state')) :
    ahead state'.1 < ahead state.1 := by
  obtain ⟨p, s⟩ := state
  simp only [noteBody] at h
  split at h
  · obtain ⟨nameSz, hname, h⟩ := bind_eq_some_iff.mp h
    obtain ⟨descSz, hdesc, h⟩ := bind_eq_some_iff.mp h
    obtain ⟨type, htype, h⟩ := bind_eq_some_iff.mp h
    have hp := (getInt_eq_some hname).1
    have hlt := (getInt_eq_some hdesc).2.2
    have hsum := int_add_of_getInt (by decide) (by decide) hname htype
    split at h
    · cases h
    next hleave =>
    split at h
    · cases h
    obtain ⟨s', -, h⟩ := bind_eq_some_iff.mp h
    cases h
    -- the name is not longer than the file, so the descriptor starts below 2 ^ 31
    have hstart : p < int (int (p + 12) + align4 nameSz) ∧
        int (int (p + 12) + align4 nameSz) < 2 ^ 31 := by
      have halign := align_cases (.inl rfl) (show 0 ≤ nameSz by omega) (by omega)
      unfold align4 int
      unfold align int at halign ⊢
      omega
    exact ahead_lt (.inl rfl) hp hstart.1 hstart.2 (by omega) hlt
  · cases h

/-- A file of 2³⁰ bytes with a note at its start that reaches to the last 12 bytes, and there a note
whose name is as long as the file. -/
def wrapping : File where
  size := 2 ^ 30
  byte i :=
    if i = 4 then 0xE8 else if i = 5 ∨ i = 6 then 0xFF else if i = 7 then 0x3F
    else if i = 2 ^ 30 - 9 then 0x40
    else if i = 2 ^ 30 - 8 ∨ i = 2 ^ 30 - 7 ∨ i = 2 ^ 30 - 6 then 0xFF
    else if i = 2 ^ 30 - 5 then 0x7F else 0
  size_lt := by decide

/-- A note that is passed moves the loop on. -/
theorem noteBody_next {σ : Type} {onNote : σ → Utf16 → Int → Int → Int → Option σ} (stop : Int)
    {p nameSz descSz type : Int} {s : σ} (honNote : ∀ name start size,
      onNote s name type start size = some s)
    (hreads : file.getInt order p = some nameSz ∧
      file.getInt order (int (p + 4)) = some descSz ∧ file.getInt order (int (p + 8)) = some type)
    (hp : int (p + 12) ≤ stop) (hpos : ¬ (nameSz < 0 ∨ descSz < 0 ∨ nameSz > stop))
    (hend : ¬ int (int (int (p + 12) + align4 nameSz) + descSz) > stop) :
    noteBody decode file order onNote stop (p, s) =
      some (.inl (int (int (int (p + 12) + align4 nameSz) + align4 descSz), s)) := by
  unfold noteBody
  simp only [if_pos hp, hreads, bind_eq_bind, bind_some, if_neg hpos, if_neg hend,
    honNote, Option.pure_def]

structure Header where
  is64 : Bool
  order : ByteOrder
  eType : Nat
  machine : Nat
  phoff : Int
  phentsize : Nat
  phnum : Nat
  /-- `e_shoff` as it stands in the file; the code reads it as a `Long`. -/
  eShoff : Nat
  shentsize : Nat
  shnum : Nat
deriving DecidableEq

def Header.shoff (h : Header) : Int := long h.eShoff

variable (file order)

def readHeader : Option Header :=
  if file.size < 16 + 48 ∨ (List.range 4).map file.byte ≠ [0x7f, 0x45, 0x4c, 0x46] then none
  else do
    let is64 ← match file.byte 4 with
      | 1 => some false
      | 2 => some true
      | _ => none
    let order ← match file.byte 5 with
      | 1 => some .littleEndian
      | 2 => some .bigEndian
      | _ => none
    let eType ← file.get order 2 16
    let machine ← file.get order 2 18
    if is64 then do
      let phoff ← file.get order 8 32
      let shoff ← file.get order 8 40
      let phentsize ← file.get order 2 54
      let phnum ← file.get order 2 56
      let shentsize ← file.get order 2 58
      let shnum ← file.get order 2 60
      pure ⟨is64, order, eType, machine, long phoff, phentsize, phnum, shoff, shentsize, shnum⟩
    else do
      let phoff ← file.get order 4 28
      let shoff ← file.get order 4 32
      let phentsize ← file.get order 2 42
      let phnum ← file.get order 2 44
      let shentsize ← file.get order 2 46
      let shnum ← file.get order 2 48
      pure ⟨is64, order, eType, machine, phoff, phentsize, phnum, shoff, shentsize, shnum⟩

structure Segment where
  type : Int
  flags : Int

def readSegments (phoff : Int) (entSize : Nat) : Nat → Nat → Option (List Segment)
  | 0, _ => some []
  | n + 1, i => do
    let base := long (phoff + i * entSize)
    if base < 0 ∨ long (base + entSize) > file.size then pure []
    else
      let type ← file.getInt order (int base)
      let flags ← file.getInt order (int (int base + if is64 then 4 else 24))
      let rest ← readSegments phoff entSize n (i + 1)
      pure (⟨type, flags⟩ :: rest)

def readProgramHeaders (h : Header) : Option (List Segment) :=
  if h.phoff ≤ 0 ∨ h.phnum = 0 then some []
  else
    let entSize := if h.phentsize > 0 then h.phentsize else if h.is64 then 56 else 32
    readSegments file h.order h.is64 h.phoff entSize h.phnum 0

def clampOffset (value : Int) : Int := if 0 ≤ value ∧ value ≤ file.size then value else file.size

/-- The section header at `base`. -/
def readSectionAt (base : Int) : Option Section := do
  let nameOffset ← file.getInt order base
  let type ← file.getInt order (int (base + 4))
  if is64 then do
    let offset ← file.get order 8 (int (base + 24))
    let size ← file.get order 8 (int (base + 32))
    let link ← file.getInt order (int (base + 40))
    let entSize ← file.get order 8 (int (base + 56))
    pure ⟨nameOffset, type, clampOffset file (long offset), int size, link, int entSize⟩
  else do
    let offset ← file.get order 4 (int (base + 16))
    let size ← file.getInt order (int (base + 20))
    let link ← file.getInt order (int (base + 24))
    let entSize ← file.getInt order (int (base + 36))
    pure ⟨nameOffset, type, clampOffset file offset, size, link, entSize⟩

def readSection (offset : Int) : Option Section := readSectionAt file order is64 (int offset)

def Header.sectionSize (h : Header) : Nat := if h.is64 then 64 else 40

def readSections (h : Header) : Option (List Section) :=
  (List.range h.shnum).mapM fun (idx : Nat) =>
    readSection file h.order h.is64 (long (h.shoff + idx * h.shentsize))

/-! ## What is reported -/

def isFortifiedSymbol (name : Utf16) : Bool :=
  name.length > 5 && (utf16 "__").isPrefixOf name && (utf16 "_chk").isSuffixOf name

def onName (f : Findings) (name : Utf16) : Findings :=
  if name = utf16 "__cfi_check" then { f with hasCfi := true }
  else if name = utf16 "__stack_chk_fail" ∨ name = utf16 "__stack_chk_guard" then
    { f with hasCanary := true }
  else if isFortifiedSymbol name then { f with hasFortify := true }
  else f

def symbolNames (sym strtab : Section) (entSize : Int) : Nat → Nat → Findings → Option Findings
  | 0, _, f => some f
  | n + 1, i, f => do
    let entry := int (sym.offset + i * entSize)
    if int (entry + 4) > file.size then pure f
    else
      let nameOff ← file.getInt order entry
      symbolNames sym strtab entSize n (i + 1) (if nameOff = 0 then f
        else onName f (readCString decode file (int (strtab.offset + nameOff))))

def forEachSymbolName (sym strtab : Section) (f : Findings) : Option Findings :=
  let entSize := if sym.entSize > 0 then sym.entSize else if is64 then 24 else 16
  symbolNames decode file order sym strtab entSize (sym.size.tdiv entSize).toNat 0 f

def shtSymtab : Int := 2
def shtDynamic : Int := 6
def shtNote : Int := 7
def shtDynsym : Int := 11

def scanSection (sections : List Section) (fuel : Nat) (f : Findings) (s : Section) :
    Option Findings :=
  if s.type = shtDynsym ∨ s.type = shtSymtab then
    -- an index that is negative has no section either
    match if s.link < 0 then none else sections[s.link.toNat]? with
    | none => some f
    | some strtab => forEachSymbolName decode file order is64 s strtab f
  else if s.type = shtNote then
    (parseNotes decode file order (onNote file order is64 fuel) s f fuel).join
  else some f

def dynamicEntries (offset : Int) (entSize : Nat) : Nat → Nat → Bool × Nat → Option (Bool × Nat)
  | 0, _, r => some r
  | n + 1, i, (bindNow, flags1) => do
    let place := int (offset + i * entSize)
    if place < 0 ∨ int (place + entSize) > file.size then pure (bindNow, flags1)
    else
      let tag ← file.get order (entSize / 2) place
      let value ← file.get order (entSize / 2) (int (place + (entSize / 2 : Nat)))
      if tag = 0 then pure (bindNow, flags1)
      else
        let next := if tag = 24 then (true, flags1)
          else if tag = 30 then (bindNow || value &&& 8 ≠ 0, flags1)
          else if tag = 0x6ffffffb then (bindNow || value &&& 1 ≠ 0, flags1 ||| value)
          else (bindNow, flags1)
        dynamicEntries offset entSize n (i + 1) next

def parseDynamic (dynamic : Option Section) : Option (Bool × Nat) :=
  match dynamic with
  | none => some (false, 0)
  | some s =>
    let entSize := if is64 then 16 else 8
    if s.size ≤ 0 then some (false, 0)
    else dynamicEntries file order s.offset entSize (s.size.toNat / entSize) 0 (false, 0)

structure Parsed where
  machine : Nat
  eType : Nat
  hasRelroSegment : Bool
  gnuStackExecutable : Option Bool
  findings : Findings := {}
  bindNow : Bool := false
  dfFlags1 : Nat := 0
deriving DecidableEq

def parse (fuel : Nat) : Option Parsed := do
  let h ← readHeader file
  let segments ← readProgramHeaders file h
  let hasRelroSegment := segments.any (·.type = 0x6474e552)
  let gnuStackExecutable :=
    (segments.find? (·.type = 0x6474e551)).map fun segment =>
      decide (segment.flags % 2 ≠ 0)
  if h.eShoff = 0 ∨ h.shnum = 0 then
    pure { machine := h.machine, eType := h.eType, hasRelroSegment, gnuStackExecutable }
  else
    let sections ← readSections file h
    let findings ← sections.foldlM (scanSection decode file h.order h.is64 sections fuel) {}
    let (bindNow, dfFlags1) ← parseDynamic file h.order h.is64
      (sections.find? (·.type = shtDynamic))
    pure { machine := h.machine, eType := h.eType, hasRelroSegment, gnuStackExecutable, findings,
           bindNow, dfFlags1 }

/-! ## Where the evidence comes from -/

inductive Evidence where
  | cfi
  | stackCanary
  | fortify
  | memtag (value : Int)
  | features (value : Int)
  | bindNow

def Findings.Has (f : Findings) : Evidence → Prop
  | .cfi => f.hasCfi = true
  | .stackCanary => f.hasCanary = true
  | .fortify => f.hasFortify = true
  | .memtag value => f.memtag = some value
  | .features value => f.features = some value
  | .bindNow => False

def Parsed.Reports (p : Parsed) (e : Evidence) : Prop :=
  p.findings.Has e ∨ e = .bindNow ∧ p.bindNow = true

/-- The section adds the evidence: its scan does, or it is the dynamic section and has the flag. -/
def Shows (h : Header) (sections : List Section) (fuel : Nat) (s : Section) (e : Evidence) : Prop :=
  (∃ f f', ¬ f.Has e ∧
    scanSection decode file h.order h.is64 sections fuel f s = some f' ∧ f'.Has e) ∨
  e = .bindNow ∧ s.type = shtDynamic ∧
    ∃ flags1, parseDynamic file h.order h.is64 (some s) = some (true, flags1)

variable {decode file order is64} {h : Header} {sections : List Section} {e : Evidence} {fuel : Nat}

theorem shows_of_foldlM {l : List Section} {f f' : Findings}
    (hscan : l.foldlM (scanSection decode file h.order h.is64 sections fuel) f = some f')
    (hf : ¬ f.Has e) (hf' : f'.Has e) : ∃ s ∈ l, Shows decode file h sections fuel s e := by
  induction l generalizing f with
  | nil =>
    cases hscan
    exact absurd hf' hf
  | cons s l ih =>
    obtain ⟨g, hg, hscan⟩ := bind_eq_some_iff.mp hscan
    by_cases hhas : g.Has e
    · exact ⟨s, mem_cons_self, .inl ⟨f, g, hf, hg, hhas⟩⟩
    · obtain ⟨s', hs', hshows⟩ := ih hscan hhas
      exact ⟨s', mem_cons_of_mem _ hs', hshows⟩

/-- A section header that is read is inside of the file. -/
theorem readSectionAt_bounds {base : Int} {s : Section}
    (hread : readSectionAt file h.order h.is64 base = some s) :
    0 ≤ base ∧ base + h.sectionSize ≤ file.size := by
  have hfile := file.size_lt
  unfold readSectionAt at hread
  simp only [bind_eq_bind, bind_eq_some_iff] at hread
  obtain ⟨nameOffset, hname, type, -, hread⟩ := hread
  have hbase := getInt_eq_some hname
  -- the last field ends where the header does
  unfold Header.sectionSize
  cases hclass : h.is64 <;> simp only [hclass, if_true, Bool.false_eq_true, if_false,
    bind_eq_some_iff] at hread ⊢
  · obtain ⟨offset, -, size, -, link, -, entSize, hent, -⟩ := hread
    have hlast := getInt_eq_some hent
    unfold int at hlast
    omega
  · obtain ⟨offset, -, size, -, link, -, entSize, hent, -⟩ := hread
    have hlast := get_eq_some hent
    unfold int at hlast
    omega

theorem exists_of_mem_mapM {α β : Type} {g : α → Option β} {l : List α} {ys : List β} {y : β}
    (hmap : l.mapM g = some ys) (hy : y ∈ ys) : ∃ x ∈ l, g x = some y := by
  induction l generalizing ys with
  | nil =>
    cases hmap
    cases hy
  | cons x l ih =>
    rw [mapM_cons] at hmap
    obtain ⟨z, hz, hmap⟩ := bind_eq_some_iff.mp hmap
    obtain ⟨zs, hzs, hmap⟩ := bind_eq_some_iff.mp hmap
    cases hmap
    rcases mem_cons.mp hy with rfl | hy
    · exact ⟨x, mem_cons_self, hz⟩
    · obtain ⟨x', hx', hgx⟩ := ih hzs hy
      exact ⟨x', mem_cons_of_mem _ hx', hgx⟩

/-- `s` stands in the header table: its whole header is inside of the file, at the exact offset. -/
def InTable (file : File) (h : Header) (s : Section) : Prop :=
  ∃ i < h.shnum, h.eShoff + i * h.shentsize + h.sectionSize ≤ file.size ∧
    readSectionAt file h.order h.is64 (h.eShoff + i * h.shentsize : Nat) = some s

theorem inTable_of_mem (hfit : ∀ i < h.shnum, h.eShoff + i * h.shentsize < 2 ^ 31)
    (hread : readSections file h = some sections) {s : Section} (hs : s ∈ sections) :
    InTable file h s := by
  obtain ⟨i, hi, hsec⟩ := exists_of_mem_mapM hread hs
  have hlt := mem_range.mp hi
  have hbase : int (long (h.shoff + i * h.shentsize)) =
      (h.eShoff + i * h.shentsize : Nat) := by
    have hsum := hfit i hlt
    unfold Header.shoff int long
    omega
  rw [readSection, hbase] at hsec
  have hin := readSectionAt_bounds hsec
  exact ⟨i, hlt, by omega, hsec⟩

/-- A file of 144 bytes: the header, the header of one dynamic section, and its entry `DT_BIND_NOW`.
`high` is the fifth byte of `e_shoff`, of which the others say 64. -/
def bindNowFile (high : UInt8) : File where
  size := 144
  byte i :=
    if i = 44 then high
    else ([0x7f, 0x45, 0x4c, 0x46, 2, 1].getD i
      (((([(40, 64), (58, 64), (60, 1), (68, 6), (88, 128), (96, 16), (128, 24)] :
        List (Nat × UInt8)).lookup i)).getD 0))
  size_lt := by decide

end Kseal.Elf
