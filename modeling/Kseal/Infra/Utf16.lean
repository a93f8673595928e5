import Kseal.Infra.Bytes

/-!
# UTF-16

Strings of the JVM are sequences of 16-bit units, which need not be text: a surrogate may stand
without its other half.

* `wellFormed_iff` — units are those of a text if and only if no surrogate stands alone
-/

namespace Kseal.Infra

open List

abbrev Utf16 := List UInt16

instance : LawfulBEq Utf16 := inferInstance

def isHigh (u : UInt16) : Bool := 0xD800 ≤ u.toNat && u.toNat < 0xDC00
def isLow (u : UInt16) : Bool := 0xDC00 ≤ u.toNat && u.toNat < 0xE000

def units (c : Char) : Utf16 :=
  if c.toNat < 0x10000 then [UInt16.ofNat c.toNat]
  else [UInt16.ofNat (0xD800 + (c.toNat - 0x10000) / 0x400),
    UInt16.ofNat (0xDC00 + (c.toNat - 0x10000) % 0x400)]

def utf16 (s : String) : Utf16 := s.toList.flatMap units

def ofPair (u v : UInt16) : Char :=
  Char.ofNat (0x10000 + (u.toNat - 0xD800) * 0x400 + (v.toNat - 0xDC00))

def scan : Utf16 → List (Option Char)
  | [] => []
  | [u] => [if isHigh u || isLow u then none else some (Char.ofNat u.toNat)]
  | u :: v :: rest =>
    if isHigh u && isLow v then some (ofPair u v) :: scan rest
    else if isHigh u || isLow u then none :: scan (v :: rest)
    else some (Char.ofNat u.toNat) :: scan (v :: rest)

def text (s : Utf16) : String := String.ofList ((scan s).map fun c => c.getD '?')

def WellFormed (s : Utf16) : Prop := ∀ c ∈ scan s, c.isSome

instance (s : Utf16) : Decidable (WellFormed s) :=
  inferInstanceAs (Decidable (∀ c ∈ scan s, c.isSome))

/-! ## Units of characters -/

theorem toNat_char_lt (c : Char) : c.toNat < 0xD800 ∨ 0xE000 ≤ c.toNat ∧ c.toNat < 0x110000 := by
  rcases c.valid with h | ⟨h, h'⟩
  · exact .inl h
  · exact .inr ⟨h, h'⟩

theorem toNat_ofNat_of_lt {n : Nat} (h : n < 0x10000) : (UInt16.ofNat n).toNat = n := by
  exact Nat.mod_eq_of_lt h

def isSurrogate (u : UInt16) : Bool := isHigh u || isLow u

inductive Scanned : Utf16 → Prop
  | nil : Scanned []
  | single {u : UInt16} {rest : Utf16} (hu : isSurrogate u = false)
      (hscan : scan (u :: rest) = some (Char.ofNat u.toNat) :: scan rest) : Scanned (u :: rest)
  | pair {u v : UInt16} {rest : Utf16} (hu : isHigh u) (hv : isLow v)
      (hscan : scan (u :: v :: rest) = some (ofPair u v) :: scan rest) : Scanned (u :: v :: rest)
  | alone {u : UInt16} {rest : Utf16} (hu : isSurrogate u)
      (hscan : scan (u :: rest) = none :: scan rest) : Scanned (u :: rest)

theorem scanned (s : Utf16) : Scanned s := by
  match s with
  | [] => exact .nil
  | [u] =>
    cases hu : isSurrogate u with
    | false => exact .single hu (by unfold isSurrogate at hu; simp [scan, hu])
    | true => exact .alone hu (by unfold isSurrogate at hu; simp [scan, hu])
  | u :: v :: rest =>
    by_cases hpair : (isHigh u && isLow v) = true
    · obtain ⟨hu, hv⟩ := Bool.and_eq_true_iff.mp hpair
      exact .pair hu hv (by rw [scan, if_pos hpair])
    · cases hu : isSurrogate u with
      | false =>
        unfold isSurrogate at hu
        exact .single hu (by rw [scan, if_neg hpair, hu]; rfl)
      | true =>
        unfold isSurrogate at hu
        exact .alone hu (by rw [scan, if_neg hpair, if_pos hu])

theorem scan_single {u : UInt16} (hu : isSurrogate u = false) (rest : Utf16) :
    scan (u :: rest) = some (Char.ofNat u.toNat) :: scan rest := by
  cases scanned (u :: rest) with
  | single _ hscan => exact hscan
  | pair hhigh _ _ => simp [isSurrogate, hhigh] at hu
  | alone hsur _ => rw [hu] at hsur; cases hsur

theorem scan_pair {u v : UInt16} (hu : isHigh u) (hv : isLow v) (rest : Utf16) :
    scan (u :: v :: rest) = some (ofPair u v) :: scan rest := by
  rw [scan, if_pos (by rw [hu, hv]; rfl)]

theorem scan_units_append (c : Char) (rest : Utf16) :
    scan (units c ++ rest) = some c :: scan rest := by
  have hvalid := toNat_char_lt c
  unfold units
  split
  · next hlt =>
    have hunit := toNat_ofNat_of_lt hlt
    have hsur : isSurrogate (UInt16.ofNat c.toNat) = false := by
      simp only [isSurrogate, isHigh, isLow, Bool.or_eq_false_iff, Bool.and_eq_false_iff,
        decide_eq_false_iff_not]
      omega
    show scan (UInt16.ofNat c.toNat :: rest) = _
    rw [scan_single hsur, hunit, Char.ofNat_toNat]
  · next hge =>
    have hhigh := toNat_ofNat_of_lt (n := 0xD800 + (c.toNat - 0x10000) / 0x400) (by omega)
    have hlow := toNat_ofNat_of_lt (n := 0xDC00 + (c.toNat - 0x10000) % 0x400) (by omega)
    have hpair : ofPair (UInt16.ofNat (0xD800 + (c.toNat - 0x10000) / 0x400))
        (UInt16.ofNat (0xDC00 + (c.toNat - 0x10000) % 0x400)) = c := by
      rw [ofPair, hhigh, hlow]
      have hsum : 0x10000 + (0xD800 + (c.toNat - 0x10000) / 0x400 - 0xD800) * 0x400 +
          (0xDC00 + (c.toNat - 0x10000) % 0x400 - 0xDC00) = c.toNat := by omega
      rw [hsum, Char.ofNat_toNat]
    show scan (UInt16.ofNat _ :: UInt16.ofNat _ :: rest) = _
    rw [scan_pair (by simp only [isHigh]; simp; omega)
      (by simp only [isLow]; simp; omega), hpair]

theorem scan_flatMap_units (cs : List Char) : scan (cs.flatMap units) = cs.map some := by
  induction cs with
  | nil => rfl
  | cons c cs ih => rw [flatMap_cons, scan_units_append, ih, map_cons]

theorem scan_utf16 (s : String) : scan (utf16 s) = s.toList.map some := scan_flatMap_units s.toList

/-! ## Surrogates that stand alone -/

theorem utf16_text (s : Utf16) : utf16 (text s) = (scan s).flatMap fun c => units (c.getD '?') := by
  rw [utf16, text, String.toList_ofList, flatMap_map]

theorem toNat_char_ofNat {n : Nat} (h : n.isValidChar) : (Char.ofNat n).toNat = n := by
  rw [Char.ofNat, dif_pos h]
  rfl

theorem units_single {u : UInt16} (hu : isSurrogate u = false) : units (Char.ofNat u.toNat) = [u] := by
  have hlt := u.toNat_lt
  simp only [isSurrogate, isHigh, isLow, Bool.or_eq_false_iff, Bool.and_eq_false_iff,
    decide_eq_false_iff_not] at hu
  have hvalid : u.toNat.isValidChar := by
    omega
  rw [units, toNat_char_ofNat hvalid, if_pos hlt, UInt16.ofNat_toNat]

theorem units_pair {u v : UInt16} (hu : isHigh u) (hv : isLow v) : units (ofPair u v) = [u, v] := by
  simp only [isHigh, isLow, Bool.and_eq_true, decide_eq_true_eq] at hu hv
  have hvalid : (0x10000 + (u.toNat - 0xD800) * 0x400 + (v.toNat - 0xDC00)).isValidChar := by
    omega
  have hhigh : 0xD800 + (0x10000 + (u.toNat - 0xD800) * 0x400 + (v.toNat - 0xDC00) - 0x10000) / 0x400 =
      u.toNat := by omega
  have hlow : 0xDC00 + (0x10000 + (u.toNat - 0xD800) * 0x400 + (v.toNat - 0xDC00) - 0x10000) % 0x400 =
      v.toNat := by omega
  rw [units, ofPair, toNat_char_ofNat hvalid, if_neg (by omega), hhigh, hlow, UInt16.ofNat_toNat,
    UInt16.ofNat_toNat]

theorem utf16_text_of_wellFormed (s : Utf16) (h : WellFormed s) : utf16 (text s) = s := by
  rw [utf16_text]
  cases scanned s with
  | nil => rfl
  | @single u rest hu hscan =>
    rw [WellFormed, hscan, forall_mem_cons] at h
    have ih := utf16_text_of_wellFormed rest h.2
    rw [utf16_text] at ih
    rw [hscan, flatMap_cons, ih, Option.getD_some, units_single hu]
    rfl
  | @pair u v rest hu hv hscan =>
    rw [WellFormed, hscan, forall_mem_cons] at h
    have ih := utf16_text_of_wellFormed rest h.2
    rw [utf16_text] at ih
    rw [hscan, flatMap_cons, ih, Option.getD_some, units_pair hu hv]
    rfl
  | @alone u rest hu hscan =>
    rw [WellFormed, hscan, forall_mem_cons] at h
    cases h.1
termination_by s.length

theorem wellFormed_utf16 (s : String) : WellFormed (utf16 s) := by
  intro c hc
  rw [scan_utf16, mem_map] at hc
  obtain ⟨c', -, rfl⟩ := hc
  rfl

/-- **Units are those of a text if and only if no surrogate stands alone.** -/
theorem wellFormed_iff {s : Utf16} : WellFormed s ↔ utf16 (text s) = s :=
  ⟨utf16_text_of_wellFormed s, fun h => h ▸ wellFormed_utf16 (text s)⟩

theorem WellFormed.append {s t : Utf16} (hs : WellFormed s) (ht : WellFormed t) :
    WellFormed (s ++ t) := by
  have h := wellFormed_utf16 (text s ++ text t)
  rwa [utf16, String.toList_append, flatMap_append, ← utf16, ← utf16,
    wellFormed_iff.mp hs, wellFormed_iff.mp ht] at h

theorem wellFormed_of_forall {s : Utf16} (h : ∀ u ∈ s, isSurrogate u = false) : WellFormed s := by
  induction s with
  | nil => nofun
  | cons u s ih =>
    rw [WellFormed, scan_single (h u mem_cons_self), forall_mem_cons]
    exact ⟨rfl, ih fun v hv => h v (mem_cons_of_mem _ hv)⟩

theorem eq_of_utf8_text {s t : Utf16} (hs : WellFormed s) (ht : WellFormed t)
    (h : utf8 (text s) = utf8 (text t)) : s = t := by
  rw [← wellFormed_iff.mp hs, ← wellFormed_iff.mp ht, utf8_injective h]

/-! ## Pieces of a text -/

theorem exists_separator {α : Type} (p : α → Bool) (l : List α) :
    (∀ a ∈ l, p a = false) ∨
      ∃ xs sep as, l = xs ++ sep :: as ∧ (∀ a ∈ xs, p a = false) ∧ p sep = true := by
  induction l with
  | nil => simp
  | cons a l ih =>
    cases ha : p a with
    | true => exact .inr ⟨[], a, l, rfl, by simp, ha⟩
    | false =>
      rcases ih with hfree | ⟨xs, sep, as, rfl, hxs, hsep⟩
      · exact .inl (forall_mem_cons.mpr ⟨ha, hfree⟩)
      · exact .inr ⟨a :: xs, sep, as, rfl, forall_mem_cons.mpr ⟨ha, hxs⟩, hsep⟩

/-- **A piece of a list stands between separators or at an end of the list.** -/
theorem mem_splitOnP {α : Type} {p : α → Bool} {piece : List α} (l : List α) :
    piece ∈ l.splitOnP p ↔ (∀ a ∈ piece, p a = false) ∧ ∃ left right,
      l = left ++ (piece ++ right) ∧ (∀ s ∈ left.getLast?, p s = true) ∧
        ∀ s ∈ right.head?, p s = true := by
  constructor
  · intro h
    rcases exists_separator p l with hfree | ⟨xs, sep, as, rfl, hxs, hsep⟩
    · rw [splitOnP_eq_singleton hfree, mem_singleton] at h
      exact ⟨h ▸ hfree, [], [], by simp [h], by simp, by simp⟩
    · rw [splitOnP_append_cons_of_forall_mem hxs sep hsep, mem_cons] at h
      rcases h with rfl | h
      · exact ⟨hxs, [], sep :: as, rfl, by simp, by simp [hsep]⟩
      · obtain ⟨hpiece, left, right, rfl, hleft, hright⟩ := (mem_splitOnP as).mp h
        refine ⟨hpiece, xs ++ sep :: left, right, by simp, ?_, hright⟩
        cases left with
        | nil => simp [hsep]
        | cons a left => simpa [getLast?_cons] using hleft
  · rintro ⟨hpiece, left, right, rfl, hleft, hright⟩
    have hrest : piece ∈ (piece ++ right).splitOnP p := by
      cases right with
      | nil => simp [splitOnP_eq_singleton hpiece]
      | cons s right =>
        rw [splitOnP_append_cons_of_forall_mem hpiece s (hright s rfl)]
        exact mem_cons_self
    rcases eq_nil_or_concat left with rfl | ⟨left, s, rfl⟩
    · exact hrest
    · rw [concat_append, splitOnP_append_cons left _ (hleft s (by simp))]
      exact mem_append_right _ hrest
termination_by l.length

end Kseal.Infra
