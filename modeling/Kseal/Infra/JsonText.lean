import Kseal.Infra.Json
import Kseal.Infra.Utf16

/-!
# JSON texts

The text `json.Marshal` writes, and the reader that `json.Unmarshal` runs first, which refuses a
text that is nested too deeply (`parseJson_render`).
-/

namespace Kseal.Infra

open List

/-! ## Strings -/

def hexValue (c : Char) : Option Nat :=
  if '0' ≤ c ∧ c ≤ '9' then some (c.toNat - 48)
  else if 'a' ≤ c ∧ c ≤ 'f' then some (c.toNat - 87)
  else if 'A' ≤ c ∧ c ≤ 'F' then some (c.toNat - 55)
  else none

def hex4 (a b c d : Char) : Option Nat :=
  match hexValue a, hexValue b, hexValue c, hexValue d with
  | some a, some b, some c, some d => some (a * 4096 + b * 256 + c * 16 + d)
  | _, _, _, _ => none

def unescape (c : Char) : Option Char :=
  if c = '"' ∨ c = '\\' ∨ c = '/' then some c
  else if c = 'b' then some '\x08'
  else if c = 'f' then some '\x0c'
  else if c = 'n' then some '\n'
  else if c = 'r' then some '\r'
  else if c = 't' then some '\t'
  else none

def parseUnits : List Char → Option (Utf16 × List Char)
  | [] => none
  | c :: cs =>
    if c = '"' then some ([], cs)
    else if c = '\\' then
      match cs with
      | [] => none
      | e :: cs =>
        if e = 'u' then
          match cs with
          | a :: b :: c :: d :: cs =>
            match hex4 a b c d with
            | none => none
            | some n => (parseUnits cs).map (Prod.map (UInt16.ofNat n :: ·) id)
          | _ => none
        else
          match unescape e with
          | none => none
          | some ch => (parseUnits cs).map (Prod.map (units ch ++ ·) id)
    else if c.toNat < 0x20 then none
    else (parseUnits cs).map (Prod.map (units c ++ ·) id)

def parseString (cs : List Char) : Option (String × List Char) :=
  (parseUnits cs).map fun r =>
    (String.ofList ((scan r.1).map fun c => c.getD (Char.ofNat 0xfffd)), r.2)

def escapeHex (n : Nat) : List Char :=
  ['\\', 'u', hexDigit (n / 4096), hexDigit (n / 256 % 16), hexDigit (n / 16 % 16), hexDigit (n % 16)]

def escapeChar (c : Char) : List Char :=
  if c = '"' ∨ c = '\\' then ['\\', c]
  else if c = '\x08' then ['\\', 'b']
  else if c = '\x0c' then ['\\', 'f']
  else if c = '\n' then ['\\', 'n']
  else if c = '\r' then ['\\', 'r']
  else if c = '\t' then ['\\', 't']
  else if c.toNat < 0x20 ∨ c = '<' ∨ c = '>' ∨ c = '&' ∨ c.toNat = 0x2028 ∨ c.toNat = 0x2029 then
    escapeHex c.toNat
  else [c]

def renderString (s : String) : List Char := '"' :: (s.toList.flatMap escapeChar ++ ['"'])

variable {n : Nat}

theorem hexValue_hexDigit (h : n < 16) : hexValue (hexDigit n) = some n := by
  have hall : ∀ i : Fin 16, hexValue (hexDigit i) = some i.val := by decide
  exact hall ⟨n, h⟩

theorem hex4_digits (h : n < 65536) :
    hex4 (hexDigit (n / 4096)) (hexDigit (n / 256 % 16)) (hexDigit (n / 16 % 16))
      (hexDigit (n % 16)) = some n := by
  unfold hex4
  rw [hexValue_hexDigit (by omega), hexValue_hexDigit (by omega), hexValue_hexDigit (by omega),
    hexValue_hexDigit (by omega)]
  exact congrArg some (by omega)

theorem parseUnits_letter {e c : Char} (hu : e ≠ 'u') (h : unescape e = some c) (rest : List Char) :
    parseUnits ('\\' :: e :: rest) = (parseUnits rest).map (Prod.map (units c ++ ·) id) := by
  rw [parseUnits.eq_def]
  simp [hu, h]

theorem parseUnits_escapeHex (h : n < 65536) (rest : List Char) :
    parseUnits (escapeHex n ++ rest) =
      (parseUnits rest).map (Prod.map (UInt16.ofNat n :: ·) id) := by
  rw [parseUnits.eq_def]
  simp [escapeHex, hex4_digits h]

theorem parseUnits_plain {c : Char} (hquote : c ≠ '"') (hslash : c ≠ '\\') (h : ¬ c.toNat < 0x20)
    (rest : List Char) :
    parseUnits (c :: rest) = (parseUnits rest).map (Prod.map (units c ++ ·) id) := by
  rw [parseUnits.eq_def]
  simp [hquote, hslash, h]

theorem parseUnits_escapeChar (c : Char) (rest : List Char) :
    parseUnits (escapeChar c ++ rest) = (parseUnits rest).map (Prod.map (units c ++ ·) id) := by
  fun_cases escapeChar c
  case case1 h => rcases h with rfl | rfl <;> exact parseUnits_letter (by decide) rfl rest
  case case7 h =>
    -- The characters that are escaped by number have one unit.
    have hlt : c.toNat < 65536 := by
      rcases h with h | rfl | rfl | rfl | h | h
      · omega
      · decide
      · decide
      · decide
      · omega
      · omega
    have hunits : units c = [UInt16.ofNat c.toNat] := if_pos hlt
    rw [hunits]
    exact parseUnits_escapeHex hlt rest
  case case8 hquote _ _ _ _ _ hplain =>
    rw [not_or] at hquote hplain
    exact parseUnits_plain hquote.1 hquote.2 hplain.1 rest
  all_goals
    subst c
    exact parseUnits_letter (by decide) rfl rest

theorem parseUnits_escape (cs rest : List Char) :
    parseUnits (cs.flatMap escapeChar ++ '"' :: rest) = some (cs.flatMap units, rest) := by
  induction cs with
  | nil =>
    rw [parseUnits.eq_def]
    rfl
  | cons c cs ih =>
    rw [flatMap_cons, append_assoc, parseUnits_escapeChar, ih]
    rfl

/-- **A quoted string is read back.** -/
theorem parseString_render (s : String) (rest : List Char) :
    parseString (s.toList.flatMap escapeChar ++ '"' :: rest) = some (s, rest) := by
  unfold parseString
  rw [parseUnits_escape, Option.map_some, scan_flatMap_units]
  simp [Function.comp_def]

/-! ## Numbers -/

def scanDigits (cs : List Char) : Option (List Char × List Char) :=
  match cs.takeWhile isDigit with
  | [] => none
  | ds => some (ds, cs.dropWhile isDigit)

def scanInteger : List Char → Option (List Char × List Char)
  | [] => none
  | c :: cs => if c = '0' then some (['0'], cs) else scanDigits (c :: cs)

def scanFraction : List Char → Option (List Char × List Char)
  | [] => some ([], [])
  | c :: cs =>
    if c = '.' then (scanDigits cs).map (Prod.map ('.' :: ·) id) else some ([], c :: cs)

def scanExponent : List Char → Option (List Char × List Char)
  | [] => some ([], [])
  | c :: cs =>
    if c = 'e' ∨ c = 'E' then
      match cs with
      | [] => none
      | s :: ds =>
        if s = '+' ∨ s = '-' then (scanDigits ds).map (Prod.map ([c, s] ++ ·) id)
        else (scanDigits cs).map (Prod.map (c :: ·) id)
    else some ([], c :: cs)

def scanUnsigned (cs : List Char) : Option (List Char × List Char) := do
  let (int, cs) ← scanInteger cs
  let (frac, cs) ← scanFraction cs
  let (exp, cs) ← scanExponent cs
  return (int ++ frac ++ exp, cs)

def scanNumber : List Char → Option (String × List Char)
  | [] => none
  | c :: cs =>
    if c = '-' then (scanUnsigned cs).map fun r => (String.ofList ('-' :: r.1), r.2)
    else (scanUnsigned (c :: cs)).map fun r => (String.ofList r.1, r.2)

def Delimited (rest : List Char) : Prop :=
  ∀ c ∈ rest.head?, isDigit c = false ∧ c ≠ '.' ∧ c ≠ 'e' ∧ c ≠ 'E'

variable {rest : List Char}

theorem takeWhile_digits {ds : List Char} (hds : ∀ c ∈ ds, isDigit c = true)
    (hrest : Delimited rest) :
    (ds ++ rest).takeWhile isDigit = ds ∧ (ds ++ rest).dropWhile isDigit = rest := by
  have hstop : rest.takeWhile isDigit = [] ∧ rest.dropWhile isDigit = rest := by
    cases rest with
    | nil => exact ⟨rfl, rfl⟩
    | cons c cs =>
      have hc := (hrest c rfl).1
      simp [hc]
  rw [takeWhile_append_of_pos hds, dropWhile_append_of_pos hds, hstop.1, hstop.2,
    append_nil]
  exact ⟨rfl, rfl⟩

theorem toDigits_head (hn : 0 < n) : ∃ c cs, Nat.toDigits 10 n = c :: cs ∧ c ≠ '0' := by
  induction n using Nat.strong_induction_on with
  | _ n ih =>
    by_cases hlt : n < 10
    · refine ⟨n.digitChar, [], Nat.toDigits_of_lt_base hlt, ?_⟩
      have hall : ∀ i : Fin 10, 0 < i.val → i.val.digitChar ≠ '0' := by decide
      exact hall ⟨n, hlt⟩ hn
    · obtain ⟨c, cs, hcs, hc⟩ := ih (n / 10) (by omega) (by omega)
      refine ⟨c, cs ++ [(n % 10).digitChar], ?_, hc⟩
      rw [Nat.toDigits_of_base_le (by decide) (by omega), hcs, cons_append]

theorem scanInteger_repr (n : Nat) (hrest : Delimited rest) :
    scanInteger (n.repr.toList ++ rest) = some (n.repr.toList, rest) := by
  rw [Nat.toList_repr]
  rcases Nat.eq_zero_or_pos n with rfl | hn
  · rfl
  · have hdigits : ∀ c ∈ Nat.toDigits 10 n, isDigit c = true := by
      intro c hc
      have hd := Nat.isDigit_of_mem_toDigits (by decide) (by decide) hc
      rw [Char.isDigit, Bool.and_eq_true] at hd
      exact decide_eq_true ⟨of_decide_eq_true hd.1, of_decide_eq_true hd.2⟩
    obtain ⟨htake, hdrop⟩ := takeWhile_digits hdigits hrest
    obtain ⟨c, cs, hcs, hc⟩ := toDigits_head hn
    rw [hcs] at htake hdrop ⊢
    rw [cons_append] at htake hdrop ⊢
    rw [scanInteger, if_neg hc, scanDigits, htake, hdrop]

theorem scanFraction_delimited (hrest : Delimited rest) :
    scanFraction rest = some ([], rest) := by
  cases rest with
  | nil => rfl
  | cons c cs => rw [scanFraction, if_neg (hrest c rfl).2.1]

theorem scanExponent_delimited (hrest : Delimited rest) :
    scanExponent rest = some ([], rest) := by
  cases rest with
  | nil => rfl
  | cons c cs =>
    obtain ⟨-, -, he, hE⟩ := hrest c rfl
    rw [scanExponent.eq_def]
    simp [he, hE]

/-- **The numeral of a natural number is read back.** -/
theorem scanNumber_repr (n : Nat) (hrest : Delimited rest) :
    scanNumber (n.repr.toList ++ rest) = some (n.repr, rest) := by
  have hunsigned : scanUnsigned (n.repr.toList ++ rest) = some (n.repr.toList, rest) := by
    unfold scanUnsigned
    rw [scanInteger_repr n hrest]
    simp [scanFraction_delimited hrest, scanExponent_delimited hrest]
  cases hcs : n.repr.toList with
  | nil => exact absurd hcs (by rw [Nat.toList_repr]; exact Nat.toDigits_ne_nil)
  | cons c cs =>
    have hminus : c ≠ '-' := by
      rintro rfl
      exact notMem_natRepr (c := '-') (by decide) n (by rw [hcs]; exact mem_cons_self)
    rw [hcs] at hunsigned
    rw [cons_append] at hunsigned ⊢
    rw [scanNumber, if_neg hminus, hunsigned, Option.map_some, ← hcs, String.ofList_toList]

/-! ## Documents -/

def skipWhite : List Char → List Char
  | [] => []
  | c :: cs => if c = ' ' ∨ c = '\t' ∨ c = '\r' ∨ c = '\n' then skipWhite cs else c :: cs

def expect (lit cs : List Char) : Option (List Char) :=
  if lit.isPrefixOf cs then some (cs.drop lit.length) else none

mutual
def parseValue : Nat → Nat → List Char → Option (Json × List Char)
  | 0, _, _ => none
  | fuel + 1, depth, cs =>
    match skipWhite cs with
    | [] => none
    | c :: cs =>
      if c = '\x7b' then
        match depth with
        | 0 => none
        | depth + 1 =>
          match skipWhite cs with
          | [] => none
          | d :: rest =>
            if d = '\x7d' then some (.obj [], rest)
            else do
              let (m, cs) ← parseMember fuel depth (d :: rest)
              let (ms, cs) ← parseMembers fuel depth cs
              return (.obj (m :: ms), cs)
      else if c = '[' then
        match depth with
        | 0 => none
        | depth + 1 =>
          match skipWhite cs with
          | [] => none
          | d :: rest =>
            if d = ']' then some (.arr [], rest)
            else do
              let (j, cs) ← parseValue fuel depth (d :: rest)
              let (js, cs) ← parseItems fuel depth cs
              return (.arr (j :: js), cs)
      else if c = '"' then (parseString cs).map (Prod.map .str id)
      else if c = 'n' then (expect ['u', 'l', 'l'] cs).map (.null, ·)
      else if c = 't' then (expect ['r', 'u', 'e'] cs).map (.bool true, ·)
      else if c = 'f' then (expect ['a', 'l', 's', 'e'] cs).map (.bool false, ·)
      else (scanNumber (c :: cs)).map (Prod.map .num id)
def parseItems : Nat → Nat → List Char → Option (List Json × List Char)
  | 0, _, _ => none
  | fuel + 1, depth, cs =>
    match skipWhite cs with
    | [] => none
    | c :: cs =>
      if c = ']' then some ([], cs)
      else if c = ',' then do
        let (j, cs) ← parseValue fuel depth cs
        let (js, cs) ← parseItems fuel depth cs
        return (j :: js, cs)
      else none
def parseMember : Nat → Nat → List Char → Option ((String × Json) × List Char)
  | 0, _, _ => none
  | fuel + 1, depth, cs =>
    match skipWhite cs with
    | [] => none
    | c :: cs =>
      if c = '"' then
        match parseString cs with
        | none => none
        | some (key, cs) =>
          match skipWhite cs with
          | [] => none
          | c :: cs =>
            if c = ':' then do
              let (j, cs) ← parseValue fuel depth cs
              return ((key, j), cs)
            else none
      else none
def parseMembers : Nat → Nat → List Char → Option (List (String × Json) × List Char)
  | 0, _, _ => none
  | fuel + 1, depth, cs =>
    match skipWhite cs with
    | [] => none
    | c :: cs =>
      if c = '\x7d' then some ([], cs)
      else if c = ',' then do
        let (m, cs) ← parseMember fuel depth cs
        let (ms, cs) ← parseMembers fuel depth cs
        return (m :: ms, cs)
      else none
end

def maxNestingDepth : Nat := 10000

def parseJson (text : String) : Option Json :=
  match parseValue (text.toList.length + 1) maxNestingDepth text.toList with
  | some (j, rest) => if skipWhite rest = [] then some j else none
  | none => none

mutual
def Json.render : Json → List Char
  | .null => ['n', 'u', 'l', 'l']
  | .bool true => ['t', 'r', 'u', 'e']
  | .bool false => ['f', 'a', 'l', 's', 'e']
  | .num text => text.toList
  | .str s => renderString s
  | .arr [] => ['[', ']']
  | .arr (j :: js) => '[' :: (j.render ++ renderItems js)
  | .obj [] => ['\x7b', '\x7d']
  | .obj ((key, j) :: ms) =>
    '\x7b' :: (renderString key ++ ':' :: (j.render ++ renderMembers ms))
def renderItems : List Json → List Char
  | [] => [']']
  | j :: js => ',' :: (j.render ++ renderItems js)
def renderMembers : List (String × Json) → List Char
  | [] => ['\x7d']
  | (key, j) :: ms => ',' :: (renderString key ++ ':' :: (j.render ++ renderMembers ms))
end

mutual
def Json.Fits : Nat → Json → Prop
  | _, .null => True
  | _, .bool _ => True
  | _, .num text => ∃ n : Nat, text = n.repr
  | _, .str _ => True
  | depth, .arr js => ∃ d, depth = d + 1 ∧ FitItems d js
  | depth, .obj ms => ∃ d, depth = d + 1 ∧ FitMembers d ms
def FitItems : Nat → List Json → Prop
  | _, [] => True
  | depth, j :: js => j.Fits depth ∧ FitItems depth js
def FitMembers : Nat → List (String × Json) → Prop
  | _, [] => True
  | depth, (_, j) :: ms => j.Fits depth ∧ FitMembers depth ms
end

theorem delimited_cons {c : Char} (h : c = ']' ∨ c = '\x7d' ∨ c = ',') : Delimited (c :: rest) := by
  intro c' hc'
  cases hc'
  rcases h with rfl | rfl | rfl <;> decide

variable {j : Json}

theorem render_head {depth : Nat} (h : j.Fits depth) :
    ∃ c cs, j.render = c :: cs ∧ c ≠ ']' ∧ ∀ rest, skipWhite (c :: rest) = c :: rest := by
  have hplain : ∀ c : Char, c ∈ ['n', 't', 'f', '"', '[', '\x7b'] →
      c ≠ ']' ∧ ∀ rest, skipWhite (c :: rest) = c :: rest := by
    intro c hc
    have hall : ∀ c ∈ ['n', 't', 'f', '"', '[', '\x7b'],
        c ≠ ']' ∧ ¬ (c = ' ' ∨ c = '\t' ∨ c = '\r' ∨ c = '\n') := by simp
    exact ⟨(hall c hc).1, fun rest => if_neg (hall c hc).2⟩
  cases j with
  | null => exact ⟨_, _, by rw [Json.render], hplain _ (by decide)⟩
  | bool b => cases b <;> exact ⟨_, _, by rw [Json.render], hplain _ (by decide)⟩
  | str s => exact ⟨_, _, by rw [Json.render, renderString], hplain _ (by decide)⟩
  | arr js => cases js <;> exact ⟨_, _, by rw [Json.render], hplain _ (by decide)⟩
  | obj ms => cases ms <;> exact ⟨_, _, by rw [Json.render], hplain _ (by decide)⟩
  | num text =>
    obtain ⟨n, rfl⟩ := h
    rw [Json.render]
    cases hcs : n.repr.toList with
    | nil => exact absurd hcs (by rw [Nat.toList_repr]; exact Nat.toDigits_ne_nil)
    | cons c cs =>
      have hdigit : c.isDigit = true := by
        refine Nat.isDigit_of_mem_toDigits (n := n) (b := 10) (by decide) (by decide) ?_
        rw [← Nat.toList_repr, hcs]
        exact mem_cons_self
      have hne : ∀ d : Char, d.isDigit = false → c ≠ d := by
        rintro d hd rfl
        rw [hdigit] at hd
        cases hd
      refine ⟨c, cs, rfl, hne ']' (by decide), fun rest => if_neg ?_⟩
      rintro (h | h | h | h)
      · exact hne ' ' (by decide) h
      · exact hne '\t' (by decide) h
      · exact hne '\r' (by decide) h
      · exact hne '\n' (by decide) h

theorem exists_fuel {fuel : Nat} (h : n + 1 ≤ fuel) : ∃ k, fuel = k + 1 :=
  Nat.exists_eq_add_one.mpr (Nat.lt_of_lt_of_le n.succ_pos h)

def ReadsBack (j : Json) : Prop :=
  ∀ fuel depth rest, j.Fits depth → Delimited rest → j.render.length ≤ fuel →
    parseValue fuel depth (j.render ++ rest) = some (j, rest)

def ItemsReadBack (js : List Json) : Prop :=
  ∀ fuel depth rest, FitItems depth js → (renderItems js).length ≤ fuel →
    parseItems fuel depth (renderItems js ++ rest) = some (js, rest)

def MembersReadBack (ms : List (String × Json)) : Prop :=
  ∀ fuel depth rest, FitMembers depth ms → (renderMembers ms).length ≤ fuel →
    parseMembers fuel depth (renderMembers ms ++ rest) = some (ms, rest)

theorem renderString_append (s : String) (rest : List Char) :
    renderString s ++ rest = '"' :: (s.toList.flatMap escapeChar ++ '"' :: rest) := by
  rw [renderString, cons_append, append_assoc, singleton_append]

theorem delimited_items (js : List Json) (rest : List Char) : Delimited (renderItems js ++ rest) := by
  cases js <;> rw [renderItems] <;> exact delimited_cons (by simp)

theorem delimited_members (ms : List (String × Json)) (rest : List Char) :
    Delimited (renderMembers ms ++ rest) := by
  cases ms <;> rw [renderMembers] <;> exact delimited_cons (by simp)

theorem parseMember_render (hj : ReadsBack j) (key : String) (rest : List Char) {fuel depth : Nat}
    (hfit : j.Fits depth) (hrest : Delimited rest) (hfuel : j.render.length + 1 ≤ fuel) :
    parseMember fuel depth (renderString key ++ ':' :: (j.render ++ rest)) =
      some ((key, j), rest) := by
  obtain ⟨fuel, rfl⟩ := exists_fuel hfuel
  have hstring := parseString_render key (':' :: (j.render ++ rest))
  have hvalue := hj fuel depth rest hfit hrest (by omega)
  rw [renderString_append, parseMember]
  simp [skipWhite, hstring, hvalue]

theorem readsBack_num (n : Nat) : ReadsBack (.num n.repr) := by
  intro fuel depth rest hfit hrest hfuel
  obtain ⟨c, cs, hcs, -, hskip⟩ := render_head hfit
  rw [Json.render] at hcs hfuel ⊢
  have hmem : c ∈ n.repr.toList := by rw [hcs]; exact mem_cons_self
  -- The first character is a digit, and starts none of the other values.
  have hne : ∀ d : Char, d.isDigit = false → c ≠ d := by
    rintro d hd rfl
    exact notMem_natRepr hd n hmem
  obtain ⟨fuel, rfl⟩ : ∃ k, fuel = k + 1 :=
    Nat.exists_eq_add_one.mpr (Nat.lt_of_lt_of_le (length_pos_of_mem hmem) hfuel)
  have hnumber := scanNumber_repr n hrest
  rw [hcs, cons_append] at hnumber ⊢
  rw [parseValue, hskip]
  simp [hne '\x7b' (by decide), hne '[' (by decide), hne '"' (by decide), hne 'n' (by decide),
    hne 't' (by decide), hne 'f' (by decide), hnumber]

theorem readsBack_str (s : String) : ReadsBack (.str s) := by
  intro fuel depth rest _ _ hfuel
  rw [Json.render] at hfuel ⊢
  obtain ⟨fuel, rfl⟩ := exists_fuel hfuel
  have hstring := parseString_render s rest
  rw [renderString_append, parseValue]
  simp [skipWhite, hstring]

variable {js : List Json}

theorem readsBack_arr (hj : ReadsBack j) (hjs : ItemsReadBack js) :
    ReadsBack (.arr (j :: js)) := by
  intro fuel depth rest hfit _ hfuel
  obtain ⟨depth, rfl, hfit⟩ := hfit
  obtain ⟨c, cs, hcs, hc, hskip⟩ := render_head hfit.1
  rw [Json.render, length_cons, length_append] at hfuel
  obtain ⟨fuel, rfl⟩ := exists_fuel hfuel
  have hvalue := hj fuel depth (renderItems js ++ rest) hfit.1 (delimited_items js rest) (by omega)
  have hitems := hjs fuel depth rest hfit.2 (by omega)
  rw [hcs, cons_append] at hvalue
  rw [Json.render, hcs, parseValue]
  simp [skipWhite.eq_2 '[', hskip, hc, hvalue, hitems]

variable {ms : List (String × Json)}

theorem readsBack_obj {key : String} (hj : ReadsBack j) (hms : MembersReadBack ms) :
    ReadsBack (.obj ((key, j) :: ms)) := by
  intro fuel depth rest hfit _ hfuel
  obtain ⟨depth, rfl, hfit⟩ := hfit
  rw [Json.render, length_cons, length_append, length_cons, length_append] at hfuel
  obtain ⟨fuel, rfl⟩ := exists_fuel hfuel
  have hmember := parseMember_render hj key (renderMembers ms ++ rest) hfit.1
    (delimited_members ms rest) (by omega : j.render.length + 1 ≤ fuel)
  have hmembers := hms fuel depth rest hfit.2 (by omega)
  rw [renderString_append] at hmember
  rw [Json.render, cons_append, append_assoc, renderString_append,
    parseValue]
  simp [skipWhite.eq_2, hmember, hmembers]

theorem itemsReadBack_cons (hj : ReadsBack j) (hjs : ItemsReadBack js) :
    ItemsReadBack (j :: js) := by
  intro fuel depth rest hfit hfuel
  rw [renderItems, length_cons, length_append] at hfuel
  obtain ⟨fuel, rfl⟩ := exists_fuel hfuel
  have hvalue := hj fuel depth (renderItems js ++ rest) hfit.1 (delimited_items js rest) (by omega)
  have hitems := hjs fuel depth rest hfit.2 (by omega)
  rw [renderItems, parseItems]
  simp [skipWhite.eq_2 ',', hvalue, hitems]

theorem membersReadBack_cons {key : String} (hj : ReadsBack j) (hms : MembersReadBack ms) :
    MembersReadBack ((key, j) :: ms) := by
  intro fuel depth rest hfit hfuel
  rw [renderMembers, length_cons, length_append, length_cons, length_append] at hfuel
  obtain ⟨fuel, rfl⟩ := exists_fuel hfuel
  have hmember := parseMember_render hj key (renderMembers ms ++ rest) hfit.1
    (delimited_members ms rest) (by omega : j.render.length + 1 ≤ fuel)
  have hmembers := hms fuel depth rest hfit.2 (by omega)
  rw [renderMembers, cons_append, append_assoc, parseMembers]
  simp [skipWhite.eq_2 ',', hmember, hmembers]

theorem readsBack_literal (h : j = .null ∨ (∃ b, j = .bool b)) : ReadsBack j := by
  intro fuel depth rest _ _ hfuel
  rcases h with rfl | ⟨b, rfl⟩
  · rw [Json.render] at hfuel ⊢
    obtain ⟨fuel, rfl⟩ := exists_fuel hfuel
    simp [parseValue, skipWhite.eq_2 'n', expect]
  · cases b
    all_goals
      rw [Json.render] at hfuel ⊢
      obtain ⟨fuel, rfl⟩ := exists_fuel hfuel
      simp [parseValue, skipWhite.eq_2, expect]

theorem readsBack_empty (h : j = .arr [] ∨ j = .obj []) : ReadsBack j := by
  intro fuel depth rest hfit _ hfuel
  rcases h with rfl | rfl
  all_goals
    obtain ⟨depth, rfl, -⟩ := hfit
    rw [Json.render] at hfuel ⊢
    obtain ⟨fuel, rfl⟩ := exists_fuel hfuel
    simp [parseValue, skipWhite.eq_2]

theorem itemsReadBack_nil : ItemsReadBack [] := by
  intro fuel depth rest _ hfuel
  rw [renderItems] at hfuel ⊢
  obtain ⟨fuel, rfl⟩ := exists_fuel hfuel
  simp [parseItems, skipWhite.eq_2 ']']

theorem membersReadBack_nil : MembersReadBack [] := by
  intro fuel depth rest _ hfuel
  rw [renderMembers] at hfuel ⊢
  obtain ⟨fuel, rfl⟩ := exists_fuel hfuel
  simp [parseMembers, skipWhite.eq_2 '\x7d']

/-- **Every document is read back from its text.** -/
theorem readsBack (j : Json) : ReadsBack j := by
  -- The cases are those of the text: of a value, of the members and of the items behind the first.
  refine Json.render.induct ReadsBack MembersReadBack ItemsReadBack ?null ?yes ?no ?num ?str ?arr₀
    ?arr ?obj₀ ?obj ?items₀ ?items ?members₀ ?members j
  case null => exact readsBack_literal (.inl rfl)
  case yes => exact readsBack_literal (.inr ⟨_, rfl⟩)
  case no => exact readsBack_literal (.inr ⟨_, rfl⟩)
  case num =>
    intro text fuel depth rest hfit
    obtain ⟨n, rfl⟩ := hfit
    exact readsBack_num n fuel depth rest ⟨n, rfl⟩
  case str => exact readsBack_str
  case arr₀ => exact readsBack_empty (.inl rfl)
  case arr => exact fun j js hj hjs => readsBack_arr hj hjs
  case obj₀ => exact readsBack_empty (.inr rfl)
  case obj => exact fun key j ms hj hms => readsBack_obj hj hms
  case items₀ => exact itemsReadBack_nil
  case items => exact fun j js hj hjs => itemsReadBack_cons hj hjs
  case members₀ => exact membersReadBack_nil
  case members => exact fun key j ms hj hms => membersReadBack_cons hj hms

/-- **The text of a document is read as that document.** -/
theorem parseJson_render (h : j.Fits maxNestingDepth) :
    parseJson (String.ofList j.render) = some j := by
  have hdelim : Delimited [] := fun c hc => by cases hc
  have hread := readsBack j (j.render.length + 1) maxNestingDepth [] h hdelim (Nat.le_succ _)
  rw [append_nil] at hread
  unfold parseJson
  rw [String.toList_ofList, hread]
  rfl

example : (parseJson " [1, -2.5e3 , \"a\\u0041\" ] ").isSome = true := by decide +kernel

example : (parseJson "[1,]").isNone = true := by decide +kernel

end Kseal.Infra
