import Mathlib.Algebra.Group.Int.Defs
import Mathlib.Data.List.Forall2
import Kseal.Infra.Decimal
import Kseal.Infra.Utf16

/-!
# The plugin's JSON

The writer and the reader of the build plugin, over the 16-bit units of the strings of the JVM.
White space and digits are what the Unicode tables say, and a `Double` is abstract (`parse_write`).
-/

namespace Kseal.KotlinJson

open Infra List

/-! ## Units -/

def ch (c : Char) : UInt16 := UInt16.ofNat c.toNat
def chars (s : String) : Utf16 := s.toList.map ch

def isWhitespace (c : UInt16) : Bool :=
  let n := c.toNat
  (9 ≤ n && n ≤ 13) || (0x1C ≤ n && n ≤ 0x20) || n == 0xA0 || n == 0x1680 ||
    (0x2000 ≤ n && n ≤ 0x200A) || n == 0x2028 || n == 0x2029 || n == 0x202F || n == 0x205F ||
    n == 0x3000

def zeros : List Nat :=
  [0x30, 0x660, 0x6F0, 0x7C0, 0x966, 0x9E6, 0xA66, 0xAE6, 0xB66, 0xBE6, 0xC66, 0xCE6, 0xD66, 0xDE6,
    0xE50, 0xED0, 0xF20, 0x1040, 0x1090, 0x17E0, 0x1810, 0x1946, 0x19D0, 0x1A80, 0x1A90, 0x1B50,
    0x1BB0, 0x1C40, 0x1C50, 0xA620, 0xA8D0, 0xA900, 0xA9D0, 0xA9F0, 0xAA50, 0xABF0, 0xFF10]

def decimalDigit (c : UInt16) : Option Nat :=
  (zeros.find? fun z => z ≤ c.toNat && c.toNat < z + 10).map (c.toNat - ·)

def isDigit (c : UInt16) : Bool := (decimalDigit c).isSome

def letterDigit (c : UInt16) : Option Nat :=
  ([0x41, 0x61, 0xFF21, 0xFF41].find? fun z => z ≤ c.toNat && c.toNat < z + 26).map
    (c.toNat - · + 10)

def digit (radix : Nat) (c : UInt16) : Option Nat :=
  ((decimalDigit c).or (letterDigit c)).filter (· < radix)

def digitsValue (radix : Nat) (cs : Utf16) : Option Nat :=
  cs.foldlM (fun acc c => (digit radix c).map (acc * radix + ·)) 0

def parseInteger (radix : Nat) (lo hi : Int) (cs : Utf16) : Option Int :=
  let signed := cs.head? = some (ch '-') ∨ cs.head? = some (ch '+')
  let body := if signed then cs.tail else cs
  if body = [] then none
  else
    match digitsValue radix body with
    | none => none
    | some n =>
      let v : Int := if cs.head? = some (ch '-') then -n else n
      if lo ≤ v ∧ v ≤ hi then some v else none

/-! ## Values -/

structure Doubles (F : Type) where
  write : F → Option Utf16
  read : Utf16 → Option F

inductive Value (F : Type) where
  | null
  | bool (b : Bool)
  | num (n : Int64)
  | dbl (x : F)
  | str (s : Utf16)
  | arr (items : List (Value F))
  | obj (members : List (Utf16 × Value F))

variable {F : Type}

mutual
def Value.Plain : Value F → Prop
  | .null | .bool _ | .num _ | .str _ => True
  | .dbl _ => False
  | .arr items => PlainItems items
  | .obj members => (members.map Prod.fst).Nodup ∧ PlainMembers members
def PlainItems : List (Value F) → Prop
  | [] => True
  | v :: vs => v.Plain ∧ PlainItems vs
def PlainMembers : List (Utf16 × Value F) → Prop
  | [] => True
  | (_, v) :: ms => v.Plain ∧ PlainMembers ms
end

/-! ## The writer -/

def hex4 (n : Nat) : Utf16 :=
  [ch (hexDigit (n / 4096 % 16)), ch (hexDigit (n / 256 % 16)), ch (hexDigit (n / 16 % 16)),
    ch (hexDigit (n % 16))]

def escapeUnit (c : UInt16) : Utf16 :=
  if c = ch '"' then chars "\\\""
  else if c = ch '\\' then chars "\\\\"
  else if c = ch '\n' then chars "\\n"
  else if c = ch '\r' then chars "\\r"
  else if c = ch '\t' then chars "\\t"
  else if c = ch '\x08' then chars "\\b"
  else if c = ch '\x0c' then chars "\\f"
  else if c < ch ' ' then chars "\\u" ++ hex4 c.toNat
  else [c]

def writeString (s : Utf16) : Utf16 := [ch '"'] ++ (s.flatMap escapeUnit ++ [ch '"'])

abbrev Depth := Option Nat

def nextDepth (depth : Depth) : Depth := depth.map (· + 1)

def newlineIndent : Depth → Utf16
  | none => []
  | some depth => [ch '\n'] ++ (List.replicate depth (chars "  ")).flatten

def colon (depth : Depth) : Utf16 := if depth = none then chars ":" else chars ": "

def comma (first : Bool) : Utf16 := if first then [] else [ch ',']

def separated (depth : Depth) (first : Bool) : List Utf16 → Utf16
  | [] => []
  | item :: items => comma first ++ (newlineIndent depth ++ (item ++ separated depth false items))

def container (opening closing : UInt16) (depth : Depth) (items : List Utf16) : Utf16 :=
  if items = [] then [opening, closing]
  else [opening] ++ (separated (nextDepth depth) true items ++ (newlineIndent depth ++ [closing]))

section write

variable (doubles : Doubles F)

mutual
def writeValue (depth : Depth) : Value F → Option Utf16
  | .null => some (chars "null")
  | .str s => some (writeString s)
  | .bool b => some (chars (if b then "true" else "false"))
  | .num n => some (chars n.toInt.repr)
  | .dbl x => doubles.write x
  | .obj members =>
    (writeMembers (nextDepth depth) members).map (container (ch '\x7b') (ch '\x7d') depth)
  | .arr items => (writeItems (nextDepth depth) items).map (container (ch '[') (ch ']') depth)
def writeMembers (depth : Depth) : List (Utf16 × Value F) → Option (List Utf16)
  | [] => some []
  | (k, v) :: ms => do
    let value ← writeValue depth v
    let rest ← writeMembers depth ms
    return (writeString k ++ (colon depth ++ value)) :: rest
def writeItems (depth : Depth) : List (Value F) → Option (List Utf16)
  | [] => some []
  | v :: vs => do
    let value ← writeValue depth v
    let rest ← writeItems depth vs
    return value :: rest
end

def write (v : Value F) (indent : Bool) : Option Utf16 :=
  writeValue doubles (if indent then some 0 else none) v

end write

/-! ## The reader -/

inductive ParseError where
  | trailingContent (offset : Nat)
  | unexpectedEnd
  | expectedSeparator (close found : UInt16)
  | unterminatedString
  | unterminatedEscape
  | truncatedUnicodeEscape
  | invalidEscape (e : UInt16)
  | invalidLiteral (offset : Nat)
  | invalidNumber (offset : Nat)
  | expected (c found : UInt16) (offset : Nat)
  /-- `NumberFormatException`. -/
  | numberFormat (text : Utf16)
  /-- No error of the source: the model was not given enough steps. -/
  | outOfFuel
deriving DecidableEq

def skipWs (rest : Utf16) : Utf16 := rest.dropWhile isWhitespace

def peek : Utf16 → Except ParseError UInt16
  | [] => .error .unexpectedEnd
  | c :: _ => .ok c

def next : Utf16 → Except ParseError (UInt16 × Utf16)
  | [] => .error .unexpectedEnd
  | c :: rest => .ok (c, rest)

def unescape (e : UInt16) : Option UInt16 :=
  if e = ch '"' then some (ch '"')
  else if e = ch '\\' then some (ch '\\')
  else if e = ch '/' then some (ch '/')
  else if e = ch 'n' then some (ch '\n')
  else if e = ch 'r' then some (ch '\r')
  else if e = ch 't' then some (ch '\t')
  else if e = ch 'b' then some (ch '\x08')
  else if e = ch 'f' then some (ch '\x0c')
  else none

def consUnit (c : UInt16) (parsed : Except ParseError (Utf16 × Utf16)) :
    Except ParseError (Utf16 × Utf16) := parsed.map fun r => (c :: r.1, r.2)

def parseUnits : Utf16 → Except ParseError (Utf16 × Utf16)
  | [] => .error .unterminatedString
  | c :: rest =>
    if c = ch '"' then .ok ([], rest)
    else if c = ch '\\' then
      match rest with
      | [] => .error .unterminatedEscape
      | e :: rest =>
        if e = ch 'u' then
          match rest with
          | h₁ :: h₂ :: h₃ :: h₄ :: rest =>
            -- `hex.toInt(16).toChar()` takes a sign, and keeps the low 16 bits.
            match parseInteger 16 (-2 ^ 31) (2 ^ 31 - 1) [h₁, h₂, h₃, h₄] with
            | none => .error (.numberFormat [h₁, h₂, h₃, h₄])
            | some n => consUnit (UInt16.ofNat (n % 65536).toNat) (parseUnits rest)
          | _ => .error .truncatedUnicodeEscape
        else
          match unescape e with
          | none => .error (.invalidEscape e)
          | some u => consUnit u (parseUnits rest)
    else consUnit c (parseUnits rest)

def isNumberPart (c : UInt16) : Bool := isDigit c || c ∈ chars ".eE+-"

section parse

variable (doubles : Doubles F) (length : Nat)

def offset (rest : Utf16) : Nat := length - rest.length

def expect (c : UInt16) (rest : Utf16) : Except ParseError Utf16 := do
  let (actual, rest') ← next rest
  if actual = c then .ok rest' else .error (.expected c actual (offset length rest))

def parseString (rest : Utf16) : Except ParseError (Utf16 × Utf16) := do
  let rest ← expect length (ch '"') rest
  parseUnits rest

def parseBoolean (rest : Utf16) : Except ParseError (Value F × Utf16) :=
  if chars "true" <+: rest then .ok (.bool true, rest.drop 4)
  else if chars "false" <+: rest then .ok (.bool false, rest.drop 5)
  else .error (.invalidLiteral (offset length rest))

def parseNull (rest : Utf16) : Except ParseError (Value F × Utf16) :=
  if chars "null" <+: rest then .ok (.null, rest.drop 4)
  else .error (.invalidLiteral (offset length rest))

def numberToken (rest : Utf16) : Utf16 × Utf16 :=
  if rest.head? = some (ch '-') then
    (ch '-' :: rest.tail.takeWhile isNumberPart, rest.tail.dropWhile isNumberPart)
  else (rest.takeWhile isNumberPart, rest.dropWhile isNumberPart)

def parseNumber (rest : Utf16) : Except ParseError (Value F × Utf16) :=
  let (token, rest') := numberToken rest
  if token = [] then .error (.invalidNumber (offset length rest))
  else if token.any fun c => c = ch '.' || c = ch 'e' || c = ch 'E' then
    match doubles.read token with
    | some x => .ok (.dbl x, rest')
    | none => .error (.numberFormat token)
  else
    match parseInteger 10 (-2 ^ 63) (2 ^ 63 - 1) token with
    | some n => .ok (.num (Int64.ofInt n), rest')
    | none => .error (.numberFormat token)

def put (out : List (Utf16 × Value F)) (key : Utf16) (v : Value F) : List (Utf16 × Value F) :=
  if key ∈ out.map Prod.fst then out.map fun m => if m.1 = key then (key, v) else m
  else out ++ [(key, v)]

def parseContainer {α : Type} (opening closing : UInt16) (make : List α → Value F)
    (loop : Utf16 → Except ParseError (List α × Utf16)) (rest : Utf16) :
    Except ParseError (Value F × Utf16) := do
  let rest ← expect length opening rest
  let rest := skipWs rest
  if (← peek rest) = closing then .ok (make [], rest.tail)
  else
    let (out, rest) ← loop rest
    .ok (make out, rest)

def separator {α : Type} (closing : UInt16) (loop : Utf16 → Except ParseError (List α × Utf16))
    (out : List α) (rest : Utf16) : Except ParseError (List α × Utf16) := do
  let (c, rest) ← next (skipWs rest)
  if c = ch ',' then loop rest
  else if c = closing then .ok (out, rest)
  else .error (.expectedSeparator closing c)

def parseObject : (Utf16 → Except ParseError (List (Utf16 × Value F) × Utf16)) → Utf16 →
    Except ParseError (Value F × Utf16) :=
  parseContainer length (ch '\x7b') (ch '\x7d') .obj

def parseArray : (Utf16 → Except ParseError (List (Value F) × Utf16)) → Utf16 →
    Except ParseError (Value F × Utf16) :=
  parseContainer length (ch '[') (ch ']') .arr

mutual
def parseValue : Nat → Utf16 → Except ParseError (Value F × Utf16)
  | 0, _ => .error .outOfFuel
  | fuel + 1, rest =>
    match skipWs rest with
    | [] => .error .unexpectedEnd
    | c :: rest =>
      if c = ch '\x7b' then parseObject length (objectLoop fuel []) (c :: rest)
      else if c = ch '[' then parseArray length (arrayLoop fuel []) (c :: rest)
      else if c = ch '"' then do
        let (s, rest) ← parseString length (c :: rest)
        .ok (.str s, rest)
      else if c = ch 't' ∨ c = ch 'f' then parseBoolean length (c :: rest)
      else if c = ch 'n' then parseNull length (c :: rest)
      else parseNumber doubles length (c :: rest)
def objectLoop : Nat → List (Utf16 × Value F) → Utf16 →
    Except ParseError (List (Utf16 × Value F) × Utf16)
  | 0, _, _ => .error .outOfFuel
  | fuel + 1, out, rest => do
    let (key, rest) ← parseString length (skipWs rest)
    let rest ← expect length (ch ':') (skipWs rest)
    let (v, rest) ← parseValue fuel rest
    let out := put out key v
    separator (ch '\x7d') (objectLoop fuel out) out rest
def arrayLoop : Nat → List (Value F) → Utf16 → Except ParseError (List (Value F) × Utf16)
  | 0, _, _ => .error .outOfFuel
  | fuel + 1, out, rest => do
    let (v, rest) ← parseValue fuel rest
    let out := out ++ [v]
    separator (ch ']') (arrayLoop fuel out) out rest
end

end parse

def parse (doubles : Doubles F) (text : Utf16) : Except ParseError (Value F) := do
  let (v, rest) ← parseValue doubles text.length (2 * text.length + 1) (skipWs text)
  let rest := skipWs rest
  if rest = [] then .ok v else .error (.trailingContent (offset text.length rest))

/-! ## Strings -/

theorem parseUnits_letter {e u : UInt16} (he : e ≠ ch 'u') (hu : unescape e = some u)
    (rest : Utf16) : parseUnits (ch '\\' :: e :: rest) = consUnit u (parseUnits rest) := by
  rw [parseUnits.eq_def (ch '\\' :: e :: rest)]
  dsimp only
  rw [if_neg (by decide), if_pos rfl, if_neg he, hu]

variable {c : UInt16}

theorem parseUnits_plain (hquote : c ≠ ch '"') (hslash : c ≠ ch '\\') (rest : Utf16) :
    parseUnits (c :: rest) = consUnit c (parseUnits rest) := by
  rw [parseUnits.eq_def (c :: rest)]
  dsimp only
  rw [if_neg hquote, if_neg hslash]

theorem parseInteger_hex4 :
    ∀ n < 32, parseInteger 16 (-2 ^ 31) (2 ^ 31 - 1) (hex4 n) = some (n : Int) := by
  decide +kernel

variable {n : Nat}

theorem parseUnits_hex4 (h : n < 32) (rest : Utf16) :
    parseUnits (chars "\\u" ++ hex4 n ++ rest) = consUnit (UInt16.ofNat n) (parseUnits rest) := by
  have hread := parseInteger_hex4 n h
  unfold hex4 at hread
  have hmod : ((n : Int) % 65536).toNat = n := by omega
  show parseUnits (ch '\\' :: ch 'u' :: ch _ :: ch _ :: ch _ :: ch _ :: rest) = _
  rw [parseUnits.eq_def (ch '\\' :: ch 'u' :: _)]
  dsimp only
  rw [if_neg (by decide), if_pos rfl, if_pos rfl, hread]
  dsimp only
  rw [hmod]

theorem parseUnits_escapeUnit (c : UInt16) (rest : Utf16) :
    parseUnits (escapeUnit c ++ rest) = consUnit c (parseUnits rest) := by
  fun_cases escapeUnit c
  case case8 h =>
    have hlt : c.toNat < 32 := UInt16.lt_iff_toNat_lt.mp h
    rw [parseUnits_hex4 hlt, UInt16.ofNat_toNat]
  case case9 hquote hslash _ _ _ _ _ _ => exact parseUnits_plain hquote hslash rest
  all_goals
    subst c
    exact parseUnits_letter (by decide) (by decide) rest

theorem parseUnits_escape (s rest : Utf16) :
    parseUnits (s.flatMap escapeUnit ++ ch '"' :: rest) = .ok (s, rest) := by
  induction s with
  | nil =>
    rw [parseUnits.eq_def]
    rfl
  | cons c s ih =>
    rw [flatMap_cons, append_assoc, parseUnits_escapeUnit, ih]
    rfl

/-- **A string of any units is read back.** -/
theorem parseString_writeString (length : Nat) (s rest : Utf16) :
    parseString length (writeString s ++ rest) = .ok (s, rest) := by
  have hread := parseUnits_escape s rest
  simp [parseString, writeString, expect, next, hread, bind, Except.bind]

/-! ## Numbers -/

def Delimited (rest : Utf16) : Prop := ∀ c ∈ rest.head?, isNumberPart c = false

theorem asciiDigit : ∀ d < 10, digit 10 (ch (Char.ofNat (48 + d))) = some d ∧
    isNumberPart (ch (Char.ofNat (48 + d))) = true ∧
    ch (Char.ofNat (48 + d)) ∉ chars ".eE+-" := by
  decide +kernel

theorem ofNat_of_isDigit {c : Char} (h : c.isDigit = true) :
    c.toNat - 48 < 10 ∧ Char.ofNat (48 + (c.toNat - 48)) = c := by
  rw [Char.isDigit, Bool.and_eq_true, decide_eq_true_eq, decide_eq_true_eq] at h
  have hlo : 48 ≤ c.toNat := h.1
  have hhi : c.toNat ≤ 57 := h.2
  exact ⟨by omega, by rw [Nat.add_sub_cancel' hlo, Char.ofNat_toNat]⟩

theorem digit_of_isDigit {c : Char} (h : c.isDigit = true) :
    digit 10 (ch c) = some (c.toNat - 48) ∧ isNumberPart (ch c) = true ∧ ch c ∉ chars ".eE+-" := by
  obtain ⟨hlt, hc⟩ := ofNat_of_isDigit h
  have hd := asciiDigit (c.toNat - 48) hlt
  rwa [hc] at hd

theorem digitsValue_map {cs : List Char} (h : ∀ c ∈ cs, c.isDigit = true) (acc : Nat) :
    (cs.map ch).foldlM (fun acc c => (digit 10 c).map (acc * 10 + ·)) acc =
      some (cs.foldl (fun acc c => acc * 10 + (c.toNat - 48)) acc) := by
  induction cs generalizing acc with
  | nil => rfl
  | cons c cs ih =>
    have hc := (digit_of_isDigit (h c mem_cons_self)).1
    rw [map_cons, foldlM_cons, hc]
    exact ih (fun c' hc' => h c' (mem_cons_of_mem _ hc')) _

def numeral (n : Nat) : Utf16 := (Nat.toDigits 10 n).map ch

theorem isDigit_toDigits {c : Char} (hc : c ∈ Nat.toDigits 10 n) : c.isDigit = true :=
  Nat.isDigit_of_mem_toDigits (by decide) (by decide) hc

theorem numeral_ne_nil (n : Nat) : numeral n ≠ [] := by
  simp [numeral]

theorem mem_numeral {u : UInt16} (h : u ∈ numeral n) :
    isNumberPart u = true ∧ u ∉ chars ".eE+-" := by
  obtain ⟨c, hc, rfl⟩ := mem_map.mp h
  exact (digit_of_isDigit (isDigit_toDigits hc)).2

theorem digitsValue_numeral (n : Nat) : digitsValue 10 (numeral n) = some n := by
  rw [digitsValue, numeral, digitsValue_map fun c => isDigit_toDigits]
  exact congrArg some (digitsValue_toDigits n)

theorem head_numeral (n : Nat) (hc : c ∈ chars ".eE+-") :
    (numeral n).head? ≠ some c := by
  intro h
  exact (mem_numeral (mem_of_head? h)).2 hc

theorem chars_repr (n : Int64) :
    (∃ k : Nat, n.toInt = k ∧ chars n.toInt.repr = numeral k) ∨
      ∃ k : Nat, n.toInt = -k ∧ chars n.toInt.repr = ch '-' :: numeral k := by
  have hdigits : ∀ k : Nat, chars k.repr = numeral k := by
    intro k
    rw [chars, Nat.repr_eq_ofList_toDigits, String.toList_ofList, numeral]
  rw [Int.repr_eq_if]
  split
  · exact .inl ⟨n.toInt.toNat, by omega, hdigits _⟩
  · refine .inr ⟨(-n.toInt).toNat, by omega, ?_⟩
    rw [← hdigits, chars, String.toList_append]
    rfl

theorem parseInteger_numeral {lo hi : Int} (hlo : lo ≤ n) (hhi : n ≤ hi) :
    parseInteger 10 lo hi (numeral n) = some (n : Int) := by
  have hminus := head_numeral n (show ch '-' ∈ chars ".eE+-" by decide)
  have hplus := head_numeral n (show ch '+' ∈ chars ".eE+-" by decide)
  simp [parseInteger, hminus, hplus, numeral_ne_nil, digitsValue_numeral, hlo, hhi]

theorem parseInteger_minus {lo hi : Int} (hlo : lo ≤ -(n : Int)) (hhi : -(n : Int) ≤ hi) :
    parseInteger 10 lo hi (ch '-' :: numeral n) = some (-(n : Int)) := by
  simp [parseInteger, numeral_ne_nil, digitsValue_numeral, hlo, hhi]

variable {rest : Utf16}

theorem takeWhile_numeral (n : Nat) (hrest : Delimited rest) :
    (numeral n ++ rest).takeWhile isNumberPart = numeral n ∧
      (numeral n ++ rest).dropWhile isNumberPart = rest := by
  have hall : ∀ u ∈ numeral n, isNumberPart u = true := fun u hu => (mem_numeral hu).1
  rw [takeWhile_append_of_pos hall, dropWhile_append_of_pos hall]
  cases rest with
  | nil => simp
  | cons c rest => simp [hrest c rfl]

theorem numberToken_repr (n : Int64) (hrest : Delimited rest) :
    numberToken (chars n.toInt.repr ++ rest) = (chars n.toInt.repr, rest) := by
  unfold numberToken
  rcases chars_repr n with ⟨k, -, hk⟩ | ⟨k, -, hk⟩
  · have hhead : (numeral k ++ rest).head? ≠ some (ch '-') := by
      have hfirst : (numeral k ++ rest).head? = (numeral k).head? := by
        cases h : numeral k with
        | nil => exact absurd h (numeral_ne_nil k)
        | cons c cs => rfl
      rw [hfirst]
      exact head_numeral k (by decide)
    obtain ⟨htake, hdrop⟩ := takeWhile_numeral k hrest
    rw [hk, if_neg hhead, htake, hdrop]
  · obtain ⟨htake, hdrop⟩ := takeWhile_numeral k hrest
    rw [hk, cons_append, head?_cons, if_pos rfl, tail_cons, htake, hdrop]

theorem parseInteger_repr (n : Int64) :
    parseInteger 10 (-2 ^ 63) (2 ^ 63 - 1) (chars n.toInt.repr) = some n.toInt := by
  have hlo := n.le_toInt
  have hhi := n.toInt_lt
  rcases chars_repr n with ⟨k, hn, hk⟩ | ⟨k, hn, hk⟩
  · rw [hk, parseInteger_numeral (by omega) (by omega), hn]
  · rw [hk, parseInteger_minus (by omega) (by omega), hn]

theorem not_any_repr (n : Int64) :
    ((chars n.toInt.repr).any fun c => c = ch '.' || c = ch 'e' || c = ch 'E') = false := by
  rw [any_eq_false]
  intro u hu hbad
  have hdouble : u ∈ chars ".eE" := by
    simp only [Bool.or_eq_true, decide_eq_true_eq] at hbad
    rcases hbad with (rfl | rfl) | rfl <;> decide
  have hpart : u ∈ chars ".eE+-" := by
    revert hdouble
    exact fun h => mem_append_left (chars "+-") h
  rcases chars_repr n with ⟨k, -, hk⟩ | ⟨k, -, hk⟩
  · exact (mem_numeral (hk ▸ hu)).2 hpart
  · rw [hk, mem_cons] at hu
    rcases hu with rfl | hu
    · exact absurd hdouble (by decide)
    · exact (mem_numeral hu).2 hpart

theorem repr_ne_nil (n : Int64) : chars n.toInt.repr ≠ [] := by
  rcases chars_repr n with ⟨k, -, hk⟩ | ⟨k, -, hk⟩
  · rw [hk]
    exact numeral_ne_nil k
  · simp [hk]

/-- **The numeral of an integer is read back.** -/
theorem parseNumber_repr (doubles : Doubles F) (length : Nat) (n : Int64) (hrest : Delimited rest) :
    parseNumber doubles length (chars n.toInt.repr ++ rest) = .ok (.num n, rest) := by
  unfold parseNumber
  rw [numberToken_repr n hrest]
  dsimp only
  rw [if_neg (repr_ne_nil n), not_any_repr, if_neg (by decide), parseInteger_repr]
  dsimp only
  rw [Int64.ofInt_toInt]

/-! ## Values -/

variable {v : Value F}

section roundtrip

variable {doubles : Doubles F} {length : Nat}

def Blank (ws : Utf16) : Prop := ∀ c ∈ ws, isWhitespace c = true

theorem skipWs_blank {ws : Utf16} (h : Blank ws) : skipWs (ws ++ rest) = skipWs rest :=
  dropWhile_append_of_pos h

theorem skipWs_skipWs (rest : Utf16) : skipWs (skipWs rest) = skipWs rest := by
  unfold skipWs
  induction rest with
  | nil => rfl
  | cons c rest ih =>
    by_cases h : isWhitespace c = true
    · simp [h, ih]
    · simp [h]

theorem skipWs_cons (h : isWhitespace c = false) (rest : Utf16) :
    skipWs (c :: rest) = c :: rest := by
  simp [skipWs, h]

theorem blank_newlineIndent (depth : Depth) : Blank (newlineIndent depth) := by
  intro c hc
  cases depth with
  | none => cases hc
  | some depth =>
    rw [newlineIndent, singleton_append, mem_cons, mem_flatten] at hc
    rcases hc with rfl | ⟨l, hl, hc⟩
    · decide
    · rw [eq_of_mem_replicate hl] at hc
      have hall : ∀ c ∈ chars "  ", isWhitespace c = true := by simp [chars, ch, isWhitespace]
      exact hall c hc

theorem skipWs_close (outer : Depth) (hc : isWhitespace c = false) (rest : Utf16) :
    skipWs (newlineIndent outer ++ c :: rest) = c :: rest := by
  rw [skipWs_blank (blank_newlineIndent outer), skipWs_cons hc]

theorem delimited_newlineIndent (depth : Depth) (hc : isNumberPart c = false) (rest : Utf16) :
    Delimited (newlineIndent depth ++ c :: rest) := by
  intro c' hc'
  cases depth with
  | none =>
    cases hc'
    exact hc
  | some depth =>
    cases hc'
    decide

theorem parseValue_skipWs (fuel : Nat) (rest : Utf16) :
    parseValue doubles length fuel (skipWs rest) = parseValue doubles length fuel rest := by
  cases fuel with
  | zero => rfl
  | succ fuel => simp only [parseValue, skipWs_skipWs]

theorem arrayLoop_skipWs (fuel : Nat) (out : List (Value F)) (rest : Utf16) :
    arrayLoop doubles length fuel out (skipWs rest) = arrayLoop doubles length fuel out rest := by
  cases fuel with
  | zero => rfl
  | succ fuel => simp only [arrayLoop, parseValue_skipWs]

theorem objectLoop_skipWs (fuel : Nat) (out : List (Utf16 × Value F)) (rest : Utf16) :
    objectLoop doubles length fuel out (skipWs rest) = objectLoop doubles length fuel out rest := by
  cases fuel with
  | zero => rfl
  | succ fuel => simp only [objectLoop, skipWs_skipWs]

theorem parseValue_blank {ws : Utf16} (h : Blank ws) (fuel : Nat) (rest : Utf16) :
    parseValue doubles length fuel (ws ++ rest) = parseValue doubles length fuel rest := by
  rw [← parseValue_skipWs, skipWs_blank h, parseValue_skipWs]

theorem colon_eq (depth : Depth) : ∃ ws, Blank ws ∧ colon depth = ch ':' :: ws := by
  unfold colon
  split
  · exact ⟨[], nofun, rfl⟩
  · refine ⟨[ch ' '], ?_, rfl⟩
    intro c hc
    rw [mem_singleton.mp hc]
    decide

theorem put_of_notMem {out : List (Utf16 × Value F)} {key : Utf16} (h : key ∉ out.map Prod.fst)
    (v : Value F) : put out key v = out ++ [(key, v)] := if_neg h

structure ReadsAs (doubles : Doubles F) (length : Nat) (v : Value F) (text : Utf16) : Prop where
  head : ∃ c cs, text = c :: cs ∧ isWhitespace c = false ∧ c ≠ ch ']'
  read : ∀ fuel rest, 2 * text.length + 1 ≤ fuel → Delimited rest →
    parseValue doubles length fuel (text ++ rest) = .ok (v, rest)

def ValueReads (doubles : Doubles F) (length : Nat) (v : Value F) : Prop :=
  v.Plain → ∀ depth, ∃ text, writeValue doubles depth v = some text ∧ ReadsAs doubles length v text

/-! ### Scalars -/

theorem succ_of_lt {fuel : Nat} (h : n + 1 ≤ fuel) : ∃ k, fuel = k + 1 ∧ n ≤ k :=
  ⟨fuel - 1, by omega, by omega⟩

theorem valueReads_of_token {v : Value F} (c : UInt16) (cs : Utf16)
    (hwrite : ∀ depth, writeValue doubles depth v = some (c :: cs)) (hc : isWhitespace c = false)
    (hne : c ≠ ch ']') (hread : ∀ fuel rest, Delimited rest →
      parseValue doubles length (fuel + 1) (c :: (cs ++ rest)) = .ok (v, rest)) :
    ValueReads doubles length v := by
  intro _ depth
  refine ⟨c :: cs, hwrite depth, ⟨c, cs, rfl, hc, hne⟩, ?_⟩
  intro fuel rest hfuel hrest
  obtain ⟨fuel, rfl, -⟩ := succ_of_lt hfuel
  exact hread fuel rest hrest

theorem valueReads_null : ValueReads doubles length .null := by
  refine valueReads_of_token (ch 'n') (chars "ull") (fun _ => rfl) (by decide) (by decide) ?_
  intro fuel rest _
  rw [parseValue, skipWs_cons (by decide)]
  dsimp only
  rw [if_neg (by decide), if_neg (by decide), if_neg (by decide),
    if_neg (by decide), if_pos rfl]
  exact if_pos (prefix_append (chars "null") rest)

theorem valueReads_bool (b : Bool) : ValueReads doubles length (.bool b) := by
  cases b with
  | true =>
    refine valueReads_of_token (ch 't') (chars "rue") (fun _ => rfl) (by decide) (by decide) ?_
    intro fuel rest _
    rw [parseValue, skipWs_cons (by decide)]
    dsimp only
    rw [if_neg (by decide), if_neg (by decide), if_neg (by decide),
      if_pos (by decide)]
    exact if_pos (prefix_append (chars "true") rest)
  | false =>
    refine valueReads_of_token (ch 'f') (chars "alse") (fun _ => rfl) (by decide) (by decide) ?_
    intro fuel rest _
    have hnot : ¬ chars "true" <+: ch 'f' :: (chars "alse" ++ rest) := fun h =>
      absurd (cons_prefix_cons.mp h).1 (by decide)
    rw [parseValue, skipWs_cons (by decide)]
    dsimp only
    rw [if_neg (by decide), if_neg (by decide), if_neg (by decide),
      if_pos (by decide), parseBoolean, if_neg hnot]
    exact if_pos (prefix_append (chars "false") rest)

theorem valueReads_str (s : Utf16) : ValueReads doubles length (.str s) := by
  refine valueReads_of_token (ch '"') (s.flatMap escapeUnit ++ [ch '"']) (fun _ => rfl) (by decide)
    (by decide) ?_
  intro fuel rest _
  rw [parseValue, skipWs_cons (by decide)]
  have hread : parseString length (ch '"' :: (s.flatMap escapeUnit ++ [ch '"'] ++ rest)) =
      .ok (s, rest) := parseString_writeString length s rest
  dsimp only
  rw [hread]
  rfl

theorem repr_head (n : Int64) : ∃ c cs, chars n.toInt.repr = c :: cs ∧
    isWhitespace c = false ∧ c ∉ chars "]\x7b[\"tfn" := by
  have hdigit : ∀ d < 10, isWhitespace (ch (Char.ofNat (48 + d))) = false ∧
      ch (Char.ofNat (48 + d)) ∉ chars "]\x7b[\"tfn" := by decide +kernel
  rcases chars_repr n with ⟨k, -, hk⟩ | ⟨k, -, hk⟩
  · obtain ⟨c, cs, hcs⟩ := exists_cons_of_ne_nil (Nat.toDigits_ne_nil (b := 10) (n := k))
    obtain ⟨hlt, hchar⟩ := ofNat_of_isDigit (isDigit_toDigits (hcs ▸ mem_cons_self))
    have hfacts := hdigit (c.toNat - 48) hlt
    rw [hchar] at hfacts
    exact ⟨ch c, cs.map ch, by rw [hk, numeral, hcs]; rfl, hfacts⟩
  · exact ⟨ch '-', numeral k, hk, by decide, by decide⟩

theorem valueReads_num (n : Int64) : ValueReads doubles length (.num n) := by
  obtain ⟨c, cs, htext, hc, hother⟩ := repr_head n
  have hne : ∀ c' ∈ chars "]\x7b[\"tfn", c ≠ c' := fun c' hc' he => hother (he ▸ hc')
  refine valueReads_of_token c cs (fun _ => by rw [writeValue, htext]) hc (hne _ (by decide)) ?_
  intro fuel rest hrest
  have hbool : ¬ (c = ch 't' ∨ c = ch 'f') :=
    fun h => h.elim (hne _ (by decide)) (hne _ (by decide))
  rw [parseValue, skipWs_cons hc]
  dsimp only
  rw [if_neg (hne _ (by decide)), if_neg (hne _ (by decide)),
    if_neg (hne _ (by decide)), if_neg hbool, if_neg (hne _ (by decide))]
  have hread := parseNumber_repr doubles length n hrest
  rwa [htext] at hread

/-! ### Containers -/

section containers

variable {α : Type} {Q : List α → Prop}
  {loop : Nat → List α → Utf16 → Except ParseError (List α × Utf16)} {closing : UInt16}

/--
The text starts an item, and one turn of the loop reads it. The loop may count on `Q` for the items
before and behind it.
-/
structure ReadsItem (Q : List α → Prop)
    (loop : Nat → List α → Utf16 → Except ParseError (List α × Utf16)) (closing : UInt16)
    (a : α) (text : Utf16) : Prop where
  head : ∃ c cs, text = c :: cs ∧ isWhitespace c = false ∧ c ≠ closing
  read : ∀ depth fuel out more rest, 2 * text.length + 1 ≤ fuel → Delimited rest →
    Q (out ++ a :: more) → loop (fuel + 1) out (newlineIndent depth ++ (text ++ rest)) =
      separator closing (loop fuel (out ++ [a])) (out ++ [a]) rest

structure Closes (c : UInt16) : Prop where
  blank : isWhitespace c = false
  number : isNumberPart c = false
  comma : c ≠ ch ','

theorem delimited_separated (hclose : Closes closing) (depth outer : Depth) (texts : List Utf16)
    (rest : Utf16) :
    Delimited (separated depth false texts ++ (newlineIndent outer ++ closing :: rest)) := by
  cases texts with
  | nil => exact delimited_newlineIndent outer hclose.number rest
  | cons text texts =>
    intro c hc
    cases hc
    decide

theorem separator_separated (hclose : Closes closing) (depth outer : Depth) {as : List α}
    {texts : List Utf16} (h : List.Forall₂ (ReadsItem Q loop closing) as texts) {fuel : Nat}
    {out : List α} (rest : Utf16) (hQ : Q (out ++ as))
    (hfuel : 2 * (separated depth false texts).length ≤ fuel) :
    separator closing (loop fuel out) out
        (separated depth false texts ++ (newlineIndent outer ++ closing :: rest)) =
      .ok (out ++ as, rest) := by
  induction h generalizing fuel out with
  | nil =>
    have hskip := skipWs_close outer hclose.blank rest
    simp [separator, separated, hskip, next, hclose.comma, bind, Except.bind]
  | @cons a text as texts hitem _ ih =>
    have hlt : 2 * text.length + 2 ≤ fuel := by
      simp [separated, comma] at hfuel
      omega
    obtain ⟨fuel, rfl, hle⟩ := succ_of_lt hlt
    have hread := hitem.read depth fuel out as _ hle
      (delimited_separated hclose depth outer texts rest) hQ
    rw [ih (by simpa using hQ) (by simp [separated, comma] at hfuel; omega)] at hread
    have hskip := skipWs_cons (c := ch ',') (by decide)
    simp [separator, separated, comma, hskip, next, bind, Except.bind, hread]

theorem loop_separated (hclose : Closes closing) (depth outer : Depth) {a : α} {as : List α}
    {text : Utf16} {texts : List Utf16} (hitem : ReadsItem Q loop closing a text)
    (h : List.Forall₂ (ReadsItem Q loop closing) as texts) {fuel : Nat} (rest : Utf16)
    (hQ : Q (a :: as)) (hfuel : 2 * (separated depth true (text :: texts)).length + 2 ≤ fuel) :
    loop fuel [] (separated depth true (text :: texts) ++ (newlineIndent outer ++ closing :: rest)) =
      .ok (a :: as, rest) := by
  have hlength : (separated depth true (text :: texts)).length =
      (newlineIndent depth).length + (text.length + (separated depth false texts).length) := by
    simp [separated, comma]
  have hlt : 2 * text.length + 2 ≤ fuel := by omega
  obtain ⟨fuel, rfl, hle⟩ := succ_of_lt hlt
  have hread := hitem.read depth fuel [] as _ hle
    (delimited_separated hclose depth outer texts rest) hQ
  rw [separator_separated hclose depth outer h rest hQ (by omega)] at hread
  simpa [separated, comma] using hread

/-- **A container is read back if its items are.** -/
theorem readsAs_container {opening : UInt16} {make : List α → Value F} (hclose : Closes closing)
    (hopen : isWhitespace opening = false ∧ opening ≠ ch ']')
    (hvalue : ∀ fuel rest, parseValue doubles length (fuel + 1) (opening :: rest) =
      parseContainer length opening closing make (loop fuel []) (opening :: rest))
    (hloop : ∀ fuel out rest, loop fuel out (skipWs rest) = loop fuel out rest) (depth : Depth)
    {as : List α} {texts : List Utf16} (h : List.Forall₂ (ReadsItem Q loop closing) as texts)
    (hQ : Q as) :
    ReadsAs doubles length (make as) (container opening closing depth texts) := by
  cases h with
  | nil =>
    refine ⟨⟨opening, [closing], rfl, hopen⟩, fun fuel rest hfuel _ => ?_⟩
    obtain ⟨fuel, rfl, -⟩ := succ_of_lt hfuel
    have hskip := skipWs_cons hclose.blank rest
    simp [container, hvalue, parseContainer, expect, next, peek, hskip, bind, Except.bind]
  | @cons a text as texts hitem hitems =>
    refine ⟨⟨opening, _, rfl, hopen⟩, fun fuel rest hfuel _ => ?_⟩
    obtain ⟨c, cs, htext, hc, hne⟩ := hitem.head
    simp only [container, reduceCtorEq, if_false, length_append, length_cons] at hfuel
    obtain ⟨fuel, rfl, hle⟩ := succ_of_lt hfuel
    have hread := @loop_separated _ _ loop closing hclose (nextDepth depth) depth _ _ _ _ hitem
      hitems fuel rest hQ (by omega)
    have hskip : ∃ tail, skipWs (separated (nextDepth depth) true (text :: texts) ++
        (newlineIndent depth ++ closing :: rest)) = c :: tail := by
      simp only [separated, htext, append_assoc]
      exact ⟨_, (skipWs_blank (blank_newlineIndent _)).trans (skipWs_cons hc _)⟩
    obtain ⟨tail, hskip⟩ := hskip
    rw [← hloop, hskip] at hread
    simp [container, hvalue, parseContainer, expect, next, peek, hskip, hne, hread, bind,
      Except.bind]

end containers

theorem closes_bracket : Closes (ch ']') := ⟨by decide, by decide, by decide⟩
theorem closes_brace : Closes (ch '\x7d') := ⟨by decide, by decide, by decide⟩

def ItemsRead (doubles : Doubles F) (length : Nat) (vs : List (Value F)) : Prop :=
  PlainItems vs → ∀ depth, ∃ texts, writeItems doubles depth vs = some texts ∧
    List.Forall₂ (ReadsItem (fun _ => True) (arrayLoop doubles length) (ch ']')) vs texts

def MembersRead (doubles : Doubles F) (length : Nat) (ms : List (Utf16 × Value F)) : Prop :=
  PlainMembers ms → ∀ depth, ∃ texts, writeMembers doubles depth ms = some texts ∧
    List.Forall₂ (ReadsItem (fun ms => (ms.map Prod.fst).Nodup) (objectLoop doubles length)
      (ch '\x7d')) ms texts

theorem readsItem_item {text : Utf16} (h : ReadsAs doubles length v text) :
    ReadsItem (fun _ => True) (arrayLoop doubles length) (ch ']') v text := by
  refine ⟨h.head, fun depth fuel out more rest hfuel hrest _ => ?_⟩
  rw [arrayLoop, parseValue_blank (blank_newlineIndent depth), h.read fuel rest hfuel hrest]
  rfl

variable {k : Utf16}

theorem readsItem_member {text : Utf16} (inner : Depth) (h : ReadsAs doubles length v text) :
    ReadsItem (fun ms => (ms.map Prod.fst).Nodup) (objectLoop doubles length) (ch '\x7d') (k, v)
      (writeString k ++ (colon inner ++ text)) := by
  refine ⟨⟨ch '"', _, rfl, by decide, by decide⟩, fun depth fuel out more rest hfuel hrest hnd => ?_⟩
  obtain ⟨ws, hws, hcolon⟩ := colon_eq inner
  have hkey : k ∉ out.map Prod.fst := by
    intro hmem
    rw [map_append, nodup_append] at hnd
    exact hnd.2.2 k hmem k mem_cons_self rfl
  have hquote : skipWs (writeString k ++ (colon inner ++ (text ++ rest))) =
      writeString k ++ (colon inner ++ (text ++ rest)) := skipWs_cons (by decide) _
  have hexpect : expect length (ch ':') (skipWs (colon inner ++ (text ++ rest))) =
      .ok (ws ++ (text ++ rest)) := by
    rw [hcolon, cons_append, skipWs_cons (by decide)]
    simp [expect, next, bind, Except.bind]
  have hlength : 2 * text.length + 1 ≤ fuel := by
    simp only [length_append] at hfuel
    omega
  rw [objectLoop, append_assoc, append_assoc, skipWs_blank (blank_newlineIndent depth),
    hquote, parseString_writeString, ok_bind]
  dsimp only
  rw [hexpect, ok_bind, parseValue_blank hws, h.read fuel rest hlength hrest, ok_bind]
  rw [put_of_notMem hkey]

variable {vs : List (Value F)}

theorem itemsRead_cons (hv : ValueReads doubles length v) (hvs : ItemsRead doubles length vs) :
    ItemsRead doubles length (v :: vs) := by
  intro hplain depth
  obtain ⟨text, htext, hread⟩ := hv hplain.1 depth
  obtain ⟨texts, htexts, hreads⟩ := hvs hplain.2 depth
  exact ⟨text :: texts, by simp [writeItems, htext, htexts], .cons (readsItem_item hread) hreads⟩

variable {ms : List (Utf16 × Value F)}

theorem membersRead_cons (hv : ValueReads doubles length v) (hms : MembersRead doubles length ms) :
    MembersRead doubles length ((k, v) :: ms) := by
  intro hplain depth
  obtain ⟨text, htext, hread⟩ := hv hplain.1 depth
  obtain ⟨texts, htexts, hreads⟩ := hms hplain.2 depth
  refine ⟨_ :: texts, ?_, .cons (readsItem_member depth hread) hreads⟩
  simp [writeMembers, htext, htexts]

theorem valueReads_arr (h : ItemsRead doubles length vs) :
    ValueReads doubles length (.arr vs) := by
  intro hplain depth
  obtain ⟨texts, htexts, hreads⟩ := h hplain (nextDepth depth)
  refine ⟨_, by rw [writeValue, htexts]; rfl, ?_⟩
  refine readsAs_container closes_bracket ⟨by decide, by decide⟩ (fun fuel rest => ?_)
    arrayLoop_skipWs depth hreads trivial
  rfl

theorem valueReads_obj (h : MembersRead doubles length ms) :
    ValueReads doubles length (.obj ms) := by
  intro hplain depth
  obtain ⟨texts, htexts, hreads⟩ := h hplain.2 (nextDepth depth)
  refine ⟨_, by rw [writeValue, htexts]; rfl, ?_⟩
  refine readsAs_container closes_brace ⟨by decide, by decide⟩ (fun fuel rest => ?_)
    objectLoop_skipWs depth hreads hplain.1
  rfl

mutual
/-- **Every value is read back from its text.** -/
theorem valueReads (doubles : Doubles F) (length : Nat) : ∀ v, ValueReads doubles length v
  | .null => valueReads_null
  | .bool b => valueReads_bool b
  | .num n => valueReads_num n
  | .dbl _ => fun hplain => absurd hplain (by rw [Value.Plain]; exact id)
  | .str s => valueReads_str s
  | .arr vs => valueReads_arr (itemsRead doubles length vs)
  | .obj ms => valueReads_obj (membersRead doubles length ms)
theorem itemsRead (doubles : Doubles F) (length : Nat) : ∀ vs, ItemsRead doubles length vs
  | [] => fun _ _ => ⟨[], by rw [writeItems], .nil⟩
  | v :: vs => itemsRead_cons (valueReads doubles length v) (itemsRead doubles length vs)
theorem membersRead (doubles : Doubles F) (length : Nat) : ∀ ms, MembersRead doubles length ms
  | [] => fun _ _ => ⟨[], by rw [writeMembers], .nil⟩
  | (_, v) :: ms => membersRead_cons (valueReads doubles length v) (membersRead doubles length ms)
end

end roundtrip

/-- **A plain tree is read back from its text, with indentation and without.** -/
theorem parse_write (doubles : Doubles F) (hv : v.Plain) (indent : Bool) :
    ∃ text, write doubles v indent = some text ∧ parse doubles text = .ok v := by
  obtain ⟨text, hwrite, ⟨c, cs, hhead, hc, -⟩, -⟩ :=
    valueReads doubles 0 v hv (if indent then some 0 else none)
  obtain ⟨text', hwrite', -, hread⟩ :=
    valueReads doubles text.length v hv (if indent then some 0 else none)
  obtain rfl : text = text' := Option.some.inj (hwrite.symm.trans hwrite')
  have hall := hread (2 * text.length + 1) [] (Nat.le_refl _) nofun
  rw [append_nil] at hall
  have hskip : skipWs text = text := by rw [hhead, skipWs_cons hc]
  refine ⟨text, hwrite, ?_⟩
  rw [parse, hskip, hall]
  rfl

end Kseal.KotlinJson
