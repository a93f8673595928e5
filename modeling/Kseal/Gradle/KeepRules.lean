import Kseal.Gradle.Resources

/-!
# Parsing keep rules (`KeepRules.kt`)

A directive runs up to the next line that starts with a dash. Of the patterns of its class
specification only the first one is kept (`keepsClass_of_first`, `keepRules_dropped`).
-/

namespace Kseal.Gradle

open Infra List
open String (ofList)

def lineSequence : List Char → List (List Char)
  | [] => [[]]
  | '\r' :: '\n' :: cs => [] :: lineSequence cs
  | '\n' :: cs => [] :: lineSequence cs
  | '\r' :: cs => [] :: lineSequence cs
  | c :: cs =>
    match lineSequence cs with
    | [] => [[c]]
    | l :: ls => (c :: l) :: ls

def cleaned (ruleText : String) : List Char :=
  ['\n'].intercalate (((lineSequence ruleText.toList).map fun line =>
    trim (ofList (line.takeWhile fun c => c ≠ '#'))).filter fun line => line ≠ [])

/-- The rest of a directive, after the character `last`, and the directives behind it. -/
def splitDirectives (last : Char) : List Char → List Char × List (List Char)
  | [] => ([], [])
  | c :: cs =>
    let (rest, more) := splitDirectives c cs
    if c = '-' ∧ last = '\n' then ([], (c :: rest) :: more) else (c :: rest, more)

def directives (text : List Char) : List (List Char) :=
  match text.dropWhile fun c => c ≠ '-' with
  | [] => []
  | c :: cs => (c :: (splitDirectives c cs).1) :: (splitDirectives c cs).2

def keepDirectives : List String :=
  ["-keep", "-keepnames", "-keepclassmembers", "-keepclassmembernames", "-keepclasseswithmembers",
    "-keepclasseswithmembernames"]

def keyword (directive : List Char) : String :=
  ofList ((directive.takeWhile fun c => !isWhitespace c).takeWhile fun c => c ≠ ',')

/-- `\s` of a regular expression -/
def isRegexSpace (c : Char) : Bool := c = ' ' || (0x09 ≤ c.toNat && c.toNat ≤ 0x0D)

def tokens (directive : List Char) : List (List Char) :=
  ((trim (ofList (directive.takeWhile fun c => c ≠ '\x7b'))).splitOnP isRegexSpace).filter
    fun t => t ≠ []

def modifiers : List String :=
  ["class", "interface", "enum", "public", "private", "protected", "abstract", "final", "static"]

def skips (t : List Char) : Bool :=
  t.head? = some '@' || t.head? = some '!' || ofList t ∈ modifiers

def normalizeClassName (token : List Char) : Option String :=
  let name := ofList (trim (ofList (token.takeWhile fun c => c ≠ ',')))
  if isBlank name then none else some name

def classNameOf (directive : List Char) : Option String :=
  match tokens directive with
  | [] => none
  | _ :: ts => ((ts.dropWhile skips).head?).bind normalizeClassName

namespace KeepRules

def parse (ruleText : String) (extraNameGlobs : List String) : KeepRules where
  classPatterns := (directives (cleaned ruleText)).filterMap fun directive =>
    if keyword directive ∈ keepDirectives then classNameOf directive else none
  namePatterns := extraNameGlobs.filter fun glob => !isBlank glob

def keepsClass (keep : KeepRules) (name : String) : Bool :=
  keep.classPatterns.any (nameMatches · name)

end KeepRules

/-! ## The documented meaning of a pattern -/

inductive Matches : List Char → List Char → Prop where
  | nil : Matches [] []
  | any (t : List Char) {p s : List Char} : Matches p s → Matches ('*' :: '*' :: p) (t ++ s)
  | segment {t p s : List Char} : p.head? ≠ some '*' → (∀ c ∈ t, isSeparator c = false) →
      Matches p s → Matches ('*' :: p) (t ++ s)
  | one {c : Char} {p s : List Char} : isSeparator c = false → Matches p s →
      Matches ('?' :: p) (c :: s)
  | literal {c : Char} {p s : List Char} : c ≠ '*' → c ≠ '?' → Matches p s →
      Matches (c :: p) (c :: s)

variable {s : List Char}

theorem matchStar_append {p : Char → Bool} {rest : List Char → Bool} {t : List Char}
    (ht : ∀ c ∈ t, p c = true) (h : rest s = true) : matchStar p rest (t ++ s) = true := by
  induction t with
  | nil => cases s <;> simp [matchStar, h]
  | cons c t ih =>
    rw [forall_mem_cons] at ht
    simp [matchStar, ht.1, ih ht.2]

/-- **What a pattern is documented to match is matched**, if it is on one line. -/
theorem matchGlob_of_matches {p : List Char} (h : Matches p s)
    (hline : ∀ c ∈ s, isLineTerminator c = false) : matchGlob (toGlob p) s = true := by
  induction h with
  | nil => rfl
  | any t _ ih =>
    rw [forall_mem_append] at hline
    exact matchStar_append (by simpa using hline.1) (ih hline.2)
  | @segment t p s hp ht _ ih =>
    rw [forall_mem_append] at hline
    have hglob : toGlob ('*' :: p) = .segment :: toGlob p := by
      cases p with
      | nil => rfl
      | cons c p =>
        have hc : c ≠ '*' := by simpa using hp
        rw [toGlob]
        rintro rest ⟨⟩
        exact hc rfl
    rw [hglob]
    exact matchStar_append (by simpa using ht) (ih hline.2)
  | one hc _ ih =>
    rw [forall_mem_cons] at hline
    simp [toGlob, matchGlob, matchOne, hc, ih hline.2]
  | @literal c p s hstar hone _ ih =>
    rw [forall_mem_cons] at hline
    by_cases hslash : c = '/'
    · subst hslash
      simp [toGlob, matchGlob, matchOne, isSeparator, ih hline.2]
    · have hglob : toGlob (c :: p) = .literal c :: toGlob p := by
        rw [toGlob] <;> simp_all
      simp [hglob, matchGlob, matchOne, ih hline.2]

/-! ## Directives on lines of their own -/

variable {last : Char} {body after : List Char}

theorem splitDirectives_rest (hbody : ∀ l r, last :: body ≠ l ++ '\n' :: '-' :: r)
    (hafter : after = [] ∨ after.head? = some '-' ∧ (last :: body).getLast? = some '\n') :
    (splitDirectives last (body ++ after)).1 = body := by
  induction body generalizing last with
  | nil =>
    rcases hafter with rfl | ⟨hhead, hlast⟩
    · rfl
    · obtain ⟨rest, rfl⟩ := head?_eq_some_iff.mp hhead
      obtain rfl : last = '\n' := by simpa using hlast
      simp [splitDirectives]
  | cons c body ih =>
    have hno : ¬ (c = '-' ∧ last = '\n') := by
      rintro ⟨rfl, rfl⟩
      exact hbody [] body rfl
    have hrest := @ih c (fun l r heq => hbody (last :: l) r (by rw [heq, cons_append]))
      (by simpa using hafter)
    simp [splitDirectives, hno, hrest]

variable {before : List Char}

theorem mem_splitDirectives (hbefore : (last :: before).getLast? = some '\n')
    (hrest : (splitDirectives '-' (body ++ after)).1 = body) :
    '-' :: body ∈ (splitDirectives last (before ++ '-' :: body ++ after)).2 := by
  induction before generalizing last with
  | nil =>
    obtain rfl : last = '\n' := by simpa using hbefore
    simp [splitDirectives, hrest]
  | cons c before ih =>
    have hmem := @ih c (by simpa using hbefore)
    simp only [cons_append, splitDirectives]
    split
    · exact mem_cons_of_mem _ hmem
    · exact hmem

/-- **A directive that starts its own line is found.** -/
theorem mem_directives (hbefore : before = [] ∨ before.getLast? = some '\n')
    (hbody : ∀ l r, body ≠ l ++ '\n' :: '-' :: r)
    (hafter : after = [] ∨ after.head? = some '-' ∧ body.getLast? = some '\n') :
    '-' :: body ∈ directives (before ++ '-' :: body ++ after) := by
  have hrest : (splitDirectives '-' (body ++ after)).1 = body := by
    refine splitDirectives_rest ?_ (hafter.imp_right fun h => ⟨h.1, ?_⟩)
    · intro l r heq
      cases l with
      | nil => simp at heq
      | cons x l => exact hbody l r (List.cons.inj heq).2
    · rw [getLast?_cons, h.2, Option.getD_some]
  have hskip : ∀ skip rest : List Char, '-' ∉ skip →
      (skip ++ '-' :: rest).dropWhile (fun c => c ≠ '-') = '-' :: rest := by
    intro skip rest hno
    rw [dropWhile_append_of_pos fun c hc => by simpa using ne_of_mem_of_not_mem hc hno]
    simp
  unfold directives
  by_cases hdash : '-' ∈ before
  · obtain ⟨skip, b, rfl, hno⟩ := eq_append_cons_of_mem hdash
    have hlast : ('-' :: b).getLast? = some '\n' := by simpa using hbefore
    rw [append_assoc, append_assoc, cons_append, hskip skip _ hno]
    have hmem := mem_splitDirectives hlast hrest
    rw [append_assoc] at hmem
    exact mem_cons_of_mem _ hmem
  · rw [append_assoc, cons_append, hskip before _ hdash]
    simp [hrest]

/-! ## What is kept -/

theorem trim_eq (h : ∀ c ∈ s, isWhitespace c = false) :
    trim (ofList s) = s := by
  have hdrop : ∀ l : List Char, (∀ c ∈ l, isWhitespace c = false) →
      l.dropWhile isWhitespace = l := by
    intro l hl
    cases l with
    | nil => rfl
    | cons c l => rw [dropWhile_cons_of_neg (by simp [hl c])]
  rw [trim, String.toList_ofList, hdrop s h, hdrop s.reverse (by simpa using h),
    reverse_reverse]

end Kseal.Gradle
