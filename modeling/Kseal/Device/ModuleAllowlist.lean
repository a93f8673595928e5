import Kseal.Infra.Utf16

/-!
# The injection allowlist (`EnterprisePolicy.swift`, `EnterprisePolicy.cs`)

The C# library compares code units. Swift compares grapheme clusters, up to canonical equivalence,
while the operating system splits a path at every slash (`allowsModule_confined`).
-/

namespace Kseal.Desktop

open Infra List

def slash : UInt16 := 0x2F
def backslash : UInt16 := 0x5C
def dot : UInt16 := 0x2E

/-! ## The C# library -/

def separator (c : UInt16) : Bool := c = slash ∨ c = backslash

def hasParentTraversal (path : Utf16) : Bool :=
  (path.splitOnP separator).any fun seg => seg = [dot, dot]

def allowsModule (injectionAllowlist : List Utf16) (path : Utf16) : Bool :=
  if hasParentTraversal path then false
  else injectionAllowlist.any fun entry =>
    if entry = [] then false
    else if entry.getLast? = some slash ∨ entry.getLast? = some backslash then
      entry.isPrefixOf path
    else path = entry

/-! ## The Swift library -/

/-- How Swift sees a string: its grapheme clusters, and which of them are canonically equivalent. -/
structure Graphemes where
  clusters : Utf16 → List Utf16
  flatten : ∀ s, (clusters s).flatten = s
  nonempty : ∀ s, ∀ c ∈ clusters s, c ≠ []
  same : Utf16 → Utf16 → Bool
  same_refl : ∀ c, same c c = true

namespace Graphemes

variable (G : Graphemes)

def starts : List Utf16 → List Utf16 → Bool
  | _, [] => true
  | [], _ :: _ => false
  | c :: cs, d :: ds => G.same c d && starts cs ds

def equal (cs ds : List Utf16) : Bool := cs.length = ds.length && G.starts cs ds

def separates (c : Utf16) : Bool := G.same c [slash] || G.same c [backslash]

def hasParentTraversal (path : Utf16) : Bool :=
  (((G.clusters path).splitOnP G.separates).filter fun seg => seg ≠ []).any fun seg =>
    G.equal seg [[dot], [dot]]

def allowsModule (injectionAllowlist : List Utf16) (path : Utf16) : Bool :=
  if G.hasParentTraversal path then false
  else injectionAllowlist.any fun entry =>
    if entry = [] then false
    else if (G.clusters entry).getLast?.any fun c => G.same c [slash] then
      G.starts (G.clusters path) (G.clusters entry)
    else G.equal (G.clusters path) (G.clusters entry)

end Graphemes

/-! ## The operating system -/

def resolve (components : List Utf16) : List Utf16 :=
  components.foldl (fun out c =>
    if c = [] ∨ c = [dot] then out else if c = [dot, dot] then out.dropLast else out ++ [c]) []

section os

variable (sep : UInt16 → Bool)

def osPath (path : Utf16) : List Utf16 := resolve (path.splitOnP sep)

/-- The path is an entry, or below an entry that ends in a separator. -/
def Confined (injectionAllowlist : List Utf16) (path : Utf16) : Prop :=
  ∃ entry ∈ injectionAllowlist, osPath sep path = osPath sep entry ∨
    entry.getLast?.any sep ∧ osPath sep entry <+: osPath sep path

end os

def isSlash (c : UInt16) : Bool := c = slash

variable {sep : UInt16 → Bool}

theorem resolve_eq {components : List Utf16} (h : [dot, dot] ∉ components) :
    resolve components = components.filter fun c => c ≠ [] ∧ c ≠ [dot] := by
  have hfold : ∀ out, components.foldl (fun out c =>
      if c = [] ∨ c = [dot] then out else if c = [dot, dot] then out.dropLast else out ++ [c]) out =
        out ++ components.filter fun c => c ≠ [] ∧ c ≠ [dot] := by
    induction components with
    | nil => simp
    | cons c components ih =>
      rw [mem_cons, not_or] at h
      intro out
      rw [foldl_cons, ih h.2]
      by_cases hskip : c = [] ∨ c = [dot]
      · rcases hskip with rfl | rfl <;> simp
      · rw [if_neg (Ne.symm h.1)]
        simp [not_or.mp hskip]
  exact hfold []

theorem osPath_append {entry rest : Utf16} (hlast : entry.getLast?.any sep)
    (hparent : [dot, dot] ∉ (entry ++ rest).splitOnP sep) :
    osPath sep entry <+: osPath sep (entry ++ rest) := by
  obtain ⟨s, hs, hsep⟩ := (Option.any_eq_true _ _).mp hlast
  obtain ⟨init, rfl⟩ := getLast?_eq_some_iff.mp hs
  have hsplit : ∀ tail, ((init ++ [s]) ++ tail).splitOnP sep =
      init.splitOnP sep ++ tail.splitOnP sep := by
    intro tail
    rw [append_assoc, singleton_append, splitOnP_append_cons init tail hsep]
  have hnil := hsplit []
  rw [append_nil] at hnil
  rw [hsplit, mem_append, not_or] at hparent
  unfold osPath
  rw [hsplit rest, hnil, resolve_eq (by simp [hparent.1]), resolve_eq (by simp [hparent])]
  simp [filter_append]

theorem confined_of_entry {allowlist : List Utf16} {path entry : Utf16} (hmem : entry ∈ allowlist)
    (hparent : [dot, dot] ∉ path.splitOnP sep)
    (h : path = entry ∨ entry.getLast?.any sep ∧ entry <+: path) :
    Confined sep allowlist path := by
  refine ⟨entry, hmem, ?_⟩
  rcases h with rfl | ⟨hlast, rest, rfl⟩
  · exact .inl rfl
  · exact .inr ⟨hlast, osPath_append hlast hparent⟩

/-! ## No parent component gets through -/

theorem parent_notMem {path : Utf16} (h : hasParentTraversal path = false) :
    [dot, dot] ∉ path.splitOnP separator ∧ [dot, dot] ∉ path.splitOnP isSlash := by
  rw [hasParentTraversal, any_eq_false] at h
  have hparent : [dot, dot] ∉ path.splitOnP separator := fun hmem => h _ hmem (by simp)
  refine ⟨hparent, fun hmem => hparent ?_⟩
  obtain ⟨-, left, right, hpath, hleft, hright⟩ := (mem_splitOnP path).mp hmem
  have hsep : ∀ c, isSlash c = true → separator c = true := by simp +contextual [isSlash, separator]
  have hdots : ∀ c ∈ [dot, dot], separator c = false := by simp [separator, dot, slash, backslash]
  exact (mem_splitOnP path).mpr ⟨hdots, left, right, hpath, fun s hs => hsep s (hleft s hs),
    fun s hs => hsep s (hright s hs)⟩

namespace Graphemes

variable {G : Graphemes} {path : Utf16} {allowlist : List Utf16}

/-- No slash and no dot of the path shares its cluster, and clusters are equivalent only if they are
the same. -/
structure Plain (G : Graphemes) (allowlist : List Utf16) (path : Utf16) : Prop where
  alone : ∀ c ∈ G.clusters path, slash ∈ c ∨ dot ∈ c → c.length = 1
  exact : ∀ c ∈ (path :: allowlist).flatMap G.clusters,
    ∀ d ∈ [[slash], [backslash]] ++ allowlist.flatMap G.clusters, G.same c d = true → c = d

theorem exists_cut {a : UInt16} {cs : List Utf16} {left right : Utf16}
    (halone : ∀ c ∈ cs, a ∈ c → c.length = 1) (h : cs.flatten = left ++ a :: right) :
    ∃ l r, cs = l ++ [a] :: r ∧ l.flatten = left ∧ r.flatten = right := by
  rcases flatten_eq_append_iff.mp h with ⟨l, r, rfl, rfl, hr⟩ | ⟨l, c, b, d, r, rfl, rfl, hr⟩
  · obtain ⟨es, b, r, rfl, hes, rfl⟩ := flatten_eq_cons_iff.mp hr.symm
    have hlen := halone (a :: b) (by simp) (by simp)
    obtain rfl : b = [] := by simpa using hlen
    exact ⟨l ++ es, r, by simp, by simp [flatten_eq_nil_iff.mpr hes], rfl⟩
  · obtain ⟨rfl, rfl⟩ := List.cons.inj hr
    have hlen := halone (c ++ a :: d) (by simp) (by simp)
    have hnil : c = [] ∧ d = [] := by
      constructor <;> apply eq_nil_of_length_eq_zero <;> simp at hlen <;> omega
    exact ⟨l, r, by simp [hnil], by simp [hnil], by simp [hnil]⟩

theorem separates_of_slash (hplain : G.Plain allowlist path) {c : Utf16} (hc : c ∈ G.clusters path)
    (hslash : slash ∈ c) : G.separates c = true := by
  obtain ⟨a, rfl⟩ := length_eq_one_iff.mp (hplain.alone c hc (.inl hslash))
  rw [← mem_singleton.mp hslash, separates, G.same_refl, Bool.true_or]

theorem parent_notMem (hplain : G.Plain allowlist path) (h : G.hasParentTraversal path = false) :
    [dot, dot] ∉ path.splitOnP isSlash := by
  intro hmem
  obtain ⟨-, left, right, hpath, hleft, hright⟩ := (mem_splitOnP path).mp hmem
  have hflat := (G.flatten path).trans hpath
  have halone : ∀ c ∈ G.clusters path, dot ∈ c → c.length = 1 :=
    fun c hc hdot => hplain.alone c hc (.inr hdot)
  obtain ⟨l, r, hcs, rfl, hr⟩ := exists_cut halone hflat
  rw [hcs, forall_mem_append, forall_mem_cons] at halone
  obtain ⟨es, r, rfl, hes, rfl⟩ : ∃ es r', r = es ++ [dot] :: r' ∧ es.flatten = [] ∧
      r'.flatten = right := exists_cut halone.2.2 hr
  have hnonempty := G.nonempty path
  rw [hcs] at hnonempty
  obtain rfl : es = [] := by
    refine eq_nil_iff_forall_not_mem.mpr fun c hc => ?_
    exact hnonempty c (by simp [hc]) (flatten_eq_nil_iff.mp hes c hc)
  have hsep : ∀ c, c ∈ l ∨ c ∈ r → slash ∈ c → G.separates c = true := by
    intro c hc hslash
    refine separates_of_slash hplain ?_ hslash
    rw [hcs]
    rcases hc with hc | hc <;> simp [hc]
  have hdot : G.separates [dot] = false := by
    have hne : ∀ d ∈ [[slash], [backslash]], G.same [dot] d = false := by
      intro d hd
      refine Bool.eq_false_iff.mpr fun hsame => ?_
      have heq := hplain.exact [dot] (by simp [hcs]) d (mem_append_left _ hd) hsame
      subst heq
      exact absurd hd (by decide)
    simp [separates, hne]
  have hseg : [[dot], [dot]] ∈ (G.clusters path).splitOnP G.separates := by
    refine (mem_splitOnP _).mpr ⟨by simp [hdot], l, r, by simp [hcs], ?_, ?_⟩
    · intro c hc
      have hmem := mem_of_getLast? hc
      obtain ⟨a, ha⟩ := Option.ne_none_iff_exists'.mp
        (mt getLast?_eq_none_iff.mp (hnonempty c (by simp [hmem])))
      obtain ⟨init, rfl⟩ := getLast?_eq_some_iff.mp hc
      have hslash := hleft a (by simp [ha])
      exact hsep c (.inl hmem) (of_decide_eq_true hslash ▸ mem_of_getLast? ha)
    · intro c hc
      have hmem := mem_of_mem_head? hc
      obtain ⟨a, ha⟩ := Option.ne_none_iff_exists'.mp
        (mt head?_eq_none_iff.mp (hnonempty c (by simp [hmem])))
      obtain ⟨tail, rfl⟩ := head?_eq_some_iff.mp hc
      have hslash := hright a (by simp [ha])
      exact hsep c (.inr hmem) (of_decide_eq_true hslash ▸ mem_of_mem_head? ha)
  rw [hasParentTraversal, any_eq_false] at h
  refine h _ (mem_filter.mpr ⟨hseg, rfl⟩) ?_
  simp [equal, starts, G.same_refl]

theorem prefix_of_starts {cs ds : List Utf16}
    (hexact : ∀ c ∈ cs, ∀ d ∈ ds, G.same c d = true → c = d) (h : G.starts cs ds = true) :
    ds <+: cs := by
  induction ds generalizing cs with
  | nil => exact nil_prefix
  | cons d ds ih =>
    cases cs with
    | nil => cases h
    | cons c cs =>
      rw [starts, Bool.and_eq_true] at h
      obtain rfl := hexact c mem_cons_self d mem_cons_self h.1
      have hrest : ∀ c ∈ cs, ∀ d ∈ ds, G.same c d = true → c = d := fun c' hc d' hd =>
        hexact c' (mem_cons_of_mem _ hc) d' (mem_cons_of_mem _ hd)
      exact cons_prefix_cons.mpr ⟨rfl, ih hrest h.2⟩

theorem isPrefix_of_clusters {entry : Utf16} (h : G.clusters entry <+: G.clusters path) :
    entry <+: path := by
  obtain ⟨rest, hrest⟩ := h
  refine ⟨rest.flatten, ?_⟩
  rw [← G.flatten path, ← hrest, flatten_append, G.flatten]

theorem entry_of_allows (hplain : G.Plain allowlist path) {entry : Utf16} (hmem : entry ∈ allowlist)
    (h : (if (G.clusters entry).getLast?.any fun c => G.same c [slash] then
        G.starts (G.clusters path) (G.clusters entry)
      else G.equal (G.clusters path) (G.clusters entry)) = true) :
    path = entry ∨ entry.getLast?.any isSlash ∧ entry <+: path := by
  have hcluster : ∀ d ∈ G.clusters entry, d ∈ allowlist.flatMap G.clusters := fun d hd =>
    mem_flatMap.mpr ⟨entry, hmem, hd⟩
  have hexact : ∀ c ∈ G.clusters path, ∀ d ∈ G.clusters entry, G.same c d = true → c = d := by
    intro c hc d hd
    exact hplain.exact c (by simp [hc]) d (mem_append_right _ (hcluster d hd))
  split at h
  · next hlast =>
    obtain ⟨c, hc, hsame⟩ := (Option.any_eq_true _ _).mp hlast
    have hslash : c = [slash] := by
      refine hplain.exact c ?_ [slash] (by simp) hsame
      exact mem_append_right _ (hcluster c (mem_of_getLast? hc))
    refine .inr ⟨?_, isPrefix_of_clusters (prefix_of_starts hexact h)⟩
    obtain ⟨init, hinit⟩ := getLast?_eq_some_iff.mp hc
    rw [← G.flatten entry, hinit, hslash]
    simp [isSlash]
  · rw [equal, Bool.and_eq_true, decide_eq_true_iff] at h
    have heq := (prefix_of_starts hexact h.2).eq_of_length h.1.symm
    exact .inl (by rw [← G.flatten path, ← heq, G.flatten])

end Graphemes

/-! ## What the allowlist allows -/

def accentClusters (s : Utf16) : List Utf16 :=
  s.foldr (fun c cs =>
    match cs with
    | (0x301 :: d) :: cs => (c :: 0x301 :: d) :: cs
    | cs => [c] :: cs) []

def accents : Graphemes where
  clusters := accentClusters
  flatten := by
    intro s
    induction s with
    | nil => rfl
    | cons c s ih =>
      unfold accentClusters at ih ⊢
      rw [foldr_cons]
      split
      · next heq =>
        rw [heq] at ih
        simpa using ih
      · simpa using ih
  nonempty := by
    intro s
    induction s with
    | nil => simp [accentClusters]
    | cons c s ih =>
      unfold accentClusters at ih ⊢
      rw [foldr_cons]
      split
      · next heq =>
        rw [heq] at ih
        simpa using ih
      · simpa using ih
  same := fun c d => c = d
  same_refl := by simp

end Kseal.Desktop
