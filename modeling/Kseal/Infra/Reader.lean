import Kseal.Infra.Bytes
import Kseal.Infra.Result

/-!
# Readers of byte strings

* `Reads r bs a` — `r` takes exactly `bs` and returns `a`, whatever follows
* `Yields r P` — what `r` returns satisfies `P`, whatever the bytes are
* `Local r` — what `r` returns depends only on the bytes it takes (`Local.prefix_free`)
-/

namespace Kseal.Infra

open List

abbrev Reader (ε α : Type) := StateT Bytes (Except ε) α

namespace Reader

variable {ε α β : Type}

def take (short : ε) (n : Nat) : Reader ε Bytes := fun bs =>
  if n ≤ bs.length then .ok (bs.take n, bs.drop n) else .error short

def u8 (short : ε) : Reader ε UInt8 := (fun bs => UInt8.ofNat (ofBe bs)) <$> take short 1
def u16 (short : ε) : Reader ε UInt16 := (fun bs => UInt16.ofNat (ofBe bs)) <$> take short 2
def u32 (short : ε) : Reader ε UInt32 := (fun bs => UInt32.ofNat (ofBe bs)) <$> take short 4
def u64 (short : ε) : Reader ε UInt64 := (fun bs => UInt64.ofNat (ofBe bs)) <$> take short 8

def require (c : Prop) [Decidable c] (e : ε) : Reader ε Unit :=
  if c then pure () else throw e

def many (r : Reader ε α) : Nat → Reader ε (List α)
  | 0 => pure []
  | n + 1 => do
    let a ← r
    let as ← many r n
    return a :: as

def Reads (r : Reader ε α) (bs : Bytes) (a : α) : Prop :=
  ∀ rest : Bytes, r (bs ++ rest) = .ok (a, rest)

def Yields (r : Reader ε α) (P : α → Prop) : Prop :=
  ∀ (bs rest : Bytes) (a : α), r bs = .ok (a, rest) → P a

def Local (r : Reader ε α) : Prop :=
  ∀ (bs rest : Bytes) (a : α), r bs = .ok (a, rest) → ∃ taken, bs = taken ++ rest ∧ Reads r taken a

/-! ## What a reader accepts -/

theorem Reads.pure (a : α) : Reads (Pure.pure a : Reader ε α) [] a := fun _ => rfl

variable {r : Reader ε α} {f : α → Reader ε β} {bs bs' : Bytes} {a : α} {b : β}

theorem Reads.bind (hr : Reads r bs a) (hf : Reads (f a) bs' b) :
    Reads (r >>= f) (bs ++ bs') b := by
  intro rest
  show (r (bs ++ bs' ++ rest) >>= fun p => f p.1 p.2) = _
  rw [append_assoc, hr, ok_bind]
  exact hf rest

theorem Reads.bind_nil (hr : Reads r bs a) (hf : Reads (f a) [] b) : Reads (r >>= f) bs b := by
  have h := hr.bind hf
  rwa [append_nil] at h

theorem Reads.require_bind {c : Prop} [Decidable c] {e : ε} {f : Unit → Reader ε β} (hc : c)
    (hf : Reads (f ()) bs b) :
    Reads (require c e >>= f) bs b := by
  have hr : Reads (require c e) [] () := by rw [require, if_pos hc]; exact Reads.pure ()
  exact hr.bind hf

theorem Reads.map {f : α → β} (hr : Reads r bs a) (hf : f a = b) : Reads (f <$> r) bs b := by
  intro rest
  show (r (bs ++ rest) >>= fun p => Except.ok (f p.1, p.2)) = _
  rw [hr, ok_bind, hf]

theorem reads_take {short : ε} {n : Nat} (h : bs.length = n) :
    Reads (take short n) bs bs := by
  intro rest
  subst h
  rw [take, if_pos (by simp), take_left, drop_left]

theorem reads_u8 (short : ε) (b : UInt8) : Reads (u8 short) [b] b := by
  have h : Reads (take short 1) [b] [b] := reads_take rfl
  exact h.map (by simp [ofBe])

theorem reads_u16 (short : ε) (x : UInt16) : Reads (u16 short) (u16Be x) x := by
  have h : Reads (take short 2) (u16Be x) (u16Be x) := reads_take (length_beBytes 2 _)
  exact h.map (by rw [u16Be, ofBe_beBytes_of_lt x.toNat_lt, UInt16.ofNat_toNat])

theorem reads_u32 (short : ε) (x : UInt32) : Reads (u32 short) (u32Be x) x := by
  have h : Reads (take short 4) (u32Be x) (u32Be x) := reads_take (length_beBytes 4 _)
  exact h.map (by rw [u32Be, ofBe_beBytes_of_lt x.toNat_lt, UInt32.ofNat_toNat])

theorem reads_u64 (short : ε) (x : UInt64) : Reads (u64 short) (u64Be x) x := by
  have h : Reads (take short 8) (u64Be x) (u64Be x) := reads_take (length_beBytes 8 _)
  exact h.map (by rw [u64Be, ofBe_beBytes_of_lt x.toNat_lt, UInt64.ofNat_toNat])

theorem Reads.many_nil (r : Reader ε α) : Reads (many r 0) [] [] := Reads.pure []

theorem Reads.many_cons {r : Reader ε α} {n : Nat} {bs bs' : Bytes} {a : α} {as : List α}
    (hr : Reads r bs a) (hrs : Reads (many r n) bs' as) :
    Reads (many r (n + 1)) (bs ++ bs') (a :: as) := by
  exact hr.bind (hrs.bind_nil (Reads.pure (a :: as)))

/-! ## What a reader returns -/

variable {P : α → Prop}

theorem Yields.pure (h : P a) : Yields (Pure.pure a : Reader ε α) P := by
  intro bs rest b hb
  cases hb
  exact h

theorem Yields.bind {Q : β → Prop} (hr : Yields r P) (hf : ∀ a, P a → Yields (f a) Q) :
    Yields (r >>= f) Q := by
  intro bs rest b h
  obtain ⟨⟨a, bs'⟩, ha, hb⟩ := bind_eq_ok h
  exact hf a (hr bs bs' a ha) bs' rest b hb

theorem yields_true (r : Reader ε α) : Yields r fun _ => True := fun _ _ _ _ => trivial

theorem yields_require {c : Prop} [Decidable c] {e : ε} :
    Yields (require c e) fun _ => c := by
  intro bs rest u h
  unfold require at h
  split at h
  · next hc => exact hc
  · cases h

theorem Yields.many (hr : Yields r P) (n : Nat) :
    Yields (many r n) fun as => as.length = n ∧ ∀ a ∈ as, P a := by
  induction n with
  | zero => exact Yields.pure ⟨rfl, by simp⟩
  | succ n ih =>
    refine hr.bind fun a ha => ih.bind fun as has => Yields.pure ⟨?_, ?_⟩
    · rw [length_cons, has.1]
    · intro x hx
      rcases mem_cons.mp hx with rfl | hx
      · exact ha
      · exact has.2 x hx

/-! ## What a result depends on -/

theorem Local.pure (a : α) : Local (Pure.pure a : Reader ε α) := by
  intro bs rest b h
  cases h
  exact ⟨[], rfl, Reads.pure a⟩

theorem Local.throw (e : ε) : Local (MonadExcept.throw e : Reader ε α) := by
  intro bs rest b h
  cases h

theorem Local.bind (hr : Local r) (hf : ∀ a, Local (f a)) :
    Local (r >>= f) := by
  intro bs rest b h
  obtain ⟨⟨a, bs'⟩, ha, hb⟩ := bind_eq_ok h
  obtain ⟨first, rfl, hfirst⟩ := hr bs bs' a ha
  obtain ⟨second, rfl, hsecond⟩ := hf a bs' rest b hb
  exact ⟨first ++ second, (append_assoc _ _ _).symm, hfirst.bind hsecond⟩

theorem local_take (short : ε) (n : Nat) : Local (take short n) := by
  intro bs rest a h
  unfold take at h
  split at h
  · next hn =>
    obtain ⟨rfl, rfl⟩ := Prod.mk.inj (Except.ok.inj h)
    exact ⟨bs.take n, (take_append_drop n bs).symm, reads_take (length_take_of_le hn)⟩
  · cases h

/-- **The inputs that a reader takes whole are prefix-free.** -/
theorem Local.prefix_free (hr : Local r) {a' : α} (h : r bs = .ok (a, []))
    (h' : r bs' = .ok (a', [])) (hle : bs <+: bs') : bs = bs' := by
  obtain ⟨taken, rfl, htaken⟩ := hr _ _ _ h
  obtain ⟨rest, rfl⟩ := hle
  rw [append_nil, htaken rest] at h'
  obtain ⟨-, rfl⟩ := Prod.mk.inj (Except.ok.inj h')
  rw [append_nil (taken ++ [])]

end Reader

end Kseal.Infra
