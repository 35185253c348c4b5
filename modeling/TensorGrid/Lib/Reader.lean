import TensorGrid.Lib.Outcome

/-!
# Readers of byte strings

A `Rust.Reader ε α` reads a value from the front of the remaining bytes. `Reads r bs a` says that
`r` reads exactly the bytes `bs`, whatever follows them, and returns `a`; the rules `Reads.bind`,
`Reads.many`, `reads_exact`, `reads_le` compose such facts along the code of a reader.

`Shrinks r` says that `r` never leaves more bytes than it found. `Pays r cost` counts: a value takes
at least as many bytes as it costs. `Accepts r L` says that `r` reads words of the language `L` only
(`Passes` is the converse, up to a panic), `Delimited r` that what `r` reads is all that it looks at
and that none of it can be missing.
-/

namespace Rust

/-- A reader: the outcome is the value and the remaining bytes. -/
def Reader (ε α : Type) : Type := List UInt8 → Outcome ε (α × List UInt8)

namespace Reader

variable {ε α β : Type}

/-- Go on with the value and the bytes left. -/
def andThen (r : Reader ε α) (f : α → Reader ε β) : Reader ε β := fun bs =>
  match r bs with
  | .ok (a, rest) => f a rest
  | .err e => .err e
  | .panic => .panic

instance : Monad (Reader ε) where
  pure a := fun bs => .ok (a, bs)
  bind := andThen

def fail (e : ε) : Reader ε α := fun _ => .err e

def panic : Reader ε α := fun _ => .panic

/-- A step that reads nothing. -/
def lift (x : Outcome ε α) : Reader ε α := fun bs => x >>= fun a => .ok (a, bs)

/-- `read_exact` on a buffer of `n` bytes; `eof` is the error if there are fewer. -/
def exact (eof : ε) (n : Nat) : Reader ε (List UInt8) := fun bs =>
  if n ≤ bs.length then .ok (bs.take n, bs.drop n) else .err eof

/-- A counted loop that collects what `r` reads. -/
def many (r : Reader ε α) : Nat → Reader ε (List α)
  | 0 => pure []
  | n + 1 => do
    let a ← r
    let as ← many r n
    pure (a :: as)

/-! ## Little-endian numbers -/

/-- The number whose little-endian bytes are `bs`. -/
def ofLE : List UInt8 → Nat
  | [] => 0
  | b :: bs => b.toNat + 256 * ofLE bs

/-- The `n` little-endian bytes of a number. -/
def toLE : Nat → Nat → List UInt8
  | 0, _ => []
  | n + 1, v => UInt8.ofNat v :: toLE n (v / 256)

/-- A little-endian number of `n` bytes. -/
def le (eof : ε) (n : Nat) : Reader ε Nat := do
  let bs ← exact eof n
  pure (ofLE bs)

@[simp] theorem length_toLE (n v : Nat) : (toLE n v).length = n := by
  induction n generalizing v with
  | zero => rfl
  | succ n ih => rw [toLE, List.length_cons, ih]

theorem ofLE_toLE {n v : Nat} (h : v < 256 ^ n) : ofLE (toLE n v) = v := by
  induction n generalizing v with
  | zero =>
    rw [Nat.pow_zero] at h
    exact (Nat.lt_one_iff.1 h).symm
  | succ n ih =>
    rw [Nat.pow_succ'] at h
    rw [toLE, ofLE, ih (by omega)]
    have hmod : (UInt8.ofNat v).toNat = v % 256 := rfl
    omega

/-! ## Exact reads -/

/-- The reader consumes `bs`, whatever follows, and returns `a`. -/
def Reads (r : Reader ε α) (bs : List UInt8) (a : α) : Prop :=
  ∀ rest, r (bs ++ rest) = .ok (a, rest)

theorem reads_pure (a : α) : Reads (pure a : Reader ε α) [] a := fun _ => rfl

theorem Reads.bind {r : Reader ε α} {f : α → Reader ε β} {bs cs : List UInt8} {a : α} {b : β}
    (hr : Reads r bs a) (hf : Reads (f a) cs b) : Reads (r >>= f) (bs ++ cs) b := by
  intro rest
  show andThen r f (bs ++ cs ++ rest) = _
  rw [andThen, List.append_assoc, hr (cs ++ rest)]
  exact hf rest

/-- A first step that reads nothing. -/
theorem Reads.skip {r : Reader ε α} {f : α → Reader ε β} {cs : List UInt8} {a : α} {b : β}
    (hr : Reads r [] a) (hf : Reads (f a) cs b) : Reads (r >>= f) cs b :=
  hr.bind hf

/-- A last step that reads nothing. -/
theorem Reads.last {r : Reader ε α} {f : α → Reader ε β} {bs : List UInt8} {a : α} {b : β}
    (hr : Reads r bs a) (hf : Reads (f a) [] b) : Reads (r >>= f) bs b := by
  have hbind := hr.bind hf
  rwa [List.append_nil] at hbind

theorem Reads.map {r : Reader ε α} {bs : List UInt8} {a : α} (hr : Reads r bs a) (f : α → β) :
    Reads (r >>= fun a => pure (f a)) bs (f a) :=
  hr.last (f := fun a => pure (f a)) (reads_pure (f a))

theorem reads_exact (eof : ε) (bs : List UInt8) : Reads (exact eof bs.length) bs bs := by
  intro rest
  rw [exact, if_pos (by simp), List.take_left, List.drop_left]

theorem reads_le (eof : ε) {n v : Nat} (h : v < 256 ^ n) : Reads (le eof n) (toLE n v) v := by
  have hexact := (reads_exact eof (toLE n v)).map ofLE
  rwa [length_toLE, ofLE_toLE h] at hexact

/-- A counted loop over the encodings of a list. -/
theorem Reads.many {γ : Type} {r : Reader ε α} {bytes : γ → List UInt8} {value : γ → α}
    {xs : List γ} (h : ∀ x ∈ xs, Reads r (bytes x) (value x)) :
    Reads (Reader.many r xs.length) (xs.flatMap bytes) (xs.map value) := by
  induction xs with
  | nil => exact reads_pure []
  | cons x xs ih =>
    have hrest := ih fun y hy => h y (.tail _ hy)
    exact (h x (.head _)).bind (hrest.map (value x :: ·))

theorem reads_lift {x : Outcome ε α} {a : α} (h : x = .ok a) : Reads (lift x) [] a := by
  intro rest
  rw [lift, h]
  rfl

/-! ## What a reader leaves -/

/-- No more bytes are left than there were. -/
def Shrinks (r : Reader ε α) : Prop :=
  ∀ bs a rest, r bs = .ok (a, rest) → rest.length ≤ bs.length

theorem shrinks_pure (a : α) : Shrinks (pure a : Reader ε α) := by
  rintro bs _ rest ⟨⟩
  exact le_refl _

theorem shrinks_fail (e : ε) : Shrinks (fail e : Reader ε α) := by
  rintro bs a rest ⟨⟩

theorem shrinks_panic : Shrinks (panic : Reader ε α) := by
  rintro bs a rest ⟨⟩

/-- A bind that succeeds, in its two steps. -/
theorem bind_ok {r : Reader ε α} {f : α → Reader ε β} {bs rest : List UInt8} {b : β}
    (h : (r >>= f) bs = .ok (b, rest)) :
    ∃ a mid, r bs = .ok (a, mid) ∧ f a mid = .ok (b, rest) := by
  have h' : andThen r f bs = .ok (b, rest) := h
  unfold andThen at h'
  split at h'
  · next a mid heq => exact ⟨a, mid, heq, h'⟩
  · cases h'
  · cases h'

theorem Shrinks.bind {r : Reader ε α} {f : α → Reader ε β} (hr : Shrinks r)
    (hf : ∀ a, Shrinks (f a)) : Shrinks (r >>= f) := by
  intro bs b rest h
  obtain ⟨a, mid, ha, hb⟩ := bind_ok h
  exact (hf a mid b rest hb).trans (hr bs a mid ha)

theorem exact_ok {eof : ε} {n : Nat} {bs as rest : List UInt8}
    (h : exact eof n bs = .ok (as, rest)) : rest.length + n = bs.length := by
  unfold exact at h
  split at h
  · cases h
    rw [List.length_drop]
    omega
  · cases h

theorem shrinks_exact (eof : ε) (n : Nat) : Shrinks (exact eof n) := by
  intro bs as rest h
  have := exact_ok h
  omega

theorem le_ok {eof : ε} {n v : Nat} {bs rest : List UInt8} (h : le eof n bs = .ok (v, rest)) :
    rest.length + n = bs.length := by
  obtain ⟨as, mid, has, hv⟩ := bind_ok h
  cases hv
  exact exact_ok has

theorem shrinks_le (eof : ε) (n : Nat) : Shrinks (le eof n) :=
  (shrinks_exact eof n).bind fun _ => shrinks_pure _

theorem Shrinks.many {r : Reader ε α} (hr : Shrinks r) (n : Nat) : Shrinks (Reader.many r n) := by
  induction n with
  | zero => exact shrinks_pure []
  | succ n ih => exact hr.bind fun a => ih.bind fun as => shrinks_pure _

theorem bind_eq {r : Reader ε α} {f : α → Reader ε β} {bs rest : List UInt8} {a : α}
    (h : r bs = .ok (a, rest)) : (r >>= f) bs = f a rest := by
  show andThen r f bs = _
  rw [andThen, h]

theorem bind_err {r : Reader ε α} {f : α → Reader ε β} {bs : List UInt8} {e : ε}
    (h : r bs = .err e) : (r >>= f) bs = .err e := by
  show andThen r f bs = _
  rw [andThen, h]

/-- Two steps that only make values of what was read. -/
theorem map_map {γ : Type} (r : Reader ε α) (f : α → β) (g : β → γ) :
    ((r >>= fun a => pure (f a)) >>= fun b => pure (g b)) = r >>= fun a => pure (g (f a)) := by
  funext bs
  show andThen (andThen r fun a => pure (f a)) (fun b => pure (g b)) bs =
    andThen r (fun a => pure (g (f a))) bs
  unfold andThen
  cases r bs <;> rfl

theorem bind_assoc {γ : Type} (r : Reader ε α) (f : α → Reader ε β) (g : β → Reader ε γ) :
    ((r >>= f) >>= g) = r >>= fun a => f a >>= g := by
  funext bs
  show andThen (andThen r f) g bs = andThen r (fun a => andThen (f a) g) bs
  unfold andThen
  cases r bs <;> rfl

/-! ## What a value costs -/

/-- A value takes at least as many bytes as it costs. -/
def Pays (r : Reader ε α) (cost : α → Nat) : Prop :=
  ∀ bs a rest, r bs = .ok (a, rest) → rest.length + cost a ≤ bs.length

theorem pays_pure (a : α) {cost : α → Nat} (h : cost a = 0) : Pays (pure a : Reader ε α) cost := by
  rintro bs _ rest ⟨⟩
  omega

theorem pays_fail (e : ε) (cost : α → Nat) : Pays (fail e : Reader ε α) cost := by
  rintro bs a rest ⟨⟩

theorem Shrinks.pays {r : Reader ε α} (h : Shrinks r) : Pays r fun _ => 0 := h

theorem Pays.shrinks {r : Reader ε α} {cost : α → Nat} (h : Pays r cost) : Shrinks r := by
  intro bs a rest hr
  have := h bs a rest hr
  omega

/-- The first step pays what the second leaves open. -/
theorem Pays.bind {r : Reader ε α} {f : α → Reader ε β} {cost : α → Nat} {cost' : β → Nat}
    (hr : Pays r cost) (hf : ∀ a, Pays (f a) fun b => cost' b - cost a) :
    Pays (r >>= f) cost' := by
  intro bs b rest h
  obtain ⟨a, mid, ha, hb⟩ := bind_ok h
  have hpaid := hr bs a mid ha
  have hrest := hf a mid b rest hb
  simp only at hrest
  omega

theorem Pays.map {r : Reader ε α} {cost : α → Nat} (hr : Pays r cost) {f : α → β}
    {cost' : β → Nat} (h : ∀ a, cost' (f a) ≤ cost a) : Pays (r >>= fun a => pure (f a)) cost' :=
  hr.bind fun a => pays_pure (f a) (Nat.sub_eq_zero_of_le (h a))

theorem pays_le (eof : ε) (n : Nat) : Pays (le eof n) fun _ => n := by
  intro bs v rest h
  exact (le_ok h).le

theorem Pays.many {r : Reader ε α} {cost : α → Nat} (hr : Pays r cost) (n : Nat) :
    Pays (Reader.many r n) fun as => (as.map cost).sum := by
  induction n with
  | zero => exact pays_pure [] rfl
  | succ n ih =>
    refine hr.bind fun a => ih.map fun as => ?_
    rw [List.map_cons, List.sum_cons]
    omega

theorem Pays.many_ok {r : Reader ε α} {cost : α → Nat} (hr : Pays r cost) {n : Nat}
    {bs rest : List UInt8} {as : List α} (h : Reader.many r n bs = .ok (as, rest)) :
    rest.length + (as.map cost).sum ≤ bs.length :=
  hr.many n bs as rest h

/-! ## What a reader accepts -/

/-- What `r` reads is a word of `L`. -/
def Accepts (r : Reader ε α) (L : List UInt8 → Prop) : Prop :=
  ∀ bs a rest, r bs = .ok (a, rest) → ∃ pre, bs = pre ++ rest ∧ L pre

theorem ofLE_lt (bs : List UInt8) : ofLE bs < 256 ^ bs.length := by
  induction bs with
  | nil => exact Nat.one_pos
  | cons b bs ih =>
    have hb := b.toNat_lt
    rw [ofLE, List.length_cons, Nat.pow_succ]
    omega

theorem toLE_ofLE (bs : List UInt8) : toLE bs.length (ofLE bs) = bs := by
  induction bs with
  | nil => rfl
  | cons b bs ih =>
    have hb := b.toNat_lt
    have hhead : UInt8.ofNat (b.toNat + 256 * ofLE bs) = b := by
      rw [← UInt8.toNat_inj]
      show (b.toNat + 256 * ofLE bs) % 256 = b.toNat
      omega
    have htail : (b.toNat + 256 * ofLE bs) / 256 = ofLE bs := by omega
    rw [ofLE, List.length_cons, toLE, hhead, htail, ih]

theorem exact_eq_ok {eof : ε} {n : Nat} {bs as rest : List UInt8}
    (h : exact eof n bs = .ok (as, rest)) : bs = as ++ rest ∧ as.length = n := by
  unfold exact at h
  split at h
  · next hle =>
    cases h
    exact ⟨(List.take_append_drop n bs).symm, List.length_take_of_le hle⟩
  · cases h

theorem le_eq_ok {eof : ε} {n v : Nat} {bs rest : List UInt8} (h : le eof n bs = .ok (v, rest)) :
    bs = toLE n v ++ rest ∧ v < 256 ^ n := by
  obtain ⟨as, mid, has, hv⟩ := bind_ok h
  cases hv
  obtain ⟨rfl, rfl⟩ := exact_eq_ok has
  exact ⟨by rw [toLE_ofLE], ofLE_lt as⟩

theorem Accepts.map {r : Reader ε α} {L L' : List UInt8 → Prop} (hr : Accepts r L) {f : α → β}
    (h : ∀ w, L w → L' w) : Accepts (r >>= fun a => pure (f a)) L' := by
  intro bs b rest hread
  obtain ⟨a, mid, ha, hpure⟩ := bind_ok hread
  cases hpure
  obtain ⟨w, rfl, hw⟩ := hr _ _ _ ha
  exact ⟨w, rfl, h w hw⟩

/-- A counted loop over values that are read from their encodings only. -/
theorem many_eq_ok {r : Reader ε α} {bytes : α → List UInt8}
    (h : ∀ {bs a rest}, r bs = .ok (a, rest) → bs = bytes a ++ rest) {n : Nat}
    {bs rest : List UInt8} {as : List α} (hmany : Reader.many r n bs = .ok (as, rest)) :
    bs = as.flatMap bytes ++ rest ∧ as.length = n := by
  induction n generalizing bs rest as with
  | zero =>
    cases hmany
    exact ⟨rfl, rfl⟩
  | succ n ih =>
    obtain ⟨a, mid, ha, hmany⟩ := bind_ok hmany
    obtain ⟨as', mid', has, hpure⟩ := bind_ok hmany
    cases hpure
    obtain ⟨rfl, rfl⟩ := ih has
    rw [h ha, List.flatMap_cons, List.append_assoc]
    exact ⟨rfl, rfl⟩

/-- What holds of every value read holds of all values of a counted loop. -/
theorem forall_of_many {r : Reader ε α} {P : α → Prop}
    (h : ∀ {bs a rest}, r bs = .ok (a, rest) → P a) {n : Nat} {bs rest : List UInt8} {as : List α}
    (hmany : Reader.many r n bs = .ok (as, rest)) : ∀ a ∈ as, P a := by
  induction n generalizing bs rest as with
  | zero =>
    cases hmany
    simp
  | succ n ih =>
    obtain ⟨a, mid, ha, hmany⟩ := bind_ok hmany
    obtain ⟨as', mid', has, hpure⟩ := bind_ok hmany
    cases hpure
    exact List.forall_mem_cons.2 ⟨h ha, ih has⟩

/-- A counted loop accepts that many words. -/
theorem Accepts.many {r : Reader ε α} {L : List UInt8 → Prop} (hr : Accepts r L) (n : Nat) :
    Accepts (Reader.many r n) fun bs =>
      ∃ words : List (List UInt8), words.length = n ∧ bs = words.flatten ∧ ∀ w ∈ words, L w := by
  induction n with
  | zero =>
    rintro bs as rest ⟨⟩
    exact ⟨[], rfl, [], rfl, rfl, by simp⟩
  | succ n ih =>
    intro bs as rest h
    obtain ⟨a, mid, ha, h⟩ := bind_ok h
    obtain ⟨as', mid', has, h⟩ := bind_ok h
    cases h
    obtain ⟨w, rfl, hw⟩ := hr _ _ _ ha
    obtain ⟨_, rfl, words, rfl, rfl, hwords⟩ := ih _ _ _ has
    exact ⟨w ++ words.flatten, by simp, w :: words, rfl, rfl, List.forall_mem_cons.2 ⟨hw, hwords⟩⟩

/-- The reader gets to `rest`, unless it panics. -/
def Passes (r : Reader ε α) (bs rest : List UInt8) : Prop :=
  (∃ a, r bs = .ok (a, rest)) ∨ r bs = .panic

theorem Reads.passes {r : Reader ε α} {bs : List UInt8} {a : α} (h : Reads r bs a)
    (rest : List UInt8) : Passes r (bs ++ rest) rest := .inl ⟨a, h rest⟩

/-- A first step whose value is known. -/
theorem Passes.after {r : Reader ε α} {f : α → Reader ε β} {bs mid rest : List UInt8} {a : α}
    (hr : r bs = .ok (a, mid)) (hf : Passes (f a) mid rest) : Passes (r >>= f) bs rest := by
  rw [Passes, bind_eq hr]
  exact hf

theorem Passes.bind {r : Reader ε α} {f : α → Reader ε β} {bs mid rest : List UInt8}
    (hr : Passes r bs mid) (hf : ∀ a, Passes (f a) mid rest) : Passes (r >>= f) bs rest := by
  obtain ⟨a, ha⟩ | hpanic := hr
  · exact .after ha (hf a)
  · refine .inr ?_
    show andThen r f bs = .panic
    rw [andThen, hpanic]

theorem Passes.map {r : Reader ε α} {bs rest : List UInt8} (hr : Passes r bs rest) (f : α → β) :
    Passes (r >>= fun a => pure (f a)) bs rest :=
  hr.bind fun a => .inl ⟨f a, rfl⟩

/-- A panic behind a step that passes. -/
theorem Passes.panics {r : Reader ε α} {f : α → Reader ε β} {bs mid : List UInt8}
    (hr : Passes r bs mid) (hf : ∀ a, f a mid = .panic) : (r >>= f) bs = .panic := by
  obtain ⟨a, ha⟩ | hpanic := hr
  · exact (bind_eq ha).trans (hf a)
  · show andThen r f bs = .panic
    rw [andThen, hpanic]

theorem Passes.many {r : Reader ε α} {words : List (List UInt8)}
    (h : ∀ w ∈ words, ∀ rest, Passes r (w ++ rest) rest) (rest : List UInt8) :
    Passes (Reader.many r words.length) (words.flatten ++ rest) rest := by
  induction words with
  | nil => exact .inl ⟨[], rfl⟩
  | cons w words ih =>
    rw [List.flatten_cons, List.append_assoc]
    refine (h w (.head _) _).bind fun a => ?_
    exact (ih fun v hv => h v (.tail _ hv)).map (a :: ·)

/-! ## Self-delimiting readers -/

/-- What the reader reads, it reads whatever follows, and a proper prefix of it is an error. -/
def Delimited (r : Reader ε α) : Prop :=
  ∀ bs a rest, r bs = .ok (a, rest) → ∃ pre, bs = pre ++ rest ∧ Reads r pre a ∧
    ∀ q, q <+: pre → q ≠ pre → ∃ e, r q = .err e

theorem delimited_pure (a : α) : Delimited (pure a : Reader ε α) := by
  rintro bs _ rest ⟨⟩
  exact ⟨[], rfl, reads_pure a, fun q hq hne => absurd (List.prefix_nil.1 hq) hne⟩

theorem delimited_fail (e : ε) : Delimited (fail e : Reader ε α) := by
  rintro bs a rest ⟨⟩

theorem delimited_panic : Delimited (panic : Reader ε α) := by
  rintro bs a rest ⟨⟩

theorem Delimited.bind {r : Reader ε α} {f : α → Reader ε β} (hr : Delimited r)
    (hf : ∀ a, Delimited (f a)) : Delimited (r >>= f) := by
  intro bs b rest h
  obtain ⟨a, mid, ha, hb⟩ := bind_ok h
  obtain ⟨pre₁, rfl, hreads₁, hshort₁⟩ := hr bs a mid ha
  obtain ⟨pre₂, rfl, hreads₂, hshort₂⟩ := hf a mid b rest hb
  refine ⟨pre₁ ++ pre₂, (List.append_assoc _ _ _).symm, hreads₁.bind hreads₂, fun q hq hne => ?_⟩
  obtain ⟨t, ht⟩ := hq
  obtain ⟨s, hs, -⟩ | ⟨q₂, rfl, hq₂⟩ := List.append_eq_append_iff.1 ht
  · -- the end comes in the first part, or right after it
    by_cases heq : q = pre₁
    · subst heq
      have hne₂ : [] ≠ pre₂ := by
        rintro rfl
        exact hne (List.append_nil _).symm
      obtain ⟨e, he⟩ := hshort₂ [] List.nil_prefix hne₂
      have hok := hreads₁ []
      rw [List.append_nil] at hok
      exact ⟨e, (bind_eq hok).trans he⟩
    · obtain ⟨e, he⟩ := hshort₁ q ⟨s, hs.symm⟩ heq
      exact ⟨e, bind_err he⟩
  · obtain ⟨e, he⟩ := hshort₂ q₂ ⟨t, hq₂.symm⟩ fun heq => hne (by rw [heq])
    exact ⟨e, (bind_eq (hreads₁ q₂)).trans he⟩

theorem delimited_exact (eof : ε) (n : Nat) : Delimited (exact eof n) := by
  intro bs as rest h
  obtain ⟨rfl, rfl⟩ := exact_eq_ok h
  refine ⟨as, rfl, reads_exact eof as, fun q hq hne => ⟨eof, if_neg fun hle => hne ?_⟩⟩
  exact hq.eq_of_length_le hle

theorem delimited_le (eof : ε) (n : Nat) : Delimited (le eof n) :=
  (delimited_exact eof n).bind fun _ => delimited_pure _

theorem Delimited.many {r : Reader ε α} (hr : Delimited r) (n : Nat) :
    Delimited (Reader.many r n) := by
  induction n with
  | zero => exact delimited_pure []
  | succ n ih => exact hr.bind fun a => ih.bind fun as => delimited_pure _

end Reader

end Rust
