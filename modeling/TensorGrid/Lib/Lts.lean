import Mathlib

/-!
# Runs of labelled transition systems

A system is a partial step function `step : σ → ε → Option σ`; a label `e` is enabled in `s` when
`step s e` is `some`. `Lts.exec` runs a list of labels, `Lts.Reachable` is reachability by a run.

* **Invariants** (`Reachable.inv`, `exec_inv`): what every step keeps holds along every run.
* **Conditional runs**: `Meets C s es` says that every step of the run meets the condition `C` (on
  the label and the state before it), `Always P s es` that every state visited satisfies `P`.
  `always_of_meets` is the invariant rule under a condition, `Always.last` reads off the state that
  the run ends in, `Always.meets` what its steps meet; `always_iff_meets` turns the fact
  "one step keeps `P` exactly when it meets `C`" into the same fact about whole runs.
* **Lasting facts** (`Lasts A B`): a fact `A k` stays until a label is a `B k`; `lasts_iff_meets`.
* **What is bound to happen** (`Inevitably P s`): whichever steps are taken, the run comes to a
  `P`-state. `Inevitably.of_sure` takes a step that no other step disturbs ahead of all others.
* **The past** (`Since A B s es`): some step of the run was an `A`, and none after it a `B`.
  `since_concat` adds a step at the end, `exec_induction` is induction along a run from its start.
* **Observers** (`observe f s es k`): what is recorded along a run by one who sees each label and
  the state before it. `observe_filter` erases labels that the observer does not notice.
-/

namespace Lts

variable {σ ε : Type*} (step : σ → ε → Option σ)

/-- The state after the labels `es`, if all of them are enabled. -/
def exec : σ → List ε → Option σ
  | s, [] => some s
  | s, e :: es => (step s e).bind fun t => exec t es

/-- `s` is the state after some run from `s₀`. -/
def Reachable (s₀ s : σ) : Prop := ∃ es, exec step s₀ es = some s

/-- Every state visited by the run satisfies `P` (the run stops at a label that is not enabled). -/
def Always (P : σ → Prop) : σ → List ε → Prop
  | s, [] => P s
  | s, e :: es => P s ∧ ∀ t, step s e = some t → Always P t es

/-- Every step of the run meets the condition `C` on its label and the state before it. -/
def Meets (C : σ → ε → Prop) : σ → List ε → Prop
  | _, [] => True
  | s, e :: es => ∀ t, step s e = some t → C s e ∧ Meets C t es

variable {step}

@[simp] theorem exec_nil {s : σ} : exec step s [] = some s := rfl

@[simp] theorem exec_cons {s t : σ} {e : ε} {es : List ε} :
    exec step s (e :: es) = some t ↔ ∃ u, step s e = some u ∧ exec step u es = some t := by
  simp [exec, Option.bind_eq_some_iff]

theorem exec_append {s t : σ} {es fs : List ε} :
    exec step s (es ++ fs) = some t ↔ ∃ u, exec step s es = some u ∧ exec step u fs = some t := by
  induction es generalizing s with
  | nil => simp
  | cons e es ih =>
    simp only [List.cons_append, exec_cons, ih]
    constructor
    · rintro ⟨u, hu, v, hv, ht⟩
      exact ⟨v, ⟨u, hu, hv⟩, ht⟩
    · rintro ⟨v, ⟨u, hu, hv⟩, ht⟩
      exact ⟨u, hu, v, hv, ht⟩

theorem exec_concat {s t : σ} {es : List ε} {e : ε} :
    exec step s (es ++ [e]) = some t ↔ ∃ u, exec step s es = some u ∧ step u e = some t := by
  simp [exec_append]

/-! ## Invariants -/

/-- What steps with labels in `D` keep, a run of such steps keeps. -/
theorem exec_inv_of_forall {I : σ → Prop} {D : ε → Prop}
    (hI : ∀ s e t, I s → D e → step s e = some t → I t) {s t : σ} {es : List ε}
    (h : exec step s es = some t) (hD : ∀ e ∈ es, D e) (hs : I s) : I t := by
  induction es generalizing s with
  | nil => cases h; exact hs
  | cons e es ih =>
    obtain ⟨u, hu, ht⟩ := exec_cons.1 h
    obtain ⟨hd, hD⟩ := List.forall_mem_cons.1 hD
    exact ih ht hD (hI s e u hs hd hu)

theorem exec_inv {I : σ → Prop} (hI : ∀ s e t, I s → step s e = some t → I t) {s t : σ}
    {es : List ε} (h : exec step s es = some t) (hs : I s) : I t :=
  exec_inv_of_forall (D := fun _ => True) (fun s e t hs _ => hI s e t hs) h (fun _ _ => trivial) hs

namespace Reachable

theorem refl (s : σ) : Reachable step s s := ⟨[], rfl⟩

theorem trans {s t u : σ} (h : Reachable step s t) (h' : Reachable step t u) :
    Reachable step s u := by
  obtain ⟨es, he⟩ := h
  obtain ⟨fs, hf⟩ := h'
  exact ⟨es ++ fs, exec_append.2 ⟨t, he, hf⟩⟩

theorem next {s t u : σ} {e : ε} (h : Reachable step s t) (he : step t e = some u) :
    Reachable step s u :=
  h.trans ⟨[e], exec_cons.2 ⟨u, he, rfl⟩⟩

theorem inv {I : σ → Prop} {s t : σ} (h : Reachable step s t) (hs : I s)
    (hI : ∀ s e t, I s → step s e = some t → I t) : I t := by
  obtain ⟨es, he⟩ := h
  exact exec_inv hI he hs

end Reachable

/-! ## Runs under a condition -/

theorem Always.head {P : σ → Prop} {s : σ} {es : List ε} (h : Always step P s es) : P s := by
  cases es with
  | nil => exact h
  | cons e es => exact h.1

/-- `Always` speaks of exactly the states that the prefixes of the run end in. -/
theorem always_iff {P : σ → Prop} {s : σ} {es : List ε} :
    Always step P s es ↔ ∀ pre post t, es = pre ++ post → exec step s pre = some t → P t := by
  induction es generalizing s with
  | nil =>
    constructor
    · rintro h pre post t he ht
      obtain ⟨rfl, rfl⟩ := List.append_eq_nil_iff.1 he.symm
      cases ht
      exact h
    · exact fun h => h [] [] s rfl rfl
  | cons e es ih =>
    constructor
    · rintro ⟨hs, ht⟩ pre post t he hp
      cases pre with
      | nil => cases hp; exact hs
      | cons e' pre =>
        obtain ⟨rfl, rfl⟩ := List.cons.inj he
        obtain ⟨u, hu, hp⟩ := exec_cons.1 hp
        exact ih.1 (ht u hu) pre post t rfl hp
    · refine fun h => ⟨h [] _ s rfl rfl, fun u hu => ih.2 fun pre post t he hp => ?_⟩
      exact h (e :: pre) post t (by simp [he]) (exec_cons.2 ⟨u, hu, hp⟩)

/-- The invariant rule under a condition on the steps. -/
theorem always_of_meets {I : σ → Prop} {C : σ → ε → Prop}
    (hI : ∀ s e t, I s → C s e → step s e = some t → I t) {s : σ} {es : List ε} (hs : I s)
    (hC : Meets step C s es) : Always step I s es := by
  induction es generalizing s with
  | nil => exact hs
  | cons e es ih =>
    refine ⟨hs, fun t ht => ?_⟩
    obtain ⟨hc, hrest⟩ := hC t ht
    exact ih (hI s e t hs hc ht) hrest

/-- If, wherever the invariant `I` and the property `P` hold, a step keeps `P` exactly when it
meets `C`, then a run visits `P`-states only exactly when all its steps meet `C`. -/
theorem always_iff_meets {I P : σ → Prop} {C : σ → ε → Prop}
    (hI : ∀ s e t, I s → step s e = some t → I t)
    (hP : ∀ s e t, I s → P s → step s e = some t → (P t ↔ C s e)) {s : σ} {es : List ε}
    (hs : I s) (hp : P s) : Always step P s es ↔ Meets step C s es := by
  induction es generalizing s with
  | nil => exact ⟨fun _ => trivial, fun _ => hp⟩
  | cons e es ih =>
    constructor
    · rintro ⟨-, h⟩ t ht
      have hpt := (h t ht).head
      exact ⟨(hP s e t hs hp ht).1 hpt, (ih (hI s e t hs ht) hpt).1 (h t ht)⟩
    · refine fun h => ⟨hp, fun t ht => ?_⟩
      obtain ⟨hc, hrest⟩ := h t ht
      exact (ih (hI s e t hs ht) ((hP s e t hs hp ht).2 hc)).2 hrest

/-- If `I` implies `P`, steps that meet `C` keep `I`, and a step from an `I`-state into a `P`-state
meets `C`, then a run visits `P`-states only exactly when all its steps meet `C`. -/
theorem always_iff_meets_of_inv {I P : σ → Prop} {C : σ → ε → Prop} (hIP : ∀ s, I s → P s)
    (hI : ∀ s e t, I s → C s e → step s e = some t → I t)
    (hC : ∀ s e t, I s → step s e = some t → P t → C s e) {s : σ} {es : List ε} (hs : I s) :
    Always step P s es ↔ Meets step C s es := by
  induction es generalizing s with
  | nil => exact ⟨fun _ => trivial, fun _ => hIP s hs⟩
  | cons e es ih =>
    constructor
    · rintro ⟨-, h⟩ t ht
      have hc := hC s e t hs ht (h t ht).head
      exact ⟨hc, (ih (hI s e t hs hc ht)).1 (h t ht)⟩
    · refine fun h => ⟨hIP s hs, fun t ht => ?_⟩
      obtain ⟨hc, hrest⟩ := h t ht
      exact (ih (hI s e t hs hc ht)).2 hrest

theorem meets_iff {C : σ → ε → Prop} {s : σ} {es : List ε} :
    Meets step C s es ↔ ∀ pre e post t u, es = pre ++ e :: post → exec step s pre = some t →
      step t e = some u → C t e := by
  induction es generalizing s with
  | nil => exact ⟨fun _ pre e post t u he => by simp at he, fun _ => trivial⟩
  | cons e es ih =>
    constructor
    · intro h pre e' post t u he hp hu
      cases pre with
      | nil =>
        cases hp
        obtain ⟨rfl, rfl⟩ := List.cons.inj he
        exact (h u hu).1
      | cons e'' pre =>
        obtain ⟨rfl, rfl⟩ := List.cons.inj he
        obtain ⟨v, hv, hp⟩ := exec_cons.1 hp
        exact ih.1 (h v hv).2 pre e' post t u rfl hp hu
    · refine fun h t ht => ⟨h [] e es s t rfl rfl ht, ih.2 fun pre e' post u v he hp hv => ?_⟩
      exact h (e :: pre) e' post u v (by simp [he]) (exec_cons.2 ⟨t, ht, hp⟩) hv

/-- The state that the run ends in is visited. -/
theorem Always.last {P : σ → Prop} {s t : σ} {es : List ε} (h : Always step P s es)
    (ht : exec step s es = some t) : P t :=
  always_iff.1 h es [] t (List.append_nil es).symm ht

theorem Always.imp {P Q : σ → Prop} {s : σ} {es : List ε} (h : Always step P s es)
    (hPQ : ∀ s, P s → Q s) : Always step Q s es :=
  always_iff.2 fun pre post t hes ht => hPQ t (always_iff.1 h pre post t hes ht)

/-- A run through `P`-states meets what every step from such a state meets. -/
theorem Always.meets {P : σ → Prop} {C : σ → ε → Prop} {s : σ} {es : List ε}
    (h : Always step P s es) (hPC : ∀ s e, P s → C s e) : Meets step C s es :=
  meets_iff.2 fun pre e post t _ hes ht _ => hPC t e (always_iff.1 h pre (e :: post) t hes ht)

/-- The beginning of a run meets what the whole run meets. -/
theorem Meets.initial {C : σ → ε → Prop} {s : σ} {es fs : List ε}
    (h : Meets step C s (es ++ fs)) : Meets step C s es :=
  meets_iff.2 fun pre e post t u he ht hu =>
    meets_iff.1 h pre e (post ++ fs) t u (by rw [he, List.append_assoc, List.cons_append]) ht hu

/-- The rest of a run meets what the whole run meets. -/
theorem Meets.rest {C : σ → ε → Prop} {s t : σ} {es fs : List ε}
    (h : Meets step C s (es ++ fs)) (hes : exec step s es = some t) : Meets step C t fs := by
  induction es generalizing s with
  | nil =>
    cases hes
    exact h
  | cons e es ih =>
    obtain ⟨u, hu, hes⟩ := exec_cons.1 hes
    exact ih (h u hu).2 hes

/-- Conditions that say the same in every state that satisfies an invariant. -/
theorem meets_congr_of_inv {I : σ → Prop} {C C' : σ → ε → Prop}
    (hI : ∀ s e t, I s → step s e = some t → I t) (h : ∀ s e, I s → (C s e ↔ C' s e)) {s : σ}
    {es : List ε} (hs : I s) : Meets step C s es ↔ Meets step C' s es := by
  induction es generalizing s with
  | nil => exact Iff.rfl
  | cons e es ih =>
    refine forall₂_congr fun t ht => ?_
    rw [h s e hs, ih (hI s e t hs ht)]

theorem meets_congr {C C' : σ → ε → Prop} (h : ∀ s e, C s e ↔ C' s e) {s : σ} {es : List ε} :
    Meets step C s es ↔ Meets step C' s es :=
  meets_congr_of_inv (I := fun _ => True) (fun _ _ _ _ _ => trivial) (fun s e _ => h s e) trivial

/-- A condition on the label only, in a system where every label is enabled. -/
theorem meets_iff_forall {C : σ → ε → Prop} {D : ε → Prop}
    (htotal : ∀ s e, ∃ t, step s e = some t) (hC : ∀ s e, C s e ↔ D e) {s : σ} {es : List ε} :
    Meets step C s es ↔ ∀ e ∈ es, D e := by
  induction es generalizing s with
  | nil => exact iff_of_true trivial nofun
  | cons e es ih =>
    obtain ⟨t, ht⟩ := htotal s e
    rw [List.forall_mem_cons]
    constructor
    · intro h
      obtain ⟨hc, hrest⟩ := h t ht
      exact ⟨(hC s e).1 hc, ih.1 hrest⟩
    · rintro ⟨hd, hrest⟩ u hu
      exact ⟨(hC s e).2 hd, ih.2 hrest⟩

/-! ## What lasts -/

variable (step) in
/-- Whatever fact `A k` holds at some point of the run holds at every later point, as long as no
label in between is a `B k`. -/
def Lasts {κ : Type*} (A : κ → σ → Prop) (B : κ → ε → Prop) (s : σ) (es : List ε) : Prop :=
  ∀ pre mid post t u, es = pre ++ (mid ++ post) → exec step s pre = some t →
    exec step t mid = some u → ∀ k, A k t → (∀ e ∈ mid, ¬ B k e) → A k u

variable (step) in
/-- The step loses no fact `A k`, unless its label is a `B k`. -/
def Keeps {κ : Type*} (A : κ → σ → Prop) (B : κ → ε → Prop) (s : σ) (e : ε) : Prop :=
  ∀ k, A k s → ¬ B k e → ∀ t, step s e = some t → A k t

/-- Facts last along a run exactly when every step keeps them. -/
theorem lasts_iff_meets {κ : Type*} {A : κ → σ → Prop} {B : κ → ε → Prop} {s : σ} {es : List ε} :
    Lasts step A B s es ↔ Meets step (Keeps step A B) s es := by
  induction es generalizing s with
  | nil =>
    refine ⟨fun _ => trivial, fun _ pre mid post t u he ht hu k hk _ => ?_⟩
    obtain ⟨rfl, h⟩ := List.append_eq_nil_iff.1 he.symm
    obtain ⟨rfl, rfl⟩ := List.append_eq_nil_iff.1 h
    cases ht
    cases hu
    exact hk
  | cons e es ih =>
    constructor
    · intro h t ht
      refine ⟨fun k hk hB v hv => ?_, ih.1 fun pre mid post u v he hu hv => ?_⟩
      · exact h [] [e] es s v rfl rfl (exec_cons.2 ⟨v, hv, rfl⟩) k hk (by simpa using hB)
      · exact h (e :: pre) mid post u v (by rw [he]; rfl) (exec_cons.2 ⟨t, ht, hu⟩) hv
    · intro h pre mid post t u he ht hu k hk hB
      cases pre with
      | cons e' pre =>
        obtain ⟨rfl, rfl⟩ := List.cons.inj he
        obtain ⟨v, hv, ht⟩ := exec_cons.1 ht
        exact ih.2 (h v hv).2 pre mid post t u rfl ht hu k hk hB
      | nil =>
        cases ht
        cases mid with
        | nil => cases hu; exact hk
        | cons e' mid =>
          obtain ⟨rfl, rfl⟩ := List.cons.inj he
          obtain ⟨v, hv, hu⟩ := exec_cons.1 hu
          obtain ⟨hkeep, hrest⟩ := h v hv
          have hkv := hkeep k hk (hB _ (.head _)) v hv
          exact ih.2 hrest [] mid post v u rfl rfl hu k hkv fun e he => hB e (.tail _ he)

/-! ## What is bound to happen -/

variable (step) in
/-- Whichever steps are taken, the run comes to a state that satisfies `P`. -/
inductive Inevitably (P : σ → Prop) : σ → Prop
  | here {s : σ} : P s → Inevitably P s
  | next {s : σ} : (∃ e t, step s e = some t) →
      (∀ e t, step s e = some t → Inevitably P t) → Inevitably P s

section
variable {P Q : σ → Prop}

/-- A lasting fact that is bound to happen is so after any step. -/
theorem Inevitably.of_step (hP : ∀ s e t, P s → step s e = some t → P t) {s t : σ} {e : ε}
    (h : Inevitably step P s) (he : step s e = some t) : Inevitably step P t := by
  cases h with
  | here hs => exact .here (hP s e t hs he)
  | next _ hall => exact hall e t he

/-- Two lasting facts that are bound to happen come to hold together. -/
theorem Inevitably.exists_both (hP : ∀ s e t, P s → step s e = some t → P t)
    (hQ : ∀ s e t, Q s → step s e = some t → Q t) {s : σ} (h : Inevitably step P s)
    (h' : Inevitably step Q s) : ∃ t, P t ∧ Q t := by
  induction h with
  | @here s hs =>
    induction h' with
    | here hs' => exact ⟨_, hs, hs'⟩
    | next hex _ ih =>
      obtain ⟨e, t, ht⟩ := hex
      exact ih e t ht (hP _ e t hs ht)
  | next hex _ ih =>
    obtain ⟨e, t, ht⟩ := hex
    exact ih e t ht (h'.of_step hQ ht)

/-- A sure step may be taken first: `R s s'` says that `s` can step to `s'`, and every other step of
`s` can be taken after it, with the same result as before it. -/
theorem Inevitably.of_sure {R : σ → σ → Prop}
    (hwf : WellFounded fun t s => ∃ e, step s e = some t)
    (hP : ∀ s e t, P s → step s e = some t → P t)
    (hR : ∀ s s', R s s' → ∃ e, step s e = some s')
    (hdiamond : ∀ s s' e t, R s s' → step s e = some t →
      t = s' ∨ ∃ e' t', step s' e' = some t' ∧ R t t') {s s' : σ} (hs : R s s')
    (h : Inevitably step P s') : Inevitably step P s := by
  induction s using hwf.induction generalizing s' with
  | _ s ih =>
    obtain ⟨e₀, he₀⟩ := hR s s' hs
    refine .next ⟨e₀, s', he₀⟩ fun e t ht => ?_
    obtain rfl | ⟨e', t', ht', htR⟩ := hdiamond s s' e t hs ht
    · exact h
    · exact ih t ⟨e, ht⟩ htR (h.of_step hP ht')

end

/-! ## The past of a run -/

theorem exec_induction {s₀ : σ} {P : List ε → σ → Prop} (hnil : P [] s₀)
    (hcons : ∀ es s e t, exec step s₀ es = some s → P es s → step s e = some t → P (es ++ [e]) t)
    {es : List ε} {s : σ} (h : exec step s₀ es = some s) : P es s := by
  induction es using List.reverseRecOn generalizing s with
  | nil => cases h; exact hnil
  | append_singleton es e ih =>
    obtain ⟨u, hu, he⟩ := exec_concat.1 h
    exact hcons es u e s hu (ih hu) he

theorem meets_concat {C : σ → ε → Prop} {s t u : σ} {es : List ε} {e : ε}
    (hes : exec step s es = some t) (he : step t e = some u) :
    Meets step C s (es ++ [e]) ↔ Meets step C s es ∧ C t e := by
  induction es generalizing s with
  | nil =>
    cases hes
    exact ⟨fun h => ⟨trivial, (h u he).1⟩, fun h _ _ => ⟨h.2, trivial⟩⟩
  | cons e' es ih =>
    obtain ⟨v, hv, hes⟩ := exec_cons.1 hes
    constructor
    · intro h
      obtain ⟨hc, hrest⟩ := h v hv
      obtain ⟨hrest, hlast⟩ := (ih hes).1 hrest
      refine ⟨fun w hw => ?_, hlast⟩
      cases hv.symm.trans hw
      exact ⟨hc, hrest⟩
    · rintro ⟨h, hlast⟩ w hw
      cases hv.symm.trans hw
      obtain ⟨hc, hrest⟩ := h v hv
      exact ⟨hc, (ih hes).2 ⟨hrest, hlast⟩⟩

variable (step) in
/-- Some step of the run is an `A`, and no step after it is a `B`. -/
def Since (A B : σ → ε → Prop) : σ → List ε → Prop
  | _, [] => False
  | s, e :: es => ∃ t, step s e = some t ∧ (A s e ∧ Meets step (fun s e => ¬ B s e) t es ∨
      Since A B t es)

variable (step) in
/-- Some step of the run is an `A`. -/
def Occurs (A : σ → ε → Prop) : σ → List ε → Prop
  | _, [] => False
  | s, e :: es => A s e ∨ ∃ t, step s e = some t ∧ Occurs A t es

theorem occurs_concat {A : σ → ε → Prop} {s t : σ} {es : List ε} {e : ε}
    (hes : exec step s es = some t) :
    Occurs step A s (es ++ [e]) ↔ Occurs step A s es ∨ A t e := by
  induction es generalizing s with
  | nil =>
    cases hes
    simp [Occurs]
  | cons e' es ih =>
    obtain ⟨v, hv, hes⟩ := exec_cons.1 hes
    simp only [List.cons_append, Occurs, hv, Option.some.injEq, exists_eq_left', ih hes]
    tauto

variable (step) in
/-- The record at the end of a run that starts with `k`. -/
def observe {κ : Type*} (f : σ → ε → κ → κ) : σ → List ε → κ → κ
  | _, [], k => k
  | s, e :: es, k =>
    match step s e with
    | none => k
    | some t => observe f t es (f s e k)

theorem observe_concat {κ : Type*} {f : σ → ε → κ → κ} {s t u : σ} {es : List ε} {e : ε} {k : κ}
    (hes : exec step s es = some t) (he : step t e = some u) :
    observe step f s (es ++ [e]) k = f t e (observe step f s es k) := by
  induction es generalizing s k with
  | nil =>
    cases hes
    simp [observe, he]
  | cons e' es ih =>
    obtain ⟨v, hv, hes⟩ := exec_cons.1 hes
    simp only [List.cons_append, observe, hv, ih hes]

/-- Labels that are not noticed, then or later, may be erased: `R es s s'` relates the states of the
two runs with `es` to come. -/
theorem observe_filter {κ : Type*} {f : σ → ε → κ → κ} {noticed : ε → Bool}
    {R : List ε → σ → σ → Prop}
    (herased : ∀ e es s s', R (e :: es) s s' → noticed e = false →
      ∃ t, step s e = some t ∧ R es t s' ∧ ∀ k, f s e k = k)
    (hkept : ∀ e es s s', R (e :: es) s s' → noticed e = true →
      ∃ t t', step s e = some t ∧ step s' e = some t' ∧ R es t t' ∧ ∀ k, f s e k = f s' e k)
    {s s' : σ} {es : List ε} (h : R es s s') (k : κ) :
    observe step f s es k = observe step f s' (es.filter noticed) k := by
  induction es generalizing s s' k with
  | nil => rfl
  | cons e es ih =>
    cases he : noticed e with
    | false =>
      obtain ⟨t, ht, hR, hf⟩ := herased e es s s' h he
      rw [List.filter_cons_of_neg (by simp [he])]
      simp only [observe, ht]
      rw [hf, ih hR]
    | true =>
      obtain ⟨t, t', ht, ht', hR, hf⟩ := hkept e es s s' h he
      rw [List.filter_cons_of_pos he]
      simp only [observe, ht, ht']
      rw [hf, ih hR]

variable (step) in
/-- No two steps of the run are an `A`. -/
def AtMostOnce (A : σ → ε → Prop) (s : σ) (es : List ε) : Prop :=
  ∀ pre e mid e' post t u, es = pre ++ e :: (mid ++ e' :: post) → exec step s pre = some t →
    exec step s (pre ++ e :: mid) = some u → A t e → ¬ A u e'

/-- What an `A` uses up for ever happens at most once. -/
theorem atMostOnce_of_spent {A : σ → ε → Prop} {I U : σ → Prop}
    (hI : ∀ s e t, I s → step s e = some t → I t)
    (hspend : ∀ s e t, I s → A s e → step s e = some t → U t)
    (hspent : ∀ s e t, U s → step s e = some t → U t)
    (hno : ∀ s e, U s → ¬ A s e) {s : σ} (hs : I s) (es : List ε) :
    AtMostOnce step A s es := by
  intro pre e mid e' post t u _ ht hu hA
  obtain ⟨t', ht', hu⟩ := exec_append.1 hu
  obtain rfl : t = t' := Option.some.inj (ht.symm.trans ht')
  obtain ⟨v, hv, hu⟩ := exec_cons.1 hu
  exact hno u e' (exec_inv hspent hu (hspend t e v (exec_inv hI ht hs) hA hv))

theorem since_concat {A B : σ → ε → Prop} {s t u : σ} {es : List ε} {e : ε}
    (hes : exec step s es = some t) (he : step t e = some u) :
    Since step A B s (es ++ [e]) ↔ A t e ∨ Since step A B s es ∧ ¬ B t e := by
  induction es generalizing s with
  | nil =>
    cases hes
    simp [Since, Meets, he]
  | cons e' es ih =>
    obtain ⟨v, hv, hes⟩ := exec_cons.1 hes
    simp only [List.cons_append, Since, hv, Option.some.injEq, exists_eq_left', ih hes,
      meets_concat hes he]
    tauto

end Lts
