import TensorGrid.Lib.Lts

/-!
# Linearization

An `Object` is a sequential data type: what an operation does to the value and what it returns. A
concurrent implementation is a system whose steps may commit an operation of a process and may
return a reply to one. `Linearizes` is a forward simulation from the system to the object: a step
that commits nothing leaves the abstract value, and the reply that a process is owed from its commit
on is the object's own.

* `trace`: what the steps of a run commit, its history, or what they return, in order.
* `Linearizes.exec`: the value after a run is the object's after the history.
* `Linearizes.answers`: every reply is the object's, at the place of the operation in the history.
* `Linearizes.nodup`, `Linearizes.mem_history`: a process commits once, the operation it `Did`.
* `trace_append`: the history only grows, so it orders operations as real time does.
-/

namespace Lts

variable {σ ε κ α ω ρ : Type*}

/-- A sequential data type with values in `α`, operations in `ω` and replies in `ρ`. -/
structure Object (α ω ρ : Type*) where
  apply : α → ω → α
  reply : α → ω → ρ

namespace Object

variable (O : Object α ω ρ)

/-- The value after the operations of a history. -/
def run (a : α) (H : List (κ × ω)) : α := H.foldl (fun a x => O.apply a x.2) a

/-- The history has an operation of `k`, and its reply there is `r`. -/
def Answers (a : α) (H : List (κ × ω)) (k : κ) (r : ρ) : Prop :=
  ∃ pre o post, H = pre ++ (k, o) :: post ∧ r = O.reply (O.run a pre) o

variable {O}

@[simp] theorem run_nil (a : α) : O.run a ([] : List (κ × ω)) = a := rfl

@[simp] theorem run_concat (a : α) (H : List (κ × ω)) (x : κ × ω) :
    O.run a (H ++ [x]) = O.apply (O.run a H) x.2 := by
  simp [run]

theorem Answers.append {a : α} {H : List (κ × ω)} {k : κ} {r : ρ} (h : O.Answers a H k r)
    (H' : List (κ × ω)) : O.Answers a (H ++ H') k r := by
  obtain ⟨pre, o, post, rfl, hr⟩ := h
  exact ⟨pre, o, post ++ H', by simp, hr⟩

theorem Answers.last (a : α) (H : List (κ × ω)) (k : κ) (o : ω) :
    O.Answers a (H ++ [(k, o)]) k (O.reply (O.run a H) o) :=
  ⟨H, o, [], rfl, rfl⟩

end Object

/-! ## Records of a run -/

variable (step : σ → ε → Option σ)

/-- What the steps of a run say, in order. -/
def trace {β : Type*} (shown : σ → ε → Option β) (s : σ) (es : List ε) : List β :=
  observe step (fun s e l => l ++ (shown s e).toList) s es []

variable {step}

theorem trace_concat {β : Type*} {shown : σ → ε → Option β} {s t u : σ} {es : List ε} {e : ε}
    (hes : exec step s es = some t) (he : step t e = some u) :
    trace step shown s (es ++ [e]) = trace step shown s es ++ (shown t e).toList :=
  observe_concat hes he

/-- The trace of a run begins with that of its beginning. -/
theorem trace_append {β : Type*} {shown : σ → ε → Option β} {s t u : σ} {es fs : List ε}
    (hes : exec step s es = some t) (hfs : exec step t fs = some u) :
    ∃ rest, trace step shown s (es ++ fs) = trace step shown s es ++ rest := by
  refine exec_induction (P := fun fs (_ : σ) =>
    ∃ rest, trace step shown s (es ++ fs) = trace step shown s es ++ rest)
    ⟨[], by simp⟩ (fun fs u e v hu ih he => ?_) hfs
  obtain ⟨rest, hrest⟩ := ih
  refine ⟨rest ++ (shown u e).toList, ?_⟩
  rw [← List.append_assoc, trace_concat (exec_append.2 ⟨t, hes, hu⟩) he, hrest, List.append_assoc]

section
variable {β : Type*} {shown : σ → ε → Option β} {P : σ → κ → Prop} {f : β → κ} {s₀ : σ}
  (h₀ : ∀ k, ¬ P s₀ k)
  (h : ∀ es s e t, exec step s₀ es = some s → step s e = some t → ∀ k,
    P t k ↔ P s k ∨ ∃ b, shown s e = some b ∧ f b = k)
include h₀ h

/-- What a state remembers of what was shown on the way to it. -/
theorem mem_map_trace {s : σ} {es : List ε} (hes : exec step s₀ es = some s) :
    ∀ k, k ∈ (trace step shown s₀ es).map f ↔ P s k := by
  refine exec_induction (P := fun es s => ∀ k, k ∈ (trace step shown s₀ es).map f ↔ P s k)
    (fun k => iff_of_false nofun (h₀ k)) (fun es s e t hes ih he k => ?_) hes
  rw [trace_concat hes he, List.map_append, List.mem_append, ih, h es s e t hes he]
  simp

/-- If nothing is shown that the state remembers, nothing is shown twice. -/
theorem nodup_map_trace (hfresh : ∀ es s e t b, exec step s₀ es = some s → step s e = some t →
    shown s e = some b → ¬ P s (f b)) {s : σ} {es : List ε} (hes : exec step s₀ es = some s) :
    ((trace step shown s₀ es).map f).Nodup := by
  refine exec_induction (P := fun es (_ : σ) => ((trace step shown s₀ es).map f).Nodup)
    List.nodup_nil (fun es s e t hes ih he => ?_) hes
  rw [trace_concat hes he, List.map_append]
  cases hb : shown s e with
  | none => simpa using ih
  | some b =>
    have hnew := hfresh es s e t b hes he hb
    rw [← mem_map_trace h₀ h hes] at hnew
    rw [Option.toList_some, List.map_singleton]
    exact List.concat_eq_append ▸ ih.concat hnew

end

/-! ## The simulation -/

variable (step) in
/-- `R s a`: the state stands for the value `a`. `Did s k o`: the process `k` has committed `o`.
`Owes s k r`: it has, and its reply is to be `r`. -/
structure Linearizes (O : Object α ω ρ) (commits : σ → ε → Option (κ × ω))
    (returns : σ → ε → Option (κ × ρ)) (R : σ → α → Prop) (Did : σ → κ → ω → Prop)
    (Owes : σ → κ → ρ → Prop) : Prop where
  silent {s t : σ} {e : ε} {a : α} : R s a → step s e = some t → commits s e = none → R t a
  commit {s t : σ} {e : ε} {a : α} {k : κ} {o : ω} : R s a → step s e = some t →
    commits s e = some (k, o) → R t (O.apply a o) ∧ ∀ o', ¬ Did s k o'
  did {s t : σ} {e : ε} {a : α} : R s a → step s e = some t → ∀ k o,
    Did t k o ↔ Did s k o ∨ commits s e = some (k, o)
  owes {s t : σ} {e : ε} {a : α} : R s a → step s e = some t → ∀ k r, Owes t k r →
    Owes s k r ∨ ∃ o, commits s e = some (k, o) ∧ r = O.reply a o
  returned {s t : σ} {e : ε} {a : α} : R s a → step s e = some t → ∀ k r,
    returns s e = some (k, r) → Owes s k r ∨ ∃ o, commits s e = some (k, o) ∧ r = O.reply a o

namespace Linearizes

variable {O : Object α ω ρ} {commits : σ → ε → Option (κ × ω)}
  {returns : σ → ε → Option (κ × ρ)} {R : σ → α → Prop} {Did : σ → κ → ω → Prop}
  {Owes : σ → κ → ρ → Prop} {s₀ s : σ} {a₀ : α} {es : List ε}

/-- **The value after a run is that after its history.** -/
theorem exec (h : Linearizes step O commits returns R Did Owes) (hR : R s₀ a₀)
    (hes : Lts.exec step s₀ es = some s) : R s (O.run a₀ (trace step commits s₀ es)) := by
  refine exec_induction (P := fun es s => R s (O.run a₀ (trace step commits s₀ es))) hR
    (fun es s e t hes ih he => ?_) hes
  rw [trace_concat hes he]
  cases hc : commits s e with
  | none => simpa using h.silent ih he hc
  | some x => simpa using (h.commit ih he hc).1

/-- What a process still owes or has returned is what the object replies. -/
theorem answers (h : Linearizes step O commits returns R Did Owes) (hR : R s₀ a₀)
    (howes : ∀ k r, ¬ Owes s₀ k r) (hes : Lts.exec step s₀ es = some s) :
    (∀ k r, Owes s k r → O.Answers a₀ (trace step commits s₀ es) k r) ∧
      ∀ k r, (k, r) ∈ trace step returns s₀ es → O.Answers a₀ (trace step commits s₀ es) k r := by
  refine exec_induction (P := fun es s =>
    (∀ k r, Owes s k r → O.Answers a₀ (trace step commits s₀ es) k r) ∧
      ∀ k r, (k, r) ∈ trace step returns s₀ es → O.Answers a₀ (trace step commits s₀ es) k r)
    ⟨fun k r ho => (howes k r ho).elim, nofun⟩ (fun es s e t hes ih he => ?_) hes
  have hRs := h.exec hR hes
  obtain ⟨ihowes, ihreturned⟩ := ih
  -- a reply that was owed, or that the commit of this step has fixed
  have hnow : ∀ k r, (Owes s k r ∨ ∃ o, commits s e = some (k, o) ∧
      r = O.reply (O.run a₀ (trace step commits s₀ es)) o) →
      O.Answers a₀ (trace step commits s₀ (es ++ [e])) k r := by
    intro k r hkr
    rw [trace_concat hes he]
    rcases hkr with hkr | ⟨o, hc, rfl⟩
    · exact (ihowes k r hkr).append _
    · rw [hc]
      exact .last _ _ _ _
  refine ⟨fun k r hkr => hnow k r (h.owes hRs he k r hkr), fun k r hkr => ?_⟩
  rw [trace_concat hes he, List.mem_append, Option.mem_toList] at hkr
  rcases hkr with hkr | hkr
  · rw [trace_concat hes he]
    exact (ihreturned k r hkr).append _
  · exact hnow k r (h.returned hRs he k r hkr)

theorem mem_history (h : Linearizes step O commits returns R Did Owes) (hR : R s₀ a₀)
    (hdid : ∀ k o, ¬ Did s₀ k o) (hes : Lts.exec step s₀ es = some s) (k : κ) (o : ω) :
    (k, o) ∈ trace step commits s₀ es ↔ Did s k o := by
  have hmem : (k, o) ∈ (trace step commits s₀ es).map id ↔ Did s k o := by
    refine mem_map_trace (P := fun s (x : κ × ω) => Did s x.1 x.2) (fun x => hdid x.1 x.2)
      (fun es s e t hes he x => ?_) hes (k, o)
    simp [h.did (h.exec hR hes) he]
  rwa [List.map_id] at hmem

/-- **No process commits twice.** -/
theorem nodup (h : Linearizes step O commits returns R Did Owes) (hR : R s₀ a₀)
    (hdid : ∀ k o, ¬ Did s₀ k o) (hes : Lts.exec step s₀ es = some s) :
    ((trace step commits s₀ es).map Prod.fst).Nodup := by
  refine nodup_map_trace (P := fun s k => ∃ o, Did s k o) (fun k ⟨o, ho⟩ => hdid k o ho)
    (fun es s e t hes he k => ?_) (fun es s e t x hes he hx => ?_) hes
  · simp only [h.did (h.exec hR hes) he, exists_or, Prod.exists]
    simp
  · rintro ⟨o, ho⟩
    exact (h.commit (h.exec hR hes) he hx).2 o ho

end Linearizes

end Lts
