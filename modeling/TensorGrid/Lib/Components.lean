import TensorGrid.Lib.Linearization

/-!
# Components of a system

A `Machine` moves by every event and answers it. A part `view s` of the state of a system is a
`Component` if the labels that concern it move it, and answer, as a machine does, and the other
labels leave it as it is. Then a run does to the part what the machine does on the labels that
concern it, and nothing else: `Component.exec`, `Component.outputs`. So two runs that agree on these
labels agree on the part and on its answers, whatever else they do (`Component.agree`). What of its
events a machine does not look at can be left out: `Machine.run_map`, `Machine.outputs_map`.
-/

namespace Lts

variable {σ ε ν ρ : Type*}

/-- A deterministic machine with states in `ν` that answers each event in `ρ`. -/
structure Machine (ν ε ρ : Type*) where
  next : ν → ε → ν
  out : ν → ε → ρ

namespace Machine

variable (M : Machine ν ε ρ)

def run (v : ν) (es : List ε) : ν := es.foldl M.next v

def outputs : ν → List ε → List ρ
  | _, [] => []
  | v, e :: es => M.out v e :: outputs (M.next v e) es

variable {M}

@[simp] theorem run_nil (v : ν) : M.run v [] = v := rfl

@[simp] theorem run_concat (v : ν) (es : List ε) (e : ε) :
    M.run v (es ++ [e]) = M.next (M.run v es) e := by
  simp [run]

theorem outputs_concat (v : ν) (es : List ε) (e : ε) :
    M.outputs v (es ++ [e]) = M.outputs v es ++ [M.out (M.run v es) e] := by
  induction es generalizing v with
  | nil => rfl
  | cons e' es ih => exact congrArg _ (ih (M.next v e'))

section
variable {κ : Type*} {f : ε → ε}

/-- What of the events makes no difference to the states. -/
theorem run_map (hnext : ∀ v e, M.next v (f e) = M.next v e) (v : ν) (es : List ε) :
    M.run v (es.map f) = M.run v es := by
  rw [run, List.foldl_map]
  exact congrArg (fun next => es.foldl next v) (funext fun v => funext fun e => hnext v e)

/-- Nor to what `g` keeps of the answers. -/
theorem outputs_map {g : ρ → κ} (hnext : ∀ v e, M.next v (f e) = M.next v e)
    (hout : ∀ v e, g (M.out v (f e)) = g (M.out v e)) (v : ν) (es : List ε) :
    (M.outputs v (es.map f)).map g = (M.outputs v es).map g := by
  induction es generalizing v with
  | nil => rfl
  | cons e es ih =>
    rw [List.map_cons, outputs, outputs, List.map_cons, List.map_cons, hout, hnext, ih]

end

end Machine

/-- The answers of a run to the labels that concern a component. -/
def answers (step : σ → ε → Option σ) (reply : σ → ε → ρ) (concerns : ε → Bool) (s : σ)
    (es : List ε) : List ρ :=
  trace step (fun s e => if concerns e then some (reply s e) else none) s es

/-- The part `view` of the state is a machine of its own. -/
structure Component (step : σ → ε → Option σ) (reply : σ → ε → ρ) (view : σ → ν)
    (concerns : ε → Bool) (M : Machine ν ε ρ) : Prop where
  next {s t : σ} {e : ε} : step s e = some t → concerns e = true → view t = M.next (view s) e
  out {s : σ} {e : ε} : concerns e = true → reply s e = M.out (view s) e
  other {s t : σ} {e : ε} : step s e = some t → concerns e = false → view t = view s

namespace Component

variable {step : σ → ε → Option σ} {reply : σ → ε → ρ} {view : σ → ν} {concerns : ε → Bool}
  {M : Machine ν ε ρ} {s₀ s : σ} {es : List ε}

/-- **A run moves the component by its own labels.** -/
theorem exec (h : Component step reply view concerns M) (hes : Lts.exec step s₀ es = some s) :
    view s = M.run (view s₀) (es.filter concerns) := by
  refine exec_induction (P := fun es s => view s = M.run (view s₀) (es.filter concerns)) rfl
    (fun es s e t hes ih he => ?_) hes
  rw [List.filter_append]
  cases hc : concerns e with
  | true => rw [List.filter_singleton, hc, Bool.cond_true, Machine.run_concat, ← ih, h.next he hc]
  | false => rw [List.filter_singleton, hc, Bool.cond_false, List.append_nil, ← ih, h.other he hc]

/-- **A run answers the labels of the component as the component alone does.** -/
theorem outputs (h : Component step reply view concerns M) (hes : Lts.exec step s₀ es = some s) :
    answers step reply concerns s₀ es = M.outputs (view s₀) (es.filter concerns) := by
  refine exec_induction (P := fun es (_ : σ) =>
    answers step reply concerns s₀ es = M.outputs (view s₀) (es.filter concerns)) rfl
    (fun es s e t hes ih he => ?_) hes
  rw [answers, trace_concat hes he, List.filter_append, List.filter_singleton]
  cases hc : concerns e with
  | true =>
    rw [Bool.cond_true, Machine.outputs_concat, ← ih, ← h.exec hes, ← h.out hc]
    rfl
  | false =>
    rw [Bool.cond_false, List.append_nil, ← ih]
    exact List.append_nil _

/-- **Noninterference.** -/
theorem agree (h : Component step reply view concerns M) {s₀' s' : σ} {es' : List ε}
    (hes : Lts.exec step s₀ es = some s) (hes' : Lts.exec step s₀' es' = some s')
    (hview : view s₀ = view s₀') (hfilter : es.filter concerns = es'.filter concerns) :
    view s = view s' ∧ answers step reply concerns s₀ es = answers step reply concerns s₀' es' := by
  rw [h.exec hes, h.exec hes', h.outputs hes, h.outputs hes', hview, hfilter]
  exact ⟨rfl, rfl⟩

end Component

end Lts
