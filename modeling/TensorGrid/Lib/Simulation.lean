import TensorGrid.Lib.Lts

/-!
# Forward simulations

A system simulates another if each step of the second, from states that are related, is some steps
of the first to states that are related again. Which steps these are may depend on the state
(`render`), so a run of the second is a known run of the first (`Simulation.exec`).
-/

namespace Lts

variable {σ τ ε φ : Type*} {step : σ → ε → Option σ} {step' : τ → φ → Option τ}

/-- The labels of a run, each replaced by those that stand for it. -/
def rendered (step : σ → ε → Option σ) (render : σ → ε → List φ) : σ → List ε → List φ
  | _, [] => []
  | s, e :: es => render s e ++ (match step s e with
    | some t => rendered step render t es
    | none => [])

/-- Each step from related states is the steps that stand for it. -/
def Simulation (step : σ → ε → Option σ) (step' : τ → φ → Option τ) (R : σ → τ → Prop)
    (render : σ → ε → List φ) : Prop :=
  ∀ s t e s', R s t → step s e = some s' →
    ∃ t', exec step' t (render s e) = some t' ∧ R s' t'

@[simp] theorem exec_singleton (t : τ) (f : φ) : exec step' t [f] = step' t f :=
  Option.bind_fun_some _

/-- A run from related states is a run of what stands for its labels. -/
theorem Simulation.exec {R : σ → τ → Prop} {render : σ → ε → List φ}
    (h : Simulation step step' R render) {es : List ε} : ∀ {s s' : σ} {t : τ}, R s t →
    Lts.exec step s es = some s' →
      ∃ t', Lts.exec step' t (rendered step render s es) = some t' ∧ R s' t' := by
  induction es with
  | nil =>
    intro s s' t hR hes
    cases hes
    exact ⟨t, rfl, hR⟩
  | cons e es ih =>
    intro s s' t hR hes
    obtain ⟨u, he, hes⟩ := exec_cons.1 hes
    obtain ⟨v, hv, hRv⟩ := h s t e u hR he
    obtain ⟨t', ht', hRt'⟩ := ih hRv hes
    refine ⟨t', ?_, hRt'⟩
    simp only [rendered, he]
    exact exec_append.2 ⟨v, hv, ht'⟩

end Lts
