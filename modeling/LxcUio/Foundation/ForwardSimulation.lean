import LxcUio.Foundation.LabelledRun

/-!
# Forward simulation

A finer machine is followed by a coarser one: every step that meets the guard of the
former is matched by steps of the latter, none or several, so that the states stay
related. What holds of all runs of the coarser machine then holds, through the relation,
of all guarded runs of the finer one. `exec_trace` is the stronger form, in which the steps of
the finer machine say which steps of the coarser one they are.
-/

namespace LxcUio.Foundation

variable {σ τ α β : Type*}

/-- `R` relates each state of the finer machine to states of the coarser one that can
follow every guarded step. -/
def ForwardSim (step : σ → α → Option σ) (G : σ → α → Prop) (step' : τ → β → Option τ)
    (G' : τ → β → Prop) (R : σ → τ → Prop) : Prop :=
  ∀ s a t u, R s u → G s a → step s a = some t → ∃ v, Via step' G' u v ∧ R t v

namespace ForwardSim

variable {step : σ → α → Option σ} {G : σ → α → Prop} {step' : τ → β → Option τ}
  {G' : τ → β → Prop} {R : σ → τ → Prop}

/-- Runs are followed as steps are. -/
theorem via (h : ForwardSim step G step' G' R) {s t : σ} {u : τ} (hrun : Via step G s t)
    (hR : R s u) : ∃ v, Via step' G' u v ∧ R t v := by
  induction hrun with
  | refl => exact ⟨u, Via.refl, hR⟩
  | tail _ hlast ih =>
      obtain ⟨a, hg, hs⟩ := hlast
      obtain ⟨v, hv, hRv⟩ := ih
      obtain ⟨w, hw, hRw⟩ := h _ a _ v hRv hg hs
      exact ⟨w, hv.trans hw, hRw⟩

/-- A map that commutes with the steps, on the states of an invariant: each step is
matched by one step of the coarser machine, or is invisible to it. -/
theorem of_map {I : σ → Prop} {abs : σ → τ} (label : σ → α → Option β)
    (hkeep : ∀ s a t, I s → G s a → step s a = some t → I t)
    (hsame : ∀ s a t, I s → G s a → step s a = some t → label s a = none → abs t = abs s)
    (hmove : ∀ s a t b, I s → G s a → step s a = some t → label s a = some b →
      G' (abs s) b ∧ step' (abs s) b = some (abs t)) :
    ForwardSim step G step' G' fun s u => I s ∧ u = abs s := by
  rintro s a t u ⟨hI, rfl⟩ hg hs
  have hI' := hkeep s a t hI hg hs
  cases hlabel : label s a with
  | none =>
      refine ⟨abs s, Via.refl, hI', ?_⟩
      rw [hsame s a t hI hg hs hlabel]
  | some b =>
      obtain ⟨hg', hs'⟩ := hmove s a t b hI hg hs hlabel
      exact ⟨abs t, Via.refl.snoc hg' hs', hI', rfl⟩

end ForwardSim

/-! ## Traces -/

/-- What a run shows to the coarser machine, step by step. -/
def trace (step : σ → α → Option σ) (visible : σ → α → List β) : σ → List α → List β
  | _, [] => []
  | s, a :: as => visible s a ++ ((step s a).map fun t => trace step visible t as).getD []

/-- If what each guarded step shows is a run of the coarser machine, then so is what a
guarded run shows. -/
theorem exec_trace {step : σ → α → Option σ} {G : σ → α → Prop} {step' : τ → β → Option τ}
    {visible : σ → α → List β} {R : σ → τ → Prop}
    (hsim : ∀ s a t u, R s u → G s a → step s a = some t →
      ∃ v, exec step' u (visible s a) = some v ∧ R t v) :
    ∀ (as : List α) {s t : σ} {u : τ}, R s u → StepsMeet step G s as →
      exec step s as = some t → ∃ v, exec step' u (trace step visible s as) = some v ∧ R t v
  | [], s, t, u, hR, _, h => by
      obtain rfl := Option.some.inj h
      exact ⟨u, rfl, hR⟩
  | a :: as, s, t, u, hR, hmeet, h => by
      obtain ⟨s', hs', hrest⟩ := Option.bind_eq_some_iff.mp h
      obtain ⟨hg, hmeet'⟩ := hmeet s' hs'
      obtain ⟨u', hu', hR'⟩ := hsim s a s' u hR hg hs'
      obtain ⟨v, hv, hRv⟩ := exec_trace hsim as hR' hmeet' hrest
      refine ⟨v, ?_, hRv⟩
      rw [trace, exec_append, hu', hs']
      exact hv

end LxcUio.Foundation
