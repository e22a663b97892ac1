import LxcUio.Foundation.LabelledRun
import Mathlib.Data.Prod.Lex
import Mathlib.Order.WellFounded

/-!
# Coming to rest

A component comes to rest when no run goes on for ever by steps that meet a guard. The proof
is a rank: a value in a well-founded order that every such step lowers.

A rank need not be a function of the state. In `wellFounded_of_ranks` it is a relation, so that
what an invariant says only exists, such as a number that the state does not store, can be part
of it.
-/

namespace LxcUio.Foundation

variable {σ α ρ : Type*}

/-- The states of `I` are left by finitely many guarded steps: `t` comes after `s`. -/
def ComesToRest (step : σ → α → Option σ) (I : σ → Prop) (G : σ → α → Prop) : Prop :=
  WellFounded fun t s => I s ∧ ∃ a, G s a ∧ step s a = some t

/-- If every state of `I` has a rank and each guarded step leads from a state with a rank to
one with a smaller rank, the component comes to rest. -/
theorem wellFounded_of_ranks [Preorder ρ] [WellFoundedLT ρ] {step : σ → α → Option σ}
    {I : σ → Prop} {G : σ → α → Prop} {R : σ → ρ → Prop} (hrank : ∀ s, I s → ∃ r, R s r)
    (hless : ∀ s a t r, R s r → G s a → step s a = some t → ∃ r', R t r' ∧ r' < r) :
    ComesToRest step I G := by
  have hacc : ∀ r s, R s r →
      Acc (fun t s => I s ∧ ∃ a, G s a ∧ step s a = some t) s := by
    intro r
    induction r using WellFoundedLT.induction with
    | ind r ih =>
        intro s hr
        apply Acc.intro
        rintro t ⟨-, a, hg, hs⟩
        obtain ⟨r', hr', hlt⟩ := hless s a t r hr hg hs
        exact ih r' hlt t hr'
  constructor
  intro s
  by_cases hI : I s
  · obtain ⟨r, hr⟩ := hrank s hI
    exact hacc r s hr
  · apply Acc.intro
    rintro t ⟨hI', -⟩
    exact absurd hI' hI

end LxcUio.Foundation
