import LxcUio.Foundation.BlockHeap
import LxcUio.Foundation.Program

/-!
# Programs beside a heap

A `Program` says what a C function does to the state. A `HeapProc` does the same steps
(`plain`) and says besides which blocks are allocated, freed and accessed between them
(`onHeap`); it has no result once it misuses a block.

`Shadows y x s pre Q E` : run from `s` where `pre` is owned, `y` misuses no block, ends where
`x` ends, and in the same way. `Q` and `E` say what is owned then, at a normal end and at an
early exit. The rules take the two programs apart together.
-/

namespace LxcUio.Foundation

open HeapProgram

abbrev HeapProc (σ ρ α : Type) : Type := ExceptT ρ (StateT σ HeapProgram) α

namespace HeapProc

variable {σ ρ α β γ δ : Type}

/-- What a program does that has nothing to do with the heap. -/
def plain (x : Program σ ρ α) : HeapProc σ ρ α := fun s => pure ((x s).result, (x s).final s)

def onHeap (p : HeapProgram α) : HeapProc σ ρ α := fun s => do
  let a ← p
  pure (.ok a, s)

def exit (r : ρ) : HeapProc σ ρ α := fun s => pure (.error r, s)

/-- `if (c) { y }`. -/
def onlyIf (c : Prop) [Decidable c] (y : HeapProc σ ρ Unit) : HeapProc σ ρ Unit :=
  if c then y else pure ()

/-- What a function returns, however it leaves. -/
def returned : Except α α → α
  | .ok a => a
  | .error a => a

/-- A call: the callee's early exit is its return. -/
def call (y : HeapProc σ α α) : HeapProc σ ρ α := fun s => do
  let r ← y s
  pure (.ok (returned r.1), r.2)

/-- What follows the end of a first part. -/
def next (m : β → HeapProc σ ρ δ) : Except ρ β × σ → HeapProgram (Except ρ δ × σ)
  | (.ok b, t) => m b t
  | (.error r, t) => pure (.error r, t)

theorem bind_apply (y : HeapProc σ ρ β) (m : β → HeapProc σ ρ δ) (s : σ) :
    (y >>= m) s = (y s : HeapProgram (Except ρ β × σ)) >>= next m := by
  funext h
  show (y s h).bind _ = (y s h).bind _
  congr 1
  funext r
  obtain ⟨⟨b | r, t⟩, h'⟩ := r <;> rfl

/-- Two runs end in the same way. -/
def SameEnd (Q : α → β → List ℕ → Prop) (E : ρ → List ℕ → Prop) (blocks : List ℕ) :
    Except ρ α → Except ρ β → Prop
  | .ok a, .ok b => Q a b blocks
  | .error r, .error r' => r = r' ∧ E r blocks
  | .ok _, .error _ => False
  | .error _, .ok _ => False

def Shadows (y : HeapProc σ ρ β) (x : Program σ ρ α) (s : σ) (pre : List ℕ)
    (Q : α → β → σ → List ℕ → Prop) (E : ρ → List ℕ → Prop) : Prop :=
  Safe (y s) pre fun r blocks => r.2 = (x s).final s ∧
    SameEnd (fun a b => Q a b r.2) E blocks (x s).result r.1

namespace Shadows

variable {x : Program σ ρ α} {y : HeapProc σ ρ β} {s : σ} {pre : List ℕ}
  {Q : α → β → σ → List ℕ → Prop} {E : ρ → List ℕ → Prop}

theorem pure {a : α} {b : β} (h : Q a b s pre) :
    Shadows (pure b : HeapProc σ ρ β) (pure a) s pre Q E :=
  Safe.pure ⟨rfl, h⟩

theorem exit {r : ρ} (h : E r pre) :
    Shadows (HeapProc.exit r : HeapProc σ ρ β) (Program.exit r) s pre Q E :=
  Safe.pure ⟨rfl, rfl, h⟩

/-- Steps without the heap: what the program establishes is said of the blocks there are. -/
theorem plain {Q : α → α → σ → List ℕ → Prop}
    (h : x.wp (fun _ => True) (fun a t => Q a a t pre) (fun r _ => E r pre) s) :
    Shadows (HeapProc.plain x) x s pre Q E := by
  refine Safe.pure ⟨rfl, ?_⟩
  have hend := h.2
  cases hx : (x s).result with
  | ok a =>
      rw [hx] at hend
      exact hend
  | error r =>
      rw [hx] at hend
      exact ⟨rfl, hend⟩

theorem weaken {Q' : α → β → σ → List ℕ → Prop} {E' : ρ → List ℕ → Prop}
    (h : Shadows y x s pre Q E) (hq : ∀ a b t blocks, Q a b t blocks → Q' a b t blocks)
    (he : ∀ r blocks, E r blocks → E' r blocks) : Shadows y x s pre Q' E' := by
  refine Safe.weaken h ?_
  rintro ⟨r, t⟩ blocks ⟨hfinal, hend⟩
  refine ⟨hfinal, ?_⟩
  cases hx : (x s).result with
  | ok a =>
      cases r with
      | ok b =>
          rw [hx] at hend
          exact hq a b t blocks hend
      | error r' =>
          rw [hx] at hend
          exact hend.elim
  | error e =>
      cases r with
      | ok b =>
          rw [hx] at hend
          exact hend.elim
      | error r' =>
          rw [hx] at hend
          exact ⟨hend.1, he e blocks hend.2⟩

theorem perm {pre' : List ℕ} (h : Shadows y x s pre' Q E) (hp : pre.Perm pre') :
    Shadows y x s pre Q E :=
  Safe.perm h hp

/-- What is known of the program holds at the normal end besides. -/
theorem and_wp {I : σ → Prop} {Q' : α → σ → Prop} {E' : ρ → σ → Prop}
    (h : Shadows y x s pre Q E) (hx : x.wp I Q' E' s) :
    Shadows y x s pre (fun a b t blocks => Q a b t blocks ∧ Q' a t) E := by
  refine Safe.weaken h ?_
  rintro ⟨r, t⟩ blocks ⟨hfinal, hend⟩
  refine ⟨hfinal, ?_⟩
  dsimp only at hfinal
  subst hfinal
  have hknown := hx.2
  cases hr : (x s).result with
  | ok a =>
      rw [hr] at hend hknown
      cases r with
      | ok b => exact ⟨hend, hknown⟩
      | error r' => exact hend.elim
  | error e =>
      rw [hr] at hend
      cases r with
      | ok b => exact hend.elim
      | error r' => exact hend

theorem bind {P : α → β → σ → List ℕ → Prop} {Q : γ → δ → σ → List ℕ → Prop}
    {k : α → Program σ ρ γ} {m : β → HeapProc σ ρ δ} (h : Shadows y x s pre P E)
    (hk : ∀ a b t blocks, P a b t blocks → Shadows (m b) (k a) t blocks Q E) :
    Shadows (y >>= m) (x >>= k) s pre Q E := by
  unfold Shadows
  rw [bind_apply]
  refine Safe.bind h ?_
  rintro ⟨r, t⟩ blocks ⟨hfinal, hend⟩
  dsimp only at hfinal
  subst hfinal
  show Safe _ _ fun (r : Except ρ δ × σ) blocks => r.2 = (Program.seq x k s).final s ∧
    SameEnd (fun a b => Q a b r.2) E blocks (Program.seq x k s).result r.1
  unfold Program.seq
  cases hx : (x s).result with
  | ok a =>
      cases r with
      | ok b =>
          rw [hx] at hend
          simp only [Ran.final, Program.getLastD_append]
          exact hk a b _ blocks hend
      | error r' =>
          rw [hx] at hend
          exact hend.elim
  | error e =>
      cases r with
      | ok b =>
          rw [hx] at hend
          exact hend.elim
      | error r' =>
          rw [hx] at hend
          exact Safe.pure ⟨rfl, hend⟩

/-- Steps on the heap come between two steps of the program. -/
theorem onHeap {p : HeapProgram γ} {m : γ → HeapProc σ ρ β} {R : γ → List ℕ → Prop}
    (h : Safe p pre R) (hk : ∀ c blocks, R c blocks → Shadows (m c) x s blocks Q E) :
    Shadows (HeapProc.onHeap p >>= m) x s pre Q E := by
  unfold Shadows
  rw [bind_apply]
  refine Safe.bind (m := fun r blocks => ∃ c, r = (Except.ok c, s) ∧ R c blocks) ?_ ?_
  · exact Safe.bind h fun c blocks hc => Safe.pure ⟨c, rfl, hc⟩
  · rintro r blocks ⟨c, rfl, hc⟩
    exact hk c blocks hc

theorem ite {c : Prop} [Decidable c] {x' : Program σ ρ α} {y' : HeapProc σ ρ β}
    (h : c → Shadows y x s pre Q E) (h' : ¬ c → Shadows y' x' s pre Q E) :
    Shadows (if c then y else y') (if c then x else x') s pre Q E := by
  by_cases hc : c
  · rw [if_pos hc, if_pos hc]
    exact h hc
  · rw [if_neg hc, if_neg hc]
    exact h' hc

/-- A branch that leaves, or changes nothing. -/
theorem onlyIf {c : Prop} [Decidable c] {x : Program σ ρ Unit} {y : HeapProc σ ρ Unit}
    {Q : Unit → Unit → σ → List ℕ → Prop} (h : c → Shadows y x s pre Q E)
    (h' : ¬ c → Q () () s pre) :
    Shadows (HeapProc.onlyIf c y) (Program.onlyIf c x) s pre Q E :=
  ite h fun hc => .pure (h' hc)

/-- A function that both programs return from with one value. -/
theorem value {x : Program σ α α} {y : HeapProc σ α α} {R : α → List ℕ → Prop}
    (h : Shadows y x s pre (fun a b _ blocks => a = b ∧ R a blocks) R) :
    Safe (y s) pre fun r blocks => returned r.1 = (x s).value ∧ r.2 = (x s).final s ∧
      R (x s).value blocks := by
  refine Safe.weaken h ?_
  rintro ⟨r, t⟩ blocks ⟨hfinal, hend⟩
  unfold Ran.value
  cases hx : (x s).result with
  | ok a =>
      cases r with
      | ok b =>
          rw [hx] at hend
          exact ⟨hend.1.symm, hfinal, hend.2⟩
      | error r' =>
          rw [hx] at hend
          exact hend.elim
  | error e =>
      cases r with
      | ok b =>
          rw [hx] at hend
          exact hend.elim
      | error r' =>
          rw [hx] at hend
          exact ⟨hend.1.symm, hfinal, hend.2⟩

theorem call {x : Program σ α α} {y : HeapProc σ α α} {Q : α → α → σ → List ℕ → Prop}
    {R : α → List ℕ → Prop}
    (h : Shadows y x s pre (fun a b _ blocks => a = b ∧ R a blocks) R)
    (hq : ∀ blocks, R (x s).value blocks →
      Q (x s).value (x s).value ((x s).final s) blocks) :
    Shadows (HeapProc.call y : HeapProc σ ρ α) (Program.call x) s pre Q E := by
  refine Safe.bind (value h) ?_
  rintro ⟨r, t⟩ blocks ⟨hvalue, hfinal, hR⟩
  refine Safe.pure ⟨hfinal, ?_⟩
  show Q (x s).value (returned r) t blocks
  dsimp only at hvalue hfinal
  rw [hvalue, hfinal]
  exact hq blocks hR

/-! ### Statements in front of others -/

section Statements

variable {Q : γ → δ → σ → List ℕ → Prop} {y : HeapProc σ ρ δ} {x : Program σ ρ γ}

theorem read {k : σ → Program σ ρ γ} {m : σ → HeapProc σ ρ δ}
    (h : Shadows (m s) (k s) s pre Q E) :
    Shadows (HeapProc.plain Program.read >>= m) (Program.read >>= k) s pre Q E := by
  refine .bind (P := fun u v t blocks => s = u ∧ s = v ∧ s = t ∧ pre = blocks)
    (.plain (Program.wp_read.mpr ⟨rfl, rfl, rfl, rfl⟩)) ?_
  rintro _ _ _ _ ⟨rfl, rfl, rfl, rfl⟩
  exact h

theorem step {f : σ → σ} {k : Unit → Program σ ρ γ} {m : Unit → HeapProc σ ρ δ}
    (h : Shadows (m ()) (k ()) (f s) pre Q E) :
    Shadows (HeapProc.plain (Program.step f) >>= m) (Program.step f >>= k) s pre Q E := by
  refine .bind (P := fun _ _ t blocks => f s = t ∧ pre = blocks)
    (.plain ((Program.wp_step f).mpr ⟨trivial, rfl, rfl⟩)) ?_
  rintro - - _ _ ⟨rfl, rfl⟩
  exact h

/-- A branch that leaves. -/
theorem guard {c : Prop} [Decidable c] {x' : Program σ ρ Unit} {y' : HeapProc σ ρ Unit}
    {k : Unit → Program σ ρ γ} {m : Unit → HeapProc σ ρ δ}
    (hleave : c → Shadows y' x' s pre (fun _ _ _ _ => False) E)
    (h : ¬ c → Shadows (m ()) (k ()) s pre Q E) :
    Shadows (HeapProc.onlyIf c y' >>= m) (Program.onlyIf c x' >>= k) s pre Q E := by
  by_cases hc : c
  · rw [HeapProc.onlyIf, Program.onlyIf, if_pos hc, if_pos hc]
    exact .bind (hleave hc) fun _ _ _ _ hfalse => hfalse.elim
  · rw [HeapProc.onlyIf, Program.onlyIf, if_neg hc, if_neg hc]
    refine .bind (P := fun _ _ t blocks => s = t ∧ pre = blocks) (.pure ⟨rfl, rfl⟩) ?_
    rintro - - _ _ ⟨rfl, rfl⟩
    exact h hc

theorem access {b : ℕ} {m : Unit → HeapProc σ ρ δ} (hb : b ∈ pre)
    (h : Shadows (m ()) x s pre Q E) :
    Shadows (HeapProc.onHeap (HeapProgram.access b) >>= m) x s pre Q E := by
  refine .onHeap (R := fun _ blocks => pre = blocks) (.access hb rfl) ?_
  rintro - _ rfl
  exact h

theorem deref {p : Option ℕ} {m : Unit → HeapProc σ ρ δ} (hp : PointsInto p pre)
    (h : Shadows (m ()) x s pre Q E) :
    Shadows (HeapProc.onHeap (HeapProgram.deref p) >>= m) x s pre Q E := by
  refine .onHeap (R := fun _ blocks => pre = blocks) (.deref hp rfl) ?_
  rintro - _ rfl
  exact h

/-- The block in front is freed. -/
theorem free {b : ℕ} {m : Unit → HeapProc σ ρ δ} (h : Shadows (m ()) x s pre Q E) :
    Shadows (HeapProc.onHeap (HeapProgram.free b) >>= m) x s (b :: pre) Q E := by
  refine .onHeap (R := fun _ blocks => pre = blocks)
    (.free List.mem_cons_self (List.erase_cons_head ..).symm) ?_
  rintro - _ rfl
  exact h

end Statements

end Shadows

end HeapProc

end LxcUio.Foundation
