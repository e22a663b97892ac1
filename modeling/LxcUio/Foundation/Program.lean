import Mathlib.Tactic.Common

/-!
# Sequential programs with early exit

A program of one thread: from a state it passes through the states `visited`, one
for each step another party could see, and ends in the last of them with a value,
or by leaving early with `exit` (the `goto out` of a C function).

`wp x I Q E s` is the weakest precondition with an invariant: started in `s`, every
state that `x` visits meets `I`, a normal end meets `Q` and an early exit meets `E`.
Each construct has its rule as an equivalence, so a program is executed
symbolically by rewriting.

`Related R Q x y` compares two runs: started in states related by `R`, `x` and `y` end
the same way, in related states, and with values related by `Q`.
-/

namespace LxcUio.Foundation

variable {σ ρ α β : Type}

structure Ran (σ ρ α : Type) where
  visited : List σ
  result : Except ρ α

/-- The last state of a run that began in `s`. -/
def Ran.final (r : Ran σ ρ α) (s : σ) : σ := r.visited.getLastD s

/-- The value of a function that returns through `exit` or at its end. -/
def Ran.value (r : Ran σ α α) : α :=
  match r.result with
  | .ok a => a
  | .error a => a

def Program (σ ρ α : Type) : Type := σ → Ran σ ρ α

namespace Program

def exit (r : ρ) : Program σ ρ α := fun _ => ⟨[], .error r⟩

def read : Program σ ρ σ := fun s => ⟨[], .ok s⟩

/-- One visible step. -/
def step (f : σ → σ) : Program σ ρ Unit := fun s => ⟨[f s], .ok ()⟩

def seq (x : Program σ ρ α) (k : α → Program σ ρ β) : Program σ ρ β := fun s =>
  match (x s).result with
  | .error r => ⟨(x s).visited, .error r⟩
  | .ok a =>
      let next := k a ((x s).final s)
      ⟨(x s).visited ++ next.visited, next.result⟩

instance : Monad (Program σ ρ) where
  pure a := fun _ => ⟨[], .ok a⟩
  bind := seq

/-- `if (c) { x }`. -/
def onlyIf (c : Prop) [Decidable c] (x : Program σ ρ Unit) : Program σ ρ Unit :=
  if c then x else pure ()

/-- A call: the callee's early exit is its return. -/
def call (x : Program σ α α) : Program σ ρ α := fun s => ⟨(x s).visited, .ok (x s).value⟩

/-! ## Weakest preconditions -/

def wp (x : Program σ ρ α) (I : σ → Prop) (Q : α → σ → Prop) (E : ρ → σ → Prop)
    (s : σ) : Prop :=
  (∀ t ∈ (x s).visited, I t) ∧
    match (x s).result with
    | .ok a => Q a ((x s).final s)
    | .error r => E r ((x s).final s)

theorem getLastD_append (l l' : List α) (a : α) :
    (l ++ l').getLastD a = l'.getLastD (l.getLastD a) := by
  induction l generalizing a with
  | nil => rfl
  | cons b l ih =>
      rw [List.cons_append, List.getLastD_cons, List.getLastD_cons]
      exact ih b

variable {I : σ → Prop} {Q Q' : α → σ → Prop} {E E' : ρ → σ → Prop} {s : σ}

@[simp] theorem wp_pure (a : α) :
    wp (pure a : Program σ ρ α) I Q E s ↔ Q a s := by
  show (∀ t ∈ [], I t) ∧ Q a s ↔ Q a s
  simp

@[simp] theorem wp_exit (r : ρ) :
    wp (exit r : Program σ ρ α) I Q E s ↔ E r s := by
  simp [wp, exit, Ran.final]

@[simp] theorem wp_read {Q : σ → σ → Prop} :
    wp (read : Program σ ρ σ) I Q E s ↔ Q s s := by
  simp [wp, read, Ran.final]

@[simp] theorem wp_step {Q : Unit → σ → Prop} (f : σ → σ) :
    wp (step f : Program σ ρ Unit) I Q E s ↔ I (f s) ∧ Q () (f s) := by
  simp [wp, step, Ran.final]

@[simp] theorem wp_bind {Q : β → σ → Prop} (x : Program σ ρ α)
    (k : α → Program σ ρ β) :
    wp (x >>= k) I Q E s ↔ wp x I (fun a t => wp (k a) I Q E t) E s := by
  show wp (seq x k) I Q E s ↔ _
  simp only [wp, seq]
  cases (x s).result with
  | error r => rfl
  | ok a =>
      simp only [List.mem_append, Ran.final, getLastD_append]
      constructor
      · rintro ⟨hvis, hres⟩
        exact ⟨fun t ht => hvis t (Or.inl ht), fun t ht => hvis t (Or.inr ht), hres⟩
      · rintro ⟨hvis, hvis', hres⟩
        exact ⟨fun t ht => ht.elim (hvis t) (hvis' t), hres⟩

@[simp] theorem wp_onlyIf {Q : Unit → σ → Prop} (c : Prop) [Decidable c]
    (x : Program σ ρ Unit) :
    wp (onlyIf c x) I Q E s ↔ (c → wp x I Q E s) ∧ (¬ c → Q () s) := by
  by_cases h : c <;> simp [onlyIf, h]

theorem wp_ite (c : Prop) [Decidable c] (x y : Program σ ρ α) :
    wp (if c then x else y) I Q E s ↔ (c → wp x I Q E s) ∧ (¬ c → wp y I Q E s) := by
  by_cases h : c <;> simp [h]

/-- What a function returns does not depend on how it leaves. -/
theorem wp_value_iff {Q : α → σ → Prop} (x : Program σ α α) :
    wp x I Q Q s ↔ (∀ t ∈ (x s).visited, I t) ∧ Q (x s).value ((x s).final s) := by
  simp only [wp, Ran.value]
  cases (x s).result <;> rfl

@[simp] theorem wp_call (x : Program σ α α) :
    wp (call x : Program σ ρ α) I Q E s ↔ wp x I Q Q s := by
  rw [wp_value_iff]
  rfl

/-- The rule of consequence. -/
theorem wp_weaken {I' : σ → Prop} {x : Program σ ρ α} (h : wp x I Q E s)
    (hi : ∀ t, I t → I' t) (hq : ∀ a t, Q a t → Q' a t) (he : ∀ r t, E r t → E' r t) :
    wp x I' Q' E' s := by
  refine ⟨fun t ht => hi t (h.1 t ht), ?_⟩
  have hres := h.2
  cases hr : (x s).result with
  | ok a =>
      rw [hr] at hres
      exact hq a _ hres
  | error r =>
      rw [hr] at hres
      exact he r _ hres

/-- Consequence under one invariant. -/
theorem wp_mono {x : Program σ ρ α} (h : wp x I Q E s) (hq : ∀ a t, Q a t → Q' a t)
    (he : ∀ r t, E r t → E' r t) : wp x I Q' E' s :=
  wp_weaken h (fun _ hi => hi) hq he

/-- What a program does is what it did. -/
theorem wp_ran (x : Program σ ρ α) (s : σ) :
    wp x (fun _ => True) (fun a t => (x s).result = .ok a ∧ t = (x s).final s)
      (fun r t => (x s).result = .error r ∧ t = (x s).final s) s := by
  refine ⟨fun _ _ => trivial, ?_⟩
  cases (x s).result with
  | ok a => exact ⟨rfl, rfl⟩
  | error r => exact ⟨rfl, rfl⟩

/-- The rule of conjunction. -/
theorem wp_and {I' : σ → Prop} {x : Program σ ρ α} (h : wp x I Q E s)
    (h' : wp x I' Q' E' s) :
    wp x (fun t => I t ∧ I' t) (fun a t => Q a t ∧ Q' a t) (fun r t => E r t ∧ E' r t) s := by
  refine ⟨fun t ht => ⟨h.1 t ht, h'.1 t ht⟩, ?_⟩
  have hres := h.2
  have hres' := h'.2
  cases hr : (x s).result with
  | ok a =>
      rw [hr] at hres hres'
      exact ⟨hres, hres'⟩
  | error r =>
      rw [hr] at hres hres'
      exact ⟨hres, hres'⟩

/-- The rule of sequence: what `x` establishes is enough for what follows. -/
theorem wp_seq {R : α → σ → Prop} {Q : β → σ → Prop} {x : Program σ ρ α}
    {k : α → Program σ ρ β} (h : wp x I R E s) (hk : ∀ a t, R a t → wp (k a) I Q E t) :
    wp (x >>= k) I Q E s :=
  (wp_bind x k).mpr (wp_mono h hk fun _ _ he => he)

/-! ## Two runs -/

def Related (R : σ → σ → Prop) (Q : α → β → Prop) (x : Program σ ρ α) (y : Program σ ρ β) :
    Prop :=
  ∀ s t, R s t → R ((x s).final s) ((y t).final t) ∧
    match (x s).result, (y t).result with
    | .ok a, .ok b => Q a b
    | .error r, .error r' => r = r'
    | _, _ => False

section Related

variable {R : σ → σ → Prop}

theorem related_pure {Q : α → β → Prop} {a : α} {b : β} (h : Q a b) :
    Related R Q (pure a : Program σ ρ α) (pure b) :=
  fun _ _ hst => ⟨hst, h⟩

theorem related_exit {Q : α → β → Prop} (r : ρ) :
    Related R Q (exit r : Program σ ρ α) (exit r) :=
  fun _ _ hst => ⟨hst, rfl⟩

theorem related_read : Related R R (read : Program σ ρ σ) read :=
  fun _ _ hst => ⟨hst, hst⟩

theorem related_step {Q : Unit → Unit → Prop} {f g : σ → σ} (hq : Q () ())
    (h : ∀ s t, R s t → R (f s) (g t)) : Related R Q (step f : Program σ ρ Unit) (step g) :=
  fun s t hst => ⟨h s t hst, hq⟩

theorem related_bind {γ δ : Type} {P : α → β → Prop} {Q : γ → δ → Prop}
    {x : Program σ ρ α} {y : Program σ ρ β} {k : α → Program σ ρ γ} {m : β → Program σ ρ δ}
    (h : Related R P x y) (hk : ∀ a b, P a b → Related R Q (k a) (m b)) :
    Related R Q (x >>= k) (y >>= m) := by
  intro s t hst
  obtain ⟨hfinal, hres⟩ := h s t hst
  show R ((seq x k s).final s) ((seq y m t).final t) ∧
    match (seq x k s).result, (seq y m t).result with
    | .ok a, .ok b => Q a b
    | .error r, .error r' => r = r'
    | _, _ => False
  unfold seq
  cases hx : (x s).result with
  | error r =>
      cases hy : (y t).result with
      | error r' =>
          rw [hx, hy] at hres
          exact ⟨hfinal, hres⟩
      | ok b =>
          rw [hx, hy] at hres
          exact hres.elim
  | ok a =>
      cases hy : (y t).result with
      | error r' =>
          rw [hx, hy] at hres
          exact hres.elim
      | ok b =>
          rw [hx, hy] at hres
          obtain ⟨hfinal', hres'⟩ := hk a b hres _ _ hfinal
          refine ⟨?_, hres'⟩
          simp only [Ran.final, getLastD_append] at hfinal' ⊢
          exact hfinal'

theorem related_ite {Q : α → β → Prop} {c d : Prop} [Decidable c] [Decidable d] (hcd : c ↔ d)
    {x x' : Program σ ρ α} {y y' : Program σ ρ β} (h : c → Related R Q x y)
    (h' : ¬ c → Related R Q x' y') :
    Related R Q (if c then x else x') (if d then y else y') := by
  by_cases hc : c
  · rw [if_pos hc, if_pos (hcd.mp hc)]
    exact h hc
  · rw [if_neg hc, if_neg (mt hcd.mpr hc)]
    exact h' hc

theorem related_onlyIf {Q : Unit → Unit → Prop} {c d : Prop} [Decidable c] [Decidable d]
    (hq : Q () ()) (hcd : c ↔ d) {x y : Program σ ρ Unit} (h : Related R Q x y) :
    Related R Q (onlyIf c x) (onlyIf d y) :=
  related_ite hcd (fun _ => h) fun _ => related_pure hq

/-- A call is related by what the callees return. -/
theorem related_call {x y : Program σ α α} (h : Related R Eq x y) :
    Related R Eq (call x : Program σ ρ α) (call y) := by
  intro s t hst
  obtain ⟨hfinal, hres⟩ := h s t hst
  refine ⟨hfinal, ?_⟩
  show (x s).value = (y t).value
  unfold Ran.value
  cases hx : (x s).result <;> cases hy : (y t).result <;> rw [hx, hy] at hres
  · exact hres
  · exact hres.elim
  · exact hres.elim
  · exact hres

end Related

end Program

end LxcUio.Foundation
