import Mathlib.Logic.Relation
import Mathlib.Tactic.Common

/-!
# Runs of a labelled step function

A component is a partial step function `σ → α → Option σ`: the label says which
party moves and how the environment answers it, `none` that the label is not
enabled. Safety is proved over all runs, or over the runs whose steps all meet a
guard; the guard sees the state before the step and the label.

- `Via` : reachability by guarded steps, with the invariant rule `Via.invariant`.
- `exec` : a run as a computation, for the runs a witness names.
- `StatesMeet` / `StepsMeet` : the same two views of one run, and
  `statesMeet_iff_stepsMeet`, which says when a guard is exact.
- `exec_ends_iff` : the same for a property of the state where the run ends.
-/

namespace LxcUio.Foundation

variable {σ α : Type*}

/-- `t` is reached from `s` by steps that all meet the guard `G`. -/
def Via (step : σ → α → Option σ) (G : σ → α → Prop) : σ → σ → Prop :=
  Relation.ReflTransGen (fun s t => ∃ a, G s a ∧ step s a = some t)

/-- The guard that every step meets. -/
def anyStep (_ : σ) (_ : α) : Prop := True

theorem Via.refl {step : σ → α → Option σ} {G : σ → α → Prop} {s : σ} :
    Via step G s s :=
  Relation.ReflTransGen.refl

theorem Via.snoc {step : σ → α → Option σ} {G : σ → α → Prop} {s t u : σ} {a : α}
    (h : Via step G s t) (hg : G t a) (hs : step t a = some u) :
    Via step G s u :=
  Relation.ReflTransGen.tail h ⟨a, hg, hs⟩

theorem Via.trans {step : σ → α → Option σ} {G : σ → α → Prop} {s t u : σ}
    (h : Via step G s t) (h' : Via step G t u) : Via step G s u :=
  Relation.ReflTransGen.trans h h'

/-- The invariant rule: what holds at the start and is kept by every guarded
step holds in every state reached. -/
theorem Via.invariant {step : σ → α → Option σ} {G : σ → α → Prop} {s t : σ}
    (I : σ → Prop) (h : Via step G s t) (hinit : I s)
    (hstep : ∀ u a v, I u → G u a → step u a = some v → I v) : I t := by
  induction h with
  | refl => exact hinit
  | tail _ hlast ih =>
      obtain ⟨a, hg, hs⟩ := hlast
      exact hstep _ a _ ih hg hs

/-- A weaker guard reaches at least as much. -/
theorem Via.mono {step : σ → α → Option σ} {G H : σ → α → Prop} {s t : σ}
    (h : Via step G s t) (hgh : ∀ u a, G u a → H u a) : Via step H s t := by
  induction h with
  | refl => exact Via.refl
  | tail _ hlast ih =>
      obtain ⟨a, hg, hs⟩ := hlast
      exact ih.snoc (hgh _ a hg) hs

/-- Execute a list of labels, failing at the first one that is not enabled. -/
def exec (step : σ → α → Option σ) : σ → List α → Option σ
  | s, [] => some s
  | s, a :: as => (step s a).bind fun t => exec step t as

theorem exec_append {step : σ → α → Option σ} : ∀ (as bs : List α) (s : σ),
    exec step s (as ++ bs) = (exec step s as).bind fun t => exec step t bs
  | [], _, _ => rfl
  | a :: as, bs, s => by
      show (step s a).bind _ = ((step s a).bind _).bind _
      rw [Option.bind_assoc]
      exact Option.bind_congr fun t _ => exec_append as bs t

/-- What a run computes is reachable. -/
theorem via_of_exec {step : σ → α → Option σ} : ∀ {as : List α} {s t : σ},
    exec step s as = some t → Via step anyStep s t
  | [], s, t, h => by
      obtain rfl : s = t := Option.some.inj h
      exact Via.refl
  | a :: as, s, t, h => by
      obtain ⟨u, hu, hrest⟩ := Option.bind_eq_some_iff.mp h
      exact Relation.ReflTransGen.head ⟨a, trivial, hu⟩ (via_of_exec hrest)

/-- `P` holds in every state of the run. -/
def StatesMeet (step : σ → α → Option σ) (P : σ → Prop) : σ → List α → Prop
  | s, [] => P s
  | s, a :: as => P s ∧ ∀ t, step s a = some t → StatesMeet step P t as

/-- Every enabled step of the run meets the guard `G`. -/
def StepsMeet (step : σ → α → Option σ) (G : σ → α → Prop) : σ → List α → Prop
  | _, [] => True
  | s, a :: as => ∀ t, step s a = some t → G s a ∧ StepsMeet step G t as

/-- A computed run whose steps meet the guard is a guarded run. -/
theorem via_of_stepsMeet {step : σ → α → Option σ} {G : σ → α → Prop} :
    ∀ {as : List α} {s t : σ}, exec step s as = some t → StepsMeet step G s as →
      Via step G s t
  | [], s, t, h, _ => by
      obtain rfl : s = t := Option.some.inj h
      exact Via.refl
  | a :: as, s, t, h, hg => by
      obtain ⟨u, hu, hrest⟩ := Option.bind_eq_some_iff.mp h
      obtain ⟨hga, hgs⟩ := hg u hu
      exact Relation.ReflTransGen.head ⟨a, hga, hu⟩ (via_of_stepsMeet hrest hgs)

theorem StepsMeet.mono {step : σ → α → Option σ} {G H : σ → α → Prop} :
    ∀ {as : List α} {s : σ}, StepsMeet step G s as → (∀ t a, G t a → H t a) →
      StepsMeet step H s as
  | [], _, _, _ => trivial
  | a :: _, s, h, hgh => fun t ht => ⟨hgh s a (h t ht).1, (h t ht).2.mono hgh⟩

/-- A guard that reads the labels only is checked label by label. -/
theorem stepsMeet_of_forall {step : σ → α → Option σ} {G : σ → α → Prop} :
    ∀ {as : List α} {s : σ}, (∀ a ∈ as, ∀ t, G t a) → StepsMeet step G s as
  | [], _, _ => trivial
  | a :: _, s, h => fun _ _ =>
      ⟨h a List.mem_cons_self s,
        stepsMeet_of_forall fun b hb => h b (List.mem_cons_of_mem a hb)⟩

/-- A condition on the labels besides. -/
theorem StepsMeet.and_labels {step : σ → α → Option σ} {G : σ → α → Prop} {H : α → Prop} :
    ∀ {as : List α} {s : σ}, StepsMeet step G s as → (∀ a ∈ as, H a) →
      StepsMeet step (fun t a => G t a ∧ H a) s as
  | [], _, _, _ => trivial
  | a :: _, _, h, hall => fun t ht =>
      ⟨⟨(h t ht).1, hall a List.mem_cons_self⟩,
        (h t ht).2.and_labels fun b hb => hall b (List.mem_cons_of_mem a hb)⟩

theorem StepsMeet.append {step : σ → α → Option σ} {G : σ → α → Prop} :
    ∀ {as bs : List α} {s t : σ}, exec step s as = some t → StepsMeet step G s as →
      StepsMeet step G t bs → StepsMeet step G s (as ++ bs)
  | [], _, _, _, hexec, _, hbs => by
      obtain rfl := Option.some.inj hexec
      exact hbs
  | _ :: _, _, _, _, hexec, has, hbs => by
      obtain ⟨u, hu, hrest⟩ := Option.bind_eq_some_iff.mp hexec
      intro v hv
      obtain rfl := Option.some.inj (hu.symm.trans hv)
      exact ⟨(has u hu).1, (has u hu).2.append hrest hbs⟩

theorem StepsMeet.after {step : σ → α → Option σ} {G : σ → α → Prop} :
    ∀ {as bs : List α} {s t : σ}, exec step s as = some t →
      StepsMeet step G s (as ++ bs) → StepsMeet step G t bs
  | [], _, _, _, hexec, h => by
      obtain rfl := Option.some.inj hexec
      exact h
  | _ :: _, _, _, _, hexec, h => by
      obtain ⟨u, hu, hrest⟩ := Option.bind_eq_some_iff.mp hexec
      exact StepsMeet.after hrest (h u hu).2

/-- Two guards that agree on the states of an invariant are met by the same runs. -/
theorem stepsMeet_congr {step : σ → α → Option σ} {G H : σ → α → Prop} {J : σ → Prop}
    (hagree : ∀ s a, J s → (G s a ↔ H s a))
    (hkeep : ∀ s a t, J s → H s a → step s a = some t → J t) :
    ∀ (as : List α) (s : σ), J s → (StepsMeet step G s as ↔ StepsMeet step H s as) := by
  intro as
  induction as with
  | nil => exact fun _ _ => Iff.rfl
  | cons a as ih =>
      intro s hJ
      constructor
      · intro hrun t ht
        obtain ⟨hg, hrest⟩ := hrun t ht
        have hh := (hagree s a hJ).mp hg
        exact ⟨hh, (ih t (hkeep s a t hJ hh ht)).mp hrest⟩
      · intro hrun t ht
        obtain ⟨hh, hrest⟩ := hrun t ht
        exact ⟨(hagree s a hJ).mpr hh, (ih t (hkeep s a t hJ hh ht)).mpr hrest⟩

theorem StatesMeet.head {step : σ → α → Option σ} {P : σ → Prop} :
    ∀ {as : List α} {s : σ}, StatesMeet step P s as → P s
  | [], _, h => h
  | _ :: _, _, h => h.1

theorem StatesMeet.after {step : σ → α → Option σ} {P : σ → Prop} :
    ∀ {as bs : List α} {s t : σ}, exec step s as = some t →
      StatesMeet step P s (as ++ bs) → StatesMeet step P t bs
  | [], _, _, _, hexec, h => by
      obtain rfl := Option.some.inj hexec
      exact h
  | _ :: _, _, _, _, hexec, h => by
      obtain ⟨u, hu, hrest⟩ := Option.bind_eq_some_iff.mp hexec
      exact StatesMeet.after hrest (h.2 u hu)

/-- What every step keeps holds in every state of the run. -/
theorem statesMeet_of_invariant {step : σ → α → Option σ} {P I : σ → Prop}
    (hsafe : ∀ s, I s → P s) (hkeep : ∀ s a t, I s → step s a = some t → I t) :
    ∀ (as : List α) (s : σ), I s → StatesMeet step P s as := by
  intro as
  induction as with
  | nil => exact fun s hI => hsafe s hI
  | cons a as ih => exact fun s hI => ⟨hsafe s hI, fun t ht => ih t (hkeep s a t hI ht)⟩

/-- **An exact guard.** When `I` carries the safety property, guarded steps keep
`I`, and a step outside the guard breaks the property at once, a run is safe in
every state exactly when all its steps meet the guard. -/
theorem statesMeet_iff_stepsMeet {step : σ → α → Option σ} {G : σ → α → Prop}
    {P I : σ → Prop} (hsafe : ∀ s, I s → P s)
    (hkeep : ∀ s a t, I s → G s a → step s a = some t → I t)
    (hbreak : ∀ s a t, I s → ¬ G s a → step s a = some t → ¬ P t) :
    ∀ (as : List α) (s : σ), I s →
      (StatesMeet step P s as ↔ StepsMeet step G s as) := by
  intro as
  induction as with
  | nil => exact fun s hI => ⟨fun _ => trivial, fun _ => hsafe s hI⟩
  | cons a as ih =>
      intro s hI
      constructor
      · rintro ⟨-, hrun⟩ t ht
        -- an unguarded step would show in the next state
        have hg : G s a := by
          by_contra hg
          exact hbreak s a t hI hg ht (hrun t ht).head
        exact ⟨hg, (ih t (hkeep s a t hI hg ht)).mp (hrun t ht)⟩
      · intro hrun
        refine ⟨hsafe s hI, fun t ht => ?_⟩
        obtain ⟨hg, hrest⟩ := hrun t ht
        exact (ih t (hkeep s a t hI hg ht)).mpr hrest

/-- The same, among the runs whose steps all meet `B`. -/
theorem statesMeet_iff_stepsMeet_within {step : σ → α → Option σ} {B G : σ → α → Prop}
    {P I : σ → Prop} (hsafe : ∀ s, I s → P s)
    (hkeep : ∀ s a t, I s → B s a → G s a → step s a = some t → I t)
    (hbreak : ∀ s a t, I s → B s a → ¬ G s a → step s a = some t → ¬ P t) :
    ∀ (as : List α) (s : σ), I s → StepsMeet step B s as →
      (StatesMeet step P s as ↔ StepsMeet step G s as) := by
  intro as
  induction as with
  | nil => exact fun s hI _ => ⟨fun _ => trivial, fun _ => hsafe s hI⟩
  | cons a as ih =>
      intro s hI hwithin
      constructor
      · rintro ⟨-, hrun⟩ t ht
        obtain ⟨hb, hrest⟩ := hwithin t ht
        have hg : G s a := by
          by_contra hg
          exact hbreak s a t hI hb hg ht (hrun t ht).head
        exact ⟨hg, (ih t (hkeep s a t hI hb hg ht) hrest).mp (hrun t ht)⟩
      · intro hrun
        refine ⟨hsafe s hI, fun t ht => ?_⟩
        obtain ⟨hb, hwithin'⟩ := hwithin t ht
        obtain ⟨hg, hrest⟩ := hrun t ht
        exact (ih t (hkeep s a t hI hb hg ht) hwithin').mpr hrest

/-- A run outside the guard ends in `D` once a step outside the guard leads from
`I` to `D` and no step leaves `D`. -/
theorem exec_doomed {step : σ → α → Option σ} {G : σ → α → Prop} {I D : σ → Prop}
    (hkeep : ∀ s a t, I s → G s a → step s a = some t → I t)
    (hbreak : ∀ s a t, I s → ¬ G s a → step s a = some t → D t)
    (hstay : ∀ s a t, D s → step s a = some t → D t) :
    ∀ (as : List α) (s t : σ), I s → exec step s as = some t →
      ¬ StepsMeet step G s as → D t := by
  intro as
  induction as with
  | nil => exact fun s t _ _ hnot => absurd trivial hnot
  | cons a as ih =>
      intro s t hI hexec hnot
      obtain ⟨u, hu, hrest⟩ := Option.bind_eq_some_iff.mp hexec
      by_cases hg : G s a
      · refine ih u t (hkeep s a u hI hg hu) hrest fun hmeet => hnot ?_
        intro v hv
        obtain rfl := Option.some.inj (hu.symm.trans hv)
        exact ⟨hg, hmeet⟩
      · -- the rest of the run is any run from `D`
        have hD : D u := hbreak s a u hI hg hu
        exact (via_of_exec hrest).invariant D hD fun v b w hv _ hstep => hstay v b w hv hstep

/-- **An exact guard for the end of a run.** When `I` carries the property and `D`
refutes it, the state a run ends in has the property exactly when all the steps of
the run meet the guard. -/
theorem exec_ends_iff {step : σ → α → Option σ} {G : σ → α → Prop} {P I D : σ → Prop}
    (hkeep : ∀ s a t, I s → G s a → step s a = some t → I t)
    (hbreak : ∀ s a t, I s → ¬ G s a → step s a = some t → D t)
    (hstay : ∀ s a t, D s → step s a = some t → D t)
    {as : List α} {s t : σ} (hI : I s) (hexec : exec step s as = some t)
    (hgood : I t → P t) (hbad : D t → ¬ P t) :
    P t ↔ StepsMeet step G s as := by
  constructor
  · intro hP
    by_contra hnot
    exact hbad (exec_doomed hkeep hbreak hstay as s t hI hexec hnot) hP
  · intro hmeet
    exact hgood ((via_of_stepsMeet hexec hmeet).invariant I hI hkeep)

end LxcUio.Foundation
