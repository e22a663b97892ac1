import LxcUio.Foundation.LockOrder

/-!
# Sections in two phases

The shared state falls into parts, one for each mutex, and `bare` is what may be read of it
without any. A thread keeps to `TwoPhase` when

- it reads and writes only the parts whose mutexes it holds, and without a mutex reads no
  more than `bare`;
- it takes no mutex after it has written or released one;
- only its first write of a section shows in `bare`.

Its first write or first release commits a thread. `Took` says how far it has come before,
`Leaves` where its section will end from then on; neither depends on the parts it does not
hold.
-/

namespace LxcUio.Foundation

variable {ι L σ ρ ε : Type}

/-! ## Guarded state -/

/-- The parts of a shared state, and what is read of it without a mutex. -/
structure Guarded (L σ : Type) where
  Part : L → Type
  part : (l : L) → σ → Part l
  ext : ∀ s t, (∀ l, part l s = part l t) → s = t
  Bare : Type
  bare : σ → Bare

namespace Guarded

variable (g : Guarded L σ)

def AgreeOn (H : Set L) (s t : σ) : Prop := ∀ l ∈ H, g.part l s = g.part l t

/-- `f` reads and writes only the parts in `H`. -/
structure Local (H : Set L) (f : σ → σ) : Prop where
  inside : ∀ s t, g.AgreeOn H s t → g.AgreeOn H (f s) (f t)
  outside : ∀ s, ∀ l ∉ H, g.part l (f s) = g.part l s

variable {g}

theorem AgreeOn.symm {H : Set L} {s t : σ} (h : g.AgreeOn H s t) : g.AgreeOn H t s :=
  fun l hl => (h l hl).symm

theorem AgreeOn.trans {H : Set L} {s t u : σ} (h : g.AgreeOn H s t) (h' : g.AgreeOn H t u) :
    g.AgreeOn H s u :=
  fun l hl => (h l hl).trans (h' l hl)

theorem AgreeOn.mono {H K : Set L} {s t : σ} (h : g.AgreeOn K s t) (hsub : H ⊆ K) :
    g.AgreeOn H s t :=
  fun l hl => h l (hsub hl)

end Guarded

/-! ## The discipline -/

/-- Mutexes may still be taken; or one has been released or a part written. -/
inductive LockPhase where
  | taking
  | leaving

namespace LockProgram

inductive TwoPhase (g : Guarded L σ) : LockPhase → Set L → LockProgram L σ ρ → Prop where
  | ret (r : ρ) : TwoPhase g .taking ∅ (.ret r)
  | fault {ph : LockPhase} {H : Set L} : TwoPhase g ph H .fault
  | lock {H : Set L} {m : L} {next : LockProgram L σ ρ} (fresh : m ∉ H)
      (rest : TwoPhase g .taking (insert m H) next) : TwoPhase g .taking H (.lock m next)
  | bare {next : σ → LockProgram L σ ρ} (reads : ∀ s t, g.bare s = g.bare t → next s = next t)
      (rest : ∀ s, TwoPhase g .taking ∅ (next s)) : TwoPhase g .taking ∅ (.act id next)
  | read {ph : LockPhase} {H : Set L} {next : σ → LockProgram L σ ρ}
      (reads : ∀ s t, g.AgreeOn H s t → next s = next t)
      (rest : ∀ s, TwoPhase g ph H (next s)) : TwoPhase g ph H (.act id next)
  | first {H : Set L} {f : σ → σ} {next : LockProgram L σ ρ} (owned : H.Nonempty)
      (local_ : g.Local H f) (shows : ∀ s t, g.bare s = g.bare t → g.bare (f s) = g.bare (f t))
      (rest : TwoPhase g .leaving H next) : TwoPhase g .taking H (.act f fun _ => next)
  | later {H : Set L} {f : σ → σ} {next : LockProgram L σ ρ} (local_ : g.Local H f)
      (hides : ∀ s, g.bare (f s) = g.bare s) (rest : TwoPhase g .leaving H next) :
      TwoPhase g .leaving H (.act f fun _ => next)
  | release {ph : LockPhase} {H : Set L} {m : L} {next : LockProgram L σ ρ} (owned : m ∈ H)
      (more : (H \ {m}).Nonempty) (rest : TwoPhase g .leaving (H \ {m}) next) :
      TwoPhase g ph H (.unlock m next)
  | last {ph : LockPhase} {m : L} {next : LockProgram L σ ρ} (rest : TwoPhase g .taking ∅ next) :
      TwoPhase g ph {m} (.unlock m next)

/-- From the start of its section, `p₀`, a thread that is not yet committed has come to `p`
with the mutexes `H`, in the shared state `s`. -/
inductive Took (g : Guarded L σ) (s : σ) (p₀ : LockProgram L σ ρ) :
    Set L → LockProgram L σ ρ → Prop where
  | start : Took g s p₀ ∅ p₀
  | lock {H : Set L} {m : L} {next : LockProgram L σ ρ} (before : Took g s p₀ H (.lock m next))
      (fresh : m ∉ H) : Took g s p₀ (insert m H) next
  | read {H : Set L} {next : σ → LockProgram L σ ρ} (before : Took g s p₀ H (.act id next))
      (reads : ∀ s t, g.AgreeOn H s t → next s = next t) : Took g s p₀ H (next s)

/-- A committed thread at `p` with the mutexes `H`, left alone in `s`, comes to the end of
its section in `t`, at `q`; it still holds `K` if it faults there. -/
inductive Leaves (g : Guarded L σ) :
    Set L → σ → LockProgram L σ ρ → Set L → σ → LockProgram L σ ρ → Prop where
  | done {s : σ} {p : LockProgram L σ ρ} (outside : TwoPhase g .taking ∅ p) :
      Leaves g ∅ s p ∅ s p
  | fault {H : Set L} {s : σ} : Leaves g H s .fault H s .fault
  | unlock {H K : Set L} {m : L} {s t : σ} {next q : LockProgram L σ ρ} (owned : m ∈ H)
      (rest : Leaves g (H \ {m}) s next K t q) : Leaves g H s (.unlock m next) K t q
  | read {H K : Set L} {s t : σ} {next : σ → LockProgram L σ ρ} {q : LockProgram L σ ρ}
      (owned : H.Nonempty) (reads : ∀ s t, g.AgreeOn H s t → next s = next t)
      (rest : Leaves g H s (next s) K t q) : Leaves g H s (.act id next) K t q
  | write {H K : Set L} {s t : σ} {f : σ → σ} {next q : LockProgram L σ ρ}
      (owned : H.Nonempty) (local_ : g.Local H f) (hides : ∀ s, g.bare (f s) = g.bare s)
      (rest : Leaves g H (f s) next K t q) : Leaves g H s (.act f fun _ => next) K t q

variable {g : Guarded L σ} {H K : Set L} {s t : σ} {p₀ p q : LockProgram L σ ρ}

/-- What happened to parts it does not hold makes no difference to an uncommitted thread. -/
theorem Took.congr (h : Took g s p₀ H p) (hagree : g.AgreeOn H s t) : Took g t p₀ H p := by
  induction h with
  | start => exact .start
  | lock before fresh ih =>
      exact .lock (ih (hagree.mono (Set.subset_insert _ _))) fresh
  | read before reads ih =>
      rw [reads s t hagree]
      exact .read (ih hagree) reads

theorem Leaves.subset (h : Leaves g H s p K t q) : K ⊆ H := by
  induction h with
  | done => exact subset_rfl
  | fault => exact subset_rfl
  | unlock owned rest ih => exact ih.trans Set.sdiff_subset
  | read owned reads rest ih => exact ih
  | write owned local_ hides rest ih => exact ih

theorem Leaves.outside (h : Leaves g H s p K t q) : ∀ l ∉ H, g.part l t = g.part l s := by
  induction h with
  | done => exact fun _ _ => rfl
  | fault => exact fun _ _ => rfl
  | unlock owned rest ih => exact fun l hl => ih l fun hl' => hl hl'.1
  | read owned reads rest ih => exact ih
  | write owned local_ hides rest ih =>
      exact fun l hl => (ih l hl).trans (local_.outside _ l hl)

theorem Leaves.bare (h : Leaves g H s p K t q) : g.bare t = g.bare s := by
  induction h with
  | done => rfl
  | fault => rfl
  | unlock owned rest ih => exact ih
  | read owned reads rest ih => exact ih
  | write owned local_ hides rest ih => exact ih.trans (hides _)

theorem Leaves.ends (h : Leaves g H s p K t q) :
    K = ∅ ∧ TwoPhase g .taking ∅ q ∨ q = .fault := by
  induction h with
  | done outside => exact Or.inl ⟨rfl, outside⟩
  | fault => exact Or.inr rfl
  | unlock owned rest ih => exact ih
  | read owned reads rest ih => exact ih
  | write owned local_ hides rest ih => exact ih

/-- Nor does it make a difference to a committed thread. -/
theorem Leaves.congr (h : Leaves g H s p K t q) : ∀ {s' : σ}, g.AgreeOn H s s' →
    ∃ t', Leaves g H s' p K t' q ∧ g.AgreeOn H t t' := by
  induction h with
  | done outside => exact fun hagree => ⟨_, .done outside, hagree⟩
  | fault => exact fun hagree => ⟨_, .fault, hagree⟩
  | @unlock H K m s t next q owned rest ih =>
      intro s' hagree
      obtain ⟨t', hrest, hagree'⟩ := ih (hagree.mono Set.sdiff_subset)
      refine ⟨t', .unlock owned hrest, fun l hl => ?_⟩
      by_cases hlm : l = m
      · -- the part just released stays as it was
        subst hlm
        have hnot : l ∉ H \ {l} := fun h => h.2 rfl
        rw [rest.outside l hnot, hrest.outside l hnot]
        exact hagree l hl
      · exact hagree' l ⟨hl, hlm⟩
  | @read H K s t next q owned reads rest ih =>
      intro s' hagree
      obtain ⟨t', hrest, hagree'⟩ := ih hagree
      rw [reads s s' hagree] at hrest
      exact ⟨t', .read owned reads hrest, hagree'⟩
  | write owned local_ hides rest ih =>
      intro s' hagree
      obtain ⟨t', hrest, hagree'⟩ := ih (local_.inside _ _ hagree)
      exact ⟨t', .write owned local_ hides hrest, hagree'⟩

/-! The rules for the statements. -/

theorem TwoPhase.enter {m : L} {next : LockProgram L σ ρ} (h : TwoPhase g .taking {m} next) :
    TwoPhase g .taking ∅ (.lock m next) := by
  refine .lock (Set.notMem_empty m) ?_
  rwa [insert_empty_eq]

theorem TwoPhase.ite {ph : LockPhase} {c : Prop} [Decidable c] (hp : TwoPhase g ph H p)
    (hq : TwoPhase g ph H q) : TwoPhase g ph H (if c then p else q) := by
  split
  · exact hp
  · exact hq

/-! What a thread that keeps to the discipline may do next. -/

theorem TwoPhase.locks {ph : LockPhase} {m : L} {next : LockProgram L σ ρ}
    (h : TwoPhase g ph H (.lock m next)) : m ∉ H ∧ TwoPhase g .taking (insert m H) next := by
  cases h with
  | lock fresh rest => exact ⟨fresh, rest⟩

theorem TwoPhase.unlocks {ph : LockPhase} {m : L} {next : LockProgram L σ ρ}
    (h : TwoPhase g ph H (.unlock m next)) :
    m ∈ H ∧ ((H \ {m}).Nonempty ∧ TwoPhase g .leaving (H \ {m}) next ∨
      H \ {m} = ∅ ∧ TwoPhase g .taking ∅ next) := by
  cases h with
  | release owned more rest => exact ⟨owned, Or.inl ⟨more, rest⟩⟩
  | last rest => exact ⟨rfl, Or.inr ⟨Set.sdiff_self, rest⟩⟩

/-- Before it is committed a thread reads, or makes its first write. -/
theorem TwoPhase.acts {f : σ → σ} {k : σ → LockProgram L σ ρ}
    (h : TwoPhase g .taking H (.act f k)) :
    (f = id ∧ (∀ s, TwoPhase g .taking H (k s)) ∧
      ((∀ s t, g.AgreeOn H s t → k s = k t) ∨
        H = ∅ ∧ ∀ s t, g.bare s = g.bare t → k s = k t)) ∨
    (H.Nonempty ∧ ∃ next, (k = fun _ => next) ∧ g.Local H f ∧
      (∀ s t, g.bare s = g.bare t → g.bare (f s) = g.bare (f t)) ∧
      TwoPhase g .leaving H next) := by
  cases h with
  | bare reads rest => exact Or.inl ⟨rfl, rest, Or.inr ⟨rfl, reads⟩⟩
  | read reads rest => exact Or.inl ⟨rfl, rest, Or.inl reads⟩
  | first owned local_ shows rest => exact Or.inr ⟨owned, _, rfl, local_, shows, rest⟩

theorem TwoPhase.eq_empty {ph : LockPhase} {r : ρ}
    (h : TwoPhase g ph H (.ret r : LockProgram L σ ρ)) : H = ∅ := by
  cases h
  rfl

theorem Leaves.of_fault (h : Leaves g H s .fault K t q) : K = H ∧ t = s ∧ q = .fault := by
  cases h with
  | done outside => exact ⟨rfl, rfl, rfl⟩
  | fault => exact ⟨rfl, rfl, rfl⟩

theorem Leaves.of_empty (h : Leaves g ∅ s p K t q) (hlive : p ≠ .fault) :
    K = ∅ ∧ t = s ∧ q = p ∧ TwoPhase g .taking ∅ p := by
  cases h with
  | done outside => exact ⟨rfl, rfl, rfl, outside⟩
  | fault => exact absurd rfl hlive
  | unlock owned rest => exact owned.elim
  | read owned reads rest => exact absurd owned Set.not_nonempty_empty
  | write owned local_ hides rest => exact absurd owned Set.not_nonempty_empty

/-- In a section a committed thread neither returns nor takes a mutex. -/
theorem Leaves.not_ret {r : ρ} (h : Leaves g H s (.ret r) K t q) : H = ∅ := by
  cases h
  rfl

theorem Leaves.not_lock {m : L} {next : LockProgram L σ ρ}
    (h : Leaves g H s (.lock m next) K t q) : H = ∅ := by
  cases h
  rfl

theorem Leaves.unlocks {m : L} {next : LockProgram L σ ρ}
    (h : Leaves g H s (.unlock m next) K t q) (hin : H.Nonempty) :
    m ∈ H ∧ Leaves g (H \ {m}) s next K t q := by
  cases h with
  | done outside => exact absurd hin Set.not_nonempty_empty
  | unlock owned rest => exact ⟨owned, rest⟩

theorem Leaves.acts {f : σ → σ} {k : σ → LockProgram L σ ρ}
    (h : Leaves g H s (.act f k) K t q) (hin : H.Nonempty) :
    g.bare (f s) = g.bare s ∧ (∀ l ∉ H, g.part l (f s) = g.part l s) ∧
      Leaves g H (f s) (k s) K t q := by
  cases h with
  | done outside => exact absurd hin Set.not_nonempty_empty
  | read owned reads rest => exact ⟨rfl, fun _ _ => rfl, rest⟩
  | write owned local_ hides rest => exact ⟨hides s, local_.outside s, rest⟩

/-- A committed thread can always go to the end of its section. -/
theorem TwoPhase.leaves {ph : LockPhase} (h : TwoPhase g ph H p) (hph : ph = .leaving)
    (hne : H.Nonempty) (s : σ) : ∃ K t q, Leaves g H s p K t q := by
  induction h generalizing s with
  | ret => cases hph
  | fault => exact ⟨_, _, _, .fault⟩
  | lock => cases hph
  | bare => cases hph
  | read reads rest ih =>
      obtain ⟨K, t, q, hrest⟩ := ih s hph hne s
      exact ⟨K, t, q, .read hne reads hrest⟩
  | first => cases hph
  | later local_ hides rest ih =>
      obtain ⟨K, t, q, hrest⟩ := ih rfl hne _
      exact ⟨K, t, q, .write hne local_ hides hrest⟩
  | release owned more rest ih =>
      obtain ⟨K, t, q, hrest⟩ := ih rfl more s
      exact ⟨K, t, q, .unlock owned hrest⟩
  | @last ph m next rest ih =>
      refine ⟨∅, s, next, .unlock rfl ?_⟩
      rw [Set.sdiff_self]
      exact .done rest

end LockProgram

end LxcUio.Foundation
