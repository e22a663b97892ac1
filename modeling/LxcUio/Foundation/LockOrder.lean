import LxcUio.Foundation.LabelledRun
import Mathlib.Data.Fintype.EquivFin
import Mathlib.Data.Set.Insert
import Mathlib.Order.RelClasses
import Mathlib.Order.WellFounded

/-!
# Mutexes taken in an order

Threads that share a state and a set of non-recursive mutexes. What a thread still has to
do is a `LockProgram`: it locks, unlocks, or reads and changes the shared state, and goes
on depending on what it read. A thread that faults stops where it is, with the mutexes it
holds.

`Ordered held p` is the discipline: started with the mutexes `held`, `p` takes a mutex only
above all those it holds, releases only what it holds, and returns with none. When every
entry point follows it, no thread waits for itself or for a ring of others, whatever the
interleaving: `Disciplined.locksSafe`.
-/

namespace LxcUio.Foundation

inductive LockProgram (L σ ρ : Type) where
  | ret (r : ρ)
  | fault
  | lock (m : L) (next : LockProgram L σ ρ)
  | unlock (m : L) (next : LockProgram L σ ρ)
  | act (f : σ → σ) (next : σ → LockProgram L σ ρ)

namespace LockProgram

variable {L σ ρ : Type}

/-- Go on depending on the shared state. -/
def read (next : σ → LockProgram L σ ρ) : LockProgram L σ ρ := .act id next

def write (f : σ → σ) (next : LockProgram L σ ρ) : LockProgram L σ ρ := .act f fun _ => next

/-- What a thread that is not interrupted returns, and the state it leaves. -/
def alone : LockProgram L σ ρ → σ → Option (ρ × σ)
  | .ret r, s => some (r, s)
  | .fault, _ => none
  | .lock _ next, s => next.alone s
  | .unlock _ next, s => next.alone s
  | .act f next, s => (next s).alone (f s)

@[simp] theorem alone_ret (r : ρ) (s : σ) :
    (.ret r : LockProgram L σ ρ).alone s = some (r, s) := rfl

@[simp] theorem alone_fault (s : σ) : (.fault : LockProgram L σ ρ).alone s = none := rfl

@[simp] theorem alone_lock (m : L) (next : LockProgram L σ ρ) (s : σ) :
    (LockProgram.lock m next).alone s = next.alone s := rfl

@[simp] theorem alone_unlock (m : L) (next : LockProgram L σ ρ) (s : σ) :
    (LockProgram.unlock m next).alone s = next.alone s := rfl

@[simp] theorem alone_read (next : σ → LockProgram L σ ρ) (s : σ) :
    (read next).alone s = (next s).alone s := rfl

@[simp] theorem alone_write (f : σ → σ) (next : LockProgram L σ ρ) (s : σ) :
    (write f next).alone s = next.alone (f s) := rfl

/-! ## The discipline -/

inductive Ordered [LT L] : Set L → LockProgram L σ ρ → Prop where
  | ret (r : ρ) : Ordered ∅ (.ret r)
  | fault {held : Set L} : Ordered held .fault
  | lock {held : Set L} {m : L} {next : LockProgram L σ ρ} (above : ∀ m' ∈ held, m' < m)
      (rest : Ordered (insert m held) next) : Ordered held (.lock m next)
  | release {held : Set L} {m : L} {next : LockProgram L σ ρ} (owned : m ∈ held)
      (rest : Ordered (held \ {m}) next) : Ordered held (.unlock m next)
  | act {held : Set L} {f : σ → σ} {next : σ → LockProgram L σ ρ}
      (rest : ∀ s, Ordered held (next s)) : Ordered held (.act f next)

variable {held : Set L} {m : L}

/-! What a thread that keeps to the order may do next. -/

theorem Ordered.eq_empty [LT L] {r : ρ} (h : Ordered held (.ret r : LockProgram L σ ρ)) :
    held = ∅ := by
  cases h
  rfl

theorem Ordered.locks [LT L] {next : LockProgram L σ ρ}
    (h : Ordered held (LockProgram.lock m next)) :
    (∀ m' ∈ held, m' < m) ∧ Ordered (insert m held) next := by
  cases h with
  | lock above rest => exact ⟨above, rest⟩

theorem Ordered.unlocks [LT L] {next : LockProgram L σ ρ}
    (h : Ordered held (LockProgram.unlock m next)) :
    m ∈ held ∧ Ordered (held \ {m}) next := by
  cases h with
  | release owned rest => exact ⟨owned, rest⟩

theorem Ordered.acts [LT L] {f : σ → σ} {next : σ → LockProgram L σ ρ}
    (h : Ordered held (LockProgram.act f next)) (s : σ) : Ordered held (next s) := by
  cases h with
  | act rest => exact rest s

/-! The rules for the statements. -/

theorem Ordered.read [LT L] {next : σ → LockProgram L σ ρ} (h : ∀ s, Ordered held (next s)) :
    Ordered held (LockProgram.read next) := .act h

theorem Ordered.write [LT L] {f : σ → σ} {next : LockProgram L σ ρ} (h : Ordered held next) :
    Ordered held (LockProgram.write f next) := .act fun _ => h

theorem Ordered.ite [LT L] {c : Prop} [Decidable c] {p q : LockProgram L σ ρ}
    (hp : Ordered held p) (hq : Ordered held q) : Ordered held (if c then p else q) := by
  split
  · exact hp
  · exact hq

/-- The end of a section that began above all that is held. -/
theorem Ordered.unlock [Preorder L] {next : LockProgram L σ ρ} (above : ∀ m' ∈ held, m' < m)
    (h : Ordered held next) : Ordered (insert m held) (LockProgram.unlock m next) := by
  have hfresh : m ∉ held := fun hm => lt_irrefl m (above m hm)
  refine .release (Set.mem_insert m held) ?_
  rw [Set.insert_sdiff_self_of_notMem hfresh]
  exact h

end LockProgram

/-! ## Many threads -/

variable {ι L σ ρ ε : Type}

/-- Who holds each mutex, and what each thread still has to do. -/
structure LockState (ι L σ ρ : Type) where
  shared : σ
  holder : L → Option ι
  code : ι → LockProgram L σ ρ

/-- A thread that has returned calls an entry point; a thread makes its next step. -/
inductive LockLabel (ι ε : Type) where
  | call (i : ι) (e : ε)
  | step (i : ι)

/-- No mutex is held, and every thread has returned. -/
def LockState.init (shared : σ) (r : ρ) : LockState ι L σ ρ :=
  ⟨shared, fun _ => none, fun _ => .ret r⟩

section Step

variable [DecidableEq ι] [DecidableEq L]

def LockState.goOn (s : LockState ι L σ ρ) (i : ι) (next : LockProgram L σ ρ) :
    LockState ι L σ ρ :=
  { s with code := Function.update s.code i next }

def lockStep (entry : ε → LockProgram L σ ρ) (s : LockState ι L σ ρ) :
    LockLabel ι ε → Option (LockState ι L σ ρ)
  | .call i e =>
      match s.code i with
      | .ret _ => some (s.goOn i (entry e))
      | _ => none
  | .step i =>
      match s.code i with
      | .ret _ => none
      | .fault => none
      | .lock m next =>
          if s.holder m = none then
            some { s.goOn i next with holder := Function.update s.holder m (some i) }
          else none
      | .unlock m next =>
          some { s.goOn i next with holder := Function.update s.holder m none }
      | .act f next => some { s.goOn i (next s.shared) with shared := f s.shared }

end Step

namespace LockState

def held (s : LockState ι L σ ρ) (i : ι) : Set L := { m | s.holder m = some i }

/-- Thread `i` cannot go on before thread `j` releases a mutex. -/
def WaitsFor (s : LockState ι L σ ρ) (i j : ι) : Prop :=
  ∃ m next, s.code i = .lock m next ∧ s.holder m = some j

/-- **Safe use of the mutexes**: none is taken twice by a thread, a thread that has returned
holds none, and no set of threads waits for itself. -/
structure LocksSafe (s : LockState ι L σ ρ) : Prop where
  notTwice : ∀ i m next, s.code i = .lock m next → s.holder m ≠ some i
  returnsFree : ∀ i r, s.code i = .ret r → ∀ m, s.holder m ≠ some i
  noDeadlock : ∀ T : Set ι, T.Nonempty → ¬ ∀ i ∈ T, ∃ j ∈ T, s.WaitsFor i j

/-- What every thread still has to do follows the discipline. -/
def Disciplined [LT L] (s : LockState ι L σ ρ) : Prop :=
  ∀ i, LockProgram.Ordered (s.held i) (s.code i)

theorem init_disciplined [LT L] (shared : σ) (r : ρ) :
    (init shared r : LockState ι L σ ρ).Disciplined := by
  intro i
  have hnone : (init shared r : LockState ι L σ ρ).held i = ∅ := by
    ext m
    simp [held, init]
  rw [hnone]
  exact .ret r

/-- Along the threads that wait for each other the mutexes grow. -/
theorem Disciplined.waitsFor_wellFounded [Preorder L] [WellFoundedGT L]
    {s : LockState ι L σ ρ} (h : s.Disciplined) : WellFounded fun j i => s.WaitsFor i j := by
  have hacc : ∀ m i next, s.code i = .lock m next → Acc (fun j i => s.WaitsFor i j) i := by
    intro m
    -- on the mutex waited for: its holder waits for a greater one
    induction m using WellFoundedGT.induction with
    | ind m ih =>
      intro i next hi
      constructor
      rintro j ⟨m₁, next₁, hi', hj⟩
      rw [hi] at hi'
      injection hi' with hm
      subst hm
      constructor
      rintro l ⟨m', next', hcode, hl⟩
      have hdisc := h j
      rw [hcode] at hdisc
      have hlt := hdisc.locks.1 m hj
      exact (ih m' hlt j next' hcode).inv ⟨m', next', hcode, hl⟩
  constructor
  intro i
  constructor
  rintro j ⟨m, next, hi, hj⟩
  exact (hacc m i next hi).inv ⟨m, next, hi, hj⟩

theorem Disciplined.locksSafe [Preorder L] [WellFoundedGT L] {s : LockState ι L σ ρ}
    (h : s.Disciplined) : s.LocksSafe where
  notTwice := by
    intro i m next hcode hholder
    have hdisc := h i
    rw [hcode] at hdisc
    exact lt_irrefl m (hdisc.locks.1 m hholder)
  returnsFree := by
    intro i r hcode m hholder
    have hdisc := h i
    rw [hcode] at hdisc
    have hm : m ∈ s.held i := hholder
    rw [hdisc.eq_empty] at hm
    exact hm
  noDeadlock := by
    intro T hne hT
    -- a thread at the end of the chain waits for nobody in `T`
    obtain ⟨i, hi, hmin⟩ := h.waitsFor_wellFounded.has_min T hne
    obtain ⟨j, hj, hwaits⟩ := hT i hi
    exact hmin j hj hwaits

section Preserved

variable [DecidableEq ι]

/-- Thread `i` goes on; the mutexes of the others are as they were. -/
theorem Disciplined.goOn [LT L] {s t : LockState ι L σ ρ} (h : s.Disciplined) {i : ι}
    {next : LockProgram L σ ρ} (hcode : t.code = Function.update s.code i next)
    (hi : LockProgram.Ordered (t.held i) next) (hothers : ∀ j, j ≠ i → t.held j = s.held j) :
    t.Disciplined := by
  intro j
  rw [hcode]
  by_cases hj : j = i
  · subst hj
    rw [Function.update_self]
    exact hi
  · rw [Function.update_of_ne hj, hothers j hj]
    exact h j

variable [DecidableEq L]

theorem held_lock {s : LockState ι L σ ρ} {i : ι} {m : L} (hfree : s.holder m = none) (j : ι) :
    { m' | Function.update s.holder m (some i) m' = some j } =
      if j = i then insert m (s.held i) else s.held j := by
  ext m'
  by_cases hm : m' = m
  · subst hm
    by_cases hj : j = i
    · subst hj
      simp
    · simp [hj, Ne.symm hj, held, hfree]
  · by_cases hj : j = i
    · subst hj
      simp [hm, held]
    · simp [hm, hj, held]

theorem held_unlock {s : LockState ι L σ ρ} {i : ι} {m : L} (howner : s.holder m = some i)
    (j : ι) : { m' | Function.update s.holder m none m' = some j } =
      if j = i then s.held i \ {m} else s.held j := by
  ext m'
  by_cases hm : m' = m
  · subst hm
    by_cases hj : j = i
    · subst hj
      simp
    · simp [hj, Ne.symm hj, held, howner]
  · by_cases hj : j = i
    · subst hj
      simp [hm, held]
    · simp [hm, hj, held]

/-- Every step keeps the discipline, when every entry point follows it. -/
theorem Disciplined.step [LT L] {entry : ε → LockProgram L σ ρ}
    (hentry : ∀ e, LockProgram.Ordered ∅ (entry e)) {s t : LockState ι L σ ρ} {l : LockLabel ι ε}
    (h : s.Disciplined) (hstep : lockStep entry s l = some t) : t.Disciplined := by
  cases l with
  | call i e =>
      have hi := h i
      unfold lockStep at hstep
      cases hcode : s.code i with
      | ret r =>
          rw [hcode] at hi
          simp only [hcode] at hstep
          obtain rfl := Option.some.inj hstep
          refine h.goOn rfl ?_ fun j _ => rfl
          -- a thread that has returned holds nothing
          show LockProgram.Ordered (s.held i) (entry e)
          rw [hi.eq_empty]
          exact hentry e
      | fault => simp [hcode] at hstep
      | lock m next => simp [hcode] at hstep
      | unlock m next => simp [hcode] at hstep
      | act f next => simp [hcode] at hstep
  | step i =>
      have hi := h i
      unfold lockStep at hstep
      cases hcode : s.code i with
      | ret r => simp [hcode] at hstep
      | fault => simp [hcode] at hstep
      | lock m next =>
          rw [hcode] at hi
          by_cases hfree : s.holder m = none
          · simp only [hcode, if_pos hfree] at hstep
            obtain rfl := Option.some.inj hstep
            refine h.goOn rfl ?_ fun j hj => ?_
            · show LockProgram.Ordered { m' | Function.update s.holder m (some i) m' = some i } next
              rw [held_lock hfree, if_pos rfl]
              exact hi.locks.2
            · exact (held_lock hfree j).trans (if_neg hj)
          · simp [hcode, hfree] at hstep
      | unlock m next =>
          rw [hcode] at hi
          simp only [hcode] at hstep
          obtain rfl := Option.some.inj hstep
          obtain ⟨howned, hrest⟩ := hi.unlocks
          refine h.goOn rfl ?_ fun j hj => (held_unlock howned j).trans (if_neg hj)
          show LockProgram.Ordered { m' | Function.update s.holder m none m' = some i } next
          rw [held_unlock howned, if_pos rfl]
          exact hrest
      | act f next =>
          rw [hcode] at hi
          simp only [hcode] at hstep
          obtain rfl := Option.some.inj hstep
          exact h.goOn rfl (hi.acts s.shared) fun j _ => rfl

/-- **The discipline is enough**: in every state reached the mutexes are used safely. -/
theorem locksSafe_of_ordered [Preorder L] [WellFoundedGT L] {entry : ε → LockProgram L σ ρ}
    (hentry : ∀ e, LockProgram.Ordered ∅ (entry e)) {s t : LockState ι L σ ρ} (hs : s.Disciplined)
    (h : Via (lockStep entry) anyStep s t) : t.LocksSafe :=
  (h.invariant Disciplined hs fun _ _ _ hu _ hstep => hu.step hentry hstep).locksSafe

end Preserved

end LockState

end LxcUio.Foundation
