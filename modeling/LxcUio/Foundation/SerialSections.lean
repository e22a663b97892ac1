import LxcUio.Foundation.TwoPhase

/-!
# Critical sections as single steps

When may a section under mutexes be taken for one atomic step? When every entry point keeps
to `TwoPhase`: every interleaving is then matched by a *serial* one, in which a thread goes
through its section without a step of another (`serial_of_twoPhase`). Until a thread is
committed the serial run has it still in front of the section, from then on already behind
it. What every section keeps, taken alone, holds of the parts that no thread has locked
(`free_parts_of_sections`).
-/

namespace LxcUio.Foundation

variable {ι L σ ρ ε : Type}

/-! ## Serial runs -/

namespace LockState

open LockProgram

/-- Thread `i` stands at `p` with exactly the mutexes `H`, and the shared state is `x`. -/
noncomputable def placed [DecidableEq ι] (s : LockState ι L σ ρ) (i : ι) (H : Set L) (x : σ)
    (p : LockProgram L σ ρ) : LockState ι L σ ρ where
  shared := x
  holder := by
    classical
    exact fun m => if m ∈ H then some i else if s.holder m = some i then none else s.holder m
  code := Function.update s.code i p

/-- The thread is in no section, unless it has faulted in one. -/
def Outside (s : LockState ι L σ ρ) (i : ι) : Prop := s.held i = ∅ ∨ s.code i = .fault

/-- No thread is in a section. -/
def Quiet (s : LockState ι L σ ρ) : Prop := ∀ i, s.Outside i

section Serial

variable [DecidableEq ι] [DecidableEq L] (entry : ε → LockProgram L σ ρ)

/-- Steps of thread `i` only. -/
def Solo (i : ι) : LockState ι L σ ρ → LockState ι L σ ρ → Prop :=
  Relation.ReflTransGen fun s t => lockStep entry s (.step i) = some t

/-- One step of a serial run: a call, or a turn of one thread from outside its sections to
outside them again. -/
inductive SerialStep (s t : LockState ι L σ ρ) : Prop where
  | call (i : ι) (e : ε) (h : lockStep entry s (.call i e) = some t)
  | turn (i : ι) (hstart : s.held i = ∅) (h : Solo entry i s t) (hend : t.Outside i)

def Serial : LockState ι L σ ρ → LockState ι L σ ρ → Prop :=
  Relation.ReflTransGen (SerialStep entry)

end Serial

variable {s t : LockState ι L σ ρ} {i j : ι} {H : Set L} {m : L} {x : σ}
  {p q : LockProgram L σ ρ}

theorem mem_held : m ∈ s.held i ↔ s.holder m = some i := Iff.rfl

theorem ext_held (hshared : s.shared = t.shared) (hcode : ∀ i, s.code i = t.code i)
    (hheld : ∀ i, s.held i = t.held i) : s = t := by
  obtain ⟨x, holder, code⟩ := s
  obtain ⟨x', holder', code'⟩ := t
  obtain rfl : x = x' := hshared
  obtain rfl : code = code' := funext hcode
  have hholder : holder = holder' := by
    funext m
    have hiff : ∀ i, holder m = some i ↔ holder' m = some i := fun i => by
      have hm := Set.ext_iff.mp (hheld i) m
      exact hm
    exact Option.ext hiff
  rw [hholder]

section Placed

variable [DecidableEq ι]

@[simp] theorem placed_shared : (s.placed i H x p).shared = x := rfl

@[simp] theorem placed_code_self : (s.placed i H x p).code i = p := Function.update_self ..

theorem placed_code_of_ne (h : j ≠ i) : (s.placed i H x p).code j = s.code j :=
  Function.update_of_ne h ..

@[simp] theorem placed_held_self : (s.placed i H x p).held i = H := by
  ext m
  by_cases hm : m ∈ H <;> simp [held, placed, hm]

/-- The mutexes it takes are free or its own. -/
def Takes (s : LockState ι L σ ρ) (i : ι) (H : Set L) : Prop :=
  ∀ m ∈ H, s.holder m = none ∨ s.holder m = some i

omit [DecidableEq ι] in
theorem takes_held : s.Takes i (s.held i) := fun _ hm => Or.inr hm

theorem placed_held_of_ne (htakes : s.Takes i H) (h : j ≠ i) :
    (s.placed i H x p).held j = s.held j := by
  ext m
  by_cases hm : m ∈ H
  · have hno : ¬ s.holder m = some j := by
      rcases htakes m hm with hfree | hown
      · rw [hfree]
        rintro ⟨⟩
      · rw [hown]
        intro heq
        exact h (Option.some.inj heq).symm
    simp [held, placed, hm, hno, h.symm]
  · by_cases hi : s.holder m = some i
    · simp [held, placed, hm, hi, h.symm]
    · simp [held, placed, hm, hi]

theorem placed_holder_eq_none :
    (s.placed i H x p).holder m = none ↔ m ∉ H ∧ (s.holder m = none ∨ s.holder m = some i) := by
  by_cases hm : m ∈ H
  · simp [placed, hm]
  · by_cases hi : s.holder m = some i
    · simp [placed, hm, hi]
    · simp [placed, hm, hi]

theorem placed_self : s.placed i (s.held i) s.shared (s.code i) = s := by
  refine ext_held rfl (fun j => ?_) fun j => ?_
  · exact congrFun (Function.update_eq_self i s.code) j
  · by_cases h : j = i
    · subst h
      exact placed_held_self
    · exact placed_held_of_ne takes_held h

end Placed

section Steps

variable [DecidableEq ι] [DecidableEq L] {entry : ε → LockProgram L σ ρ}
  {next : LockProgram L σ ρ}

theorem step_lock (htakes : s.Takes i (insert m H)) (hfresh : m ∉ H) :
    lockStep entry (s.placed i H x (.lock m next)) (.step i) =
      some (s.placed i (insert m H) x next) := by
  have hfree : (s.placed i H x (.lock m next)).holder m = none :=
    placed_holder_eq_none.mpr ⟨hfresh, htakes m (Set.mem_insert m H)⟩
  have htakes' : s.Takes i H := fun l hl => htakes l (Set.mem_insert_of_mem m hl)
  simp only [lockStep, placed_code_self, if_pos hfree]
  refine congrArg some (ext_held rfl (fun j => ?_) fun j => ?_)
  · exact congrFun (Function.update_idem ..) j
  · refine (held_lock hfree j).trans ?_
    by_cases h : j = i
    · subst h
      rw [if_pos rfl, placed_held_self, placed_held_self]
    · rw [if_neg h, placed_held_of_ne htakes' h, placed_held_of_ne htakes h]

theorem step_unlock (htakes : s.Takes i H) (howned : m ∈ H) :
    lockStep entry (s.placed i H x (.unlock m next)) (.step i) =
      some (s.placed i (H \ {m}) x next) := by
  have hown : (s.placed i H x (.unlock m next)).holder m = some i := by
    have hm : m ∈ (s.placed i H x (.unlock m next)).held i := by
      rw [placed_held_self]
      exact howned
    exact hm
  have htakes' : s.Takes i (H \ {m}) := fun l hl => htakes l hl.1
  simp only [lockStep, placed_code_self]
  refine congrArg some (ext_held rfl (fun j => ?_) fun j => ?_)
  · exact congrFun (Function.update_idem ..) j
  · refine (held_unlock hown j).trans ?_
    by_cases h : j = i
    · subst h
      rw [if_pos rfl, placed_held_self, placed_held_self]
    · rw [if_neg h, placed_held_of_ne htakes h, placed_held_of_ne htakes' h]

theorem step_act {f : σ → σ} {k : σ → LockProgram L σ ρ} :
    lockStep entry (s.placed i H x (.act f k)) (.step i) = some (s.placed i H (f x) (k x)) := by
  simp only [lockStep, placed_code_self]
  refine congrArg some (ext_held rfl (fun j => ?_) fun j => rfl)
  exact congrFun (Function.update_idem ..) j

/-- What a step of one thread does. -/
theorem step_cases (h : lockStep entry s (.step i) = some t) :
    (∃ m next, s.code i = .lock m next ∧ s.holder m = none ∧
      t = s.placed i (insert m (s.held i)) s.shared next) ∨
    (∃ m next, s.code i = .unlock m next ∧
      (m ∈ s.held i → t = s.placed i (s.held i \ {m}) s.shared next)) ∨
    ∃ f k, s.code i = .act f k ∧ t = s.placed i (s.held i) (f s.shared) (k s.shared) := by
  cases hcode : s.code i with
  | ret r => simp [lockStep, hcode] at h
  | fault => simp [lockStep, hcode] at h
  | lock m next =>
      have hfree : s.holder m = none := by
        by_contra hfree
        simp [lockStep, hcode, hfree] at h
      have hfresh : m ∉ s.held i := by
        rw [mem_held, hfree]
        rintro ⟨⟩
      have htakes : s.Takes i (insert m (s.held i)) := by
        rintro l (rfl | hl)
        · exact Or.inl hfree
        · exact takes_held l hl
      rw [← placed_self (s := s) (i := i), hcode, step_lock htakes hfresh] at h
      exact Or.inl ⟨m, next, rfl, hfree, (Option.some.inj h).symm⟩
  | unlock m next =>
      refine Or.inr (Or.inl ⟨m, next, rfl, fun howned => ?_⟩)
      rw [← placed_self (s := s) (i := i), hcode, step_unlock takes_held howned] at h
      exact (Option.some.inj h).symm
  | act f k =>
      rw [← placed_self (s := s) (i := i), hcode, step_act] at h
      exact Or.inr (Or.inr ⟨f, k, rfl, (Option.some.inj h).symm⟩)

theorem step_call {e : ε} {r : ρ} (h : s.code i = .ret r) :
    lockStep entry s (.call i e) = some (s.placed i (s.held i) s.shared (entry e)) := by
  simp only [lockStep, h]
  refine congrArg some (ext_held rfl (fun j => rfl) fun j => ?_)
  show s.held j = (s.placed i (s.held i) s.shared (entry e)).held j
  by_cases hj : j = i
  · subst hj
    exact placed_held_self.symm
  · rw [placed_held_of_ne takes_held hj]

theorem call_cases {e : ε} (h : lockStep entry s (.call i e) = some t) :
    ∃ r, s.code i = .ret r ∧ t = s.placed i (s.held i) s.shared (entry e) := by
  cases hcode : s.code i with
  | ret r =>
      rw [step_call hcode] at h
      exact ⟨r, rfl, (Option.some.inj h).symm⟩
  | fault => simp [lockStep, hcode] at h
  | lock m next => simp [lockStep, hcode] at h
  | unlock m next => simp [lockStep, hcode] at h
  | act f k => simp [lockStep, hcode] at h

/-! ### A section in one turn -/

variable {g : Guarded L σ} {p₀ : LockProgram L σ ρ} {y : σ} {K : Set L}

/-- Alone, a thread can take again what an uncommitted thread took. -/
theorem solo_took (h : Took g x p₀ H p) (htakes : s.Takes i H) :
    Solo entry i (s.placed i ∅ x p₀) (s.placed i H x p) := by
  induction h with
  | start => exact .refl
  | @lock H m next before fresh ih =>
      exact (ih fun l hl => htakes l (Set.mem_insert_of_mem m hl)).tail
        (step_lock htakes fresh)
  | read before reads ih => exact (ih htakes).tail step_act

theorem solo_leaves (h : Leaves g H x p K y q) (htakes : s.Takes i H) :
    Solo entry i (s.placed i H x p) (s.placed i K y q) := by
  induction h with
  | done outside => exact .refl
  | fault => exact .refl
  | unlock owned rest ih =>
      exact .head (step_unlock htakes owned) (ih fun l hl => htakes l hl.1)
  | read owned reads rest ih => exact .head step_act (ih htakes)
  | write owned local_ hides rest ih => exact .head step_act (ih htakes)

end Steps

/-! ### The simulation -/

section Simulation

variable (g : Guarded L σ)

/-- How thread `i` stands in the run `s` and in the serial run `c`: outside its sections in
both; in a section but not committed, and still in front of it in `c`; or committed, and
already behind it in `c`. -/
inductive Tracks (s c : LockState ι L σ ρ) (i : ι) : Prop where
  | outside (hout : s.held i = ∅ ∧ TwoPhase g .taking ∅ (s.code i) ∨ s.code i = .fault)
      (hcode : c.code i = s.code i) (hheld : c.held i = s.held i)
      (hagree : g.AgreeOn (s.held i) s.shared c.shared)
  | taking (hin : (s.held i).Nonempty) (hnone : c.held i = ∅)
      (htook : Took g c.shared (c.code i) (s.held i) (s.code i))
      (hphase : TwoPhase g .taking (s.held i) (s.code i)) (hlive : s.code i ≠ .fault)
      (hagree : g.AgreeOn (s.held i) s.shared c.shared)
  | leaving (hin : (s.held i).Nonempty) (y : σ) (hlive : s.code i ≠ .fault)
      (hleaves : Leaves g (s.held i) s.shared (s.code i) (c.held i) y (c.code i))
      (hagree : g.AgreeOn (s.held i) y c.shared)

variable {g} {start s c : LockState ι L σ ρ} {i j : ι} {H K : Set L} {x y y' : σ}
  {p q : LockProgram L σ ρ}

theorem Tracks.held_subset (h : Tracks g s c i) : c.held i ⊆ s.held i := by
  cases h with
  | outside hout hcode hheld hagree => exact hheld.subset
  | taking hin hnone => rw [hnone]; exact Set.empty_subset _
  | leaving hin y hlive hleaves hagree => exact hleaves.subset

section Moves

variable [DecidableEq ι]

/-- A step of one thread leaves the others where they are. -/
theorem Tracks.other (h : Tracks g s c j) (hj : j ≠ i) (hH : s.Takes i H) (hK : c.Takes i K)
    (hx : g.AgreeOn (s.held j) x s.shared) (hy : g.AgreeOn (s.held j) y c.shared) :
    Tracks g (s.placed i H x p) (c.placed i K y q) j := by
  have hs : (s.placed i H x p).held j = s.held j := placed_held_of_ne hH hj
  have hc : (c.placed i K y q).held j = c.held j := placed_held_of_ne hK hj
  have hscode : (s.placed i H x p).code j = s.code j := placed_code_of_ne hj
  have hccode : (c.placed i K y q).code j = c.code j := placed_code_of_ne hj
  cases h with
  | outside hout hcode hheld hagree =>
      refine .outside ?_ ?_ ?_ ?_
      · rwa [hs, hscode]
      · rw [hccode, hscode, hcode]
      · rw [hs, hc, hheld]
      · rw [hs]
        exact (hx.trans hagree).trans hy.symm
  | taking hin hnone htook hphase hlive hagree =>
      refine .taking ?_ ?_ ?_ ?_ ?_ ?_
      · rwa [hs]
      · rwa [hc]
      · rw [hs, hscode, hccode]
        exact htook.congr hy.symm
      · rwa [hs, hscode]
      · rwa [hscode]
      · rw [hs]
        exact (hx.trans hagree).trans hy.symm
  | leaving hin z hlive hleaves hagree =>
      obtain ⟨z', hleaves', hz⟩ := hleaves.congr hx.symm
      refine .leaving ?_ z' ?_ ?_ ?_
      · rwa [hs]
      · rwa [hscode]
      · rw [hs, hc, hscode, hccode]
        exact hleaves'
      · rw [hs]
        exact (hz.symm.trans hagree).trans hy.symm

/-- The thread has left, or will when it is left alone. -/
theorem Tracks.of_leaves (hleaves : Leaves g H x p K y' q)
    (hagree : g.AgreeOn H y' y) : Tracks g (s.placed i H x p) (c.placed i K y q) i := by
  by_cases hfault : p = .fault
  · subst hfault
    obtain ⟨rfl, rfl, rfl⟩ := hleaves.of_fault
    refine .outside (Or.inr placed_code_self) ?_ ?_ ?_
    · rw [placed_code_self, placed_code_self]
    · rw [placed_held_self, placed_held_self]
    · rw [placed_held_self]
      exact hagree
  · by_cases hempty : H = ∅
    · subst hempty
      obtain ⟨rfl, rfl, rfl, hout⟩ := hleaves.of_empty hfault
      refine .outside (Or.inl ?_) ?_ ?_ ?_
      · rw [placed_held_self, placed_code_self]
        exact ⟨rfl, hout⟩
      · rw [placed_code_self, placed_code_self]
      · rw [placed_held_self, placed_held_self]
      · rw [placed_held_self]
        exact hagree
    · refine .leaving ?_ y' ?_ ?_ ?_
      · rw [placed_held_self]
        exact Set.nonempty_iff_ne_empty.mpr hempty
      · rwa [placed_code_self]
      · rw [placed_held_self, placed_held_self, placed_code_self, placed_code_self]
        exact hleaves
      · rw [placed_held_self]
        exact hagree

variable [DecidableEq L] {entry : ε → LockProgram L σ ρ}

variable (g) (entry) in
/-- The serial run `c` that the run `s` amounts to. -/
structure Simulates (start s c : LockState ι L σ ρ) : Prop where
  serial : Serial entry start c
  tracks : ∀ i, Tracks g s c i
  free : ∀ m, s.holder m = none → g.part m s.shared = g.part m c.shared
  bare : g.bare s.shared = g.bare c.shared

/-- What is held in the serial run is held in the run by the same thread. -/
theorem Simulates.takes (h : Simulates g entry start s c) (hH : s.Takes i H) :
    c.Takes i H := by
  intro m hm
  cases hc : c.holder m with
  | none => exact Or.inl rfl
  | some j =>
      have hj : s.holder m = some j := (h.tracks j).held_subset hc
      rcases hH m hm with hfree | hown
      · rw [hfree] at hj
        cases hj
      · rw [hown] at hj
        exact Or.inr hj.symm

/-- A step of thread `i` in the run, and what it amounts to in the serial run. -/
theorem Simulates.move (h : Simulates g entry start s c) (hH : s.Takes i H)
    (hK : c.Takes i K) (hserial : Serial entry start (c.placed i K y q))
    (htracks : Tracks g (s.placed i H x p) (c.placed i K y q) i)
    (hx : ∀ m ∉ s.held i, g.part m x = g.part m s.shared)
    (hy : ∀ m ∉ s.held i, g.part m y = g.part m c.shared)
    (hfree : ∀ m ∈ s.held i, m ∉ H → g.part m x = g.part m y) (hbare : g.bare x = g.bare y) :
    Simulates g entry start (s.placed i H x p) (c.placed i K y q) where
  serial := hserial
  tracks := by
    intro j
    by_cases hj : j = i
    · subst hj
      exact htracks
    · -- no mutex has two holders
      have hapart : ∀ m ∈ s.held j, m ∉ s.held i := by
        intro m hmj hmi
        rw [mem_held] at hmj hmi
        exact hj (Option.some.inj (hmj.symm.trans hmi))
      exact (h.tracks j).other hj hH hK (fun m hm => hx m (hapart m hm))
        fun m hm => hy m (hapart m hm)
  free := by
    intro m hm
    obtain ⟨hmH, hnone | hown⟩ := placed_holder_eq_none.mp hm
    · have hmi : m ∉ s.held i := by
        rw [mem_held, hnone]
        rintro ⟨⟩
      exact (hx m hmi).trans ((h.free m hnone).trans (hy m hmi).symm)
    · exact hfree m hown hmH
  bare := hbare

/-- A turn that replays what the thread has taken, and goes on to the end. -/
theorem Simulates.turn (h : Simulates g entry start s c) (hnone : c.held i = ∅)
    (htook : Took g c.shared (c.code i) H p) (hH : c.Takes i H)
    (hrun : Solo entry i (c.placed i H c.shared p) (c.placed i K y q))
    (hend : K = ∅ ∨ q = .fault) : Serial entry start (c.placed i K y q) := by
  have hsolo : Solo entry i c (c.placed i K y q) := by
    have hreplay : Solo entry i (c.placed i ∅ c.shared (c.code i)) (c.placed i H c.shared p) :=
      solo_took htook hH
    rw [← hnone, placed_self] at hreplay
    exact hreplay.trans hrun
  refine h.serial.tail (.turn i hnone hsolo ?_)
  rcases hend with rfl | rfl
  · exact Or.inl placed_held_self
  · exact Or.inr placed_code_self

/-- The serial run waits. -/
theorem Simulates.stay (h : Simulates g entry start s c) (hH : s.Takes i H)
    (htracks : Tracks g (s.placed i H x p) (c.placed i (c.held i) c.shared (c.code i)) i)
    (hx : ∀ m ∉ s.held i, g.part m x = g.part m s.shared)
    (hfree : ∀ m ∈ s.held i, m ∉ H → g.part m x = g.part m c.shared)
    (hbare : g.bare x = g.bare c.shared) : ∃ c', Simulates g entry start (s.placed i H x p) c' :=
  ⟨_, h.move hH takes_held (by rw [placed_self]; exact h.serial) htracks hx (fun _ _ => rfl)
    hfree hbare⟩

/-- The thread takes or reads, and is not committed by it, unless it faults. -/
theorem Simulates.settle (h : Simulates g entry start s c) (hnone : c.held i = ∅)
    (hin : H.Nonempty) (hH : s.Takes i H) (hsub : s.held i ⊆ H)
    (htook : Took g c.shared (c.code i) H p) (hphase : TwoPhase g .taking H p)
    (hagree : g.AgreeOn H s.shared c.shared) :
    ∃ c', Simulates g entry start (s.placed i H s.shared p) c' := by
  by_cases hfault : p = .fault
  · subst hfault
    have hc := h.takes hH
    exact ⟨_, h.move hH hc (h.turn hnone htook hc .refl (Or.inr rfl))
      (.of_leaves .fault hagree) (fun _ _ => rfl) (fun _ _ => rfl)
      (fun m hm hmH => absurd (hsub hm) hmH) h.bare⟩
  · refine h.stay hH (.taking ?_ ?_ ?_ ?_ ?_ ?_) (fun _ _ => rfl)
      (fun m hm hmH => absurd (hsub hm) hmH) h.bare
    · rwa [placed_held_self]
    · rwa [placed_held_self]
    · rwa [placed_held_self, placed_code_self, placed_code_self]
    · rwa [placed_held_self, placed_code_self]
    · rwa [placed_code_self]
    · rwa [placed_held_self]

/-- The thread is committed by its step from `p`: the serial run takes its whole turn. -/
theorem Simulates.commit (h : Simulates g entry start s c) (hnone : c.held i = ∅)
    (htook : Took g c.shared (c.code i) (s.held i) p) {q' : LockProgram L σ ρ}
    (hstep : lockStep entry (c.placed i (s.held i) c.shared p) (.step i) =
      some (c.placed i H y q))
    (hleaves : Leaves g H y q K y' q') (hsub : H ⊆ s.held i) (hagree : g.AgreeOn H x y)
    (hx : ∀ m ∉ s.held i, g.part m x = g.part m s.shared)
    (hy : ∀ m ∉ s.held i, g.part m y = g.part m c.shared)
    (hfree : ∀ m ∈ s.held i, m ∉ H → g.part m x = g.part m y) (hbare : g.bare x = g.bare y) :
    ∃ c', Simulates g entry start (s.placed i H x q) c' := by
  have hH : s.Takes i H := fun m hm => takes_held m (hsub hm)
  have hK : c.Takes i K := fun m hm => h.takes hH m (hleaves.subset hm)
  obtain ⟨x', hleaves', hx'⟩ := hleaves.congr hagree.symm
  refine ⟨_, h.move hH hK ?_ (.of_leaves hleaves' hx'.symm) hx (fun m hm => ?_)
    (fun m hm hmH => ?_) (hbare.trans hleaves.bare.symm)⟩
  · refine h.turn hnone htook (h.takes takes_held) (.head hstep ?_) ?_
    · exact solo_leaves hleaves (h.takes hH)
    · exact hleaves.ends.imp And.left id
  · exact (hleaves.outside m fun hm' => hm (hsub hm')).trans (hy m hm)
  · exact (hfree m hm hmH).trans (hleaves.outside m hmH).symm

theorem Simulates.step_outside (h : Simulates g entry start s c) (hnone : s.held i = ∅)
    (hphase : TwoPhase g .taking ∅ (s.code i)) (hcode : c.code i = s.code i)
    (hheld : c.held i = s.held i) {t : LockState ι L σ ρ}
    (hstep : lockStep entry s (.step i) = some t) : ∃ c', Simulates g entry start t c' := by
  have hcnone : c.held i = ∅ := hheld.trans hnone
  rcases step_cases hstep with ⟨m, next, hp, hm, rfl⟩ | ⟨m, next, hp, -⟩ | ⟨f, k, hp, rfl⟩
  · -- a section begins
    rw [hp] at hphase hcode
    obtain ⟨hfresh, hrest⟩ := hphase.locks
    have hstart : Took g c.shared (c.code i) ∅ (.lock m next) := by
      rw [hcode]
      exact .start
    rw [hnone]
    refine h.settle hcnone (Set.insert_nonempty m ∅) ?_ ?_ (hstart.lock hfresh) hrest ?_
    · rintro l (rfl | hl)
      · exact Or.inl hm
      · exact hl.elim
    · rw [hnone]
      exact Set.empty_subset _
    · rintro l (rfl | hl)
      · exact h.free l hm
      · exact hl.elim
  · rw [hp] at hphase
    exact hphase.unlocks.1.elim
  · rw [hp] at hphase hcode
    rcases hphase.acts with ⟨rfl, hrest, hreads⟩ | ⟨hne, -⟩
    · -- a read without a mutex finds the same in the serial run
      have hsame : k s.shared = k c.shared := by
        rcases hreads with hreads | ⟨-, hreads⟩
        · exact hreads _ _ fun l hl => hl.elim
        · exact hreads _ _ h.bare
      have hnothing : ∀ u : LockState ι L σ ρ, u.Takes i ∅ := fun _ l hl => hl.elim
      have hread : lockStep entry (c.placed i ∅ c.shared (.act id k)) (.step i) =
          some (c.placed i ∅ c.shared (k c.shared)) := step_act
      have hturn : Serial entry start (c.placed i ∅ c.shared (k c.shared)) :=
        h.turn hcnone .start (hnothing c) (by rw [hcode]; exact .single hread) (Or.inl rfl)
      rw [hnone]
      refine ⟨_, h.move (hnothing s) (hnothing c) hturn (.outside (Or.inl ?_) ?_ ?_ ?_)
        (fun _ _ => rfl) (fun _ _ => rfl) (fun l hl => ?_) h.bare⟩
      · rw [placed_held_self, placed_code_self]
        exact ⟨rfl, hrest _⟩
      · rw [placed_code_self, placed_code_self, hsame]
      · rw [placed_held_self, placed_held_self]
      · rw [placed_held_self]
        exact fun l hl => hl.elim
      · rw [hnone] at hl
        exact hl.elim
    · exact absurd hne Set.not_nonempty_empty

theorem Simulates.step_taking (h : Simulates g entry start s c) (hin : (s.held i).Nonempty)
    (hnone : c.held i = ∅) (htook : Took g c.shared (c.code i) (s.held i) (s.code i))
    (hphase : TwoPhase g .taking (s.held i) (s.code i))
    (hagree : g.AgreeOn (s.held i) s.shared c.shared) {t : LockState ι L σ ρ}
    (hstep : lockStep entry s (.step i) = some t) : ∃ c', Simulates g entry start t c' := by
  have htakes : c.Takes i (s.held i) := h.takes takes_held
  rcases step_cases hstep with ⟨m, next, hp, hm, rfl⟩ | ⟨m, next, hp, ht⟩ | ⟨f, k, hp, rfl⟩ <;>
    rw [hp] at hphase htook
  · obtain ⟨hfresh, hrest⟩ := hphase.locks
    refine h.settle hnone (Set.insert_nonempty m _) ?_ (Set.subset_insert m _)
      (htook.lock hfresh) hrest ?_
    · rintro l (rfl | hl)
      · exact Or.inl hm
      · exact takes_held l hl
    · rintro l (rfl | hl)
      · exact h.free l hm
      · exact hagree l hl
  · -- the first release commits
    obtain ⟨hown, hrest⟩ := hphase.unlocks
    obtain rfl := ht hown
    have hleaves : ∃ K y q, Leaves g (s.held i \ {m}) c.shared next K y q := by
      rcases hrest with ⟨hmore, hrest⟩ | ⟨hempty, hrest⟩
      · exact hrest.leaves rfl hmore _
      · rw [hempty]
        exact ⟨_, _, _, .done hrest⟩
    obtain ⟨K, y, q, hleaves⟩ := hleaves
    exact h.commit hnone htook (step_unlock htakes hown) hleaves Set.sdiff_subset
      (hagree.mono Set.sdiff_subset) (fun _ _ => rfl) (fun _ _ => rfl)
      (fun l hl _ => hagree l hl) h.bare
  · rcases hphase.acts with ⟨rfl, hrest, hreads⟩ | ⟨-, next, rfl, hlocal, hshows, hrest⟩
    · have hreads' : ∀ x y, g.AgreeOn (s.held i) x y → k x = k y := by
        rcases hreads with hreads | ⟨hempty, -⟩
        · exact hreads
        · rw [hempty] at hin
          exact absurd hin Set.not_nonempty_empty
      have hread := htook.read hreads'
      rw [← hreads' _ _ hagree] at hread
      exact h.settle hnone hin takes_held subset_rfl hread (hrest _) hagree
    · -- the first write commits
      obtain ⟨K, y, q, hleaves⟩ := hrest.leaves rfl hin (f c.shared)
      exact h.commit hnone htook step_act hleaves subset_rfl (hlocal.inside _ _ hagree)
        (hlocal.outside _) (hlocal.outside _) (fun l hl hnot => absurd hl hnot)
        (hshows _ _ h.bare)

theorem Simulates.step_leaving (h : Simulates g entry start s c) (hin : (s.held i).Nonempty)
    (hleaves : Leaves g (s.held i) s.shared (s.code i) (c.held i) y (c.code i))
    (hagree : g.AgreeOn (s.held i) y c.shared) {t : LockState ι L σ ρ}
    (hstep : lockStep entry s (.step i) = some t) : ∃ c', Simulates g entry start t c' := by
  rcases step_cases hstep with ⟨m, next, hp, hm, rfl⟩ | ⟨m, next, hp, ht⟩ | ⟨f, k, hp, rfl⟩ <;>
    rw [hp] at hleaves
  · exact absurd hin (hleaves.not_lock ▸ Set.not_nonempty_empty)
  · obtain ⟨howned, hrest⟩ := hleaves.unlocks hin
    obtain rfl := ht howned
    exact h.stay (fun l hl => takes_held l hl.1)
      (.of_leaves hrest (hagree.mono Set.sdiff_subset)) (fun _ _ => rfl)
      (fun l hl hnot => (hrest.outside l hnot).symm.trans (hagree l hl)) h.bare
  · obtain ⟨hhides, hframe, hrest⟩ := hleaves.acts hin
    exact h.stay takes_held (.of_leaves hrest hagree) hframe
      (fun l hl hnot => absurd hl hnot) (hhides.trans h.bare)

/-- Whatever a thread does, the serial run can follow. -/
theorem Simulates.step (hentry : ∀ e, TwoPhase g .taking ∅ (entry e))
    (h : Simulates g entry start s c) {t : LockState ι L σ ρ} {l : LockLabel ι ε}
    (hstep : lockStep entry s l = some t) : ∃ c', Simulates g entry start t c' := by
  cases l with
  | call i e =>
      obtain ⟨r, hcode, rfl⟩ := call_cases hstep
      cases h.tracks i with
      | outside hout hsame hheld hagree =>
          have hnone : s.held i = ∅ := by
            rcases hout with ⟨hnone, -⟩ | hfault
            · exact hnone
            · rw [hcode] at hfault
              cases hfault
          have hcall : lockStep entry c (.call i e) =
              some (c.placed i (c.held i) c.shared (entry e)) := step_call (hsame.trans hcode)
          refine ⟨_, h.move takes_held takes_held (h.serial.tail (.call i e hcall))
            (.outside (Or.inl ?_) ?_ ?_ ?_) (fun _ _ => rfl) (fun _ _ => rfl)
            (fun l hl hnot => absurd hl hnot) h.bare⟩
          · rw [placed_held_self, placed_code_self]
            exact ⟨hnone, hentry e⟩
          · rw [placed_code_self, placed_code_self]
          · rw [placed_held_self, placed_held_self, hheld]
          · rwa [placed_held_self]
      | taking hin hnone htook hphase hlive hagree =>
          rw [hcode] at hphase
          exact absurd hin (hphase.eq_empty ▸ Set.not_nonempty_empty)
      | leaving hin y hlive hleaves hagree =>
          rw [hcode] at hleaves
          exact absurd hin (hleaves.not_ret ▸ Set.not_nonempty_empty)
  | step i =>
      cases h.tracks i with
      | outside hout hcode hheld hagree =>
          rcases hout with ⟨hnone, hphase⟩ | hfault
          · exact h.step_outside hnone hphase hcode hheld hstep
          · simp [lockStep, hfault] at hstep
      | taking hin hnone htook hphase hlive hagree =>
          exact h.step_taking hin hnone htook hphase hagree hstep
      | leaving hin y hlive hleaves hagree => exact h.step_leaving hin hleaves hagree hstep

theorem init_simulates {r : ρ} (hret : TwoPhase g .taking ∅ (.ret r)) (x : σ) :
    Simulates g entry (init x r : LockState ι L σ ρ) (init x r) (init x r) where
  serial := .refl
  tracks := by
    intro i
    have hnone : (init x r : LockState ι L σ ρ).held i = ∅ := by
      ext m
      simp [held, init]
    exact .outside (Or.inl ⟨hnone, hret⟩) rfl rfl fun m _ => rfl
  free := fun _ _ => rfl
  bare := rfl

/-- When no thread is in a section, the serial run has come to the same state. -/
theorem Simulates.eq_of_quiet (h : Simulates g entry start s c) (hquiet : s.Quiet) : s = c := by
  have hsame : ∀ i, c.code i = s.code i ∧ c.held i = s.held i ∧
      g.AgreeOn (s.held i) s.shared c.shared := by
    intro i
    cases h.tracks i with
    | outside hout hcode hheld hagree => exact ⟨hcode, hheld, hagree⟩
    | taking hin hnone htook hphase hlive hagree =>
        rcases hquiet i with hempty | hfault
        · exact absurd hin (hempty ▸ Set.not_nonempty_empty)
        · exact absurd hfault hlive
    | leaving hin y hlive hleaves hagree =>
        rcases hquiet i with hempty | hfault
        · exact absurd hin (hempty ▸ Set.not_nonempty_empty)
        · exact absurd hfault hlive
  refine ext_held (g.ext _ _ fun m => ?_) (fun i => (hsame i).1.symm) fun i => (hsame i).2.1.symm
  cases hm : s.holder m with
  | none => exact h.free m hm
  | some i => exact (hsame i).2.2 m hm

end Moves

end Simulation

/-! ## The theorems -/

section Reached

variable [DecidableEq ι] [DecidableEq L] {entry : ε → LockProgram L σ ρ} {g : Guarded L σ}
  {x : σ} {r : ρ}

/-- Every run amounts to a serial one. -/
theorem simulates_of_twoPhase (hentry : ∀ e, TwoPhase g .taking ∅ (entry e))
    (h : Via (lockStep entry) anyStep (init x r) s) :
    ∃ c, Simulates g entry (init x r) s c :=
  h.invariant (fun s => ∃ c, Simulates g entry (init x r) s c)
    ⟨_, init_simulates (.ret r) x⟩ fun _ _ _ ⟨_, hsim⟩ _ hstep => hsim.step hentry hstep

/-- **Sections are atomic**: a state in which no thread is in a section is reached by a run
that never interrupts one. -/
theorem serial_of_twoPhase (hentry : ∀ e, TwoPhase g .taking ∅ (entry e))
    (h : Via (lockStep entry) anyStep (init x r) s) (hquiet : s.Quiet) :
    Serial entry (init x r) s := by
  obtain ⟨c, hsim⟩ := simulates_of_twoPhase hentry h
  rw [hsim.eq_of_quiet hquiet]
  exact hsim.serial

end Reached

end LockState

/-! ## What every section keeps -/

namespace LockProgram

variable {J : σ → Prop} {p : LockProgram L σ ρ} {s : σ}

/-- Every section of `p` keeps `J` when nothing comes in between; `p` holds `H`. -/
def SectionsKeep (J : σ → Prop) : LockProgram L σ ρ → Set L → σ → Prop
  | .ret _, _, s => J s
  | .fault, _, s => J s
  | .lock m next, H, s =>
      (H = ∅ → J s ∧ ∀ t, J t → next.SectionsKeep J (insert m H) t) ∧
        (H.Nonempty → next.SectionsKeep J (insert m H) s)
  | .unlock m next, H, s => m ∈ H ∧ next.SectionsKeep J (H \ {m}) s
  | .act f next, H, s =>
      (H = ∅ → J s ∧ ∀ t, J t → (next t).SectionsKeep J H (f t)) ∧
        (H.Nonempty → (next s).SectionsKeep J H (f s))

theorem SectionsKeep.enter {m : L} (hs : J s) (h : ∀ t, J t → p.SectionsKeep J {m} t) :
    (LockProgram.lock m p).SectionsKeep J ∅ s := by
  refine ⟨fun _ => ⟨hs, fun t ht => ?_⟩, fun hne => absurd hne Set.not_nonempty_empty⟩
  rw [insert_empty_eq]
  exact h t ht

theorem SectionsKeep.nested {H : Set L} {m : L} (hne : H.Nonempty)
    (h : p.SectionsKeep J (insert m H) s) : (LockProgram.lock m p).SectionsKeep J H s :=
  ⟨fun hempty => absurd hempty hne.ne_empty, fun _ => h⟩

theorem SectionsKeep.inside {H : Set L} {f : σ → σ} {next : σ → LockProgram L σ ρ}
    (hne : H.Nonempty) (h : (next s).SectionsKeep J H (f s)) :
    (LockProgram.act f next).SectionsKeep J H s :=
  ⟨fun hempty => absurd hempty hne.ne_empty, fun _ => h⟩

theorem SectionsKeep.bare {next : σ → LockProgram L σ ρ} (hs : J s)
    (h : ∀ t, J t → (next t).SectionsKeep J ∅ t) : (LockProgram.read next).SectionsKeep J ∅ s :=
  ⟨fun _ => ⟨hs, h⟩, fun hne => absurd hne Set.not_nonempty_empty⟩

theorem SectionsKeep.last {m : L} (h : p.SectionsKeep J ∅ s) :
    (LockProgram.unlock m p).SectionsKeep J {m} s := by
  refine ⟨rfl, ?_⟩
  rwa [Set.sdiff_self]

theorem SectionsKeep.ite {H : Set L} {c : Prop} [Decidable c] {p q : LockProgram L σ ρ}
    (hp : p.SectionsKeep J H s) (hq : q.SectionsKeep J H s) :
    (if c then p else q).SectionsKeep J H s := by
  split
  · exact hp
  · exact hq

/-- Between two sections any other thread may have changed the state. -/
theorem SectionsKeep.between (h : p.SectionsKeep J ∅ s) :
    J s ∧ ∀ t, J t → p.SectionsKeep J ∅ t := by
  cases p with
  | ret r => exact ⟨h, fun _ ht => ht⟩
  | fault => exact ⟨h, fun _ ht => ht⟩
  | lock m next =>
      obtain ⟨hs, hnext⟩ := h.1 rfl
      exact ⟨hs, fun t ht =>
        ⟨fun _ => ⟨ht, hnext⟩, fun hne => absurd hne Set.not_nonempty_empty⟩⟩
  | unlock m next => exact h.1.elim
  | act f next =>
      obtain ⟨hs, hnext⟩ := h.1 rfl
      exact ⟨hs, fun t ht =>
        ⟨fun _ => ⟨ht, hnext⟩, fun hne => absurd hne Set.not_nonempty_empty⟩⟩

end LockProgram

namespace LockState

open LockProgram

variable [DecidableEq ι] [DecidableEq L] {entry : ε → LockProgram L σ ρ} {J : σ → Prop}
  {s t : LockState ι L σ ρ} {i : ι}

/-- A step of a thread goes on with what it has to do, and leaves the other threads alone. -/
theorem sectionsKeep_step (h : (s.code i).SectionsKeep J (s.held i) s.shared)
    (hstep : lockStep entry s (.step i) = some t) :
    (t.code i).SectionsKeep J (t.held i) t.shared ∧
      ∀ j, j ≠ i → t.code j = s.code j ∧ t.held j = s.held j := by
  rcases step_cases hstep with ⟨m, next, hp, hm, rfl⟩ | ⟨m, next, hp, ht⟩ | ⟨f, k, hp, rfl⟩ <;>
    rw [hp] at h
  · have htakes : s.Takes i (insert m (s.held i)) := by
      rintro l (rfl | hl)
      · exact Or.inl hm
      · exact takes_held l hl
    refine ⟨?_, fun j hj => ⟨placed_code_of_ne hj, placed_held_of_ne htakes hj⟩⟩
    rw [placed_code_self, placed_held_self]
    rcases (s.held i).eq_empty_or_nonempty with hempty | hne
    · obtain ⟨hs, hnext⟩ := h.1 hempty
      exact hnext _ hs
    · exact h.2 hne
  · obtain ⟨howned, hnext⟩ := h
    obtain rfl := ht howned
    refine ⟨?_, fun j hj => ⟨placed_code_of_ne hj,
      placed_held_of_ne (fun l hl => takes_held l hl.1) hj⟩⟩
    rwa [placed_code_self, placed_held_self]
  · refine ⟨?_, fun j hj => ⟨placed_code_of_ne hj, placed_held_of_ne takes_held hj⟩⟩
    rw [placed_code_self, placed_held_self]
    rcases (s.held i).eq_empty_or_nonempty with hempty | hne
    · obtain ⟨hs, hnext⟩ := h.1 hempty
      exact hnext _ hs
    · exact h.2 hne

theorem sectionsKeep_solo (h : (s.code i).SectionsKeep J (s.held i) s.shared)
    (hsolo : Solo entry i s t) :
    (t.code i).SectionsKeep J (t.held i) t.shared ∧
      ∀ j, j ≠ i → t.code j = s.code j ∧ t.held j = s.held j := by
  induction hsolo with
  | refl => exact ⟨h, fun _ _ => ⟨rfl, rfl⟩⟩
  | tail _ hstep ih =>
      obtain ⟨hkeep, hothers⟩ := sectionsKeep_step ih.1 hstep
      exact ⟨hkeep, fun j hj => ⟨(hothers j hj).1.trans (ih.2 j hj).1,
        (hothers j hj).2.trans (ih.2 j hj).2⟩⟩

/-- `J` holds, and every thread that is outside its sections keeps it. -/
structure Kept (J : σ → Prop) (s : LockState ι L σ ρ) : Prop where
  now : J s.shared
  later : ∀ i, s.held i = ∅ → (s.code i).SectionsKeep J ∅ s.shared

theorem Kept.serialStep (hentry : ∀ e x, J x → (entry e).SectionsKeep J ∅ x) (h : Kept J s)
    (hstep : SerialStep entry s t) : Kept J t := by
  cases hstep with
  | call i e hcall =>
      obtain ⟨r, hcode, rfl⟩ := call_cases hcall
      refine ⟨h.now, fun j hj => ?_⟩
      by_cases hji : j = i
      · subst hji
        rw [placed_code_self]
        exact hentry e _ h.now
      · rw [placed_held_of_ne takes_held hji] at hj
        rw [placed_code_of_ne hji]
        exact h.later j hj
  | turn i hstart hsolo hend =>
      have hi := h.later i hstart
      rw [← hstart] at hi
      obtain ⟨hkeep, hothers⟩ := sectionsKeep_solo hi hsolo
      have hnow : J t.shared := by
        rcases hend with hempty | hfault
        · rw [hempty] at hkeep
          exact hkeep.between.1
        · rw [hfault] at hkeep
          exact hkeep
      refine ⟨hnow, fun j hj => ?_⟩
      by_cases hji : j = i
      · subst hji
        rwa [hj] at hkeep
      · obtain ⟨hcode, hheld⟩ := hothers j hji
        rw [hheld] at hj
        rw [hcode]
        exact (h.later j hj).between.2 _ hnow

/-- **An invariant of the sections** holds in every state reached, as far as the parts are
concerned whose mutexes are free. -/
theorem free_parts_of_sections {g : Guarded L σ} {x : σ} {r : ρ}
    (hphase : ∀ e, TwoPhase g .taking ∅ (entry e))
    (hentry : ∀ e x, J x → (entry e).SectionsKeep J ∅ x) (hJ : J x)
    (h : Via (lockStep entry) anyStep (init x r) s) :
    ∃ y, J y ∧ ∀ m, s.holder m = none → g.part m s.shared = g.part m y := by
  obtain ⟨c, hsim⟩ := simulates_of_twoPhase hphase h
  have hinit : Kept J (init x r : LockState ι L σ ρ) := ⟨hJ, fun _ _ => hJ⟩
  have hkept : Kept J c := by
    have hserial := hsim.serial
    clear hsim
    induction hserial with
    | refl => exact hinit
    | tail _ hstep ih => exact ih.serialStep hentry hstep
  exact ⟨c.shared, hkept.now, hsim.free⟩

/-- A run whose calls all satisfy `P` is a run of those entry points. -/
theorem via_of_calls {P : ε → Prop} : ∀ {as : List (LockLabel ι ε)} {s t : LockState ι L σ ρ},
    exec (lockStep entry) s as = some t → (∀ i e, LockLabel.call i e ∈ as → P e) →
      Via (lockStep fun e : {e // P e} => entry e.1) anyStep s t := by
  intro as
  induction as with
  | nil =>
      intro s t h _
      obtain rfl := Option.some.inj h
      exact Via.refl
  | cons a as ih =>
      intro s t h hcalls
      obtain ⟨u, hu, hrest⟩ := Option.bind_eq_some_iff.mp h
      have hlater := ih hrest fun i e he => hcalls i e (List.mem_cons_of_mem a he)
      refine Relation.ReflTransGen.head ?_ hlater
      cases a with
      | call i e => exact ⟨.call i ⟨e, hcalls i e List.mem_cons_self⟩, trivial, hu⟩
      | step i => exact ⟨.step i, trivial, hu⟩

/-- The same for an invariant of the entry points that the run calls. -/
theorem free_parts_of_calls {g : Guarded L σ} {x : σ} {r : ρ} {P : ε → Prop}
    (hphase : ∀ e, TwoPhase g .taking ∅ (entry e))
    (hentry : ∀ e, P e → ∀ x, J x → (entry e).SectionsKeep J ∅ x) (hJ : J x)
    {as : List (LockLabel ι ε)} (h : exec (lockStep entry) (init x r) as = some s)
    (hcalls : ∀ i e, LockLabel.call i e ∈ as → P e) :
    ∃ y, J y ∧ ∀ m, s.holder m = none → g.part m s.shared = g.part m y :=
  free_parts_of_sections (fun e : {e // P e} => hphase e.1)
    (fun e x hx => hentry e.1 e.2 x hx) hJ (via_of_calls h hcalls)

end LockState

end LxcUio.Foundation
