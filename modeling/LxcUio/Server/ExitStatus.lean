import LxcUio.Server.Main

/-!
# The exit status of the server

`kvm-host-server.c`, `main`. Every `return` of `main` follows a step that failed,
and what it returns is whatever `ret_val` holds when the control reaches `out`.

- `ExitStep` : what one step can do to that value.
- `TellsFailure` / `Silent` : on the way to `out` with a value that is not 0, and past
  the last write to it with 0.

Two writes can leave 0: the answer to `KVM_CHECK_EXTENSION`, where 0 is the
failure, and the answer to `deregister_server`, which takes the place of the value
that the failing branch left.
-/

namespace LxcUio.Server

open LxcUio.Foundation

/-- Where `ret_val` is what `main` would return: it still has its first value, or
nothing writes it any more. -/
def Pc.settled : Pc → Bool
  | .getMajorNumber => true
  | .openKvm => true
  | .outEfd => true
  | .returned => true
  | _ => false

/-- What a step does to the value that `main` returns. -/
inductive ExitStep (s t : MainState) : MainLabel → Prop where
  | inside {l} (hpc : t.pc.settled = false) : ExitStep s t l
  | kept {l} (hpc : s.pc.settled = true) (hret : t.retVal = s.retVal) : ExitStep s t l
  | failed {l} (hret : t.retVal < 0) : ExitStep s t l
  | noExtension (hpc : t.pc = .returned) (hret : t.retVal = 0) : ExitStep s t (.extension 0)
  | deregistered {ret} (hpc : t.pc = .outEfd) (hret : t.retVal = ret) :
      ExitStep s t (.deregistered ret)

/-! ## The calls of the loops stay inside -/

theorem drained_inside {s : MainState} (hpc : s.pc.settled = false) :
    s.drained.pc.settled = false := by
  unfold MainState.drained
  split
  · exact hpc
  · split
    · rfl
    · rfl

theorem woken_inside (s : MainState) : s.woken.pc.settled = false := by
  unfold MainState.woken
  split
  · rfl
  · split
    · rfl
    · split
      · rfl
      · rfl

theorem processed_inside (s : MainState) (site : Site) (ret : ℤ) :
    (s.processed site ret).pc.settled = false := by
  rcases processed_cases s site ret with ⟨_, _, rfl | rfl, hgo⟩ | ⟨_, _, _, hleave⟩
  · rw [hgo]
    rfl
  · rw [hgo]
    rfl
  · rw [hleave]
    rfl

/-- What each step of `main` does to the value it returns. -/
theorem mainStep_exit {debugOn : Bool} {s t : MainState} {l : MainLabel}
    (hs : mainStep debugOn s l = some t) : ExitStep s t l := by
  cases mainStep_move hs with
  | noMajorNumber hpc hret => exact .failed (Int.negSucc_lt_zero 0)
  | majorNumber hpc hret => exact .kept (by rw [hpc]; rfl) rfl
  | noKvm hpc hfd =>
      -- `open("/dev/kvm")` fails with the value of the declaration
      exact .kept (by rw [hpc]; rfl) rfl
  | kvm hpc hfd => exact .inside rfl
  | extensionError hpc hneg => exact .failed hneg
  | noExtension hpc => exact .noExtension rfl rfl
  | extension hpc hret => exact .inside rfl
  | noEventfd hpc hfd => exact .failed (Int.negSucc_lt_zero 0)
  | eventfd hpc hfd => exact .inside rfl
  | noCdev hpc hfd => exact .failed (Int.negSucc_lt_zero 0)
  | cdev hpc hfd => exact .inside rfl
  | notRegistered hpc hneg =>
      -- `ret_val` is what the ioctl returned, and negative on this branch
      exact .failed hneg
  | registered hpc hret => exact .inside rfl
  | noTable hpc hret => exact .inside rfl
  | tableInit hpc hret => exact .inside rfl
  | drained hpc => exact .inside (drained_inside (by show s.pc.settled = false; rw [hpc]; rfl))
  | callProcess hpc => exact .inside rfl
  | processStep hpc => exact .inside rfl
  | @processReturn site ret hpc => exact .inside (processed_inside s site ret)
  | @bug site b hpc => exact .inside (processed_inside _ site (-1))
  | crashed hpc => exact .inside rfl
  | selectError hpc hret => exact .inside rfl
  | readable hpc hret => exact .inside rfl
  | notReadable hpc hret => exact .inside (by show s.pc.settled = false; rw [hpc]; rfl)
  | woken hpc => exact .inside (woken_inside _)
  | eventfdRead hpc => exact .inside rfl
  | readError hpc hret => exact .inside rfl
  | deleteTable hpc =>
      -- `table_delete` overwrites the value too, but not as the last one
      exact .inside rfl
  | deregistered hpc => exact .deregistered rfl rfl
  | closed hpc => exact .kept (by rw [hpc]; rfl) rfl
  | scribble hpc =>
      cases hset : s.pc.settled with
      | true => exact .kept hset rfl
      | false => exact .inside hset

/-! ## Whole runs -/

/-- The calls whose answer can make the exit status 0 do not answer 0. -/
def AnswersNonzero (_ : MainState) : MainLabel → Prop
  | .extension ret => ret ≠ 0
  | .deregistered ret => ret ≠ 0
  | _ => True

/-- If `main` returned what it holds now, it would tell a failure. -/
def TellsFailure (s : MainState) : Prop := s.pc.settled = true → s.retVal ≠ 0

/-- `main` is past its last write and holds 0. -/
def Silent (s : MainState) : Prop := (s.pc = .outEfd ∨ s.pc = .returned) ∧ s.retVal = 0

theorem tellsFailure_step (debugOn : Bool) (s : MainState) (l : MainLabel) (t : MainState)
    (h : TellsFailure s) (hg : AnswersNonzero s l) (hs : mainStep debugOn s l = some t) :
    TellsFailure t := by
  intro hpc
  cases mainStep_exit hs with
  | inside hin => exact absurd hpc (by rw [hin]; exact Bool.false_ne_true)
  | kept hset hret => rw [hret]; exact h hset
  | failed hret => exact ne_of_lt hret
  | noExtension => exact absurd rfl hg
  | deregistered _ hret => rw [hret]; exact hg

/-- A 0 that is let through is there to stay. -/
theorem silent_of_zero (debugOn : Bool) (s : MainState) (l : MainLabel) (t : MainState)
    (_ : TellsFailure s) (hg : ¬ AnswersNonzero s l) (hs : mainStep debugOn s l = some t) :
    Silent t := by
  cases mainStep_move hs with
  | extensionError hpc hret =>
      obtain rfl := not_not.mp hg
      exact absurd hret (lt_irrefl 0)
  | noExtension hpc => exact ⟨Or.inr rfl, rfl⟩
  | extension hpc hret =>
      obtain rfl := not_not.mp hg
      exact absurd hret (lt_irrefl 0)
  | deregistered hpc =>
      obtain rfl := not_not.mp hg
      exact ⟨Or.inl rfl, rfl⟩
  | _ => exact absurd trivial hg

theorem silent_step (debugOn : Bool) (s : MainState) (l : MainLabel) (t : MainState)
    (h : Silent s) (hs : mainStep debugOn s l = some t) : Silent t := by
  obtain ⟨hend, hzero⟩ := h
  cases mainStep_move hs with
  | closed hpc => exact ⟨Or.inr rfl, hzero⟩
  | scribble hpc => exact ⟨hend, hzero⟩
  | _ hpc => rcases hend with hend | hend <;> cases hend.symm.trans hpc

/-- **The exit status** of a run of `main` that returns tells the failure exactly
when neither `KVM_CHECK_EXTENSION` nor `deregister_server` answered 0 in it. -/
theorem returned_nonzero_iff (debugOn : Bool) (mem : ℤ → UuidTableEntry)
    (ls : List MainLabel) (s : MainState)
    (hrun : exec (mainStep debugOn) (MainState.init mem) ls = some s)
    (hret : s.pc = .returned) :
    s.retVal ≠ 0 ↔ StepsMeet (mainStep debugOn) AnswersNonzero (MainState.init mem) ls := by
  have hinit : TellsFailure (MainState.init mem) := by
    intro _
    show (-1 : ℤ) ≠ 0
    decide
  exact exec_ends_iff (P := fun s => s.retVal ≠ 0) (tellsFailure_step debugOn)
    (silent_of_zero debugOn) (silent_step debugOn) hinit hrun
    (fun h => h (by rw [hret]; rfl)) (fun h hne => hne h.2)

/-- The run up to the registration, `table_init` failing with `ENOMEM`, then the cleanup with
what `deregister_server` answers. -/
def initFails (deregister : ℤ) : List MainLabel :=
  [.majorNumber 240, .kvmOpened 3, .extension 1, .eventfdCreated 4, .cdevOpened 5,
    .registered 0, .initTable (.error 12), .deregistered deregister, .closed]

/-- A server that cannot allocate its table, and whose de-registration fails too,
returns -1. -/
theorem returned_nonzero_when_all_fails : ∃ s,
    exec (mainStep true) (MainState.init fun _ => default) (initFails (-1)) = some s ∧
      s.retVal ≠ 0 := by
  have hrun : ∃ s, exec (mainStep true) (MainState.init fun _ => default)
      (initFails (-1)) = some s ∧ s.pc = .returned := ⟨_, rfl, rfl⟩
  obtain ⟨s, hexec, hret⟩ := hrun
  have hall : ∀ l ∈ initFails (-1), ∀ t, AnswersNonzero t l := by
    simp [initFails, AnswersNonzero]
  exact ⟨s, hexec, (returned_nonzero_iff true _ _ s hexec hret).mpr (stepsMeet_of_forall hall)⟩

/-- A server that cannot allocate its table returns 0, because its de-registration
succeeds. -/
theorem table_init_failure_returns_zero : ¬ ∀ (debugOn : Bool) (mem : ℤ → UuidTableEntry)
    (ls : List MainLabel) (s : MainState),
    exec (mainStep debugOn) (MainState.init mem) ls = some s → s.pc = .returned →
      s.retVal ≠ 0 := by
  intro h
  have hrun : exec (mainStep true) (MainState.init fun _ => default) (initFails 0) =
      some _ := rfl
  exact h true _ _ _ hrun rfl rfl

end LxcUio.Server
