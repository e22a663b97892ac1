import LxcUio.Foundation.LabelledRun
import LxcUio.Proxy.Cdev

/-!
# The record of the registered server

`ks` under the register and de-register ioctls of any number of processes. One call of
register frees the old record, allocates a new one and checks the descriptor last, so
each of its failures leaves its own state behind. A run of calls is compared with the
server that should be registered: the one that registered last, until it de-registers.
-/

namespace LxcUio.Proxy

open LxcUio.Foundation

/-! ## One registration -/

/-- **All or nothing**: 0 means that the caller is registered with the file its
descriptor names, an error that nothing has changed. In no case does the record take its
`fp` from what the allocated block held before. -/
structure AllOrNothing (ks : Option KvmHostServer) (pid ioctlParam : ℤ)
    (kmalloc : Option FilePtr) (fcheck : ℤ → Option FilePtr) : Prop where
  granted : (kvmHostServerRegister ks pid ioctlParam kmalloc fcheck).1 = 0 →
    ∃ fl, fcheck (toInt ioctlParam) = some fl ∧
      (kvmHostServerRegister ks pid ioctlParam kmalloc fcheck).2 = some ⟨pid, fl⟩
  refused : (kvmHostServerRegister ks pid ioctlParam kmalloc fcheck).1 < 0 →
    (kvmHostServerRegister ks pid ioctlParam kmalloc fcheck).2 = ks
  assigned : ∀ stale,
    (kvmHostServerRegister ks pid ioctlParam (kmalloc.map fun _ => stale) fcheck).2 =
      (kvmHostServerRegister ks pid ioctlParam kmalloc fcheck).2

/-- The descriptor is not negative and names a file. -/
def NamesFile (fcheck : ℤ → Option FilePtr) (ioctlParam : ℤ) : Prop :=
  0 ≤ toInt ioctlParam ∧ (fcheck (toInt ioctlParam)).isSome = true

/-- What register does, by its exits: out of memory, no such file, registered. -/
theorem register_cases (ks : Option KvmHostServer) (pid ioctlParam : ℤ)
    (kmalloc : Option FilePtr) (fcheck : ℤ → Option FilePtr) :
    (kmalloc = none ∧
      kvmHostServerRegister ks pid ioctlParam kmalloc fcheck = (negENOMEM, none)) ∨
    (¬ NamesFile fcheck ioctlParam ∧ ∃ stale, kmalloc = some stale ∧
      kvmHostServerRegister ks pid ioctlParam kmalloc fcheck = (-1, some ⟨pid, stale⟩)) ∨
    (NamesFile fcheck ioctlParam ∧ kmalloc.isSome = true ∧
      ∃ fl, fcheck (toInt ioctlParam) = some fl ∧
        kvmHostServerRegister ks pid ioctlParam kmalloc fcheck = (0, some ⟨pid, fl⟩)) := by
  cases kmalloc with
  | none => exact Or.inl ⟨rfl, rfl⟩
  | some stale =>
      right
      by_cases hneg : toInt ioctlParam < 0
      · left
        refine ⟨fun h => not_le.mpr hneg h.1, stale, rfl, ?_⟩
        simp only [kvmHostServerRegister, if_pos hneg]
      · cases hfl : fcheck (toInt ioctlParam) with
        | none =>
            left
            refine ⟨fun h => ?_, stale, rfl, ?_⟩
            · have hsome := h.2
              rw [hfl] at hsome
              cases hsome
            · simp only [kvmHostServerRegister, if_neg hneg, hfl]
        | some fl =>
            right
            refine ⟨⟨not_lt.mp hneg, by rw [hfl]; rfl⟩, rfl, fl, rfl, ?_⟩
            simp only [kvmHostServerRegister, if_neg hneg, hfl]

theorem register_of_namesFile (ks : Option KvmHostServer) (pid : ℤ) {ioctlParam : ℤ}
    {stale fl : FilePtr} {fcheck : ℤ → Option FilePtr} (hpos : 0 ≤ toInt ioctlParam)
    (hfl : fcheck (toInt ioctlParam) = some fl) :
    kvmHostServerRegister ks pid ioctlParam (some stale) fcheck = (0, some ⟨pid, fl⟩) := by
  simp only [kvmHostServerRegister, if_neg (not_lt.mpr hpos), hfl]

/-- **When registration is all or nothing**: without memory when nobody was registered,
with memory when the descriptor names a file. -/
theorem allOrNothing_iff (ks : Option KvmHostServer) (pid ioctlParam : ℤ)
    (kmalloc : Option FilePtr) (fcheck : ℤ → Option FilePtr) :
    AllOrNothing ks pid ioctlParam kmalloc fcheck ↔
      (kmalloc = none → ks = none) ∧
        (kmalloc.isSome = true → NamesFile fcheck ioctlParam) := by
  rcases register_cases ks pid ioctlParam kmalloc fcheck with
    ⟨rfl, hrun⟩ | ⟨hbad, stale, rfl, hrun⟩ | ⟨hgood, hsome, fl, hfl, hrun⟩
  · -- out of memory: the old record is gone
    constructor
    · intro h
      refine ⟨fun _ => ?_, fun hsome => by cases hsome⟩
      have hkept := h.refused (by rw [hrun]; decide)
      rw [hrun] at hkept
      exact hkept.symm
    · rintro ⟨hnone, -⟩
      refine ⟨fun hret => ?_, fun _ => ?_, fun _ => rfl⟩
      · rw [hrun] at hret
        exact absurd hret (by decide)
      · rw [hrun, hnone rfl]
  · -- no file: the new record keeps what the block held
    refine iff_of_false (fun h => ?_) fun h => hbad (h.2 rfl)
    have hother := h.assigned (stale + 1)
    rcases register_cases ks pid ioctlParam (some (stale + 1)) fcheck with
      ⟨hnone, -⟩ | ⟨-, stale', hstale, hrun'⟩ | ⟨hgood, -⟩
    · cases hnone
    · obtain rfl := Option.some.inj hstale
      rw [hrun, Option.map_some, hrun'] at hother
      have hfp : stale + 1 = stale := congrArg KvmHostServer.fp (Option.some.inj hother)
      exact absurd hfp (Nat.succ_ne_self stale)
    · exact hbad hgood
  · refine iff_of_true ⟨fun _ => ⟨fl, hfl, by rw [hrun]⟩, fun hneg => ?_, fun stale => ?_⟩
      ⟨fun hnone => ?_, fun _ => hgood⟩
    · rw [hrun] at hneg
      exact absurd hneg (lt_irrefl 0)
    · obtain ⟨old, rfl⟩ := Option.isSome_iff_exists.mp hsome
      rw [Option.map_some, register_of_namesFile ks pid hgood.1 hfl, hrun]
    · rw [hnone] at hsome
      cases hsome

/-- A register ioctl with the descriptor -1 replaces the registered server. -/
theorem register_half_done :
    ¬ ∀ (ks : Option KvmHostServer) (pid ioctlParam : ℤ) (kmalloc : Option FilePtr)
      (fcheck : ℤ → Option FilePtr), AllOrNothing ks pid ioctlParam kmalloc fcheck := by
  intro hall
  have hkept := (hall (some ⟨1, 7⟩) 2 (-1) (some 0) fun _ => none).refused (by decide)
  exact absurd hkept (by decide)

/-! ## Several servers -/

/-- `ks`, and the server that should be registered. -/
structure RecordState where
  ks : Option KvmHostServer
  current : Option KvmHostServer

inductive RecordLabel where
  | register (pid ioctlParam : ℤ) (kmalloc : Option FilePtr) (fcheck : ℤ → Option FilePtr)
  | deRegister (pid : ℤ)

def RecordState.init : RecordState := ⟨none, none⟩

/-- The server that should be registered after process `pid` de-registered. -/
def withdrawn (current : Option KvmHostServer) (pid : ℤ) : Option KvmHostServer :=
  current.filter fun server => server.pid ≠ pid

/-- The ioctls that return 0. De-register does not look at its caller. -/
def recordStep (s : RecordState) : RecordLabel → Option RecordState
  | .register pid ioctlParam kmalloc fcheck =>
      let r := kvmHostServerRegister s.ks pid ioctlParam kmalloc fcheck
      if r.1 = 0 then
        some ⟨r.2, (fcheck (toInt ioctlParam)).map fun fl => ⟨pid, fl⟩⟩
      else none
  | .deRegister pid =>
      let r := kvmHostServerDeRegister s.ks
      if r.1 = 0 then some ⟨r.2, withdrawn s.current pid⟩ else none

/-- **Nobody ends another's registration**: the server that should be registered is, and
every event that finds an entry in the table reaches its eventfd. -/
structure OwnRegistration (s : RecordState) : Prop where
  registered : s.ks = s.current
  notified : ∀ server, s.current = some server →
    ∀ (t : ModuleTable) (eventfdCtxFileget : FilePtr → Option EventfdCtx) efdCtx,
      (tablePeek t).isSome = true → eventfdCtxFileget server.fp = some efdCtx →
        sendEvent s.ks t eventfdCtxFileget = (0, some efdCtx)

/-- The guard: a process de-registers only while no other one is registered. -/
def DeRegistersOwn (s : RecordState) : RecordLabel → Prop
  | .deRegister pid => ∀ server, s.ks = some server → server.pid = pid
  | .register _ _ _ _ => True

theorem sendEvent_of_registered {server : KvmHostServer} {t : ModuleTable}
    {fileget : FilePtr → Option EventfdCtx} {efdCtx : EventfdCtx}
    (hpeek : (tablePeek t).isSome = true) (hctx : fileget server.fp = some efdCtx) :
    sendEvent (some server) t fileget = (0, some efdCtx) := by
  obtain ⟨i, hi⟩ := Option.isSome_iff_exists.mp hpeek
  simp only [sendEvent, hi, hctx]

theorem ownRegistration_of_eq {s : RecordState} (h : s.ks = s.current) :
    OwnRegistration s where
  registered := h
  notified := by
    intro server hserver t fileget efdCtx hpeek hctx
    rw [h, hserver]
    exact sendEvent_of_registered hpeek hctx

theorem recordStep_keeps {s t : RecordState} {l : RecordLabel} (hs : s.ks = s.current)
    (hg : DeRegistersOwn s l) (h : recordStep s l = some t) : t.ks = t.current := by
  cases l with
  | register pid ioctlParam kmalloc fcheck =>
      rcases register_cases s.ks pid ioctlParam kmalloc fcheck with
        ⟨-, hrun⟩ | ⟨-, stale, -, hrun⟩ | ⟨-, -, fl, hfl, hrun⟩
      · simp [recordStep, hrun, negENOMEM] at h
      · simp [recordStep, hrun] at h
      · simp only [recordStep, hrun, if_true, hfl, Option.map_some] at h
        obtain rfl := Option.some.inj h
        rfl
  | deRegister pid =>
      simp only [recordStep, kvmHostServerDeRegister, if_true] at h
      obtain rfl := Option.some.inj h
      show none = withdrawn s.current pid
      rw [← hs]
      cases hks : s.ks with
      | none => rfl
      | some server =>
          rw [withdrawn, Option.filter_some_neg]
          simp [hg server hks]

theorem recordStep_breaks {s t : RecordState} {l : RecordLabel} (hs : s.ks = s.current)
    (hg : ¬ DeRegistersOwn s l) (h : recordStep s l = some t) : ¬ OwnRegistration t := by
  cases l with
  | register pid ioctlParam kmalloc fcheck => exact absurd trivial hg
  | deRegister pid =>
      simp only [recordStep, kvmHostServerDeRegister, if_true] at h
      obtain rfl := Option.some.inj h
      intro hown
      refine hg fun server hks => ?_
      have hnone : none = withdrawn s.current pid := hown.registered
      rw [← hs, hks] at hnone
      by_contra hpid
      rw [withdrawn, Option.filter_some_pos (by simpa using hpid)] at hnone
      cases hnone

/-- **When a server ends only its own registration**: in exactly the runs in which every
process that de-registers is the registered one, if there is one. -/
theorem ownRegistration_iff (ls : List RecordLabel) :
    StatesMeet recordStep OwnRegistration RecordState.init ls ↔
      StepsMeet recordStep DeRegistersOwn RecordState.init ls :=
  statesMeet_iff_stepsMeet (I := fun s => s.ks = s.current)
    (fun _ hs => ownRegistration_of_eq hs) (fun _ _ _ hs hg h => recordStep_keeps hs hg h)
    (fun _ _ _ hs hg h => recordStep_breaks hs hg h) ls RecordState.init rfl

/-- Server 1 is replaced by server 2 and then shuts down: nobody is registered. -/
theorem superseded_server_ends_registration :
    ¬ ∀ ls : List RecordLabel, StatesMeet recordStep OwnRegistration RecordState.init ls := by
  intro hall
  have hrun := hall [.register 1 3 (some 0) fun _ => some 10,
    .register 2 3 (some 0) fun _ => some 20, .deRegister 1]
  have hlast := (((hrun.2 _ rfl).2 _ rfl).2 _ rfl).head
  exact absurd hlast.registered (by decide)

end LxcUio.Proxy
