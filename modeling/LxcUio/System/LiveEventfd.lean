import LxcUio.Foundation.LabelledRun
import LxcUio.Proxy.Cdev

/-!
# The eventfd that the proxy signals

`ks->fp` is a `struct file` that `fcheck` found; no reference is taken on it, and
`cdev_release` does not touch `ks`. The system here is the proxy together with the
file descriptors of all processes: register, de-register and put in any order,
files being opened, shared and closed, processes dying.

A registration record is left behind by a register ioctl whose fd names no file:
its `fp` is whatever `kmalloc` delivered.
-/

namespace LxcUio.System

open LxcUio.Foundation LxcUio.Proxy

/-! ## Open files -/

/-- The file behind descriptor `fd` of process `pid`. -/
structure OpenFd where
  pid : ℤ
  fd : ℤ
  fp : FilePtr
deriving DecidableEq

/-- The descriptors in use and, for each address, whether the file last opened
there is an eventfd. -/
structure Files where
  fds : List OpenFd
  isEventfd : FilePtr → Bool

def Files.IsOpen (f : Files) (fp : FilePtr) : Prop := ∃ e ∈ f.fds, e.fp = fp

instance (f : Files) (fp : FilePtr) : Decidable (f.IsOpen fp) :=
  inferInstanceAs (Decidable (∃ e ∈ f.fds, e.fp = fp))

/-- An eventfd that is still open. -/
def Files.Live (f : Files) (fp : FilePtr) : Prop := f.isEventfd fp = true ∧ f.IsOpen fp

instance (f : Files) (fp : FilePtr) : Decidable (f.Live fp) :=
  inferInstanceAs (Decidable (_ ∧ _))

def Files.fcheck (f : Files) (pid intval : ℤ) : Option FilePtr :=
  (f.fds.find? fun e => e.pid = pid ∧ e.fd = intval).map OpenFd.fp

/-- `eventfd_ctx_fileget`: never NULL. -/
def Files.eventfdCtxFileget (f : Files) (fp : FilePtr) : Option EventfdCtx :=
  some (if f.isEventfd fp then .ctx fp else .errPtr fp)

def Files.close (f : Files) (pid fd : ℤ) : Files :=
  { f with fds := f.fds.filter fun e => ¬ (e.pid = pid ∧ e.fd = fd) }

/-- All descriptors of a process are closed when it dies. -/
def Files.exit (f : Files) (pid : ℤ) : Files :=
  { f with fds := f.fds.filter fun e => e.pid ≠ pid }

/-- A file opened at an address that no open file has. -/
def Files.opened (f : Files) (pid fd : ℤ) (fp : FilePtr) (eventfd : Bool) : Files where
  fds := ⟨pid, fd, fp⟩ :: f.fds
  isEventfd := Function.update f.isEventfd fp eventfd

/-- One more descriptor of an open file (`dup`, `fork`, a descriptor passed on). -/
def Files.shared (f : Files) (pid fd : ℤ) (fp : FilePtr) : Files :=
  { f with fds := ⟨pid, fd, fp⟩ :: f.fds }

theorem Files.Live.opened {f : Files} {fp : FilePtr} (h : f.Live fp) {pid fd : ℤ}
    {fp' : FilePtr} (hfresh : ¬ f.IsOpen fp') (eventfd : Bool) :
    (f.opened pid fd fp' eventfd).Live fp := by
  obtain ⟨hkind, e, he, hfp⟩ := h
  have hne : fp ≠ fp' := by
    rintro rfl
    exact hfresh ⟨e, he, hfp⟩
  refine ⟨?_, e, List.mem_cons_of_mem _ he, hfp⟩
  show Function.update f.isEventfd fp' eventfd fp = true
  rw [Function.update_of_ne hne]
  exact hkind

theorem Files.Live.shared {f : Files} {fp : FilePtr} (h : f.Live fp) {pid fd : ℤ}
    {fp' : FilePtr} : (f.shared pid fd fp').Live fp := by
  obtain ⟨hkind, e, he, hfp⟩ := h
  exact ⟨hkind, e, List.mem_cons_of_mem _ he, hfp⟩

/-! ## The system -/

structure SignalState where
  table : ModuleTable
  ks : Option KvmHostServer
  files : Files

inductive SignalLabel where
  | register (pid ioctlParam : ℤ) (kmalloc : Option FilePtr)
  | deRegister
  | put (mt : ModuleTableStruct) (krealloc : Option (ℤ → ModuleTableStruct))
  | openFile (pid fd : ℤ) (fp : FilePtr) (eventfd : Bool)
  | share (pid fd : ℤ) (fp : FilePtr)
  | close (pid fd : ℤ)
  | exit (pid : ℤ)

/-- Nobody registered, any files open. -/
def SignalState.init (table : UsableTable) (files : Files) : SignalState :=
  ⟨table.table, none, files⟩

/-- `lxc_uio_proxy_put_module_1` with the open files of the system. -/
def SignalState.putModule (s : SignalState) (mt : ModuleTableStruct)
    (krealloc : Option (ℤ → ModuleTableStruct)) : ℤ × ModuleTable × Option EventfdCtx :=
  lxcUioProxyPutModule1 s.ks s.table mt.uuid mt.nsproxy mt.mod krealloc
    s.files.eventfdCtxFileget

def signalStep (s : SignalState) : SignalLabel → Option SignalState
  | .register pid ioctlParam kmalloc =>
      some { s with
        ks := (kvmHostServerRegister s.ks pid ioctlParam kmalloc
          (s.files.fcheck pid)).2 }
  | .deRegister => some { s with ks := (kvmHostServerDeRegister s.ks).2 }
  | .put mt krealloc => some { s with table := (s.putModule mt krealloc).2.1 }
  | .openFile pid fd fp eventfd =>
      if s.files.IsOpen fp ∨ (s.files.fcheck pid fd).isSome = true then none
      else some { s with files := s.files.opened pid fd fp eventfd }
  | .share pid fd fp =>
      if s.files.IsOpen fp ∧ s.files.fcheck pid fd = none then
        some { s with files := s.files.shared pid fd fp }
      else none
  | .close pid fd => some { s with files := s.files.close pid fd }
  | .exit pid => some { s with files := s.files.exit pid }

/-- **Only live eventfds**: whatever module is put next, with whatever outcome of
`krealloc`, a context that `eventfd_signal` is called on belongs to an eventfd
that is still open. -/
def SignalsLive (s : SignalState) : Prop :=
  ∀ mt krealloc efdCtx, (s.putModule mt krealloc).2.2 = some efdCtx →
    ∃ fp, efdCtx = .ctx fp ∧ s.files.Live fp

/-- The file that a register ioctl records, when it gets memory for the record. -/
def recordedFile (files : Files) (pid ioctlParam : ℤ) (stale : FilePtr) : FilePtr :=
  if toInt ioctlParam < 0 then stale
  else (files.fcheck pid (toInt ioctlParam)).getD stale

/-- The guard: while the table exists, what a register ioctl records is a live
eventfd, and the recorded file is not closed, nor its last owner killed. -/
def SignalGuard (s : SignalState) : SignalLabel → Prop
  | .register pid ioctlParam kmalloc =>
      s.table.moduleTable.isNull = false → ∀ stale, kmalloc = some stale →
        s.files.Live (recordedFile s.files pid ioctlParam stale)
  | .close pid fd =>
      s.table.moduleTable.isNull = false → ∀ server, s.ks = some server →
        (s.files.close pid fd).IsOpen server.fp
  | .exit pid =>
      s.table.moduleTable.isNull = false → ∀ server, s.ks = some server →
        (s.files.exit pid).IsOpen server.fp
  | .deRegister => True
  | .put _ _ => True
  | .openFile _ _ _ _ => True
  | .share _ _ _ => True

/-! ## The registration record -/

/-- The record, while a put can still succeed, names a live eventfd. -/
structure LiveRecord (s : SignalState) : Prop where
  sound : s.table.Sound
  live : s.table.moduleTable.isNull = false → ∀ server, s.ks = some server →
    s.files.Live server.fp

theorem register_record (ks : Option KvmHostServer) (files : Files)
    (pid ioctlParam : ℤ) (kmalloc : Option FilePtr) :
    (kvmHostServerRegister ks pid ioctlParam kmalloc (files.fcheck pid)).2 =
      kmalloc.map fun stale => ⟨pid, recordedFile files pid ioctlParam stale⟩ := by
  cases kmalloc with
  | none => rfl
  | some stale =>
      simp only [kvmHostServerRegister, recordedFile, Option.map_some]
      by_cases hneg : toInt ioctlParam < 0
      · simp only [hneg, if_true]
      · simp only [hneg, if_false]
        cases files.fcheck pid (toInt ioctlParam) <;> rfl

theorem putModule_table (s : SignalState) (mt : ModuleTableStruct)
    (krealloc : Option (ℤ → ModuleTableStruct)) :
    (s.putModule mt krealloc).2.1 = (tablePut s.table mt krealloc).2 := by
  simp only [SignalState.putModule, lxcUioProxyPutModule1]
  split <;> rfl

/-- A put that succeeds finds its own entry pending. -/
theorem Appended.pending {t t' : ModuleTable} {mt : ModuleTableStruct}
    (h : Appended t t' mt) (hs : t.Sound) : t'.Pending := by
  have := hs.index_lt
  show t'.tableIndex + 1 ≤ t'.tableNumEntries - 1
  rw [h.index, h.num]
  omega

/-- What a put signals: the recorded file's context, if the put succeeds and a
server is registered. -/
theorem putModule_signal {s : SignalState} (hs : s.table.Sound)
    (mt : ModuleTableStruct) (krealloc : Option (ℤ → ModuleTableStruct)) :
    (s.putModule mt krealloc).2.2 =
      if (tablePut s.table mt krealloc).1 = 0 then
        s.ks.bind fun server => s.files.eventfdCtxFileget server.fp
      else none := by
  simp only [SignalState.putModule, lxcUioProxyPutModule1]
  rcases tablePut_cases hs mt krealloc with ⟨hret, happ, -, -⟩ | ⟨hret, -⟩ | ⟨hret, -⟩
  · rw [if_pos hret, if_pos hret]
    cases hks : s.ks with
    | none => rfl
    | some server =>
        simp only [sendEvent,
          tablePeek_of_pending (Appended.pending happ hs) happ.allocated,
          Files.eventfdCtxFileget, Option.bind_some]
  · have hne : (tablePut s.table mt krealloc).1 ≠ 0 := by omega
    rw [if_neg hne, if_neg hne]
  · have hne : (tablePut s.table mt krealloc).1 ≠ 0 := by omega
    rw [if_neg hne, if_neg hne]

theorem LiveRecord.signalsLive {s : SignalState} (h : LiveRecord s) : SignalsLive s := by
  intro mt krealloc efdCtx hsig
  rw [putModule_signal h.sound] at hsig
  split at hsig
  · rename_i hret
    obtain ⟨server, hks, hctx⟩ := Option.bind_eq_some_iff.mp hsig
    have hnull : s.table.moduleTable.isNull = false := by
      rcases tablePut_cases h.sound mt krealloc with ⟨-, -, hnull, -⟩ | ⟨hneg, -⟩ | ⟨hneg, -⟩
      · exact hnull
      · omega
      · omega
    have hlive := h.live hnull server hks
    refine ⟨server.fp, ?_, hlive⟩
    simpa [Files.eventfdCtxFileget, hlive.1] using hctx.symm
  · cases hsig

/-- On an allocated table the property forces the record to be live: a put that
gets its memory signals whatever is recorded. -/
theorem live_of_signalsLive {s : SignalState} (hs : s.table.Sound)
    (h : SignalsLive s) (hnull : s.table.moduleTable.isNull = false)
    {server : KvmHostServer} (hks : s.ks = some server) : s.files.Live server.fp := by
  have hret : (tablePut s.table default (some fun _ => default)).1 = 0 := by
    rcases tablePut_cases hs default (some fun _ => default) with
      ⟨hret, -⟩ | ⟨-, hnull', -⟩ | ⟨-, -, hnone, -⟩
    · exact hret
    · rw [hnull] at hnull'
      cases hnull'
    · cases hnone
  have hsig := putModule_signal hs default (some fun _ => default)
  rw [if_pos hret, hks, Option.bind_some] at hsig
  obtain ⟨fp, hctx, hlive⟩ := h default _ _ hsig
  cases hkind : s.files.isEventfd server.fp with
  | true =>
      simp only [hkind, if_true, EventfdCtx.ctx.injEq] at hctx
      rw [hctx]
      exact hlive
  | false => simp [hkind] at hctx

theorem liveRecord_iff {s : SignalState} (hs : s.table.Sound) :
    LiveRecord s ↔ SignalsLive s :=
  ⟨LiveRecord.signalsLive,
    fun h => ⟨hs, fun hnull _ hks => live_of_signalsLive hs h hnull hks⟩⟩

/-! ## Steps -/

theorem init_liveRecord (table : UsableTable) (files : Files) :
    LiveRecord (SignalState.init table files) :=
  ⟨table.sound, fun _ _ hks => by cases hks⟩

theorem signalStep_sound {s t : SignalState} {a : SignalLabel} (h : s.table.Sound)
    (hs : signalStep s a = some t) : t.table.Sound := by
  cases a with
  | put mt krealloc =>
      obtain rfl := Option.some.inj hs
      show ((s.putModule mt krealloc).2.1).Sound
      rw [putModule_table]
      exact tablePut_sound h mt krealloc
  | openFile pid fd fp eventfd =>
      simp only [signalStep] at hs
      split at hs
      · cases hs
      · obtain rfl := Option.some.inj hs
        exact h
  | share pid fd fp =>
      simp only [signalStep] at hs
      split at hs
      · obtain rfl := Option.some.inj hs
        exact h
      · cases hs
  | register | deRegister | close | exit =>
      obtain rfl := Option.some.inj hs
      exact h

theorem liveRecord_step (s : SignalState) (a : SignalLabel) (t : SignalState)
    (h : LiveRecord s) (hg : SignalGuard s a) (hs : signalStep s a = some t) :
    LiveRecord t := by
  refine ⟨signalStep_sound h.sound hs, ?_⟩
  cases a with
  | register pid ioctlParam kmalloc =>
      obtain rfl := Option.some.inj hs
      intro hnull server hks
      rw [register_record] at hks
      obtain ⟨stale, hstale, rfl⟩ := Option.map_eq_some_iff.mp hks
      exact hg hnull stale hstale
  | deRegister =>
      obtain rfl := Option.some.inj hs
      rintro - server hks
      cases hks
  | put mt krealloc =>
      obtain rfl := Option.some.inj hs
      intro hnull server hks
      refine h.live ?_ server hks
      -- a put never brings a lost table back
      change (s.putModule mt krealloc).2.1.moduleTable.isNull = false at hnull
      rw [putModule_table] at hnull
      rcases tablePut_cases h.sound mt krealloc with
        ⟨-, -, hnull', -⟩ | ⟨-, -, hsame⟩ | ⟨-, -, -, hlost⟩
      · exact hnull'
      · rwa [hsame] at hnull
      · rw [hlost] at hnull
        cases hnull
  | openFile pid fd fp eventfd =>
      simp only [signalStep] at hs
      split at hs
      · cases hs
      · rename_i hfree
        obtain rfl := Option.some.inj hs
        intro hnull server hks
        exact (h.live hnull server hks).opened (fun hopen => hfree (Or.inl hopen)) _
  | share pid fd fp =>
      simp only [signalStep] at hs
      split at hs
      · obtain rfl := Option.some.inj hs
        intro hnull server hks
        exact (h.live hnull server hks).shared
      · cases hs
  | close pid fd =>
      obtain rfl := Option.some.inj hs
      intro hnull server hks
      exact ⟨(h.live hnull server hks).1, hg hnull server hks⟩
  | exit pid =>
      obtain rfl := Option.some.inj hs
      intro hnull server hks
      exact ⟨(h.live hnull server hks).1, hg hnull server hks⟩

theorem unguarded_signals_dead (s : SignalState) (a : SignalLabel) (t : SignalState)
    (h : LiveRecord s) (hg : ¬ SignalGuard s a) (hs : signalStep s a = some t) :
    ¬ SignalsLive t := by
  intro hlive
  have hrec := (liveRecord_iff (signalStep_sound h.sound hs)).mpr hlive
  apply hg
  cases a with
  | register pid ioctlParam kmalloc =>
      obtain rfl := Option.some.inj hs
      rintro hnull stale rfl
      exact hrec.live hnull _ (register_record _ _ _ _ _)
  | close pid fd =>
      obtain rfl := Option.some.inj hs
      intro hnull server hks
      exact (hrec.live hnull server hks).2
  | exit pid =>
      obtain rfl := Option.some.inj hs
      intro hnull server hks
      exact (hrec.live hnull server hks).2
  | deRegister | put | openFile | share => trivial

/-- **The proxy signals only live eventfds in a run iff the run keeps to the
guard.** The runs are all orders of registrations with any fd, de-registrations,
puts, and openings and closings of files and deaths of processes. -/
theorem signalsLive_iff_guarded (table : UsableTable) (files : Files)
    (run : List SignalLabel) :
    StatesMeet signalStep SignalsLive (SignalState.init table files) run ↔
      StepsMeet signalStep SignalGuard (SignalState.init table files) run :=
  statesMeet_iff_stepsMeet (fun _ h => h.signalsLive) liveRecord_step
    unguarded_signals_dead run _ (init_liveRecord table files)

/-- A server registers its eventfd and dies: the next put signals a file that is
closed. -/
theorem dead_server_is_signalled :
    ¬ ∀ (table : UsableTable) (files : Files) (run : List SignalLabel),
      StatesMeet signalStep SignalsLive (SignalState.init table files) run := by
  intro hall
  have hrun := hall (UsableTable.fresh (fun _ => default) fun _ => default)
    ⟨[], fun _ => false⟩
    [.openFile 7 3 0 true, .register 7 3 (some 0), .exit 7]
  have hlast := ((hrun.2 _ rfl).2 _ rfl).2 _ rfl
  obtain ⟨fp, -, hlive⟩ := hlast default none _ rfl
  obtain ⟨e, he, -⟩ := hlive.2
  exact List.not_mem_nil he

/-- An ordinary file is accepted by the register ioctl, and its `ERR_PTR` is
signalled. -/
example : ((exec signalStep (SignalState.init
      (UsableTable.fresh (fun _ => default) fun _ => default) ⟨[], fun _ => false⟩)
    [.openFile 7 3 0 false, .register 7 3 (some 0)]).map fun s =>
      (s.putModule default none).2.2) = some (some (.errPtr 0)) := by
  decide

end LxcUio.System
