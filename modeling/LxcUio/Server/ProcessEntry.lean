import LxcUio.Server.InitializeMemory

/-!
# `process_entry`

`kvm-host-server.c`, with `send_packet`: the first entry that has neither flag set
gets a VM and is run in it until the guest halts. What the environment answers is
in `ProcessEnv`; `exits` is what `KVM_RUN` returns, call after call, and a run that
is longer than the list is still under way.

The copies that `table_entry_at_index_copy` returns are values here; their blocks are in
`ServerHeap`.
-/

namespace LxcUio.Server

open LxcUio.Foundation

/-- The conditions that `process_entry` reports as bugs of the server. -/
inductive BugCheck where
  | negativeEntries
  | returnedNull
  | contradiction
deriving DecidableEq

/-- How a call ends: it returns `ret_val`, returns -1 after a bug check, is still
running the guest, or the server died on a bad pointer. -/
inductive ProcessResult where
  | returned (retVal : ℤ)
  | bug (b : BugCheck)
  | running
  | crashed
deriving DecidableEq

/-- `run->exit_reason`, with what is read of `run` for it. -/
inductive ExitReason where
  | hlt
  | io (direction size port count : ℕ) (data : UInt8)
  | failEntry
  | internalError
  | other (reason : ℕ)
deriving DecidableEq

structure VcpuExit where
  ret : ℤ
  reason : ExitReason
deriving DecidableEq

/-- What `mmap` of the vcpu's `struct kvm_run` returns. -/
inductive RunMapping where
  | mapped
  | null
  | mapFailed
deriving DecidableEq

structure ProcessEnv where
  mallocScan : ℤ → Bool
  createVm : ℤ
  memory : MemoryEnv
  mallocPacket : Bool
  bytesWritten : ℤ
  mallocReload : Bool
  createVcpu : ℤ
  vcpuMmapSize : ℤ
  sizeofKvmRun : ℤ
  mmapRun : RunMapping
  getSregs : ℤ
  setSregs : ℤ
  mallocRegs : Bool
  setRegs : ℤ
  exits : List VcpuExit

/-- `sizeof(packet)` in the server. -/
def sizeofPacket : ℤ := 304

/-- `send_packet`, on the number of bytes that `write` returned. -/
def sendPacket (bytesWritten : ℤ) : ℤ :=
  if bytesWritten < 0 then -1
  else if bytesWritten = sizeofPacket then 0
  else -1

theorem eq_sizeofPacket {n : ℤ} (h : ¬ sendPacket n < 0) : n = sizeofPacket := by
  unfold sendPacket at h
  split at h
  · exact absurd (by decide) h
  · split at h
    · assumption
    · exact absurd (by decide) h

/-- A program of the server that leaves through `goto out`. -/
abbrev ProcOut (α : Type) := Proc ProcessResult α

/-- `goto out` with this `ret_val`. -/
def out {α : Type} (retVal : ℤ) : ProcOut α := Program.exit (.returned retVal)

/-! The four fields that are set with `table_set_xxx`. -/

def setVmfd (vmfd : ℤ) (e : UuidTableEntry) : UuidTableEntry := { e with vmfd := vmfd }

def setVcpufd (vcpufd : ℤ) (e : UuidTableEntry) : UuidTableEntry :=
  { e with vcpufd := vcpufd }

def setProcessed (e : UuidTableEntry) : UuidTableEntry := { e with processed := true }

def setCouldNotProcess (e : UuidTableEntry) : UuidTableEntry :=
  { e with couldNotProcess := true }

/-- `table_set_xxx(i,...)`; the value is `errno`. -/
def setXxx (i : ℤ) (f : UuidTableEntry → UuidTableEntry) : ProcOut ℤ := do
  let s ← Program.read
  if i ≤ s.table.tableNumEntries - 1 then do
    modifyEntry i f
    pure 0
  else pure (-1)

/-- `table_set_xxx(i,could_not_process,true)`; its `errno` is looked at and dropped. -/
def giveUp (i : ℤ) : ProcOut Unit := do
  let _ ← setXxx i setCouldNotProcess
  pure ()

/-- `ptr=table_entry_at_index_copy(i)` where NULL ends the call. -/
def reload (i : ℤ) (malloc : Bool) : ProcOut UuidTableEntry := do
  let s ← Program.read
  match tableEntryAtIndexCopy s.table i malloc with
  | none => out (-1)
  | some ptr => pure ptr

/-- The registers the vcpu starts with: the code is expected at 0x1000. -/
def initialRegs : KvmRegs := ⟨0x1000, 2, 2, 0x2⟩

/-- The guest writes a character to the serial port: the only handled output. -/
def ioHandled (direction size port count : ℕ) : Bool :=
  direction = 1 ∧ size = 1 ∧ port = 0x3f8 ∧ count = 1

/-- The loop around `KVM_RUN`. -/
def runVcpu (i vcpufd : ℤ) (mmapRun : RunMapping) :
    List VcpuExit → ProcOut ProcessResult
  | [] => Program.exit .running
  | x :: rest => do
      emit (.kvmRun vcpufd x.ret)
      Program.onlyIf (x.ret < 0) (out x.ret)
      -- run->exit_reason is read: a failed mapping was never caught
      Program.onlyIf (mmapRun = .mapFailed) (Program.exit .crashed)
      match x.reason with
      | .hlt => do
          let errno ← setXxx i setProcessed
          if errno < 0 then pure (.returned (-1)) else pure (.returned 1)
      | .io direction size port count data => do
          Program.onlyIf (ioHandled direction size port count = true) (emit (.putchar data))
          runVcpu i vcpufd mmapRun rest
      | .failEntry => pure (.returned (-1))
      | .internalError => pure (.returned (-1))
      | .other _ => runVcpu i vcpufd mmapRun rest

/-- The part of the body from `KVM_CREATE_VCPU` on. -/
def startVcpu (env : ProcessEnv) (i vmfd : ℤ) : ProcOut ProcessResult := do
  emit (.createVcpu vmfd env.createVcpu)
  Program.onlyIf (env.createVcpu < 0) (do giveUp i; out (-1))
  let errno ← setXxx i (setVcpufd env.createVcpu)
  Program.onlyIf (errno < 0) (do giveUp i; out (-1))
  Program.onlyIf (env.vcpuMmapSize < 0) (do giveUp i; out (-1))
  Program.onlyIf (env.vcpuMmapSize < env.sizeofKvmRun) (out (-1))
  Program.onlyIf (env.mmapRun = .null) (out (-1))
  Program.onlyIf (env.getSregs < 0) (out env.getSregs)
  emit (.setSregs env.createVcpu 0 0 env.setSregs)
  Program.onlyIf (env.setSregs < 0) (out env.setSregs)
  let _ ← reload i env.mallocRegs
  emit (.setRegs env.createVcpu initialRegs env.setRegs)
  Program.onlyIf (env.setRegs < 0) (out env.setRegs)
  runVcpu i env.createVcpu env.mmapRun env.exits

/-- The body for the entry that needs processing; `ptr` is the copy the scan made. -/
def processPicked (debugOn : Bool) (env : ProcessEnv) (i : ℤ) (ptr : UuidTableEntry) :
    ProcOut ProcessResult := do
  emit (.createVm env.createVm)
  Program.onlyIf (env.createVm < 0) (do giveUp i; out (-1))
  let errno ← setXxx i (setVmfd env.createVm)
  Program.onlyIf (errno < 0) (do giveUp i; out (-1))
  let retVal ← Program.call
    (initializeMemoryUuid debugOn env.memory ptr.uuid env.createVm)
  Program.onlyIf (retVal < 0) (do giveUp i; out retVal)
  let ptr ← reload i env.mallocPacket
  emit (.writePacket ⟨ptr.uuid, ptr.memory⟩ env.bytesWritten)
  let retVal := sendPacket env.bytesWritten
  Program.onlyIf (retVal < 0) (do giveUp i; out retVal)
  let _ ← reload i env.mallocReload
  startVcpu env i env.createVm

/-- The `for` loop over the entries. -/
def scanEntries (debugOn : Bool) (env : ProcessEnv) : List ℤ → ProcOut ProcessResult
  | [] => pure (.returned 0)
  | i :: rest => do
      let s ← Program.read
      match tableEntryAtIndexCopy s.table i (env.mallocScan i) with
      | none => Program.exit (.bug .returnedNull)
      | some ptr =>
          if ptr.processed = true ∧ ptr.couldNotProcess = true then
            Program.exit (.bug .contradiction)
          else if ptr.processed = false ∧ ptr.couldNotProcess = false then
            processPicked debugOn env i ptr
          else scanEntries debugOn env rest

def processEntry (debugOn : Bool) (env : ProcessEnv) : ProcOut ProcessResult := do
  let s ← Program.read
  let numEntries := getTableNumEntries s.table
  if numEntries = 0 then pure (.returned 0)
  else if numEntries < 0 then Program.exit (.bug .negativeEntries)
  else scanEntries debugOn env (entryIndices numEntries)

/-- One call from a given table: the states it passes through, and its result. -/
def runProcessEntry (debugOn : Bool) (env : ProcessEnv) (t : UuidTable) :
    Ran ProcState ProcessResult ProcessResult :=
  processEntry debugOn env ⟨t, []⟩

/-! ## What one call can do -/

/-- `process_entry` works on entry `i`: the flags of all other entries are as they
were, and entry `i` does not have both. -/
structure Touches (i : ℤ) (t0 t : UuidTable) : Prop extends Frame t0 t where
  processed : ∀ j, j ≠ i → (t.entry j).processed = (t0.entry j).processed
  couldNotProcess : ∀ j, j ≠ i → (t.entry j).couldNotProcess = (t0.entry j).couldNotProcess
  one : ¬ ((t.entry i).processed = true ∧ (t.entry i).couldNotProcess = true)

/-- Entry `i` is being worked on: neither flag is set yet. -/
structure Picked (i : ℤ) (t0 t : UuidTable) : Prop extends Touches i t0 t where
  unprocessed : (t.entry i).processed = false
  notGivenUp : (t.entry i).couldNotProcess = false
  inRange : i ≤ t.tableNumEntries - 1

/-- How a call that picked entry `i` ends: it returns 1 and the entry is processed,
or it returns an error, or it does not return. -/
def Ended (i : ℤ) (t0 : UuidTable) (r : ProcessResult) (t : UuidTable) : Prop :=
  Touches i t0 t ∧
    ((r = .returned 1 ∧ (t.entry i).processed = true ∧ (t.entry i).couldNotProcess = false) ∨
      (∃ v, v < 0 ∧ r = .returned v) ∨ r = .running ∨ r = .crashed)

theorem Touches.ended_of_neg {i : ℤ} {t0 t : UuidTable} (h : Touches i t0 t) {v : ℤ}
    (hv : v < 0) : Ended i t0 (.returned v) t :=
  ⟨h, Or.inr (Or.inl ⟨v, hv, rfl⟩)⟩

theorem Picked.memoryOnly {i : ℤ} {t0 t u : UuidTable} (h : Picked i t0 t)
    (hu : MemoryOnly t u) : Picked i t0 u where
  toFrame := h.toFrame.trans hu.toFrame
  processed := fun j hj => (hu.processed j).trans (h.processed j hj)
  couldNotProcess := fun j hj => (hu.couldNotProcess j).trans (h.couldNotProcess j hj)
  one := by
    rw [hu.processed, hu.couldNotProcess]
    exact h.one
  unprocessed := (hu.processed i).trans h.unprocessed
  notGivenUp := (hu.couldNotProcess i).trans h.notGivenUp
  inRange := by
    rw [hu.num]
    exact h.inRange

/-- A store into the entry that is worked on. -/
theorem Picked.touches_modify {i : ℤ} {t0 t : UuidTable} (h : Picked i t0 t)
    {f : UuidTableEntry → UuidTableEntry} (huuid : ∀ e, (f e).uuid = e.uuid)
    (hmem : ∀ e, (f e).memory = e.memory)
    (hone : ¬ ((f (t.entry i)).processed = true ∧ (f (t.entry i)).couldNotProcess = true)) :
    Touches i t0 (t.modify i f) where
  toFrame := h.toFrame.modify huuid (Or.inl (by rw [hmem]))
  processed := fun j hj => by rw [modify_entry_ne t f hj, h.processed j hj]
  couldNotProcess := fun j hj => by rw [modify_entry_ne t f hj, h.couldNotProcess j hj]
  one := by rwa [modify_entry_same]

/-- A change of one entry that leaves uuid, memory record and flags alone. -/
structure KeepsFlags (f : UuidTableEntry → UuidTableEntry) : Prop where
  uuid : ∀ e, (f e).uuid = e.uuid
  memory : ∀ e, (f e).memory = e.memory
  processed : ∀ e, (f e).processed = e.processed
  couldNotProcess : ∀ e, (f e).couldNotProcess = e.couldNotProcess

theorem setVmfd_keepsFlags (vmfd : ℤ) : KeepsFlags (setVmfd vmfd) :=
  ⟨fun _ => rfl, fun _ => rfl, fun _ => rfl, fun _ => rfl⟩

theorem setVcpufd_keepsFlags (vcpufd : ℤ) : KeepsFlags (setVcpufd vcpufd) :=
  ⟨fun _ => rfl, fun _ => rfl, fun _ => rfl, fun _ => rfl⟩

theorem Picked.modify {i : ℤ} {t0 t : UuidTable} (h : Picked i t0 t)
    {f : UuidTableEntry → UuidTableEntry} (hf : KeepsFlags f) :
    Picked i t0 (t.modify i f) where
  toTouches := h.touches_modify hf.uuid hf.memory (by
    rw [hf.processed, hf.couldNotProcess]
    exact h.one)
  unprocessed := by rw [modify_entry_same, hf.processed, h.unprocessed]
  notGivenUp := by rw [modify_entry_same, hf.couldNotProcess, h.notGivenUp]
  inRange := h.inRange

/-! ### Rules for the statements -/

section Rules

variable {α : Type} {I : ProcState → Prop} {E : ProcessResult → ProcState → Prop}
  {s : ProcState}

@[simp] theorem wp_out {Q : α → ProcState → Prop} (retVal : ℤ) :
    (out retVal : ProcOut α).wp I Q E s ↔ E (.returned retVal) s :=
  Program.wp_exit _

@[simp] theorem wp_emit {Q : Unit → ProcState → Prop} (e : Event) :
    (emit e : ProcOut Unit).wp I Q E s ↔ I (s.emit e) ∧ Q () (s.emit e) :=
  Program.wp_step _

/-- Within the table `table_set_xxx` stores and leaves `errno` 0. -/
theorem wp_setXxx {Q : ℤ → ProcState → Prop} {i : ℤ}
    (hi : i ≤ s.table.tableNumEntries - 1) (f : UuidTableEntry → UuidTableEntry) :
    (setXxx i f).wp I Q E s ↔ I (s.modify i f) ∧ Q 0 (s.modify i f) := by
  simp only [setXxx, Program.wp_bind, Program.wp_read, hi, if_true, modifyEntry,
    Program.wp_step, Program.wp_pure]

/-- The errno and the table are those of `table_set_xxx`. -/
theorem setXxx_does (i : ℤ) (f : UuidTableEntry → UuidTableEntry) :
    (setXxx i f).wp (fun _ => True)
      (fun errno u => (errno, u.table) = tableSetXxx s.table i f) (fun _ _ => False) s := by
  by_cases hi : i ≤ s.table.tableNumEntries - 1
  · rw [wp_setXxx hi, tableSetXxx, if_pos hi]
    exact ⟨trivial, rfl⟩
  · rw [setXxx, Program.wp_bind, Program.wp_read, if_neg hi, Program.wp_pure, tableSetXxx,
      if_neg hi]

theorem wp_giveUp {Q : Unit → ProcState → Prop} {i : ℤ}
    (hi : i ≤ s.table.tableNumEntries - 1) :
    (giveUp i).wp I Q E s ↔
      I (s.modify i setCouldNotProcess) ∧ Q () (s.modify i setCouldNotProcess) := by
  simp only [giveUp, Program.wp_bind, wp_setXxx hi, Program.wp_pure]

/-- A reload delivers the entry or ends the call. -/
theorem wp_reload {Q : UuidTableEntry → ProcState → Prop} {i : ℤ}
    (hi : i ≤ s.table.tableNumEntries - 1) (malloc : Bool) :
    (reload i malloc).wp I Q E s ↔
      (malloc = true → Q (s.table.entry i) s) ∧
        (malloc = false → E (.returned (-1)) s) := by
  have hlt : ¬ i ≥ s.table.tableNumEntries := by omega
  cases malloc <;>
    simp [reload, tableEntryAtIndexCopy, hlt]

end Rules

/-! ### The statements keep the entry picked -/

/-- `x` works on entry `i`: it keeps the entry picked, or ends the call. -/
def Works (i : ℤ) (t0 : UuidTable) {α : Type} (x : ProcOut α) (R : α → Prop) : Prop :=
  ∀ s : ProcState, Picked i t0 s.table →
    x.wp (fun t => Touches i t0 t.table) (fun a t => R a ∧ Picked i t0 t.table)
      (fun r t => Ended i t0 r t.table) s

section Works

variable {i : ℤ} {t0 : UuidTable}

theorem works_emit (e : Event) : Works i t0 (emit e) fun _ => True := by
  intro s h
  rw [wp_emit]
  exact ⟨h.toTouches, trivial, h⟩

theorem works_setXxx {f : UuidTableEntry → UuidTableEntry} (hf : KeepsFlags f) :
    Works i t0 (setXxx i f) fun errno => errno = 0 := by
  intro s h
  rw [wp_setXxx h.inRange]
  have hset := h.modify hf
  exact ⟨hset.toTouches, rfl, hset⟩

theorem works_reload (malloc : Bool) : Works i t0 (reload i malloc) fun _ => True := by
  intro s h
  rw [wp_reload h.inRange]
  exact ⟨fun _ => ⟨trivial, h⟩, fun _ => h.toTouches.ended_of_neg (by decide)⟩

/-- A failing branch that leaves with an error. -/
theorem works_out {c : Prop} [Decidable c] {v : ℤ} (hv : c → v < 0) :
    Works i t0 (Program.onlyIf c (out v)) fun _ => True := by
  intro s h
  rw [Program.wp_onlyIf, wp_out]
  exact ⟨fun hc => h.toTouches.ended_of_neg (hv hc), fun _ => ⟨trivial, h⟩⟩

/-- A failing branch that marks the entry first. -/
theorem works_giveUp {c : Prop} [Decidable c] {v : ℤ} (hv : c → v < 0) :
    Works i t0 (Program.onlyIf c (do giveUp i; out v)) fun _ => True := by
  intro s h
  rw [Program.wp_onlyIf, Program.wp_bind, wp_giveUp h.inRange, wp_out]
  have hmarked : Touches i t0 (s.table.modify i setCouldNotProcess) := by
    refine h.touches_modify (fun _ => rfl) (fun _ => rfl) ?_
    rintro ⟨hp, -⟩
    change (s.table.entry i).processed = true at hp
    rw [h.unprocessed] at hp
    cases hp
  exact ⟨fun hc => ⟨hmarked, hmarked.ended_of_neg (hv hc)⟩, fun _ => ⟨trivial, h⟩⟩

theorem works_initializeMemory (debugOn : Bool) (env : MemoryEnv) (uuid : Uuid) (vmfd : ℤ) :
    Works i t0 (Program.call (initializeMemoryUuid debugOn env uuid vmfd)) fun _ => True := by
  intro s h
  rw [Program.wp_call]
  have honly := initializeMemoryUuid_only debugOn env uuid vmfd s
  have hkeep : ∀ t : ProcState, MemoryOnly s.table t.table → Picked i t0 t.table :=
    fun _ ht => h.memoryOnly ht
  rw [Program.wp_value_iff] at honly ⊢
  exact ⟨fun t ht => (hkeep t (honly.1 t ht)).toTouches, trivial, hkeep _ honly.2⟩

end Works

/-! ### The sections of the body -/

theorem runVcpu_ends {i : ℤ} {t0 : UuidTable} (vcpufd : ℤ) (mmapRun : RunMapping) :
    ∀ (exits : List VcpuExit) (s : ProcState), Picked i t0 s.table →
    (runVcpu i vcpufd mmapRun exits).wp (fun t => Touches i t0 t.table)
      (fun r t => Ended i t0 r t.table) (fun r t => Ended i t0 r t.table) s := by
  intro exits
  induction exits with
  | nil =>
      intro s h
      rw [runVcpu, Program.wp_exit]
      exact ⟨h.toTouches, Or.inr (Or.inr (Or.inl rfl))⟩
  | cons x rest ih =>
      intro s h
      simp only [runVcpu, Program.wp_bind, wp_emit, Program.wp_onlyIf, wp_out,
        Program.wp_exit, emit_table]
      refine ⟨h.toTouches, fun hneg => h.toTouches.ended_of_neg hneg, fun _ =>
        ⟨fun _ => ⟨h.toTouches, Or.inr (Or.inr (Or.inr rfl))⟩, fun _ => ?_⟩⟩
      cases x.reason with
      | hlt =>
          have hdone : Touches i t0 (s.table.modify i setProcessed) := by
            refine h.touches_modify (fun _ => rfl) (fun _ => rfl) ?_
            rintro ⟨-, hc⟩
            change (s.table.entry i).couldNotProcess = true at hc
            rw [h.notGivenUp] at hc
            cases hc
          simp only [Program.wp_bind, wp_setXxx (s := s.emit _) h.inRange]
          refine ⟨hdone, ?_⟩
          rw [if_neg (lt_irrefl _), Program.wp_pure]
          refine ⟨hdone, Or.inl ⟨rfl, ?_, ?_⟩⟩
          · rw [procModify_table, modify_entry_same]
            rfl
          · rw [procModify_table, modify_entry_same]
            exact h.notGivenUp
      | io direction size port count data =>
          simp only [Program.wp_bind, Program.wp_onlyIf, wp_emit, emit_table]
          exact ⟨fun _ => ⟨h.toTouches, ih _ h⟩, fun _ => ih _ h⟩
      | failEntry => exact (Program.wp_pure _).mpr (h.toTouches.ended_of_neg (by decide))
      | internalError => exact (Program.wp_pure _).mpr (h.toTouches.ended_of_neg (by decide))
      | other reason => exact ih _ h

theorem startVcpu_ends {i : ℤ} {t0 : UuidTable} (env : ProcessEnv) (vmfd : ℤ)
    {s : ProcState} (h : Picked i t0 s.table) :
    (startVcpu env i vmfd).wp (fun t => Touches i t0 t.table)
      (fun r t => Ended i t0 r t.table) (fun r t => Ended i t0 r t.table) s := by
  refine Program.wp_seq (works_emit _ s h) fun _ s h => ?_
  refine Program.wp_seq (works_giveUp (fun _ => by decide) s h.2) fun _ s h => ?_
  refine Program.wp_seq (works_setXxx (setVcpufd_keepsFlags _) s h.2) fun errno s h => ?_
  refine Program.wp_seq (works_giveUp (fun _ => by decide) s h.2) fun _ s h => ?_
  refine Program.wp_seq (works_giveUp (fun _ => by decide) s h.2) fun _ s h => ?_
  refine Program.wp_seq (works_out (fun _ => by decide) s h.2) fun _ s h => ?_
  refine Program.wp_seq (works_out (fun _ => by decide) s h.2) fun _ s h => ?_
  refine Program.wp_seq (works_out (fun hneg => hneg) s h.2) fun _ s h => ?_
  refine Program.wp_seq (works_emit _ s h.2) fun _ s h => ?_
  refine Program.wp_seq (works_out (fun hneg => hneg) s h.2) fun _ s h => ?_
  refine Program.wp_seq (works_reload env.mallocRegs s h.2) fun _ s h => ?_
  refine Program.wp_seq (works_emit _ s h.2) fun _ s h => ?_
  refine Program.wp_seq (works_out (fun hneg => hneg) s h.2) fun _ s h => ?_
  exact runVcpu_ends env.createVcpu env.mmapRun env.exits s h.2

theorem processPicked_ends {i : ℤ} {t0 : UuidTable} (debugOn : Bool) (env : ProcessEnv)
    (ptr : UuidTableEntry) {s : ProcState} (h : Picked i t0 s.table) :
    (processPicked debugOn env i ptr).wp (fun t => Touches i t0 t.table)
      (fun r t => Ended i t0 r t.table) (fun r t => Ended i t0 r t.table) s := by
  refine Program.wp_seq (works_emit _ s h) fun _ s h => ?_
  refine Program.wp_seq (works_giveUp (fun _ => by decide) s h.2) fun _ s h => ?_
  refine Program.wp_seq (works_setXxx (setVmfd_keepsFlags _) s h.2) fun errno s h => ?_
  refine Program.wp_seq (works_giveUp (fun _ => by decide) s h.2) fun _ s h => ?_
  refine Program.wp_seq (works_initializeMemory debugOn env.memory ptr.uuid env.createVm s
    h.2) fun retVal s h => ?_
  refine Program.wp_seq (works_giveUp (fun hneg => hneg) s h.2) fun _ s h => ?_
  refine Program.wp_seq (works_reload env.mallocPacket s h.2) fun ptr s h => ?_
  refine Program.wp_seq (works_emit _ s h.2) fun _ s h => ?_
  refine Program.wp_seq (works_giveUp (fun hneg => hneg) s h.2) fun _ s h => ?_
  refine Program.wp_seq (works_reload env.mallocReload s h.2) fun _ s h => ?_
  exact startVcpu_ends env env.createVm h.2

/-! ### The whole call -/

/-- An entry that the scan passes over. -/
def Settled (e : UuidTableEntry) : Prop := e.processed = true ∨ e.couldNotProcess = true

theorem settled_of_not_clear {e : UuidTableEntry}
    (h : ¬ (e.processed = false ∧ e.couldNotProcess = false)) : Settled e := by
  unfold Settled
  cases hp : e.processed with
  | true => exact Or.inl rfl
  | false =>
      cases hc : e.couldNotProcess with
      | true => exact Or.inr rfl
      | false => exact absurd ⟨hp, hc⟩ h

/-- Entry `i` is the first one that neither flag is set of. -/
structure FirstUnsettled (t : UuidTable) (i : ℤ) : Prop where
  nonneg : 0 ≤ i
  inRange : i < t.tableNumEntries
  unprocessed : (t.entry i).processed = false
  notGivenUp : (t.entry i).couldNotProcess = false
  before : ∀ j, 0 ≤ j → j < i → Settled (t.entry j)

theorem FirstUnsettled.picked {t : UuidTable} {i : ℤ} (h : FirstUnsettled t i) :
    Picked i t t where
  toFrame := Frame.refl t
  processed := fun _ _ => rfl
  couldNotProcess := fun _ _ => rfl
  one := by
    rw [h.unprocessed]
    rintro ⟨hp, -⟩
    cases hp
  unprocessed := h.unprocessed
  notGivenUp := h.notGivenUp
  inRange := by
    have := h.inRange
    omega

/-- A state in the middle of a call: nothing has changed, or the first unsettled
entry is being worked on. -/
def During (t0 t : UuidTable) : Prop :=
  t = t0 ∨ ∃ i, FirstUnsettled t0 i ∧ Touches i t0 t

/-- Why a bug check is reported. -/
def BugCause (env : ProcessEnv) (t : UuidTable) : BugCheck → Prop
  | .negativeEntries => getTableNumEntries t < 0
  | .returnedNull => ∃ i, env.mallocScan i = false
  | .contradiction => ∃ i, 0 ≤ i ∧ i < t.tableNumEntries ∧
      (t.entry i).processed = true ∧ (t.entry i).couldNotProcess = true

/-- **What a call of `process_entry` does**: it returns 0 and every entry is
settled; or it worked on the first entry that was not; or it reports a bug check,
and the table is as it was. -/
def CallDoes (env : ProcessEnv) (t0 : UuidTable) (r : ProcessResult) (t : UuidTable) :
    Prop :=
  (r = .returned 0 ∧ t = t0 ∧
    ∀ j, 0 ≤ j → j < t0.tableNumEntries → Settled (t0.entry j)) ∨
  (∃ i, FirstUnsettled t0 i ∧ Ended i t0 r t) ∨
  (∃ b, r = .bug b ∧ t = t0 ∧ BugCause env t0 b)

/-! ### What the scan picks -/

/-- The entry that the scan picks: none when it ends before. -/
def picked (env : ProcessEnv) (t : UuidTable) : List ℤ → Option ℤ
  | [] => none
  | i :: rest =>
      match tableEntryAtIndexCopy t i (env.mallocScan i) with
      | none => none
      | some ptr =>
          if ptr.processed = true ∧ ptr.couldNotProcess = true then none
          else if ptr.processed = false ∧ ptr.couldNotProcess = false then some i
          else picked env t rest

/-- The entry that a call picks. -/
def pickedEntry (env : ProcessEnv) (t : UuidTable) : Option ℤ :=
  picked env t (entryIndices (getTableNumEntries t))

/-- What is picked is the first entry without a flag; the scan goes past those before. -/
theorem picked_split {env : ProcessEnv} {t : UuidTable} {i : ℤ} : ∀ {is : List ℤ},
    picked env t is = some i → ∃ before behind, is = before ++ i :: behind ∧
      (∀ j ∈ before, Settled (t.entry j)) ∧ i < t.tableNumEntries ∧
      (t.entry i).processed = false ∧ (t.entry i).couldNotProcess = false := by
  intro is
  induction is with
  | nil =>
      intro h
      cases h
  | cons j is ih =>
      intro h
      unfold picked at h
      cases hcopy : tableEntryAtIndexCopy t j (env.mallocScan j) with
      | none =>
          rw [hcopy] at h
          cases h
      | some ptr =>
          have hin := copy_inRange hcopy
          obtain rfl := copy_eq hcopy
          rw [hcopy] at h
          dsimp only at h
          split at h
          · cases h
          · split at h
            · rename_i hclear
              obtain rfl := Option.some.inj h
              exact ⟨[], is, rfl, fun k hk => (by cases hk), hin.1, hclear⟩
            · rename_i hclear
              obtain ⟨before, behind, hsplit, hbefore, hrest⟩ := ih h
              refine ⟨j :: before, behind, by rw [hsplit]; rfl, fun k hk => ?_, hrest⟩
              rcases List.mem_cons.mp hk with rfl | hold
              · exact settled_of_not_clear hclear
              · exact hbefore k hold

theorem picked_inRange {env : ProcessEnv} {t : UuidTable} {i : ℤ} {is : List ℤ}
    (h : picked env t is = some i) : i ∈ is ∧ i < t.tableNumEntries := by
  obtain ⟨before, behind, rfl, -, hlt, -⟩ := picked_split h
  exact ⟨List.mem_append_right _ List.mem_cons_self, hlt⟩

theorem pickedEntry_firstUnsettled {env : ProcessEnv} {t : UuidTable} {i : ℤ}
    (h : pickedEntry env t = some i) : FirstUnsettled t i := by
  obtain ⟨before, behind, hsplit, hbefore, hlt, hp, hc⟩ := picked_split h
  have hmem : i ∈ entryIndices (getTableNumEntries t) := by
    rw [hsplit]
    exact List.mem_append_right _ List.mem_cons_self
  obtain ⟨h0, hi⟩ := mem_entryIndices.mp hmem
  have hsorted : (entryIndices (getTableNumEntries t)).Pairwise (· < ·) :=
    List.pairwise_map.mpr (List.pairwise_lt_range.imp fun hab => Int.ofNat_lt.mpr hab)
  rw [hsplit] at hsorted
  refine ⟨h0, hlt, hp, hc, fun j hj0 hj => hbefore j ?_⟩
  have hin : j ∈ entryIndices (getTableNumEntries t) := mem_entryIndices.mpr ⟨hj0, hj.trans hi⟩
  rw [hsplit] at hin
  rcases List.mem_append.mp hin with hold | hrest
  · exact hold
  · -- the indices from `i` on are not below `i`
    rcases List.mem_cons.mp hrest with rfl | hbehind
    · exact absurd hj (lt_irrefl j)
    · have hafter := (List.pairwise_cons.mp (List.pairwise_append.mp hsorted).2.1).1 j hbehind
      exact absurd hj (not_lt.mpr hafter.le)

/-- The scan goes past entry `j`. -/
structure PassedOver (env : ProcessEnv) (t : UuidTable) (j : ℤ) : Prop where
  inRange : j < t.tableNumEntries
  malloc : env.mallocScan j = true
  one : ¬ ((t.entry j).processed = true ∧ (t.entry j).couldNotProcess = true)
  settled : Settled (t.entry j)

/-- Why the scan reports a bug check at entry `j`. -/
inductive Blames (env : ProcessEnv) (t : UuidTable) (j : ℤ) : BugCheck → Prop where
  | null (h : t.tableNumEntries ≤ j ∨ env.mallocScan j = false) : Blames env t j .returnedNull
  | both (hlt : j < t.tableNumEntries) (hp : (t.entry j).processed = true)
      (hc : (t.entry j).couldNotProcess = true) : Blames env t j .contradiction

theorem PassedOver.not_blames {env : ProcessEnv} {t : UuidTable} {j : ℤ} {b : BugCheck}
    (h : PassedOver env t j) : ¬ Blames env t j b := by
  intro hblames
  cases hblames with
  | null hnull =>
      rcases hnull with hout | hm
      · exact absurd h.inRange (not_lt.mpr hout)
      · exact Bool.false_ne_true (hm.symm.trans h.malloc)
  | both _ hp hc => exact h.one ⟨hp, hc⟩

section Scan

variable {I : ProcState → Prop} {Q E : ProcessResult → ProcState → Prop} {env : ProcessEnv}
  {s : ProcState}

/-- **The rule of the scan**: it goes on with the entry it picks; picking none, it goes
past all entries it sees, or it reports a bug check. -/
theorem wp_scanEntries (debugOn : Bool) : ∀ {is : List ℤ},
    (∀ i, picked env s.table is = some i →
      (processPicked debugOn env i (s.table.entry i)).wp I Q E s) →
    (picked env s.table is = none → (∀ j ∈ is, PassedOver env s.table j) →
      Q (.returned 0) s) →
    (picked env s.table is = none → ∀ j ∈ is, ∀ b, Blames env s.table j b →
      E (.bug b) s) →
    (scanEntries debugOn env is).wp I Q E s := by
  intro is
  induction is with
  | nil =>
      intro _ hpast _
      exact (Program.wp_pure _).mpr (hpast rfl fun j hj => by cases hj)
  | cons j is ih =>
      intro hpicked hpast hbug
      unfold picked at hpicked hpast hbug
      rw [scanEntries, Program.wp_bind, Program.wp_read]
      cases hcopy : tableEntryAtIndexCopy s.table j (env.mallocScan j) with
      | none =>
          rw [hcopy] at hbug
          exact (Program.wp_exit _).mpr
            (hbug rfl j List.mem_cons_self _ (.null (copy_eq_none.mp hcopy)))
      | some ptr =>
          have hin := copy_inRange hcopy
          obtain rfl := copy_eq hcopy
          simp only [hcopy] at hpicked hpast hbug ⊢
          by_cases hboth : (s.table.entry j).processed = true ∧
              (s.table.entry j).couldNotProcess = true
          · rw [if_pos hboth] at hbug ⊢
            exact (Program.wp_exit _).mpr
              (hbug rfl j List.mem_cons_self _ (.both hin.1 hboth.1 hboth.2))
          rw [if_neg hboth] at hpicked hpast hbug ⊢
          by_cases hclear : (s.table.entry j).processed = false ∧
              (s.table.entry j).couldNotProcess = false
          · rw [if_pos hclear] at hpicked ⊢
            exact hpicked j rfl
          · -- the entry is settled: on with the rest
            rw [if_neg hclear] at hpicked hpast hbug ⊢
            refine ih hpicked (fun hnone hrest => hpast hnone ?_) fun hnone k hk =>
              hbug hnone k (List.mem_cons_of_mem j hk)
            intro k hk
            rcases List.mem_cons.mp hk with rfl | hold
            · exact ⟨hin.1, hin.2, hboth, settled_of_not_clear hclear⟩
            · exact hrest k hold

/-- **The rule of the call.** -/
theorem wp_processEntry (debugOn : Bool)
    (hpicked : ∀ i, pickedEntry env s.table = some i →
      (processPicked debugOn env i (s.table.entry i)).wp I Q E s)
    (hpast : pickedEntry env s.table = none → 0 ≤ getTableNumEntries s.table →
      (∀ j ∈ entryIndices (getTableNumEntries s.table), PassedOver env s.table j) →
      Q (.returned 0) s)
    (hneg : pickedEntry env s.table = none → getTableNumEntries s.table < 0 →
      E (.bug .negativeEntries) s)
    (hbug : pickedEntry env s.table = none →
      ∀ j ∈ entryIndices (getTableNumEntries s.table), ∀ b, Blames env s.table j b →
      E (.bug b) s) :
    (processEntry debugOn env).wp I Q E s := by
  have hempty : getTableNumEntries s.table ≤ 0 → pickedEntry env s.table = none := by
    intro hle
    rw [pickedEntry, entryIndices_of_nonpos hle]
    rfl
  refine (Program.wp_bind _ _).mpr (Program.wp_read.mpr ?_)
  rw [Program.wp_ite, Program.wp_ite, Program.wp_pure, Program.wp_exit]
  refine ⟨fun hzero => ?_, fun _ => ⟨fun hlt => hneg (hempty hlt.le) hlt, fun hnot => ?_⟩⟩
  · -- an empty table is past at once
    have hnil := entryIndices_of_nonpos (le_of_eq hzero)
    refine hpast (hempty (le_of_eq hzero)) (le_of_eq hzero.symm) fun j hj => ?_
    rw [hnil] at hj
    cases hj
  · exact wp_scanEntries debugOn hpicked (fun hnone => hpast hnone (not_lt.mp hnot)) hbug

end Scan

/-- A table whose count fits the `int` that `get_table_num_entries` returns. -/
def CountFits (t : UuidTable) : Prop := 0 ≤ t.tableNumEntries ∧ t.tableNumEntries < 2 ^ 31

theorem processEntry_does (debugOn : Bool) (env : ProcessEnv) (s : ProcState)
    (hfits : CountFits s.table) :
    (processEntry debugOn env).wp (fun t => During s.table t.table)
      (fun r t => CallDoes env s.table r t.table)
      (fun r t => CallDoes env s.table r t.table) s := by
  have hint : getTableNumEntries s.table = s.table.tableNumEntries :=
    toInt_of_bounds (by have := hfits.1; omega) hfits.2
  refine wp_processEntry debugOn (fun i hi => ?_) (fun _ _ hpast => ?_) (fun _ hneg => ?_)
    fun _ j hj b hblames => ?_
  · have hfirst := pickedEntry_firstUnsettled hi
    exact Program.wp_weaken (processPicked_ends debugOn env _ hfirst.picked)
      (fun t ht => Or.inr ⟨i, hfirst, ht⟩) (fun r t hr => Or.inr (Or.inl ⟨i, hfirst, hr⟩))
      (fun r t hr => Or.inr (Or.inl ⟨i, hfirst, hr⟩))
  · rw [hint] at hpast
    exact Or.inl ⟨rfl, rfl, fun j hj hlt => (hpast j (mem_entryIndices.mpr ⟨hj, hlt⟩)).settled⟩
  · exact Or.inr (Or.inr ⟨_, rfl, rfl, hneg⟩)
  · rw [hint] at hj
    obtain ⟨h0, hlt⟩ := mem_entryIndices.mp hj
    cases hblames with
    | null h =>
        exact Or.inr (Or.inr ⟨_, rfl, rfl, j, h.resolve_left (not_le.mpr hlt)⟩)
    | both _ hp hc => exact Or.inr (Or.inr ⟨_, rfl, rfl, j, h0, hlt, hp, hc⟩)

theorem runProcessEntry_last (debugOn : Bool) (env : ProcessEnv) (t : UuidTable) :
    ((runProcessEntry debugOn env t).visited.map ProcState.table).getLastD t =
      ((runProcessEntry debugOn env t).final ⟨t, []⟩).table :=
  @List.getLastD_map _ _ ProcState.table _ ⟨t, []⟩

/-- The same, said of the tables that a call passes through and of the last of them. -/
theorem runProcessEntry_does (debugOn : Bool) (env : ProcessEnv) {t : UuidTable}
    (hfits : CountFits t) :
    (∀ u ∈ (runProcessEntry debugOn env t).visited.map ProcState.table, During t u) ∧
      CallDoes env t (runProcessEntry debugOn env t).value
        (((runProcessEntry debugOn env t).visited.map ProcState.table).getLastD t) := by
  have hspec := (Program.wp_value_iff _).mp (processEntry_does debugOn env ⟨t, []⟩ hfits)
  constructor
  · intro u hu
    obtain ⟨v, hv, rfl⟩ := List.mem_map.mp hu
    exact hspec.1 v hv
  · rw [runProcessEntry_last]
    exact hspec.2

/-! ## What holds on the way

Rules for a property of the states that a call passes through, when the values do not
matter. A branch that leaves is over; what follows goes on in the same state. -/

def Visits (I : ProcState → Prop) {α : Type} (x : ProcOut α) (s : ProcState) : Prop :=
  x.wp I (fun _ _ => True) (fun _ _ => True) s

section Visits

variable {α : Type} {I : ProcState → Prop} {s : ProcState} {i : ℤ}

theorem visits_emit {e : Event} {k : Unit → ProcOut α} (h : I (s.emit e))
    (hk : Visits I (k ()) (s.emit e)) : Visits I (emit e >>= k) s :=
  (Program.wp_bind _ _).mpr ((wp_emit e).mpr ⟨h, hk⟩)

theorem visits_setXxx {f : UuidTableEntry → UuidTableEntry} {k : ℤ → ProcOut α}
    (hi : i ≤ s.table.tableNumEntries - 1) (h : I (s.modify i f))
    (hk : Visits I (k 0) (s.modify i f)) : Visits I (setXxx i f >>= k) s :=
  (Program.wp_bind _ _).mpr ((wp_setXxx hi f).mpr ⟨h, hk⟩)

theorem visits_out {c : Prop} [Decidable c] {v : ℤ} {k : Unit → ProcOut α}
    (hk : ¬ c → Visits I (k ()) s) : Visits I (Program.onlyIf c (out v) >>= k) s :=
  (Program.wp_bind _ _).mpr ((Program.wp_onlyIf _ _).mpr ⟨fun _ => (wp_out v).mpr trivial, hk⟩)

theorem visits_giveUp {c : Prop} [Decidable c] {v : ℤ} {k : Unit → ProcOut α}
    (hi : i ≤ s.table.tableNumEntries - 1) (h : I (s.modify i setCouldNotProcess))
    (hk : ¬ c → Visits I (k ()) s) :
    Visits I (Program.onlyIf c (do giveUp i; out v) >>= k) s := by
  refine (Program.wp_bind _ _).mpr ((Program.wp_onlyIf _ _).mpr ⟨fun _ => ?_, hk⟩)
  exact (Program.wp_bind _ _).mpr ((wp_giveUp hi).mpr ⟨h, (wp_out v).mpr trivial⟩)

theorem visits_reload {malloc : Bool} {k : UuidTableEntry → ProcOut α}
    (hi : i ≤ s.table.tableNumEntries - 1) (hk : Visits I (k (s.table.entry i)) s) :
    Visits I (reload i malloc >>= k) s :=
  (Program.wp_bind _ _).mpr ((wp_reload hi malloc).mpr ⟨fun _ => hk, fun _ => trivial⟩)

/-- A call works on the first unsettled entry, if it works on any. -/
theorem visits_processEntry (debugOn : Bool) (env : ProcessEnv) (h : ∀ i,
    FirstUnsettled s.table i → Visits I (processPicked debugOn env i (s.table.entry i)) s) :
    Visits I (processEntry debugOn env) s := by
  exact wp_processEntry debugOn (fun i hi => h i (pickedEntry_firstUnsettled hi))
    (fun _ _ _ => trivial) (fun _ _ => trivial) fun _ _ _ _ _ => trivial

end Visits

end LxcUio.Server
