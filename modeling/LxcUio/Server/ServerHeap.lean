import LxcUio.Foundation.HeapShadow
import LxcUio.Server.Main
import LxcUio.Server.MemoryComplete

/-!
# The blocks of the server

The functions of the server with the blocks that they allocate, free and access: the array of
`uuid_table`, the copies of `table_entry_at_index_copy`, the buffers of `get_uuid_layout`, the
record of `new_memory`, and the arrays from which `print_error` prints its backtrace. A function
does the steps of its model without a heap and, between them, those on the heap; `uuidTable` is
what the global points to.

In `process_entry` the variable `ptr` holds one copy at a time. `out` frees it; the scan and
the first reload overwrite it. No array of `print_error` is ever freed.
-/

namespace LxcUio.Server.Heap

open LxcUio.Foundation HeapProgram

/-! ## The functions -/

/-- `print_error`: the array that `backtrace_symbols` returns to `bt`, which gets its memory. -/
def printError : HeapProgram Unit := do
  let strings ← alloc
  access strings

def printErrorIf (c : Prop) [Decidable c] : HeapProgram Unit :=
  if c then printError else pure ()

/-- A branch that prints an error and leaves. -/
def fail {ρ α : Type} (r : ρ) : HeapProc ProcState ρ α := do
  HeapProc.onHeap printError
  HeapProc.exit r

/-- `get_uuid_layout`; the buffer of a failed ioctl is not freed. Of the errors only a positive
value is reported. -/
def getUuidLayout (c : LayoutCall) : HeapProgram (Option (ModuleLayout × ℕ)) :=
  if c.malloc = true then do
    let buff ← alloc
    access buff
    printErrorIf (0 < c.ret)
    pure ((Server.getUuidLayout c).map fun layout => (layout, buff))
  else pure none

/-- `send_packet`. -/
def sendPacket (bytesWritten : ℤ) : HeapProgram ℤ := do
  printErrorIf (Server.sendPacket bytesWritten < 0)
  pure (Server.sendPacket bytesWritten)

section Functions

variable (uuidTable : Option ℕ)

def addRegion (vmfd i : ℤ) (mmap : Option UInt64) (size : UInt32)
    (fill : UInt64 → UuidTableEntry → UuidTableEntry)
    (region : VmMemory → KvmUserspaceMemoryRegion) (ret : ℤ) : HeapProc ProcState ℤ Unit :=
  match mmap with
  | none => fail (-1)
  | some mem => do
      HeapProc.plain (emit (.mmap mem size))
      HeapProc.onHeap (deref uuidTable)
      HeapProc.plain (modifyEntry i (fill mem))
      let s ← HeapProc.plain Program.read
      HeapProc.plain (emit (.setUserMemoryRegion vmfd (region (s.table.entry i).memory) ret))
      HeapProc.onlyIf (ret < 0) (fail ret)
      HeapProc.plain (modifyEntry i countRegion)

/-- `initialize_memory_uuid` from the layout of the core area on. -/
def coreRegion (env : MemoryEnv) (vmfd i : ℤ) : HeapProc ProcState ℤ Unit := do
  let r ← HeapProc.onHeap (getUuidLayout env.layoutCore)
  match r with
  | none => fail env.setInit
  | some (coreLayout, buff) => do
      HeapProc.onHeap (access buff)
      addRegion uuidTable vmfd i env.mmapCore coreLayout.size (setRegionCore coreLayout)
        VmMemory.regionCore env.setCore

/-- The part before, from the layout of the init area on. -/
def initRegion (env : MemoryEnv) (vmfd i : ℤ) : HeapProc ProcState ℤ Unit := do
  let r ← HeapProc.onHeap (getUuidLayout env.layoutInit)
  match r with
  | none => fail env.setIDT
  | some (initLayout, buff) => do
      HeapProc.onHeap (access buff)
      addRegion uuidTable vmfd i env.mmapInit initLayout.size (setRegionInit initLayout)
        VmMemory.regionInit env.setInit
      coreRegion uuidTable env vmfd i

def initializeEntry (env : MemoryEnv) (vmfd i : ℤ) : HeapProc ProcState ℤ Unit := do
  HeapProc.onHeap (deref uuidTable)
  let s ← HeapProc.plain Program.read
  let numRegions := (s.table.entry i).memory.numRegions
  HeapProc.onlyIf (numRegions < 0) (fail (-1))
  HeapProc.onlyIf (numRegions ≠ 0) (fail (-1))
  addRegion uuidTable vmfd i env.mmapIDT env.pageSize (setRegionIDT env.pageSize)
    VmMemory.regionIDT env.setIDT
  initRegion uuidTable env vmfd i

def scanUuid (debugOn : Bool) (env : MemoryEnv) (uuid : Uuid) (vmfd : ℤ) :
    List ℤ → Bool → HeapProc ProcState ℤ Bool
  | [], found => pure found
  | i :: rest, found => do
      HeapProc.onHeap (deref uuidTable)
      let s ← HeapProc.plain Program.read
      if (s.table.entry i).uuid = uuid then do
        HeapProc.onlyIf (debugOn = true ∧ found = true) (fail (-1))
        initializeEntry uuidTable env vmfd i
        if debugOn = true then scanUuid debugOn env uuid vmfd rest true else pure true
      else scanUuid debugOn env uuid vmfd rest found

def initializeMemoryUuid (debugOn : Bool) (env : MemoryEnv) (uuid : Uuid) (vmfd : ℤ) :
    HeapProc ProcState ℤ ℤ := do
  let s ← HeapProc.plain Program.read
  let found ← scanUuid uuidTable debugOn env uuid vmfd
    (entryIndices s.table.tableNumEntries) false
  if found = true then pure 0
  else do
    HeapProc.onHeap printError
    pure (-1)

abbrev HeapOut (α : Type) := HeapProc ProcState ProcessResult α

/-- `table_entry_at_index_copy`: the entry, and the block of the copy. -/
def tableEntryAtIndexCopy (t : UuidTable) (index : ℤ) (malloc : Bool) :
    HeapProgram (Option (UuidTableEntry × ℕ)) :=
  if index ≥ t.tableNumEntries then pure none
  else if malloc = true then do
    let p ← alloc
    deref uuidTable
    access p
    pure (some (t.entry index, p))
  else do
    printError
    pure none

def setXxx (i : ℤ) (f : UuidTableEntry → UuidTableEntry) : HeapOut ℤ := do
  let s ← HeapProc.plain Program.read
  if i ≤ s.table.tableNumEntries - 1 then do
    HeapProc.onHeap (deref uuidTable)
    HeapProc.plain (modifyEntry i f)
    pure 0
  else do
    HeapProc.onHeap printError
    pure (-1)

def giveUp (i : ℤ) : HeapOut Unit := do
  let _ ← setXxx uuidTable i setCouldNotProcess
  pure ()

/-- When it fails, `ptr` is NULL and nothing is freed at `out`. -/
def reload (i : ℤ) (malloc : Bool) : HeapOut (UuidTableEntry × ℕ) := do
  let s ← HeapProc.plain Program.read
  let r ← HeapProc.onHeap (tableEntryAtIndexCopy uuidTable s.table i malloc)
  match r with
  | none => fail (.returned (-1))
  | some copy => pure copy

/-- `goto out` with this `ret_val`. -/
def out {α : Type} (ptr : ℕ) (retVal : ℤ) : HeapOut α := do
  HeapProc.onHeap (free ptr)
  HeapProc.exit (.returned retVal)

/-- The same behind `print_error`. -/
def failOut {α : Type} (ptr : ℕ) (retVal : ℤ) : HeapOut α := do
  HeapProc.onHeap printError
  out ptr retVal

def runVcpu (i vcpufd : ℤ) (mmapRun : RunMapping) (ptr : ℕ) :
    List VcpuExit → HeapOut ProcessResult
  | [] => HeapProc.exit .running
  | x :: rest => do
      HeapProc.plain (emit (.kvmRun vcpufd x.ret))
      HeapProc.onlyIf (x.ret < 0) (failOut ptr x.ret)
      HeapProc.onlyIf (mmapRun = .mapFailed) (HeapProc.exit .crashed)
      match x.reason with
      | .hlt => do
          let errno ← setXxx uuidTable i setProcessed
          HeapProc.onHeap (printErrorIf (errno < 0))
          HeapProc.onHeap (free ptr)
          if errno < 0 then pure (.returned (-1)) else pure (.returned 1)
      | .io direction size port count data => do
          HeapProc.onHeap (printErrorIf (¬ ioHandled direction size port count = true))
          HeapProc.onlyIf (ioHandled direction size port count = true)
            (HeapProc.plain (emit (.putchar data)))
          runVcpu i vcpufd mmapRun ptr rest
      | .failEntry => do
          HeapProc.onHeap printError
          HeapProc.onHeap (free ptr)
          pure (.returned (-1))
      | .internalError => do
          HeapProc.onHeap printError
          HeapProc.onHeap (free ptr)
          pure (.returned (-1))
      | .other _ => runVcpu i vcpufd mmapRun ptr rest

def startVcpu (env : ProcessEnv) (i vmfd : ℤ) (ptr : ℕ) : HeapOut ProcessResult := do
  HeapProc.plain (emit (.createVcpu vmfd env.createVcpu))
  HeapProc.onlyIf (env.createVcpu < 0) (do giveUp uuidTable i; failOut ptr (-1))
  let errno ← setXxx uuidTable i (setVcpufd env.createVcpu)
  HeapProc.onlyIf (errno < 0) (do giveUp uuidTable i; failOut ptr (-1))
  HeapProc.onlyIf (env.vcpuMmapSize < 0) (do giveUp uuidTable i; failOut ptr (-1))
  HeapProc.onlyIf (env.vcpuMmapSize < env.sizeofKvmRun) (failOut ptr (-1))
  HeapProc.onlyIf (env.mmapRun = .null) (failOut ptr (-1))
  HeapProc.onlyIf (env.getSregs < 0) (failOut ptr env.getSregs)
  HeapProc.plain (emit (.setSregs env.createVcpu 0 0 env.setSregs))
  HeapProc.onlyIf (env.setSregs < 0) (failOut ptr env.setSregs)
  HeapProc.onHeap (free ptr)
  let copy ← reload uuidTable i env.mallocRegs
  HeapProc.plain (emit (.setRegs env.createVcpu initialRegs env.setRegs))
  HeapProc.onlyIf (env.setRegs < 0) (failOut copy.2 env.setRegs)
  runVcpu uuidTable i env.createVcpu env.mmapRun copy.2 env.exits

/-- The first reload overwrites `ptr`, the second one frees it before. -/
def processPicked (debugOn : Bool) (env : ProcessEnv) (i : ℤ) (copy : UuidTableEntry × ℕ) :
    HeapOut ProcessResult := do
  HeapProc.plain (emit (.createVm env.createVm))
  HeapProc.onlyIf (env.createVm < 0) (do giveUp uuidTable i; failOut copy.2 (-1))
  let errno ← setXxx uuidTable i (setVmfd env.createVm)
  HeapProc.onlyIf (errno < 0) (do giveUp uuidTable i; failOut copy.2 (-1))
  HeapProc.onHeap (access copy.2)
  let retVal ← HeapProc.call
    (initializeMemoryUuid uuidTable debugOn env.memory copy.1.uuid env.createVm)
  HeapProc.onlyIf (retVal < 0) (do
    HeapProc.onHeap printError
    giveUp uuidTable i
    out copy.2 retVal)
  let copy ← reload uuidTable i env.mallocPacket
  HeapProc.onHeap (access copy.2)
  HeapProc.plain (emit (.writePacket ⟨copy.1.uuid, copy.1.memory⟩ env.bytesWritten))
  let retVal ← HeapProc.onHeap (sendPacket env.bytesWritten)
  HeapProc.onlyIf (retVal < 0) (do giveUp uuidTable i; failOut copy.2 retVal)
  HeapProc.onHeap (free copy.2)
  let copy ← reload uuidTable i env.mallocReload
  startVcpu uuidTable env i env.createVm copy.2

/-- The `for` loop; `ptr` is the copy of the round before. -/
def scanEntries (debugOn : Bool) (env : ProcessEnv) :
    List ℤ → Option ℕ → HeapOut ProcessResult
  | [], ptr => do
      HeapProc.onHeap (freePtr ptr)
      pure (.returned 0)
  | i :: rest, _ => do
      let s ← HeapProc.plain Program.read
      let r ← HeapProc.onHeap (tableEntryAtIndexCopy uuidTable s.table i (env.mallocScan i))
      match r with
      | none => fail (.bug .returnedNull)
      | some copy => do
          HeapProc.onHeap (access copy.2)
          if copy.1.processed = true ∧ copy.1.couldNotProcess = true then do
            HeapProc.onHeap printError
            HeapProc.onHeap (free copy.2)
            HeapProc.exit (.bug .contradiction)
          else if copy.1.processed = false ∧ copy.1.couldNotProcess = false then
            processPicked uuidTable debugOn env i copy
          else scanEntries debugOn env rest (some copy.2)

def processEntry (debugOn : Bool) (env : ProcessEnv) : HeapOut ProcessResult := do
  let s ← HeapProc.plain Program.read
  let numEntries := getTableNumEntries s.table
  if numEntries = 0 then pure (.returned 0)
  else if numEntries < 0 then fail (.bug .negativeEntries)
  else scanEntries uuidTable debugOn env (entryIndices numEntries) none

end Functions

/-! ## What a call loses

An error that is printed costs one block, wherever it is printed. -/

instance (env : MemoryEnv) : DecidablePred env.Accepts
  | .idt => inferInstanceAs (Decidable (_ ∧ _))
  | .init => inferInstanceAs (Decidable (_ ∧ _))
  | .core => inferInstanceAs (Decidable (_ ∧ _))

/-- The region of the init area is set up, once that of the IDT is. -/
def InitAdded (env : MemoryEnv) : Prop := env.layoutInit.delivers = true ∧ env.Accepts .init

/-- The region of the core area is set up, once the two others are. -/
def CoreAdded (env : MemoryEnv) : Prop := env.layoutCore.delivers = true ∧ env.Accepts .core

instance (env : MemoryEnv) : Decidable (InitAdded env) := inferInstanceAs (Decidable (_ ∧ _))

instance (env : MemoryEnv) : Decidable (CoreAdded env) := inferInstanceAs (Decidable (_ ∧ _))

/-- The buffer, and the error about a positive value. -/
def layoutLost (c : LayoutCall) : ℕ :=
  if c.malloc = true then 1 + (if 0 < c.ret then 1 else 0) else 0

def coreLost (env : MemoryEnv) : ℕ :=
  layoutLost env.layoutCore + if CoreAdded env then 0 else 1

def initLost (env : MemoryEnv) : ℕ :=
  layoutLost env.layoutInit + if InitAdded env then coreLost env else 1

/-- Entry `i` is set up without an early exit. -/
def EntryAdded (env : MemoryEnv) (t : UuidTable) (i : ℤ) : Prop :=
  (t.entry i).memory.numRegions = 0 ∧ env.Accepts .idt ∧ InitAdded env ∧ CoreAdded env

instance (env : MemoryEnv) (t : UuidTable) (i : ℤ) : Decidable (EntryAdded env t i) :=
  inferInstanceAs (Decidable (_ ∧ _))

/-- What the set-up of entry `i` costs. -/
def entryLost (env : MemoryEnv) (t : UuidTable) (i : ℤ) : ℕ :=
  if (t.entry i).memory.numRegions = 0 ∧ env.Accepts .idt then initLost env else 1

/-- One of the entries has the uuid. -/
def HasUuid (uuid : Uuid) (t : UuidTable) (is : List ℤ) : Prop :=
  ∃ j ∈ is, (t.entry j).uuid = uuid

instance (uuid : Uuid) (t : UuidTable) (is : List ℤ) : Decidable (HasUuid uuid t is) :=
  inferInstanceAs (Decidable (∃ j ∈ is, _))

/-- The first entry with the uuid is set up. With `debug_on` a second one is an error, and that
there is none is an error in both builds. -/
def setUpLost (debugOn : Bool) (env : MemoryEnv) (uuid : Uuid) (t : UuidTable) : List ℤ → ℕ
  | [] => 1
  | i :: rest =>
      if (t.entry i).uuid = uuid then
        entryLost env t i +
          if debugOn = true ∧ EntryAdded env t i ∧ HasUuid uuid t rest then 1 else 0
      else setUpLost debugOn env uuid t rest

/-- The state in which `initialize_memory_uuid` is called for entry `i`. -/
def beforeSetUp (env : ProcessEnv) (i : ℤ) (s : ProcState) : ProcState :=
  (s.emit (.createVm env.createVm)).modify i (setVmfd env.createVm)

/-- The errors while the guest runs: those that end the call, and each output but the handled
one. -/
def guestLost (mmapRun : RunMapping) : List VcpuExit → ℕ
  | [] => 0
  | x :: rest =>
      if x.ret < 0 then 1
      else if mmapRun = .mapFailed then 0
      else
        match x.reason with
        | .hlt => 0
        | .io direction size port count _ =>
            (if ¬ ioHandled direction size port count = true then 1 else 0) +
              guestLost mmapRun rest
        | .failEntry => 1
        | .internalError => 1
        | .other _ => guestLost mmapRun rest

/-- The vcpu is not created, or not prepared. -/
def VcpuFails (env : ProcessEnv) : Prop :=
  env.createVcpu < 0 ∨ env.vcpuMmapSize < 0 ∨ env.vcpuMmapSize < env.sizeofKvmRun ∨
    env.mmapRun = .null ∨ env.getSregs < 0 ∨ env.setSregs < 0

instance (env : ProcessEnv) : Decidable (VcpuFails env) := inferInstanceAs (Decidable (_ ∨ _))

/-- A copy that cannot be made is reported twice. -/
def vcpuLost (env : ProcessEnv) : ℕ :=
  if VcpuFails env then 1
  else if env.mallocRegs = false then 2
  else if env.setRegs < 0 then 1
  else guestLost env.mmapRun env.exits

/-- The packet is not sent, or the copy before or behind it not made. -/
def PacketFails (env : ProcessEnv) : Prop :=
  env.mallocPacket = false ∨ Server.sendPacket env.bytesWritten < 0 ∨ env.mallocReload = false

instance (env : ProcessEnv) : Decidable (PacketFails env) := inferInstanceAs (Decidable (_ ∨ _))

def reloadedLost (env : ProcessEnv) : ℕ := if PacketFails env then 2 else vcpuLost env

/-- What the set-up costs, and the error about it or the copy of the scan, which the reload
behind a set-up without an error overwrites. -/
def pickedLost (debugOn : Bool) (env : ProcessEnv) (i : ℤ) (s : ProcState) : ℕ :=
  if env.createVm < 0 then 1
  else
    let uuid := (s.table.entry i).uuid
    let u := beforeSetUp env i s
    setUpLost debugOn env.memory uuid u.table (entryIndices u.table.tableNumEntries) + 1 +
      if (Server.initializeMemoryUuid debugOn env.memory uuid env.createVm u).value < 0 then 0
      else reloadedLost env

/-- `malloc` of a copy fails. -/
def copyLost (t : UuidTable) (i : ℤ) : ℕ := if i ≥ t.tableNumEntries then 0 else 1

/-- Each entry that the scan passes over costs its copy, but the last one of the table. -/
def scanLost (debugOn : Bool) (env : ProcessEnv) (s : ProcState) : List ℤ → ℕ
  | [] => 0
  | i :: rest =>
      match Server.tableEntryAtIndexCopy s.table i (env.mallocScan i) with
      | none => copyLost s.table i + 1
      | some ptr =>
          if ptr.processed = true ∧ ptr.couldNotProcess = true then 1
          else if ptr.processed = false ∧ ptr.couldNotProcess = false then
            pickedLost debugOn env i s
          else (if rest = [] then 0 else 1) + scanLost debugOn env s rest

/-- The blocks that a call of `process_entry` loses. -/
def processLost (debugOn : Bool) (env : ProcessEnv) (t : UuidTable) : ℕ :=
  if getTableNumEntries t < 0 then 1
  else scanLost debugOn env ⟨t, []⟩ (entryIndices (getTableNumEntries t))

/-- The copy of a call that does not come back. -/
def held : ProcessResult → ℕ
  | .returned _ => 0
  | .bug _ => 0
  | .running => 1
  | .crashed => 1

/-! ## The functions beside their models -/

section Shadows

variable {uuidTable : Option ℕ} {pre : List ℕ} {s : ProcState}

theorem printError_safe : Safe printError pre fun _ blocks => Lost 1 pre blocks := by
  refine .bind (m := fun b blocks => blocks = b :: pre) (.alloc fun b _ => rfl) ?_
  rintro b _ rfl
  exact .access List.mem_cons_self Lost.nothing.cons

theorem printErrorIf_safe (c : Prop) [Decidable c] :
    Safe (printErrorIf c) pre fun _ blocks => Lost (if c then 1 else 0) pre blocks := by
  unfold printErrorIf
  by_cases hc : c
  · rw [if_pos hc, if_pos hc]
    exact printError_safe
  · rw [if_neg hc, if_neg hc]
    exact .pure .nothing

theorem fail_shadows {ρ α β : Type} {r : ρ} {Q : α → β → ProcState → List ℕ → Prop}
    {E : ρ → List ℕ → Prop} (h : ∀ blocks, Lost 1 pre blocks → E r blocks) :
    HeapProc.Shadows (fail r) (Program.exit r) s pre Q E :=
  .onHeap printError_safe fun _ blocks hlost => .exit (h blocks hlost)

/-- A failed call leaves the buffer behind, as a successful one does. -/
theorem getUuidLayout_safe (c : LayoutCall) :
    Safe (getUuidLayout c) pre fun r blocks => Lost (layoutLost c) pre blocks ∧
      r.map Prod.fst = Server.getUuidLayout c ∧ ∀ x ∈ r, x.2 ∈ blocks := by
  unfold getUuidLayout layoutLost
  by_cases hmalloc : c.malloc = true
  · rw [if_pos hmalloc, if_pos hmalloc]
    refine .bind (m := fun buff blocks => blocks = buff :: pre) (.alloc fun buff _ => rfl) ?_
    rintro buff _ rfl
    refine .bind (m := fun _ blocks => blocks = buff :: pre) (.access List.mem_cons_self rfl) ?_
    rintro - _ rfl
    refine .bind (printErrorIf_safe (0 < c.ret)) fun _ blocks hlost => .pure ⟨?_, ?_, ?_⟩
    · exact Lost.nothing.cons.trans hlost
    · cases Server.getUuidLayout c <;> rfl
    · intro x hx
      obtain ⟨layout, -, rfl⟩ := Option.map_eq_some_iff.mp hx
      exact hlost.mem List.mem_cons_self
  · rw [if_neg hmalloc, if_neg hmalloc]
    refine .pure ⟨Lost.nothing, ?_, ?_⟩
    · rw [Server.getUuidLayout, if_neg hmalloc]
      rfl
    · rintro x ⟨⟩

theorem isSome_of_layout {c : LayoutCall} {r : Option (ModuleLayout × ℕ)}
    (h : r.map Prod.fst = Server.getUuidLayout c) : r.isSome = c.delivers := by
  have hsome : (r.map Prod.fst).isSome = (Server.getUuidLayout c).isSome := by rw [h]
  rw [Option.isSome_map, getUuidLayout_eq] at hsome
  rw [hsome]
  cases c.delivers <;> rfl

theorem addRegion_shadows (hp : PointsInto uuidTable pre) (vmfd i : ℤ) (mmap : Option UInt64)
    (size : UInt32) (fill : UInt64 → UuidTableEntry → UuidTableEntry)
    (region : VmMemory → KvmUserspaceMemoryRegion) (ret : ℤ) :
    HeapProc.Shadows (addRegion uuidTable vmfd i mmap size fill region ret)
      (Server.addRegion vmfd i mmap size fill region ret) s pre
      (fun _ _ _ blocks => pre = blocks ∧ mmap.isSome = true ∧ 0 ≤ ret)
      (fun _ blocks => Lost 1 pre blocks ∧ ¬ (mmap.isSome = true ∧ 0 ≤ ret)) := by
  cases mmap with
  | none => exact fail_shadows fun _ hlost => ⟨hlost, fun h => Bool.false_ne_true h.1⟩
  | some mem =>
      refine .step (.deref hp (.step (.read (.step (.guard (fun hneg => ?_) fun hpos => ?_)))))
      · exact fail_shadows fun _ hlost => ⟨hlost, fun h => absurd hneg (not_lt.mpr h.2)⟩
      · exact .plain ((Program.wp_step _).mpr ⟨trivial, rfl, rfl, not_lt.mp hpos⟩)

theorem coreRegion_shadows (hp : PointsInto uuidTable pre) (env : MemoryEnv) (vmfd i : ℤ) :
    HeapProc.Shadows (coreRegion uuidTable env vmfd i) (Server.coreRegion env vmfd i) s pre
      (fun _ _ _ blocks => Lost (coreLost env) pre blocks ∧ CoreAdded env)
      (fun _ blocks => Lost (coreLost env) pre blocks ∧ ¬ CoreAdded env) := by
  refine .onHeap (getUuidLayout_safe env.layoutCore) ?_
  rintro r blocks ⟨hlost, hlayout, hbuff⟩
  have hdelivers := isSome_of_layout hlayout
  unfold Server.coreRegion coreLost
  rw [← hlayout]
  cases r with
  | none =>
      have hnot : ¬ CoreAdded env := fun h => Bool.false_ne_true (hdelivers.trans h.1)
      rw [if_neg hnot]
      exact fail_shadows fun _ hone => ⟨hlost.trans hone, hnot⟩
  | some x =>
      refine .access (hbuff x rfl) ((addRegion_shadows (hlost.pointsInto hp) _ _ _ _ _ _ _).weaken
        ?_ ?_)
      · rintro - - - _ ⟨rfl, haccepted⟩
        have hadded : CoreAdded env := ⟨hdelivers.symm, haccepted⟩
        rw [if_pos hadded]
        exact ⟨hlost, hadded⟩
      · rintro - blocks' ⟨hone, hrefused⟩
        have hnot : ¬ CoreAdded env := fun h => hrefused h.2
        rw [if_neg hnot]
        exact ⟨hlost.trans hone, hnot⟩

theorem initRegion_shadows (hp : PointsInto uuidTable pre) (env : MemoryEnv) (vmfd i : ℤ) :
    HeapProc.Shadows (initRegion uuidTable env vmfd i) (Server.initRegion env vmfd i) s pre
      (fun _ _ _ blocks => Lost (initLost env) pre blocks ∧ InitAdded env ∧ CoreAdded env)
      (fun _ blocks => Lost (initLost env) pre blocks ∧ ¬ (InitAdded env ∧ CoreAdded env)) := by
  refine .onHeap (getUuidLayout_safe env.layoutInit) ?_
  rintro r blocks ⟨hlost, hlayout, hbuff⟩
  have hdelivers := isSome_of_layout hlayout
  unfold Server.initRegion initLost
  rw [← hlayout]
  cases r with
  | none =>
      have hnot : ¬ InitAdded env := fun h => Bool.false_ne_true (hdelivers.trans h.1)
      rw [if_neg hnot]
      exact fail_shadows fun _ hone => ⟨hlost.trans hone, fun h => hnot h.1⟩
  | some x =>
      refine .access (hbuff x rfl)
        (.bind ((addRegion_shadows (hlost.pointsInto hp) _ _ _ _ _ _ _).weaken
          (fun _ _ _ _ hend => hend) ?_) ?_)
      · rintro - blocks' ⟨hone, hrefused⟩
        have hnot : ¬ InitAdded env := fun h => hrefused h.2
        rw [if_neg hnot]
        exact ⟨hlost.trans hone, fun h => hnot h.1⟩
      · rintro - - t _ ⟨rfl, haccepted⟩
        have hadded : InitAdded env := ⟨hdelivers.symm, haccepted⟩
        rw [if_pos hadded]
        refine (coreRegion_shadows (hlost.pointsInto hp) env vmfd i).weaken ?_ ?_
        · exact fun _ _ _ _ hcore => ⟨hlost.trans hcore.1, hadded, hcore.2⟩
        · exact fun _ _ hcore => ⟨hlost.trans hcore.1, fun h => hcore.2 h.2⟩

theorem initializeEntry_shadows (hp : PointsInto uuidTable pre) (env : MemoryEnv) (vmfd i : ℤ) :
    HeapProc.Shadows (initializeEntry uuidTable env vmfd i) (Server.initializeEntry env vmfd i) s
      pre (fun _ _ _ blocks => Lost (entryLost env s.table i) pre blocks ∧
        EntryAdded env s.table i)
      (fun _ blocks => Lost (entryLost env s.table i) pre blocks ∧
        ¬ EntryAdded env s.table i) := by
  rw [initializeEntry_eq]
  refine .deref hp (.read ?_)
  unfold entryLost
  by_cases hzero : (s.table.entry i).memory.numRegions = 0
  · have hnotneg : ¬ (s.table.entry i).memory.numRegions < 0 := by
      rw [hzero]
      exact lt_irrefl 0
    refine .guard (fun hneg => absurd hneg hnotneg) fun _ => ?_
    refine .guard (fun hne => absurd hzero hne) fun _ => ?_
    refine .bind ((addRegion_shadows hp _ _ _ _ _ _ _).weaken (fun _ _ _ _ hend => hend) ?_) ?_
    · rintro - blocks ⟨hone, hrefused⟩
      have hnot : ¬ env.Accepts .idt := hrefused
      rw [if_neg fun h => hnot h.2]
      exact ⟨hone, fun h => hnot h.2.1⟩
    · rintro - - t _ ⟨rfl, haccepted⟩
      have hidt : env.Accepts .idt := haccepted
      rw [if_pos ⟨hzero, hidt⟩]
      refine (initRegion_shadows hp env vmfd i).weaken ?_ ?_
      · exact fun _ _ _ _ hinit => ⟨hinit.1, hzero, hidt, hinit.2⟩
      · exact fun _ _ hinit => ⟨hinit.1, fun h => hinit.2 h.2.2⟩
  · rw [if_neg fun h => hzero h.1]
    refine .guard (fun _ => fail_shadows fun _ hone => ⟨hone, fun h => hzero h.1⟩) fun _ => ?_
    exact .guard (fun _ => fail_shadows fun _ hone => ⟨hone, fun h => hzero h.1⟩)
      fun hnot => absurd hzero hnot

/-- Behind the entry that was set up, the scan of the build with `debug_on` only looks for
another one. -/
theorem scanAgain_shadows (env : MemoryEnv) (uuid : Uuid) (vmfd : ℤ)
    (hp : PointsInto uuidTable pre) : ∀ is : List ℤ,
      HeapProc.Shadows (scanUuid uuidTable true env uuid vmfd is true)
        (Server.scanUuid true env uuid vmfd is true) s pre
        (fun r r' _ blocks => r = true ∧ r' = true ∧ pre = blocks ∧ ¬ HasUuid uuid s.table is)
        (fun _ blocks => Lost 1 pre blocks ∧ HasUuid uuid s.table is) := by
  intro is
  induction is with
  | nil =>
      refine .pure ⟨rfl, rfl, rfl, ?_⟩
      rintro ⟨j, hj, -⟩
      cases hj
  | cons i is ih =>
      refine .deref hp (.read (.ite (fun huuid => ?_) fun huuid => ih.weaken ?_ ?_))
      · have hfound : HasUuid uuid s.table (i :: is) := ⟨i, List.mem_cons_self, huuid⟩
        exact .guard (fun _ => fail_shadows fun _ hone => ⟨hone, hfound⟩)
          fun hnot => absurd ⟨rfl, rfl⟩ hnot
      · rintro r r' _ blocks ⟨hr, hr', hpre, hnone⟩
        refine ⟨hr, hr', hpre, ?_⟩
        rintro ⟨j, hj, hjuuid⟩
        rcases List.mem_cons.mp hj with rfl | hj
        · exact huuid hjuuid
        · exact hnone ⟨j, hj, hjuuid⟩
      · rintro _ blocks ⟨hone, j, hj, hjuuid⟩
        exact ⟨hone, j, List.mem_cons_of_mem i hj, hjuuid⟩

theorem scanUuid_shadows (debugOn : Bool) (env : MemoryEnv) (uuid : Uuid) (vmfd : ℤ)
    (hp : PointsInto uuidTable pre) : ∀ is : List ℤ,
      HeapProc.Shadows (scanUuid uuidTable debugOn env uuid vmfd is false)
        (Server.scanUuid debugOn env uuid vmfd is false) s pre
        (fun r r' _ blocks => r = r' ∧
          (r = true → Lost (setUpLost debugOn env uuid s.table is) pre blocks) ∧
          (r = false → pre = blocks ∧ setUpLost debugOn env uuid s.table is = 1))
        (fun _ => Lost (setUpLost debugOn env uuid s.table is) pre) := by
  intro is
  induction is with
  | nil => exact .pure ⟨rfl, fun h => absurd h Bool.false_ne_true, fun _ => ⟨rfl, rfl⟩⟩
  | cons i is ih =>
      unfold setUpLost
      refine .deref hp (.read (.ite (fun huuid => ?_) fun huuid => ?_))
      · rw [if_pos huuid]
        refine .guard (fun hc => absurd hc.2 Bool.false_ne_true) fun _ => ?_
        have hentry := (initializeEntry_shadows (s := s) hp env vmfd i).and_wp
          (initializeEntry_only env vmfd i s)
        refine .bind (hentry.weaken (fun _ _ _ _ h => h) ?_) ?_
        · rintro _ blocks ⟨hlost, hnot⟩
          rw [if_neg fun h => hnot h.2.1]
          exact hlost
        rintro - - t blocks ⟨⟨hlost, hadded⟩, honly⟩
        have hsame : HasUuid uuid t.table is ↔ HasUuid uuid s.table is := by
          unfold HasUuid
          simp only [honly.uuid]
        cases debugOn with
        | false =>
            have hlast : ¬ (false = true ∧ EntryAdded env s.table i ∧ HasUuid uuid s.table is) :=
              fun h => Bool.false_ne_true h.1
            rw [if_neg hlast]
            exact .pure ⟨rfl, fun _ => hlost, fun h => absurd h.symm Bool.false_ne_true⟩
        | true =>
            refine (scanAgain_shadows env uuid vmfd (hlost.pointsInto hp) is).weaken ?_ ?_
            · rintro r r' _ _ ⟨rfl, rfl, rfl, hnone⟩
              have hlast : ¬ (true = true ∧ EntryAdded env s.table i ∧
                  HasUuid uuid s.table is) := fun h => hnone (hsame.mpr h.2.2)
              rw [if_neg hlast]
              exact ⟨rfl, fun _ => hlost, fun h => absurd h.symm Bool.false_ne_true⟩
            · rintro _ blocks' ⟨hone, hagain⟩
              rw [if_pos ⟨rfl, hadded, hsame.mp hagain⟩]
              exact hlost.trans hone
      · rw [if_neg huuid]
        exact ih

theorem initializeMemoryUuid_shadows (hp : PointsInto uuidTable pre) (debugOn : Bool)
    (env : MemoryEnv) (uuid : Uuid) (vmfd : ℤ) :
    HeapProc.Shadows (initializeMemoryUuid uuidTable debugOn env uuid vmfd)
      (Server.initializeMemoryUuid debugOn env uuid vmfd) s pre
      (fun r r' _ blocks => r = r' ∧ Lost
        (setUpLost debugOn env uuid s.table (entryIndices s.table.tableNumEntries)) pre blocks)
      (fun _ => Lost
        (setUpLost debugOn env uuid s.table (entryIndices s.table.tableNumEntries)) pre) := by
  refine .read (.bind (scanUuid_shadows debugOn env uuid vmfd hp _) ?_)
  rintro found _ t blocks ⟨rfl, hfound, hnotFound⟩
  cases found with
  | true => exact .pure ⟨rfl, hfound rfl⟩
  | false =>
      obtain ⟨rfl, hone⟩ := hnotFound rfl
      rw [hone]
      exact .onHeap printError_safe fun _ _ hlost => .pure ⟨rfl, hlost⟩

/-! ### The statements of `process_entry` -/

/-- How a call ends that has lost `n` blocks: the copy it held is freed, unless it does not come
back. -/
def Comes (n : ℕ) (pre : List ℕ) (r : ProcessResult) (blocks : List ℕ) : Prop :=
  Lost (n + held r) pre blocks

/-- The same, for an end that both programs come to with one value. -/
def Back (n : ℕ) (pre : List ℕ) (r r' : ProcessResult) (_ : ProcState) (blocks : List ℕ) : Prop :=
  r = r' ∧ Comes n pre r blocks

theorem Comes.after {n m : ℕ} {mid blocks : List ℕ} {r : ProcessResult} (hlost : Lost n pre mid)
    (h : Comes m mid r blocks) : Comes (n + m) pre r blocks := by
  unfold Comes
  rw [Nat.add_assoc]
  exact hlost.trans h

/-- What was lost before a part of the body is lost in the whole. -/
theorem shadows_after {n m : ℕ} {mid : List ℕ} (hlost : Lost n pre mid)
    {x : ProcOut ProcessResult} {y : HeapOut ProcessResult}
    (h : HeapProc.Shadows y x s mid (Back m mid) (Comes m mid)) :
    HeapProc.Shadows y x s mid (Back (n + m) pre) (Comes (n + m) pre) :=
  h.weaken (fun _ _ _ _ hback => ⟨hback.1, hback.2.after hlost⟩) fun _ _ hcomes =>
    hcomes.after hlost

/-- The same where the copy is still held. -/
theorem shadows_after_held {n m b : ℕ} {mid : List ℕ} (hlost : Lost n (b :: pre) mid)
    {x : ProcOut ProcessResult} {y : HeapOut ProcessResult}
    (h : ∀ {rest : List ℕ}, Lost n pre rest →
      HeapProc.Shadows y x s (b :: rest) (Back m rest) (Comes m rest)) :
    HeapProc.Shadows y x s mid (Back (n + m) pre) (Comes (n + m) pre) := by
  obtain ⟨rest, hrest, hperm⟩ := hlost.held
  refine ((h hrest).perm hperm).weaken ?_ ?_
  · exact fun _ _ _ _ hback => ⟨hback.1, hback.2.after hrest⟩
  · exact fun _ _ hcomes => hcomes.after hrest

/-- Within the table nothing is printed. -/
theorem setXxx_shadows (hp : PointsInto uuidTable pre) {i : ℤ}
    (hi : i ≤ s.table.tableNumEntries - 1) (f : UuidTableEntry → UuidTableEntry)
    {E : ProcessResult → List ℕ → Prop} :
    HeapProc.Shadows (setXxx uuidTable i f) (Server.setXxx i f) s pre
      (fun r r' t blocks => r = 0 ∧ r' = 0 ∧ s.modify i f = t ∧ pre = blocks) E :=
  .read (.ite (fun _ => .deref hp (.step (.pure ⟨rfl, rfl, rfl, rfl⟩)))
    fun hout => absurd hi hout)

theorem giveUp_shadows (hp : PointsInto uuidTable pre) {i : ℤ}
    (hi : i ≤ s.table.tableNumEntries - 1) {E : ProcessResult → List ℕ → Prop} :
    HeapProc.Shadows (giveUp uuidTable i) (Server.giveUp i) s pre
      (fun _ _ _ blocks => pre = blocks) E := by
  refine .bind (setXxx_shadows hp hi setCouldNotProcess) ?_
  rintro - - t _ ⟨-, -, -, rfl⟩
  exact .pure rfl

section Leaving

variable {α β : Type} {ptr : ℕ} {retVal : ℤ} {Q : α → β → ProcState → List ℕ → Prop}

theorem out_shadows :
    HeapProc.Shadows (out ptr retVal) (Server.out retVal) s (ptr :: pre) Q (Comes 0 pre) :=
  .free (.exit .nothing)

theorem failOut_shadows :
    HeapProc.Shadows (failOut ptr retVal) (Server.out retVal) s (ptr :: pre) Q (Comes 1 pre) := by
  refine .onHeap printError_safe ?_
  rintro - blocks hlost
  obtain ⟨rest, hrest, hperm⟩ := hlost.held
  exact (out_shadows.perm hperm).weaken (fun _ _ _ _ h => h) fun _ _ hcomes => hcomes.after hrest

/-- A failing branch that marks the entry first. -/
theorem giveUpFail_shadows (hp : PointsInto uuidTable pre) {i : ℤ}
    (hi : i ≤ s.table.tableNumEntries - 1) :
    HeapProc.Shadows (do giveUp uuidTable i; failOut ptr retVal)
      (do Server.giveUp i; Server.out retVal) s (ptr :: pre) Q (Comes 1 pre) := by
  refine .bind (giveUp_shadows (hp.cons ptr) hi) ?_
  rintro - - t _ rfl
  exact failOut_shadows

end Leaving

theorem copy_safe (hp : PointsInto uuidTable pre) (t : UuidTable) (i : ℤ) (malloc : Bool) :
    Safe (tableEntryAtIndexCopy uuidTable t i malloc) pre fun r blocks =>
      r.map Prod.fst = Server.tableEntryAtIndexCopy t i malloc ∧
        (r = none → Lost (copyLost t i) pre blocks) ∧
        ∀ copy ∈ r, copy.2 :: pre = blocks := by
  unfold tableEntryAtIndexCopy Server.tableEntryAtIndexCopy copyLost
  by_cases hi : i ≥ t.tableNumEntries
  · rw [if_pos hi, if_pos hi, if_pos hi]
    refine .pure ⟨rfl, fun _ => .nothing, ?_⟩
    rintro copy ⟨⟩
  rw [if_neg hi, if_neg hi, if_neg hi]
  cases malloc with
  | true =>
      refine .bind (m := fun p blocks => blocks = p :: pre) (.alloc fun p _ => rfl) ?_
      rintro p _ rfl
      refine .bind (m := fun _ blocks => blocks = p :: pre) (.deref (hp.cons p) rfl) ?_
      rintro - _ rfl
      refine .bind (m := fun _ blocks => blocks = p :: pre) (.access List.mem_cons_self rfl) ?_
      rintro - _ rfl
      refine .pure ⟨rfl, fun h => (by cases h), ?_⟩
      rintro copy ⟨⟩
      rfl
  | false =>
      refine .bind printError_safe fun _ blocks hlost => .pure ⟨rfl, fun _ => hlost, ?_⟩
      rintro copy ⟨⟩

/-- A reload of an entry that is in the table delivers it, unless `malloc` fails. -/
theorem reload_shadows (hp : PointsInto uuidTable pre) {i : ℤ}
    (hi : i ≤ s.table.tableNumEntries - 1) (malloc : Bool) :
    HeapProc.Shadows (reload uuidTable i malloc) (Server.reload i malloc) s pre
      (fun entry copy t blocks => entry = copy.1 ∧ s = t ∧ copy.2 :: pre = blocks ∧
        ¬ malloc = false)
      (fun r blocks => Comes 2 pre r blocks ∧ malloc = false) := by
  refine .read (.onHeap (copy_safe hp s.table i malloc) ?_)
  rintro r blocks ⟨hentry, hnone, hsome⟩
  have hin : ¬ i ≥ s.table.tableNumEntries := by omega
  rw [← hentry]
  cases r with
  | none =>
      have hlost := hnone rfl
      rw [copyLost, if_neg hin] at hlost
      have hmalloc : malloc = false := (copy_eq_none.mp hentry.symm).resolve_left hin
      exact fail_shadows fun _ hone => ⟨hlost.trans hone, hmalloc⟩
  | some copy =>
      refine .pure ⟨rfl, rfl, hsome copy rfl, ?_⟩
      rw [(copy_inRange hentry.symm).2]
      exact Bool.noConfusion

theorem runVcpu_shadows (i vcpufd : ℤ) (mmapRun : RunMapping)
    (ptr : ℕ) : ∀ (exits : List VcpuExit) {pre : List ℕ} (s : ProcState),
    PointsInto uuidTable pre → i ≤ s.table.tableNumEntries - 1 →
    HeapProc.Shadows (runVcpu uuidTable i vcpufd mmapRun ptr exits)
      (Server.runVcpu i vcpufd mmapRun exits) s (ptr :: pre)
      (Back (guestLost mmapRun exits) pre) (Comes (guestLost mmapRun exits) pre) := by
  intro exits
  induction exits with
  | nil => exact fun s _ _ => .exit Lost.nothing.cons
  | cons x exits ih =>
      intro pre s hp hi
      unfold guestLost
      by_cases hret : x.ret < 0
      · rw [if_pos hret]
        exact .step (.guard (fun _ => failOut_shadows) fun hnot => absurd hret hnot)
      rw [if_neg hret]
      refine .step (.guard (fun hneg => absurd hneg hret) fun _ => ?_)
      by_cases hmap : mmapRun = .mapFailed
      · rw [if_pos hmap]
        exact .guard (fun _ => .exit Lost.nothing.cons) fun hnot => absurd hmap hnot
      rw [if_neg hmap]
      refine .guard (fun hfailed => absurd hfailed hmap) fun _ => ?_
      cases x.reason with
      | hlt =>
          refine .bind (setXxx_shadows (s := s.emit _) (hp.cons ptr) hi setProcessed) ?_
          rintro _ _ t _ ⟨rfl, rfl, -, rfl⟩
          refine .onHeap (printErrorIf_safe _) ?_
          rintro - blocks hlost
          rw [if_neg (lt_irrefl 0)] at hlost
          refine shadows_after_held (n := 0) (m := 0) hlost fun _ => .free ?_
          exact .ite (fun _ => .pure ⟨rfl, .nothing⟩) fun _ => .pure ⟨rfl, .nothing⟩
      | io direction size port count data =>
          refine .onHeap (printErrorIf_safe _) ?_
          rintro - blocks hlost
          refine shadows_after_held hlost fun {rest} hrest => ?_
          have hp := hrest.pointsInto hp
          refine .bind (P := fun _ _ t blocks => i ≤ t.table.tableNumEntries - 1 ∧
            ptr :: rest = blocks) (.onlyIf (fun _ => ?_) fun _ => ⟨hi, rfl⟩) ?_
          · exact .plain ((Program.wp_step _).mpr ⟨trivial, hi, rfl⟩)
          · rintro - - t _ ⟨hi, rfl⟩
            exact ih t hp hi
      | failEntry =>
          refine .onHeap printError_safe ?_
          rintro - blocks hlost
          exact shadows_after_held (n := 1) (m := 0) hlost fun _ => .free (.pure ⟨rfl, .nothing⟩)
      | internalError =>
          refine .onHeap printError_safe ?_
          rintro - blocks hlost
          exact shadows_after_held (n := 1) (m := 0) hlost fun _ => .free (.pure ⟨rfl, .nothing⟩)
      | other reason => exact ih _ hp hi

theorem startVcpu_shadows (hp : PointsInto uuidTable pre) (env : ProcessEnv) {i : ℤ}
    (hi : i ≤ s.table.tableNumEntries - 1) (vmfd : ℤ) (ptr : ℕ) :
    HeapProc.Shadows (startVcpu uuidTable env i vmfd ptr) (Server.startVcpu env i vmfd) s
      (ptr :: pre) (Back (vcpuLost env) pre) (Comes (vcpuLost env) pre) := by
  have hone : VcpuFails env → vcpuLost env = 1 := fun h => if_pos h
  have hgiveUp : ∀ {u : ProcState} {retVal : ℤ}, VcpuFails env →
      i ≤ u.table.tableNumEntries - 1 →
      HeapProc.Shadows (do giveUp uuidTable i; failOut ptr retVal)
        (do Server.giveUp i; Server.out retVal) u (ptr :: pre) (fun (_ _ : Unit) _ _ => False)
        (Comes (vcpuLost env) pre) := by
    intro u retVal hfails hu
    rw [hone hfails]
    exact giveUpFail_shadows hp hu
  have hfail : ∀ {u : ProcState} {retVal : ℤ}, VcpuFails env →
      HeapProc.Shadows (failOut ptr retVal) (Server.out retVal) u (ptr :: pre)
        (fun (_ _ : Unit) _ _ => False) (Comes (vcpuLost env) pre) := by
    intro u retVal hfails
    rw [hone hfails]
    exact failOut_shadows
  refine .step (.guard (fun h => hgiveUp (.inl h) hi) fun hcreate => ?_)
  refine .bind (setXxx_shadows (s := s.emit _) (hp.cons ptr) hi _) ?_
  rintro _ _ _ _ ⟨rfl, rfl, rfl, rfl⟩
  refine .guard (fun hneg => absurd hneg (lt_irrefl 0)) fun _ => ?_
  refine .guard (fun h => hgiveUp (.inr (.inl h)) hi) fun hsize => ?_
  refine .guard (fun h => hfail (.inr (.inr (.inl h)))) fun hsmall => ?_
  refine .guard (fun h => hfail (.inr (.inr (.inr (.inl h))))) fun hnull => ?_
  refine .guard (fun h => hfail (.inr (.inr (.inr (.inr (.inl h)))))) fun hget => ?_
  refine .step (.guard (fun h => hfail (.inr (.inr (.inr (.inr (.inr h)))))) fun hset => .free ?_)
  have hprepared : ¬ VcpuFails env := by
    rintro (h | h | h | h | h | h)
    · exact hcreate h
    · exact hsize h
    · exact hsmall h
    · exact hnull h
    · exact hget h
    · exact hset h
  unfold vcpuLost
  rw [if_neg hprepared]
  refine .bind (.weaken (reload_shadows hp ?_ env.mallocRegs) (fun _ _ _ _ h => h) ?_) ?_
  · exact hi
  · rintro r blocks ⟨hcomes, hmalloc⟩
    rw [if_pos hmalloc]
    exact hcomes
  rintro _ copy t _ ⟨rfl, rfl, rfl, hmalloc⟩
  rw [if_neg hmalloc]
  refine .step (.guard (fun hneg => ?_) fun hpos => ?_)
  · rw [if_pos hneg]
    exact failOut_shadows
  · rw [if_neg hpos]
    exact runVcpu_shadows i env.createVcpu env.mmapRun copy.2 env.exits _ hp hi

theorem sendPacket_safe (bytesWritten : ℤ) :
    Safe (sendPacket bytesWritten) pre fun r blocks => Server.sendPacket bytesWritten = r ∧
      Lost (if Server.sendPacket bytesWritten < 0 then 1 else 0) pre blocks :=
  .bind (printErrorIf_safe _) fun _ _ hlost => .pure ⟨rfl, hlost⟩

theorem processPicked_shadows (hp : PointsInto uuidTable pre) (debugOn : Bool) (env : ProcessEnv)
    {i : ℤ} (hi : i ≤ s.table.tableNumEntries - 1) {copy : UuidTableEntry × ℕ}
    (hcopy : s.table.entry i = copy.1) :
    HeapProc.Shadows (processPicked uuidTable debugOn env i copy)
      (Server.processPicked debugOn env i copy.1) s (copy.2 :: pre)
      (Back (pickedLost debugOn env i s) pre) (Comes (pickedLost debugOn env i s) pre) := by
  by_cases hvm : env.createVm < 0
  · have hcost : pickedLost debugOn env i s = 1 := if_pos hvm
    rw [hcost]
    refine .step (.guard (fun _ => giveUpFail_shadows hp ?_) fun hnot => absurd hvm hnot)
    exact hi
  let u := beforeSetUp env i s
  let n := setUpLost debugOn env.memory copy.1.uuid u.table
    (entryIndices u.table.tableNumEntries)
  let call := Server.initializeMemoryUuid debugOn env.memory copy.1.uuid env.createVm u
  have hcost : pickedLost debugOn env i s =
      n + (1 + if call.value < 0 then 0 else reloadedLost env) := by
    rw [pickedLost, if_neg hvm, hcopy, ← Nat.add_assoc]
  rw [hcost]
  refine .step (.guard (fun hneg => absurd hneg hvm) fun _ => ?_)
  refine .bind (setXxx_shadows (s := s.emit _) (hp.cons copy.2) hi (setVmfd env.createVm)) ?_
  rintro _ _ _ _ ⟨rfl, rfl, rfl, rfl⟩
  refine .guard (fun hneg => absurd hneg (lt_irrefl 0)) fun _ => .access List.mem_cons_self ?_
  have honly := ((Program.wp_value_iff _).mp (initializeMemoryUuid_only debugOn env.memory
    copy.1.uuid env.createVm u)).2
  refine .bind (P := fun retVal retVal' t blocks => call.value = retVal ∧ call.value = retVal' ∧
    i ≤ t.table.tableNumEntries - 1 ∧ Lost n (copy.2 :: pre) blocks) ?_ ?_
  · refine .call (initializeMemoryUuid_shadows (hp.cons copy.2) debugOn env.memory copy.1.uuid
      env.createVm) fun blocks hlost => ⟨rfl, rfl, ?_, hlost⟩
    show i ≤ (call.final u).table.tableNumEntries - 1
    rw [honly.num]
    exact hi
  rintro _ _ t blocks ⟨rfl, rfl, hin, hlost⟩
  refine shadows_after_held hlost fun {rest} hrest => ?_
  have hp := hrest.pointsInto hp
  by_cases hneg : call.value < 0
  · rw [if_pos hneg]
    refine .guard (fun _ => ?_) fun hnot => absurd hneg hnot
    refine .onHeap printError_safe ?_
    rintro - _ hone
    obtain ⟨mid, hmid, hperm⟩ := hone.held
    refine .perm (.bind (giveUp_shadows ((hmid.pointsInto hp).cons copy.2) hin) ?_) hperm
    rintro - - v _ rfl
    exact out_shadows.weaken (fun _ _ _ _ h => h) fun _ _ hcomes => hcomes.after hmid
  rw [if_neg hneg]
  refine .guard (fun hneg' => absurd hneg' hneg) fun _ => ?_
  -- the copy of the scan is overwritten
  have hforgotten : Lost 1 rest (copy.2 :: rest) := Lost.nothing.cons
  refine shadows_after hforgotten ?_
  have hp := hp.cons copy.2
  generalize copy.2 :: rest = pre at hp
  have htwo : PacketFails env → reloadedLost env = 2 := fun h => if_pos h
  refine .bind (.weaken (reload_shadows hp ?_ env.mallocPacket) (fun _ _ _ _ h => h) ?_) ?_
  · exact hin
  · rintro r blocks ⟨hcomes, hmalloc⟩
    rw [htwo (.inl hmalloc)]
    exact hcomes
  rintro _ copy t _ ⟨rfl, rfl, rfl, hpacket⟩
  refine .access List.mem_cons_self (.step (.onHeap (sendPacket_safe env.bytesWritten) ?_))
  rintro _ blocks ⟨rfl, hsent⟩
  by_cases hsend : Server.sendPacket env.bytesWritten < 0
  · rw [if_pos hsend] at hsent
    rw [htwo (.inr (.inl hsend))]
    refine shadows_after_held (m := 1) hsent fun {rest} hrest => ?_
    refine .guard (fun _ => giveUpFail_shadows (hrest.pointsInto hp) ?_)
      fun hnot => absurd hsend hnot
    exact hin
  rw [if_neg hsend] at hsent
  rw [← Nat.zero_add (reloadedLost env)]
  refine shadows_after_held hsent fun {rest} hrest => ?_
  have hp := hrest.pointsInto hp
  refine .guard (fun hneg => absurd hneg hsend) fun _ => .free ?_
  refine .bind (.weaken (reload_shadows hp ?_ env.mallocReload) (fun _ _ _ _ h => h) ?_) ?_
  · exact hin
  · rintro r blocks ⟨hcomes, hmalloc⟩
    rw [htwo (.inr (.inr hmalloc))]
    exact hcomes
  rintro _ copy t _ ⟨rfl, rfl, rfl, hreload⟩
  have hgoes : reloadedLost env = vcpuLost env := by
    refine if_neg ?_
    rintro (h | h | h)
    · exact hpacket h
    · exact hsend h
    · exact hreload h
  rw [hgoes]
  refine startVcpu_shadows hp env ?_ env.createVm copy.2
  exact hin

theorem scanEntries_shadows (debugOn : Bool) (env : ProcessEnv) :
    ∀ (is : List ℤ) (ptr : Option ℕ) {pre : List ℕ}, PointsInto uuidTable pre →
      HeapProc.Shadows (scanEntries uuidTable debugOn env is ptr)
        (Server.scanEntries debugOn env is) s (ptr.toList ++ pre)
        (Back ((if is = [] then 0 else ptr.toList.length) + scanLost debugOn env s is) pre)
        (Comes ((if is = [] then 0 else ptr.toList.length) + scanLost debugOn env s is) pre) := by
  intro is
  induction is with
  | nil =>
      intro ptr pre _
      refine .onHeap (R := fun _ blocks => pre = blocks) (.freePtr rfl) ?_
      rintro - _ rfl
      exact .pure ⟨rfl, .nothing⟩
  | cons i is ih =>
      intro ptr pre hp
      have hlost : Lost ptr.toList.length pre (ptr.toList ++ pre) := ⟨ptr.toList, rfl, .refl _⟩
      rw [if_neg (List.cons_ne_nil i is)]
      refine shadows_after hlost ?_
      replace hp := hlost.pointsInto hp
      generalize ptr.toList ++ pre = pre at hp
      refine .read (.onHeap (copy_safe hp s.table i (env.mallocScan i)) ?_)
      rintro r blocks ⟨hentry, hnone, hsome⟩
      rw [scanLost, ← hentry]
      cases r with
      | none => exact fail_shadows fun _ hone => (hnone rfl).trans hone
      | some copy =>
          obtain rfl := hsome copy rfl
          refine .access List.mem_cons_self (.ite (fun hboth => ?_) fun hboth =>
            .ite (fun hclear => ?_) fun hclear => ?_)
          · dsimp only [Option.map_some]
            rw [if_pos hboth]
            refine .onHeap printError_safe ?_
            rintro - blocks hone
            obtain ⟨rest, hrest, hperm⟩ := hone.held
            exact .perm (.free (.exit hrest)) hperm
          · dsimp only [Option.map_some]
            rw [if_neg hboth, if_pos hclear]
            have hin : i < s.table.tableNumEntries := (copy_inRange hentry.symm).1
            exact processPicked_shadows hp debugOn env (by omega) (copy_eq hentry.symm)
          · dsimp only [Option.map_some]
            rw [if_neg hboth, if_neg hclear]
            exact ih (some copy.2) hp

theorem processEntry_shadows (debugOn : Bool) (env : ProcessEnv) (t : UuidTable)
    (hp : 0 < getTableNumEntries t → PointsInto uuidTable pre) :
    HeapProc.Shadows (processEntry uuidTable debugOn env) (Server.processEntry debugOn env)
      ⟨t, []⟩ pre (Back (processLost debugOn env t) pre)
      (Comes (processLost debugOn env t) pre) := by
  unfold processLost
  refine .read (.ite (fun hzero => ?_) fun hzero => .ite (fun hneg => ?_) fun hneg => ?_)
  · have hnotneg : ¬ getTableNumEntries t < 0 := not_lt.mpr (le_of_eq hzero.symm)
    rw [if_neg hnotneg, entryIndices_of_nonpos (le_of_eq hzero)]
    exact .pure ⟨rfl, .nothing⟩
  · have hneg : getTableNumEntries t < 0 := hneg
    rw [if_pos hneg]
    exact fail_shadows fun _ hone => hone
  · have hnotneg : ¬ getTableNumEntries t < 0 := hneg
    have hpos : 0 < getTableNumEntries t := lt_of_le_of_ne (not_lt.mp hneg) (Ne.symm hzero)
    have hscan := scanEntries_shadows (s := ⟨t, []⟩) debugOn env
      (entryIndices (getTableNumEntries t)) none (hp hpos)
    have hnone : (if entryIndices (getTableNumEntries t) = [] then 0
        else (none : Option ℕ).toList.length) = 0 := by
      split <;> rfl
    rw [hnone, Nat.zero_add] at hscan
    rw [if_neg hnotneg]
    exact hscan

/-- **One call of `process_entry`** misuses no block, does what its model does, and loses the
blocks counted. -/
theorem processEntry_safe (debugOn : Bool) (env : ProcessEnv) (t : UuidTable)
    (hp : 0 < getTableNumEntries t → PointsInto uuidTable pre) :
    Safe (processEntry uuidTable debugOn env ⟨t, []⟩) pre fun r blocks =>
      HeapProc.returned r.1 = (runProcessEntry debugOn env t).value ∧
        r.2 = (runProcessEntry debugOn env t).final ⟨t, []⟩ ∧
        Comes (processLost debugOn env t) pre (runProcessEntry debugOn env t).value blocks :=
  (processEntry_shadows debugOn env t hp).value

end Shadows

end LxcUio.Server.Heap
