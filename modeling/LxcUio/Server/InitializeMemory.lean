import LxcUio.Foundation.Program
import LxcUio.Server.UuidTable

/-!
# `initialize_memory_uuid`

`uuid-table.h`, with `get_uuid_layout`. The function is a `Program` over the table
and the list of the calls it made; the environment's answers are the fields of
`MemoryEnv`. In the build with `debug_on` the scan goes on after a match, to catch
a second entry with the uuid.
-/

namespace LxcUio.Server

open LxcUio.Foundation

/-- The fields of `struct kvm_regs` that the server sets; the others are 0. -/
structure KvmRegs where
  rip : UInt64
  rax : UInt64
  rbx : UInt64
  rflags : UInt64
deriving DecidableEq

/-- A call that the server makes while it processes an entry. -/
inductive Event where
  | createVm (ret : ℤ)
  | setUserMemoryRegion (vmfd : ℤ) (region : KvmUserspaceMemoryRegion) (ret : ℤ)
  | mmap (addr : UInt64) (size : UInt32)
  | writePacket (packet : Packet) (bytesWritten : ℤ)
  | createVcpu (vmfd ret : ℤ)
  | setSregs (vcpufd : ℤ) (csBase csSelector : UInt64) (ret : ℤ)
  | setRegs (vcpufd : ℤ) (regs : KvmRegs) (ret : ℤ)
  | kvmRun (vcpufd ret : ℤ)
  | putchar (c : UInt8)
deriving DecidableEq

/-- The server's memory as far as it is shared by its functions, and the calls made
so far. -/
structure ProcState where
  table : UuidTable
  events : List Event

def ProcState.emit (s : ProcState) (e : Event) : ProcState :=
  { s with events := s.events ++ [e] }

def ProcState.modify (s : ProcState) (i : ℤ) (f : UuidTableEntry → UuidTableEntry) :
    ProcState :=
  { s with table := s.table.modify i f }

@[simp] theorem emit_table (s : ProcState) (e : Event) : (s.emit e).table = s.table := rfl

@[simp] theorem emit_events (s : ProcState) (e : Event) :
    (s.emit e).events = s.events ++ [e] := rfl

@[simp] theorem procModify_table (s : ProcState) (i : ℤ)
    (f : UuidTableEntry → UuidTableEntry) : (s.modify i f).table = s.table.modify i f := rfl

@[simp] theorem procModify_events (s : ProcState) (i : ℤ)
    (f : UuidTableEntry → UuidTableEntry) : (s.modify i f).events = s.events := rfl

/-- A program of the server; `ρ` is what it can leave early with. -/
abbrev Proc (ρ α : Type) := Program ProcState ρ α

def emit {ρ : Type} (e : Event) : Proc ρ Unit := Program.step fun s => s.emit e

/-- `uuid_table[i]` is changed in place. -/
def modifyEntry {ρ : Type} (i : ℤ) (f : UuidTableEntry → UuidTableEntry) : Proc ρ Unit :=
  Program.step fun s => s.modify i f

/-! ## `get_uuid_layout` -/

/-- How one call ends: `malloc` of the buffer, the value the ioctl returned, and
the layout it left in the buffer. -/
structure LayoutCall where
  malloc : Bool
  ret : ℤ
  layout : ModuleLayout

/-- NULL when `malloc` fails or the ioctl does not return 0. -/
def getUuidLayout (c : LayoutCall) : Option ModuleLayout :=
  if c.malloc = true then
    if c.ret = 0 then some c.layout else none
  else none

/-- `get_uuid_layout` delivers a layout. -/
def LayoutCall.delivers (c : LayoutCall) : Bool := c.malloc = true ∧ c.ret = 0

theorem getUuidLayout_eq (c : LayoutCall) :
    getUuidLayout c = if c.delivers = true then some c.layout else none := by
  unfold getUuidLayout LayoutCall.delivers
  by_cases hm : c.malloc = true <;> by_cases hr : c.ret = 0 <;> simp [hm, hr]

/-! ## Setting up one entry -/

/-- What the calls made for one entry answer. `mmap` gives an address, or `none` for
`MAP_FAILED`; `pageSize` is `sysconf(_SC_PAGESIZE)` as the `unsigned int` that
`IDT_size` is. -/
structure MemoryEnv where
  pageSize : UInt32
  mmapIDT : Option UInt64
  setIDT : ℤ
  layoutInit : LayoutCall
  mmapInit : Option UInt64
  setInit : ℤ
  layoutCore : LayoutCall
  mmapCore : Option UInt64
  setCore : ℤ

def configIDTBase : UInt64 := 0

/-- The guest-physical address given to the core area. -/
def coreGuestPhysAddr : UInt64 := 0x1000

/-- The stores before the first `KVM_SET_USER_MEMORY_REGION`; `flags` keeps what it
held. -/
def setRegionIDT (idtSize : UInt32) (mem : UInt64) (e : UuidTableEntry) : UuidTableEntry :=
  { e with
    memory := { e.memory with
      sizeIDT := idtSize
      baseIDT := configIDTBase
      regionIDT :=
        { e.memory.regionIDT with
          slot := 0
          guestPhysAddr := configIDTBase
          memorySize := idtSize.toUInt64
          userspaceAddr := mem } } }

def setRegionInit (layout : ModuleLayout) (mem : UInt64) (e : UuidTableEntry) :
    UuidTableEntry :=
  { e with
    memory := { e.memory with
      regionInit :=
        { e.memory.regionInit with
          slot := 1
          guestPhysAddr := layout.base
          memorySize := layout.size.toUInt64
          userspaceAddr := mem } } }

def setRegionCore (layout : ModuleLayout) (mem : UInt64) (e : UuidTableEntry) :
    UuidTableEntry :=
  { e with
    memory := { e.memory with
      regionCore :=
        { e.memory.regionCore with
          slot := 2
          guestPhysAddr := coreGuestPhysAddr
          memorySize := layout.size.toUInt64
          userspaceAddr := mem } } }

/-- `num_regions++`. -/
def countRegion (e : UuidTableEntry) : UuidTableEntry :=
  { e with memory := { e.memory with numRegions := e.memory.numRegions + 1 } }

/-- One region: its memory, the stores, the ioctl and the count. The early exits
leave with what `ret_val` holds: -1 after a failed `mmap`, else the ioctl's result. -/
def addRegion (vmfd i : ℤ) (mmap : Option UInt64) (size : UInt32)
    (fill : UInt64 → UuidTableEntry → UuidTableEntry)
    (region : VmMemory → KvmUserspaceMemoryRegion) (ret : ℤ) : Proc ℤ Unit :=
  match mmap with
  | none => Program.exit (-1)
  | some mem => do
      emit (.mmap mem size)
      modifyEntry i (fill mem)
      let s ← Program.read
      emit (.setUserMemoryRegion vmfd (region (s.table.entry i).memory) ret)
      Program.onlyIf (ret < 0) (Program.exit ret)
      modifyEntry i countRegion

/-- The body of the scan for an entry that has the uuid. When no layout is
delivered, the function leaves with `ret_val` as the ioctl before it set it. -/
def initializeEntry (env : MemoryEnv) (vmfd i : ℤ) : Proc ℤ Unit := do
  let s ← Program.read
  let numRegions := (s.table.entry i).memory.numRegions
  Program.onlyIf (numRegions < 0) (Program.exit (-1))
  Program.onlyIf (numRegions ≠ 0) (Program.exit (-1))
  addRegion vmfd i env.mmapIDT env.pageSize (setRegionIDT env.pageSize)
    VmMemory.regionIDT env.setIDT
  match getUuidLayout env.layoutInit with
  | none => Program.exit env.setIDT
  | some initLayout => do
    addRegion vmfd i env.mmapInit initLayout.size (setRegionInit initLayout)
      VmMemory.regionInit env.setInit
    match getUuidLayout env.layoutCore with
    | none => Program.exit env.setInit
    | some coreLayout =>
      addRegion vmfd i env.mmapCore coreLayout.size (setRegionCore coreLayout)
        VmMemory.regionCore env.setCore

/-- The scan of the entries at the given indices; the result is `found`. -/
def scanUuid (debugOn : Bool) (env : MemoryEnv) (uuid : Uuid) (vmfd : ℤ) :
    List ℤ → Bool → Proc ℤ Bool
  | [], found => pure found
  | i :: rest, found => do
      let s ← Program.read
      if (s.table.entry i).uuid = uuid then do
        -- multiple entries for same module or UUID collision
        Program.onlyIf (debugOn = true ∧ found = true) (Program.exit (-1))
        initializeEntry env vmfd i
        if debugOn = true then scanUuid debugOn env uuid vmfd rest true else pure true
      else scanUuid debugOn env uuid vmfd rest found

/-- `i` from 0 up to, not including, `num_entries`. -/
def entryIndices (numEntries : ℤ) : List ℤ :=
  (List.range numEntries.toNat).map fun j : ℕ => (j : ℤ)

theorem mem_entryIndices {n j : ℤ} : j ∈ entryIndices n ↔ 0 ≤ j ∧ j < n := by
  simp only [entryIndices, List.mem_map, List.mem_range]
  constructor
  · rintro ⟨k, hk, rfl⟩
    omega
  · rintro ⟨h0, hj⟩
    exact ⟨j.toNat, by omega, by omega⟩

theorem entryIndices_of_nonpos {n : ℤ} (hn : n ≤ 0) : entryIndices n = [] := by
  rw [entryIndices, Int.toNat_of_nonpos hn]
  rfl

def initializeMemoryUuid (debugOn : Bool) (env : MemoryEnv) (uuid : Uuid) (vmfd : ℤ) :
    Proc ℤ ℤ := do
  let s ← Program.read
  let found ← scanUuid debugOn env uuid vmfd
    (entryIndices s.table.tableNumEntries) false
  if found = true then pure 0 else pure (-1)

/-! ## Rules for the set-up -/

/-- The last part of the set-up, from the layout of the core area on. -/
def coreRegion (env : MemoryEnv) (vmfd i : ℤ) : Proc ℤ Unit :=
  match getUuidLayout env.layoutCore with
  | none => Program.exit env.setInit
  | some coreLayout =>
    addRegion vmfd i env.mmapCore coreLayout.size (setRegionCore coreLayout)
      VmMemory.regionCore env.setCore

/-- The part before, from the layout of the init area on. -/
def initRegion (env : MemoryEnv) (vmfd i : ℤ) : Proc ℤ Unit :=
  match getUuidLayout env.layoutInit with
  | none => Program.exit env.setIDT
  | some initLayout => do
    addRegion vmfd i env.mmapInit initLayout.size (setRegionInit initLayout)
      VmMemory.regionInit env.setInit
    coreRegion env vmfd i

/-- The state once a region of entry `i` is mapped, filled in and passed to KVM. -/
def ProcState.passRegion (s : ProcState) (vmfd i : ℤ) (mem : UInt64) (size : UInt32)
    (fill : UInt64 → UuidTableEntry → UuidTableEntry)
    (region : VmMemory → KvmUserspaceMemoryRegion) (ret : ℤ) : ProcState :=
  ((s.emit (.mmap mem size)).modify i (fill mem)).emit
    (.setUserMemoryRegion vmfd (region (fill mem (s.table.entry i)).memory) ret)

section Rules

variable {I : ProcState → Prop} {Q : Unit → ProcState → Prop} {E : ℤ → ProcState → Prop}
  {s : ProcState} {env : MemoryEnv} {vmfd i : ℤ}

theorem wp_addRegion_none {size : UInt32} {fill : UInt64 → UuidTableEntry → UuidTableEntry}
    {region : VmMemory → KvmUserspaceMemoryRegion} {ret : ℤ} :
    (addRegion vmfd i none size fill region ret).wp I Q E s ↔ E (-1) s :=
  Program.wp_exit _

/-- A mapped region is filled in and passed to KVM, and counted when KVM accepts it. -/
theorem wp_addRegion_some {mem : UInt64} {size : UInt32}
    {fill : UInt64 → UuidTableEntry → UuidTableEntry}
    {region : VmMemory → KvmUserspaceMemoryRegion} {ret : ℤ} :
    (addRegion vmfd i (some mem) size fill region ret).wp I Q E s ↔
      I (s.emit (.mmap mem size)) ∧ I ((s.emit (.mmap mem size)).modify i (fill mem)) ∧
        I (s.passRegion vmfd i mem size fill region ret) ∧
        (ret < 0 → E ret (s.passRegion vmfd i mem size fill region ret)) ∧
        (¬ ret < 0 → I ((s.passRegion vmfd i mem size fill region ret).modify i countRegion) ∧
          Q () ((s.passRegion vmfd i mem size fill region ret).modify i countRegion)) := by
  simp only [addRegion, emit, modifyEntry, Program.wp_bind, Program.wp_step,
    Program.wp_read, Program.wp_onlyIf, Program.wp_exit, procModify_table, emit_table,
    modify_entry_same, ProcState.passRegion]

theorem wp_coreRegion : (coreRegion env vmfd i).wp I Q E s ↔
    (env.layoutCore.delivers = true →
      (addRegion vmfd i env.mmapCore env.layoutCore.layout.size
        (setRegionCore env.layoutCore.layout) VmMemory.regionCore env.setCore).wp I Q E s) ∧
      (¬ env.layoutCore.delivers = true → E env.setInit s) := by
  rw [coreRegion, getUuidLayout_eq]
  by_cases h : env.layoutCore.delivers = true
  · simp [h]
  · simp [h]

theorem wp_initRegion : (initRegion env vmfd i).wp I Q E s ↔
    (env.layoutInit.delivers = true →
      (addRegion vmfd i env.mmapInit env.layoutInit.layout.size
        (setRegionInit env.layoutInit.layout) VmMemory.regionInit env.setInit >>=
          fun _ => coreRegion env vmfd i).wp I Q E s) ∧
      (¬ env.layoutInit.delivers = true → E env.setIDT s) := by
  rw [initRegion, getUuidLayout_eq]
  by_cases h : env.layoutInit.delivers = true
  · simp [h]
  · simp [h]

theorem initializeEntry_eq (env : MemoryEnv) (vmfd i : ℤ) : initializeEntry env vmfd i = (do
    let s ← Program.read
    Program.onlyIf ((s.table.entry i).memory.numRegions < 0) (Program.exit (-1))
    Program.onlyIf ((s.table.entry i).memory.numRegions ≠ 0) (Program.exit (-1))
    addRegion vmfd i env.mmapIDT env.pageSize (setRegionIDT env.pageSize)
      VmMemory.regionIDT env.setIDT
    initRegion env vmfd i) := rfl

/-- An entry with a count of regions other than 0 is refused. -/
theorem wp_initializeEntry : (initializeEntry env vmfd i).wp I Q E s ↔
    ((s.table.entry i).memory.numRegions = 0 →
      (addRegion vmfd i env.mmapIDT env.pageSize (setRegionIDT env.pageSize)
        VmMemory.regionIDT env.setIDT >>= fun _ => initRegion env vmfd i).wp I Q E s) ∧
      ((s.table.entry i).memory.numRegions ≠ 0 → E (-1) s) := by
  rw [initializeEntry_eq, Program.wp_bind, Program.wp_read, Program.wp_bind, Program.wp_onlyIf,
    Program.wp_bind, Program.wp_onlyIf, Program.wp_exit, Program.wp_exit]
  by_cases hzero : (s.table.entry i).memory.numRegions = 0
  · have hnotneg : ¬ (s.table.entry i).memory.numRegions < 0 := by
      rw [hzero]
      exact lt_irrefl 0
    constructor
    · exact fun h => ⟨fun _ => (h.2 hnotneg).2 (not_not.mpr hzero), fun hne => absurd hzero hne⟩
    · exact fun h => ⟨fun hneg => absurd hneg hnotneg, fun _ =>
        ⟨fun hne => absurd hzero hne, fun _ => h.1 hzero⟩⟩
  · constructor
    · refine fun h => ⟨fun heq => absurd heq hzero, fun _ => ?_⟩
      by_cases hneg : (s.table.entry i).memory.numRegions < 0
      · exact h.1 hneg
      · exact (h.2 hneg).1 hzero
    · exact fun h => ⟨fun _ => h.2 hzero, fun _ =>
        ⟨fun _ => h.2 hzero, fun hnot => absurd hzero hnot⟩⟩

end Rules

/-! ## What the function can change -/

/-- What no function but `table_put` changes: the shape of the table and the uuids.
Each count of regions is the old one, or was 0 and is at most 3. -/
structure Frame (t0 t : UuidTable) : Prop where
  size : t.uuidTableSize = t0.uuidTableSize
  num : t.tableNumEntries = t0.tableNumEntries
  isNull : t.uuidTable.isNull = t0.uuidTable.isNull
  live : t.uuidTable.live = t0.uuidTable.live
  room : t.uuidTable.room = t0.uuidTable.room
  uuid : ∀ j, (t.entry j).uuid = (t0.entry j).uuid
  regions : ∀ j, (t.entry j).memory.numRegions = (t0.entry j).memory.numRegions ∨
    ((t0.entry j).memory.numRegions = 0 ∧ 0 ≤ (t.entry j).memory.numRegions ∧
      (t.entry j).memory.numRegions ≤ 3)

theorem Frame.refl (t : UuidTable) : Frame t t :=
  ⟨rfl, rfl, rfl, rfl, rfl, fun _ => rfl, fun _ => Or.inl rfl⟩

theorem Frame.trans {t u v : UuidTable} (h : Frame t u) (h' : Frame u v) : Frame t v where
  size := h'.size.trans h.size
  num := h'.num.trans h.num
  isNull := h'.isNull.trans h.isNull
  live := h'.live.trans h.live
  room := h'.room.trans h.room
  uuid := fun j => (h'.uuid j).trans (h.uuid j)
  regions := by
    intro j
    rcases h'.regions j with hsame | ⟨hzero, hlo, hhi⟩
    · rw [hsame]
      exact h.regions j
    · right
      rcases h.regions j with hsame | ⟨hzero', -, -⟩
      · exact ⟨hsame ▸ hzero, hlo, hhi⟩
      · exact ⟨hzero', hlo, hhi⟩

/-- A store into one entry that keeps its uuid and changes its count of regions only
from 0, to at most 3. -/
theorem Frame.modify {t0 t : UuidTable} (h : Frame t0 t) {i : ℤ}
    {f : UuidTableEntry → UuidTableEntry} (huuid : ∀ e, (f e).uuid = e.uuid)
    (hregions : (f (t.entry i)).memory.numRegions = (t.entry i).memory.numRegions ∨
      ((t0.entry i).memory.numRegions = 0 ∧ 0 ≤ (f (t.entry i)).memory.numRegions ∧
        (f (t.entry i)).memory.numRegions ≤ 3)) : Frame t0 (t.modify i f) where
  size := h.size
  num := h.num
  isNull := h.isNull
  live := h.live
  room := h.room
  uuid := by
    intro j
    rw [modify_entry]
    split
    · rw [huuid, h.uuid]
    · exact h.uuid j
  regions := by
    intro j
    rw [modify_entry]
    split
    · rename_i hj
      subst hj
      rcases hregions with hsame | hnew
      · rw [hsame]
        exact h.regions j
      · exact Or.inr hnew
    · exact h.regions j

/-- `t` is `t0` up to the memory records. -/
structure MemoryOnly (t0 t : UuidTable) : Prop extends Frame t0 t where
  processed : ∀ j, (t.entry j).processed = (t0.entry j).processed
  couldNotProcess : ∀ j, (t.entry j).couldNotProcess = (t0.entry j).couldNotProcess

theorem MemoryOnly.refl (t : UuidTable) : MemoryOnly t t :=
  ⟨Frame.refl t, fun _ => rfl, fun _ => rfl⟩

/-- A change of one entry that leaves everything but the memory record alone. -/
structure ChangesMemory (f : UuidTableEntry → UuidTableEntry) : Prop where
  uuid : ∀ e, (f e).uuid = e.uuid
  processed : ∀ e, (f e).processed = e.processed
  couldNotProcess : ∀ e, (f e).couldNotProcess = e.couldNotProcess

theorem MemoryOnly.modify {t0 t : UuidTable} (h : MemoryOnly t0 t) {i : ℤ}
    {f : UuidTableEntry → UuidTableEntry} (hf : ChangesMemory f)
    (hregions : (t0.entry i).memory.numRegions = 0 ∧
      0 ≤ (f (t.entry i)).memory.numRegions ∧ (f (t.entry i)).memory.numRegions ≤ 3) :
    MemoryOnly t0 (t.modify i f) where
  toFrame := h.toFrame.modify hf.uuid (Or.inr hregions)
  processed := by
    intro j
    rw [modify_entry]
    split
    · rw [hf.processed, h.processed]
    · exact h.processed j
  couldNotProcess := by
    intro j
    rw [modify_entry]
    split
    · rw [hf.couldNotProcess, h.couldNotProcess]
    · exact h.couldNotProcess j

/-- Entry `i` had no region, and has `k` of them by now. -/
structure SettingUp (t0 : UuidTable) (i k : ℤ) (t : UuidTable) : Prop where
  only : MemoryOnly t0 t
  zero : (t0.entry i).memory.numRegions = 0
  count : (t.entry i).memory.numRegions = k

theorem countRegion_changesMemory : ChangesMemory countRegion :=
  ⟨fun _ => rfl, fun _ => rfl, fun _ => rfl⟩

/-- A region is set up: on success there is one more of them. -/
theorem addRegion_only {t0 : UuidTable} {i k : ℤ} {s : ProcState}
    (h : SettingUp t0 i k s.table) (h0 : 0 ≤ k) (h3 : k < 3) (vmfd : ℤ)
    (mmap : Option UInt64) (size : UInt32) {fill : UInt64 → UuidTableEntry → UuidTableEntry}
    (hfill : ∀ mem, ChangesMemory (fill mem))
    (hcount : ∀ mem e, (fill mem e).memory.numRegions = e.memory.numRegions)
    (region : VmMemory → KvmUserspaceMemoryRegion) (ret : ℤ) :
    (addRegion vmfd i mmap size fill region ret).wp (fun t => MemoryOnly t0 t.table)
      (fun _ t => SettingUp t0 i (k + 1) t.table) (fun _ t => MemoryOnly t0 t.table) s := by
  cases mmap with
  | none => exact wp_addRegion_none.mpr h.only
  | some mem =>
      have hfilled : MemoryOnly t0 (s.table.modify i (fill mem)) := by
        refine h.only.modify (hfill mem) ⟨h.zero, ?_⟩
        rw [hcount, h.count]
        omega
      have hcounted : SettingUp t0 i (k + 1)
          ((s.table.modify i (fill mem)).modify i countRegion) := by
        have hnum : (countRegion ((s.table.modify i (fill mem)).entry i)).memory.numRegions
            = k + 1 := by
          show ((s.table.modify i (fill mem)).entry i).memory.numRegions + 1 = k + 1
          rw [modify_entry_same, hcount, h.count]
        refine ⟨hfilled.modify countRegion_changesMemory ⟨h.zero, ?_⟩, h.zero, ?_⟩
        · omega
        · rw [modify_entry_same]
          exact hnum
      exact wp_addRegion_some.mpr
        ⟨h.only, hfilled, hfilled, fun _ => hfilled, fun _ => ⟨hcounted.only, hcounted⟩⟩

theorem setRegionIDT_changesMemory (size : UInt32) (mem : UInt64) :
    ChangesMemory (setRegionIDT size mem) :=
  ⟨fun _ => rfl, fun _ => rfl, fun _ => rfl⟩

theorem setRegionInit_changesMemory (layout : ModuleLayout) (mem : UInt64) :
    ChangesMemory (setRegionInit layout mem) :=
  ⟨fun _ => rfl, fun _ => rfl, fun _ => rfl⟩

theorem setRegionCore_changesMemory (layout : ModuleLayout) (mem : UInt64) :
    ChangesMemory (setRegionCore layout mem) :=
  ⟨fun _ => rfl, fun _ => rfl, fun _ => rfl⟩

theorem initializeEntry_only (env : MemoryEnv) (vmfd i : ℤ) (s : ProcState) :
    (initializeEntry env vmfd i).wp (fun t => MemoryOnly s.table t.table)
      (fun _ t => MemoryOnly s.table t.table) (fun _ t => MemoryOnly s.table t.table) s := by
  have hrefl := MemoryOnly.refl s.table
  refine wp_initializeEntry.mpr ⟨fun hzero => ?_, fun _ => hrefl⟩
  have hstart : SettingUp s.table i 0 s.table := ⟨hrefl, hzero, hzero⟩
  have hidt := addRegion_only hstart (by omega) (by omega) vmfd env.mmapIDT env.pageSize
    (setRegionIDT_changesMemory env.pageSize) (fun _ _ => rfl) VmMemory.regionIDT env.setIDT
  refine Program.wp_seq hidt fun _ t hone => wp_initRegion.mpr ⟨fun _ => ?_, fun _ => hone.only⟩
  have hinit := addRegion_only hone (by omega) (by omega) vmfd env.mmapInit
    env.layoutInit.layout.size (setRegionInit_changesMemory env.layoutInit.layout)
    (fun _ _ => rfl) VmMemory.regionInit env.setInit
  refine Program.wp_seq hinit fun _ u htwo => wp_coreRegion.mpr ⟨fun _ => ?_, fun _ => htwo.only⟩
  have hcore := addRegion_only htwo (by omega) (by omega) vmfd env.mmapCore
    env.layoutCore.layout.size (setRegionCore_changesMemory env.layoutCore.layout)
    (fun _ _ => rfl) VmMemory.regionCore env.setCore
  exact Program.wp_mono hcore (fun _ _ hthree => hthree.only) fun _ _ h => h

/-- The scan sets up at most one entry: with `debug_on` a second match leaves. -/
theorem scanUuid_only (debugOn : Bool) (env : MemoryEnv) (uuid : Uuid) (vmfd : ℤ)
    (t0 : UuidTable) : ∀ (is : List ℤ) (found : Bool) (s : ProcState),
    MemoryOnly t0 s.table → (found = false → s.table = t0) →
    (found = true → debugOn = true) →
    (scanUuid debugOn env uuid vmfd is found).wp (fun t => MemoryOnly t0 t.table)
      (fun _ t => MemoryOnly t0 t.table) (fun _ t => MemoryOnly t0 t.table) s := by
  intro is
  induction is with
  | nil =>
      intro found s hs _ _
      simpa [scanUuid] using hs
  | cons i is ih =>
      intro found s hs hfresh hdebug
      simp only [scanUuid, Program.wp_bind, Program.wp_read, Program.wp_ite,
        Program.wp_onlyIf, Program.wp_exit, Program.wp_pure]
      refine ⟨fun _ => ⟨fun _ => hs, fun hnot => ?_⟩, fun _ => ih found s hs hfresh hdebug⟩
      have hfound : found = false := by
        cases found with
        | false => rfl
        | true => exact absurd ⟨hdebug rfl, rfl⟩ hnot
      have heq := hfresh hfound
      subst heq
      exact Program.wp_mono (initializeEntry_only env vmfd i s)
        (fun _ t ht => ⟨fun hon => ih true t ht (fun hc => by cases hc) (fun _ => hon),
          fun _ => ht⟩)
        (fun _ _ ht => ht)

/-- **Only memory records change**, whatever the calls answer and at every moment
of the call. -/
theorem initializeMemoryUuid_only (debugOn : Bool) (env : MemoryEnv) (uuid : Uuid)
    (vmfd : ℤ) (s : ProcState) :
    (initializeMemoryUuid debugOn env uuid vmfd).wp (fun t => MemoryOnly s.table t.table)
      (fun _ t => MemoryOnly s.table t.table) (fun _ t => MemoryOnly s.table t.table) s := by
  simp only [initializeMemoryUuid, Program.wp_bind, Program.wp_read]
  refine Program.wp_mono (scanUuid_only debugOn env uuid vmfd s.table _ false s
    (MemoryOnly.refl _) (fun _ => rfl) (fun hc => by cases hc))
    (fun found t ht => ?_) (fun _ _ ht => ht)
  simp only [Program.wp_ite, Program.wp_pure]
  exact ⟨fun _ => ht, fun _ => ht⟩

end LxcUio.Server
