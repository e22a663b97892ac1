import LxcUio.Server.ProcessEntry
import Mathlib.Data.List.Find

/-!
# What KVM is told

The `struct kvm_userspace_memory_region` values that one call of `process_entry` passes
to `KVM_SET_USER_MEMORY_REGION`. They follow from the entry that is set up and from the
answers of the environment, all but their flags: no statement assigns those, so they
are what the record of the entry holds.
-/

namespace LxcUio.Server

open LxcUio.Foundation

/-! ## Regions -/

inductive RegionKind where
  | idt
  | init
  | core
deriving DecidableEq

/-- The record of a region in `vm_memory`. -/
def region (m : VmMemory) : RegionKind → KvmUserspaceMemoryRegion
  | .idt => m.regionIDT
  | .init => m.regionInit
  | .core => m.regionCore

def RegionKind.slot : RegionKind → UInt32
  | .idt => 0
  | .init => 1
  | .core => 2

theorem RegionKind.slot_injective {k k' : RegionKind} (h : k.slot = k'.slot) : k = k' := by
  cases k <;> cases k' <;> first | rfl | exact absurd h (by decide)

/-- What a region is registered as, when its record holds these flags. -/
def MemoryEnv.registered (env : MemoryEnv) (flags : UInt32) :
    RegionKind → KvmUserspaceMemoryRegion
  | .idt => ⟨0, flags, configIDTBase, env.pageSize.toUInt64, env.mmapIDT.getD 0⟩
  | .init => ⟨1, flags, env.layoutInit.layout.base, env.layoutInit.layout.size.toUInt64,
      env.mmapInit.getD 0⟩
  | .core => ⟨2, flags, coreGuestPhysAddr, env.layoutCore.layout.size.toUInt64,
      env.mmapCore.getD 0⟩

theorem registered_slot (env : MemoryEnv) (flags : UInt32) (k : RegionKind) :
    (env.registered flags k).slot = k.slot := by
  cases k <;> rfl

theorem registered_flags (env : MemoryEnv) (flags : UInt32) (k : RegionKind) :
    (env.registered flags k).flags = flags := by
  cases k <;> rfl

/-! The regions that are registered for an entry without any, from the core region, the
init region and the IDT region on: the first one that has no layout or memory, or is
refused, ends it. -/

def MemoryEnv.reachedCore (env : MemoryEnv) : List RegionKind :=
  if env.layoutCore.delivers = true ∧ env.mmapCore.isSome = true then [.core] else []

def MemoryEnv.reachedInit (env : MemoryEnv) : List RegionKind :=
  if env.layoutInit.delivers = true ∧ env.mmapInit.isSome = true then
    .init :: if env.setInit < 0 then [] else env.reachedCore
  else []

def MemoryEnv.reached (env : MemoryEnv) : List RegionKind :=
  if env.mmapIDT.isSome = true then
    .idt :: if env.setIDT < 0 then [] else env.reachedInit
  else []

/-- The region that an event passes to KVM. -/
def Event.told : Event → Option KvmUserspaceMemoryRegion
  | .setUserMemoryRegion _ r _ => some r
  | _ => none

/-- All that KVM was told, in order. -/
def ProcState.told (s : ProcState) : List KvmUserspaceMemoryRegion :=
  s.events.filterMap Event.told

@[simp] theorem told_emit (s : ProcState) (e : Event) :
    (s.emit e).told = s.told ++ e.told.toList := by
  simp only [ProcState.told, emit_events, List.filterMap_append]
  cases h : e.told <;> simp [h]

/-! ## One entry -/

/-- A change of an entry that leaves the flags of its regions alone. -/
def KeepsRegionFlags (f : UuidTableEntry → UuidTableEntry) : Prop :=
  ∀ e k, (region (f e).memory k).flags = (region e.memory k).flags

theorem setRegionIDT_keepsRegionFlags (size : UInt32) (mem : UInt64) :
    KeepsRegionFlags (setRegionIDT size mem) := by
  rintro e (_ | _ | _) <;> rfl

theorem setRegionInit_keepsRegionFlags (layout : ModuleLayout) (mem : UInt64) :
    KeepsRegionFlags (setRegionInit layout mem) := by
  rintro e (_ | _ | _) <;> rfl

theorem setRegionCore_keepsRegionFlags (layout : ModuleLayout) (mem : UInt64) :
    KeepsRegionFlags (setRegionCore layout mem) := by
  rintro e (_ | _ | _) <;> rfl

theorem countRegion_keepsRegionFlags : KeepsRegionFlags countRegion := by
  rintro e (_ | _ | _) <;> rfl

/-- The flags in the records of entry `i`. -/
def flagsOf (t : UuidTable) (i : ℤ) (k : RegionKind) : UInt32 :=
  (region (t.entry i).memory k).flags

theorem flagsOf_modify {t : UuidTable} {j : ℤ} {f : UuidTableEntry → UuidTableEntry}
    (h : KeepsRegionFlags f) (i : ℤ) : flagsOf (t.modify j f) i = flagsOf t i := by
  funext k
  unfold flagsOf
  rw [modify_entry]
  split
  · exact h _ k
  · rfl

/-- From `s` on KVM was told `rs`, and no flags have changed. -/
structure Tells (s : ProcState) (rs : List KvmUserspaceMemoryRegion) (u : ProcState) :
    Prop where
  told : u.told = s.told ++ rs
  num : u.table.tableNumEntries = s.table.tableNumEntries
  flags : ∀ i, flagsOf u.table i = flagsOf s.table i

theorem Tells.refl (s : ProcState) : Tells s [] s :=
  ⟨(List.append_nil _).symm, rfl, fun _ => rfl⟩

theorem Tells.trans {s u v : ProcState} {rs rs' : List KvmUserspaceMemoryRegion}
    (h : Tells s rs u) (h' : Tells u rs' v) : Tells s (rs ++ rs') v :=
  ⟨by rw [h'.told, h.told, List.append_assoc], h'.num.trans h.num,
    fun i => (h'.flags i).trans (h.flags i)⟩

theorem Tells.emit {s u : ProcState} {rs : List KvmUserspaceMemoryRegion} (h : Tells s rs u)
    (e : Event) : Tells s (rs ++ e.told.toList) (u.emit e) :=
  ⟨by rw [told_emit, h.told, List.append_assoc], h.num, h.flags⟩

theorem Tells.modify {s u : ProcState} {rs : List KvmUserspaceMemoryRegion} (h : Tells s rs u)
    (i : ℤ) {f : UuidTableEntry → UuidTableEntry} (hf : KeepsRegionFlags f) :
    Tells s rs (u.modify i f) :=
  ⟨h.told, h.num, fun j => (flagsOf_modify hf j).trans (h.flags j)⟩

/-- One region and what follows it: if there is memory, KVM is told what the stores make
of the record, and if it accepts the region, the rest follows. -/
theorem addRegion_tells {s u : ProcState} {rs : List KvmUserspaceMemoryRegion}
    (rest : List KvmUserspaceMemoryRegion) (h : Tells s rs u) (vmfd i : ℤ)
    {mmap : Option UInt64} (size : UInt32) {fill : UInt64 → UuidTableEntry → UuidTableEntry}
    (reg : VmMemory → KvmUserspaceMemoryRegion) (ret : ℤ)
    (hfill : ∀ mem, KeepsRegionFlags (fill mem)) {r : KvmUserspaceMemoryRegion}
    (hreg : ∀ mem, mmap = some mem → reg (fill mem (u.table.entry i)).memory = r)
    {x : Proc ℤ Unit} (hx : ∀ v, Tells s (rs ++ [r]) v →
      x.wp (fun _ => True) (fun _ w => Tells s (rs ++ [r] ++ rest) w)
        (fun _ w => Tells s (rs ++ [r] ++ rest) w) v) :
    (addRegion vmfd i mmap size fill reg ret >>= fun _ => x).wp (fun _ => True)
      (fun _ w => Tells s (rs ++ if mmap.isSome = true then
        r :: if ret < 0 then [] else rest else []) w)
      (fun _ w => Tells s (rs ++ if mmap.isSome = true then
        r :: if ret < 0 then [] else rest else []) w) u := by
  cases mmap with
  | none =>
      rw [Program.wp_bind, wp_addRegion_none, if_neg (by decide), List.append_nil]
      exact h
  | some mem =>
      have hstored : Tells s (rs ++ [r]) (((u.emit (.mmap mem size)).modify i (fill mem)).emit
          (.setUserMemoryRegion vmfd r ret)) := by
        have hmapped : Tells s rs (u.emit (.mmap mem size)) :=
          ⟨by rw [told_emit, h.told]; exact List.append_nil _, h.num, h.flags⟩
        exact (hmapped.modify i (hfill mem)).emit (.setUserMemoryRegion vmfd r ret)
      rw [← hreg mem rfl] at hstored hx ⊢
      rw [Program.wp_bind, wp_addRegion_some, if_pos Option.isSome_some]
      refine ⟨trivial, trivial, trivial, fun hret => ?_, fun hret => ⟨trivial, ?_⟩⟩
      · rw [if_pos hret]
        exact hstored
      · rw [if_neg hret]
        have hrest := hx _ (hstored.modify i countRegion_keepsRegionFlags)
        rwa [List.append_assoc] at hrest

/-- The records that are passed to KVM when the set-up of entry `i` begins. -/
def entryRegisters (env : MemoryEnv) (t : UuidTable) (i : ℤ) : List (ℤ × RegionKind) :=
  if (t.entry i).memory.numRegions = 0 then env.reached.map fun k => (i, k) else []

/-- What KVM is told when the records `ps` are passed to it. -/
def MemoryEnv.tells (env : MemoryEnv) (t : UuidTable) (ps : List (ℤ × RegionKind)) :
    List KvmUserspaceMemoryRegion :=
  ps.map fun p => env.registered (flagsOf t p.1 p.2) p.2

/-- The core area, from its layout on. -/
theorem coreRegion_tells (env : MemoryEnv) {s u : ProcState}
    {rs : List KvmUserspaceMemoryRegion} (h : Tells s rs u) (vmfd i : ℤ) :
    (coreRegion env vmfd i).wp (fun _ => True)
      (fun _ v => Tells s (rs ++ env.reachedCore.map fun k =>
        env.registered (flagsOf s.table i k) k) v)
      (fun _ v => Tells s (rs ++ env.reachedCore.map fun k =>
        env.registered (flagsOf s.table i k) k) v) u := by
  refine wp_coreRegion.mpr ⟨fun hdelivers => ?_, fun hdelivers => ?_⟩
  · have hreg : ∀ mem, env.mmapCore = some mem →
        (setRegionCore env.layoutCore.layout mem (u.table.entry i)).memory.regionCore =
          env.registered (flagsOf s.table i .core) .core := by
      intro mem hmem
      rw [← h.flags i]
      simp only [setRegionCore, MemoryEnv.registered, hmem, Option.getD_some, flagsOf, region]
    have hcore := addRegion_tells [] h vmfd i env.layoutCore.layout.size VmMemory.regionCore
      env.setCore (setRegionCore_keepsRegionFlags _) hreg (x := pure ()) fun v hv =>
        (Program.wp_pure _).mpr (by rwa [List.append_nil])
    simpa [MemoryEnv.reachedCore, hdelivers, apply_ite] using hcore
  · simpa [MemoryEnv.reachedCore, hdelivers] using h

/-- The init area, from its layout on, and the core area. -/
theorem initRegion_tells (env : MemoryEnv) {s u : ProcState}
    {rs : List KvmUserspaceMemoryRegion} (h : Tells s rs u) (vmfd i : ℤ) :
    (initRegion env vmfd i).wp (fun _ => True)
      (fun _ v => Tells s (rs ++ env.reachedInit.map fun k =>
        env.registered (flagsOf s.table i k) k) v)
      (fun _ v => Tells s (rs ++ env.reachedInit.map fun k =>
        env.registered (flagsOf s.table i k) k) v) u := by
  refine wp_initRegion.mpr ⟨fun hdelivers => ?_, fun hdelivers => ?_⟩
  · have hreg : ∀ mem, env.mmapInit = some mem →
        (setRegionInit env.layoutInit.layout mem (u.table.entry i)).memory.regionInit =
          env.registered (flagsOf s.table i .init) .init := by
      intro mem hmem
      rw [← h.flags i]
      simp only [setRegionInit, MemoryEnv.registered, hmem, Option.getD_some, flagsOf, region]
    have hinit := addRegion_tells _ h vmfd i env.layoutInit.layout.size VmMemory.regionInit
      env.setInit (setRegionInit_keepsRegionFlags _) hreg fun v hv =>
        coreRegion_tells env hv vmfd i
    simpa [MemoryEnv.reachedInit, hdelivers, apply_ite] using hinit
  · simpa [MemoryEnv.reachedInit, hdelivers] using h

/-- However `x` ends, KVM was told `rs` on the way. -/
def Telling {ρ α : Type} (x : Proc ρ α) (s : ProcState)
    (rs : List KvmUserspaceMemoryRegion) : Prop :=
  x.wp (fun _ => True) (fun _ u => Tells s rs u) (fun _ u => Tells s rs u) s

theorem initializeEntry_tells (env : MemoryEnv) (vmfd i : ℤ) (s : ProcState) :
    Telling (initializeEntry env vmfd i) s
      (env.tells s.table (entryRegisters env s.table i)) := by
  refine wp_initializeEntry.mpr ⟨fun hzero => ?_, fun hne => ?_⟩
  · have hreg : ∀ mem, env.mmapIDT = some mem →
        (setRegionIDT env.pageSize mem (s.table.entry i)).memory.regionIDT =
          env.registered (flagsOf s.table i .idt) .idt := by
      intro mem hmem
      simp only [setRegionIDT, MemoryEnv.registered, hmem, Option.getD_some, flagsOf, region]
    have hidt := addRegion_tells _ (Tells.refl s) vmfd i env.pageSize VmMemory.regionIDT
      env.setIDT (setRegionIDT_keepsRegionFlags _) hreg fun v hv => initRegion_tells env hv vmfd i
    have htells : env.tells s.table (entryRegisters env s.table i) =
        [] ++ if env.mmapIDT.isSome = true then
          env.registered (flagsOf s.table i .idt) .idt :: if env.setIDT < 0 then [] else
            env.reachedInit.map fun k => env.registered (flagsOf s.table i k) k else [] := by
      rw [entryRegisters, if_pos hzero, MemoryEnv.tells, List.map_map, MemoryEnv.reached]
      split_ifs <;> rfl
    rw [htells]
    exact hidt
  · rw [entryRegisters, if_neg hne]
    exact Tells.refl s

/-! ## Statements that tell KVM nothing -/

def Quiet {ρ α : Type} (x : Proc ρ α) : Prop := ∀ s, Telling x s []

section Quiet

variable {ρ α β : Type}

theorem Telling.weaken {x : Proc ρ α} {s u : ProcState} {rs rs' : List KvmUserspaceMemoryRegion}
    (h : Telling x u rs') (hu : Tells s rs u) :
    x.wp (fun _ => True) (fun _ v => Tells s (rs ++ rs') v)
      (fun _ v => Tells s (rs ++ rs') v) u :=
  Program.wp_mono h (fun _ _ hv => hu.trans hv) fun _ _ hv => hu.trans hv

/-- What follows quietly adds nothing. -/
theorem Telling.quiet {x : Proc ρ α} {k : α → Proc ρ β} {s : ProcState}
    {rs : List KvmUserspaceMemoryRegion} (h : Telling x s rs) (hk : ∀ a, Quiet (k a)) :
    Telling (x >>= k) s rs := by
  refine Program.wp_seq h fun a u hu => ?_
  have hnext := (hk a u).weaken hu
  rwa [List.append_nil] at hnext

theorem quiet_pure (a : α) : Quiet (pure a : Proc ρ α) :=
  fun s => (Program.wp_pure _).mpr (Tells.refl s)

theorem quiet_exit (r : ρ) : Quiet (Program.exit r : Proc ρ α) :=
  fun s => (Program.wp_exit _).mpr (Tells.refl s)

theorem quiet_bind {x : Proc ρ α} {k : α → Proc ρ β} (h : Quiet x) (hk : ∀ a, Quiet (k a)) :
    Quiet (x >>= k) :=
  fun s => (h s).quiet hk

theorem quiet_ite {c : Prop} [Decidable c] {x y : Proc ρ α} (h : Quiet x) (h' : Quiet y) :
    Quiet (if c then x else y) := by
  split
  · exact h
  · exact h'

theorem quiet_onlyIf {c : Prop} [Decidable c] {x : Proc ρ Unit} (h : Quiet x) :
    Quiet (Program.onlyIf c x) :=
  quiet_ite h (quiet_pure ())

theorem quiet_read : Quiet (Program.read : Proc ρ ProcState) :=
  fun s => Program.wp_read.mpr (Tells.refl s)

theorem quiet_emit {e : Event} (h : e.told = none) : Quiet (emit e : Proc ρ Unit) := by
  intro s
  have hemit := (Tells.refl s).emit e
  rw [h] at hemit
  exact (Program.wp_step _).mpr ⟨trivial, hemit⟩

theorem quiet_modifyEntry (i : ℤ) {f : UuidTableEntry → UuidTableEntry}
    (hf : KeepsRegionFlags f) : Quiet (modifyEntry i f : Proc ρ Unit) :=
  fun s => (Program.wp_step _).mpr ⟨trivial, (Tells.refl s).modify i hf⟩

end Quiet

theorem KeepsFlags.keepsRegionFlags {f : UuidTableEntry → UuidTableEntry} (h : KeepsFlags f) :
    KeepsRegionFlags f := fun e k => by rw [h.memory]

theorem quiet_setXxx (i : ℤ) {f : UuidTableEntry → UuidTableEntry} (hf : KeepsRegionFlags f) :
    Quiet (setXxx i f) :=
  quiet_bind quiet_read fun _ => quiet_ite
    (quiet_bind (quiet_modifyEntry i hf) fun _ => quiet_pure 0) (quiet_pure (-1))

theorem quiet_giveUp (i retVal : ℤ) : Quiet (do giveUp i; out retVal : ProcOut Unit) :=
  quiet_bind (quiet_bind (quiet_setXxx i fun _ _ => rfl) fun _ => quiet_pure ())
    fun _ => quiet_exit _

theorem quiet_reload (i : ℤ) (malloc : Bool) : Quiet (reload i malloc) := by
  refine quiet_bind quiet_read fun s => ?_
  cases tableEntryAtIndexCopy s.table i malloc with
  | none => exact quiet_exit _
  | some ptr => exact quiet_pure ptr

theorem quiet_runVcpu (i vcpufd : ℤ) (mmapRun : RunMapping) :
    ∀ exits, Quiet (runVcpu i vcpufd mmapRun exits) := by
  intro exits
  induction exits with
  | nil => exact quiet_exit _
  | cons x rest ih =>
      refine quiet_bind (quiet_emit rfl) fun _ => quiet_bind (quiet_onlyIf (quiet_exit _))
        fun _ => quiet_bind (quiet_onlyIf (quiet_exit _)) fun _ => ?_
      cases x.reason with
      | hlt =>
          exact quiet_bind (quiet_setXxx i fun _ _ => rfl) fun _ =>
            quiet_ite (quiet_pure _) (quiet_pure _)
      | io direction size port count data =>
          exact quiet_bind (quiet_onlyIf (quiet_emit rfl)) fun _ => ih
      | failEntry => exact quiet_pure _
      | internalError => exact quiet_pure _
      | other reason => exact ih

theorem quiet_startVcpu (env : ProcessEnv) (i vmfd : ℤ) : Quiet (startVcpu env i vmfd) := by
  refine quiet_bind (quiet_emit rfl) fun _ => ?_
  refine quiet_bind (quiet_onlyIf (quiet_giveUp i _)) fun _ => ?_
  refine quiet_bind (quiet_setXxx i fun _ _ => rfl) fun _ => ?_
  refine quiet_bind (quiet_onlyIf (quiet_giveUp i _)) fun _ => ?_
  refine quiet_bind (quiet_onlyIf (quiet_giveUp i _)) fun _ => ?_
  refine quiet_bind (quiet_onlyIf (quiet_exit _)) fun _ => ?_
  refine quiet_bind (quiet_onlyIf (quiet_exit _)) fun _ => ?_
  refine quiet_bind (quiet_onlyIf (quiet_exit _)) fun _ => ?_
  refine quiet_bind (quiet_emit rfl) fun _ => ?_
  refine quiet_bind (quiet_onlyIf (quiet_exit _)) fun _ => ?_
  refine quiet_bind (quiet_reload i env.mallocRegs) fun _ => ?_
  refine quiet_bind (quiet_emit rfl) fun _ => ?_
  refine quiet_bind (quiet_onlyIf (quiet_exit _)) fun _ => ?_
  exact quiet_runVcpu i env.createVcpu env.mmapRun env.exits

/-! ## The scan for the uuid -/

/-- The records that are passed to KVM for a uuid: those of the first entry with it. -/
def scanRegisters (env : MemoryEnv) (t : UuidTable) (uuid : Uuid) (is : List ℤ) :
    List (ℤ × RegionKind) :=
  match is.find? fun j => (t.entry j).uuid = uuid with
  | none => []
  | some j => entryRegisters env t j

/-- In the build that goes on after a match, another match only ends the scan. -/
theorem quiet_scanUuid (env : MemoryEnv) (uuid : Uuid) (vmfd : ℤ) :
    ∀ is, Quiet (scanUuid true env uuid vmfd is true) := by
  intro is
  induction is with
  | nil => exact quiet_pure _
  | cons i is ih =>
      refine quiet_bind quiet_read fun s => quiet_ite (fun u => ?_) ih
      refine (Program.wp_bind _ _).mpr ((Program.wp_onlyIf _ _).mpr ⟨fun _ => ?_, fun hnot => ?_⟩)
      · exact (Program.wp_exit _).mpr (Tells.refl u)
      · exact absurd ⟨rfl, rfl⟩ hnot

theorem scanUuid_tells (debugOn : Bool) (env : MemoryEnv) (uuid : Uuid) (vmfd : ℤ)
    (s : ProcState) : ∀ is, Telling (scanUuid debugOn env uuid vmfd is false) s
      (env.tells s.table (scanRegisters env s.table uuid is)) := by
  intro is
  induction is with
  | nil => exact quiet_pure _ s
  | cons i is ih =>
      refine (Program.wp_bind _ _).mpr (Program.wp_read.mpr ?_)
      by_cases hi : (s.table.entry i).uuid = uuid
      · rw [if_pos hi]
        have hfirst : scanRegisters env s.table uuid (i :: is) =
            entryRegisters env s.table i := by
          rw [scanRegisters, List.find?_cons_of_pos (by simpa using hi)]
        rw [hfirst]
        refine (Program.wp_bind _ _).mpr ((Program.wp_onlyIf _ _).mpr ⟨?_, fun _ => ?_⟩)
        · rintro ⟨-, hfound⟩
          cases hfound
        · refine (initializeEntry_tells env vmfd i s).quiet fun _ => ?_
          cases debugOn with
          | true => exact quiet_scanUuid env uuid vmfd is
          | false => exact quiet_pure true
      · rw [if_neg hi]
        have hnext : scanRegisters env s.table uuid (i :: is) =
            scanRegisters env s.table uuid is := by
          rw [scanRegisters, List.find?_cons_of_neg (by simpa using hi)]
          rfl
        rw [hnext]
        exact ih

/-- The records that `initialize_memory_uuid` passes to KVM. -/
def uuidRegisters (env : MemoryEnv) (t : UuidTable) (uuid : Uuid) : List (ℤ × RegionKind) :=
  scanRegisters env t uuid (entryIndices t.tableNumEntries)

theorem initializeMemoryUuid_tells (debugOn : Bool) (env : MemoryEnv) (uuid : Uuid)
    (vmfd : ℤ) (s : ProcState) : Telling (initializeMemoryUuid debugOn env uuid vmfd) s
      (env.tells s.table (uuidRegisters env s.table uuid)) := by
  refine (Program.wp_bind _ _).mpr (Program.wp_read.mpr ?_)
  exact (scanUuid_tells debugOn env uuid vmfd s _).quiet fun _ =>
    quiet_ite (quiet_pure _) (quiet_pure _)

theorem Telling.call {ρ α : Type} {x : Proc α α} {s : ProcState}
    {rs : List KvmUserspaceMemoryRegion} (h : Telling x s rs) :
    Telling (Program.call x : Proc ρ α) s rs :=
  (Program.wp_call x).mpr h

/-! ## What the choice of records depends on -/

/-- Two entries that differ in nothing that a branch of the server depends on. -/
structure SameEntry (e e' : UuidTableEntry) : Prop where
  uuid : e'.uuid = e.uuid
  processed : e'.processed = e.processed
  couldNotProcess : e'.couldNotProcess = e.couldNotProcess
  numRegions : e'.memory.numRegions = e.memory.numRegions

/-- Two tables of one shape whose entries are related by `R`. -/
structure Alike (R : UuidTableEntry → UuidTableEntry → Prop) (t t' : UuidTable) : Prop where
  size : t'.uuidTableSize = t.uuidTableSize
  num : t'.tableNumEntries = t.tableNumEntries
  isNull : t'.uuidTable.isNull = t.uuidTable.isNull
  room : t'.uuidTable.room = t.uuidTable.room
  live : t'.uuidTable.live = t.uuidTable.live
  entries : ∀ j, 0 ≤ j → j < t.tableNumEntries → R (t.entry j) (t'.entry j)

/-- Two tables that differ in nothing that a branch of the server depends on. -/
abbrev SameTable : UuidTable → UuidTable → Prop := Alike SameEntry

theorem entryRegisters_congr (env : MemoryEnv) {t t' : UuidTable} {j : ℤ}
    (h : SameEntry (t.entry j) (t'.entry j)) :
    entryRegisters env t' j = entryRegisters env t j := by
  unfold entryRegisters
  rw [h.numRegions]

theorem uuidRegisters_congr (env : MemoryEnv) {t t' : UuidTable} (h : SameTable t t')
    (uuid : Uuid) : uuidRegisters env t' uuid = uuidRegisters env t uuid := by
  unfold uuidRegisters scanRegisters
  have hfind : ((entryIndices t'.tableNumEntries).find? fun j => (t'.entry j).uuid = uuid) =
      (entryIndices t.tableNumEntries).find? fun j => (t.entry j).uuid = uuid := by
    rw [h.num]
    refine List.find?_congr fun j hj => ?_
    obtain ⟨h0, hlt⟩ := mem_entryIndices.mp hj
    rw [(h.entries j h0 hlt).uuid]
  rw [hfind]
  cases hj : (entryIndices t.tableNumEntries).find? fun j => (t.entry j).uuid = uuid with
  | none => rfl
  | some j =>
      obtain ⟨h0, hlt⟩ := mem_entryIndices.mp (List.mem_of_find?_eq_some hj)
      exact entryRegisters_congr env (h.entries j h0 hlt)

theorem SameEntry.refl (e : UuidTableEntry) : SameEntry e e := ⟨rfl, rfl, rfl, rfl⟩

theorem KeepsFlags.sameTable {f : UuidTableEntry → UuidTableEntry} (hf : KeepsFlags f)
    (t : UuidTable) (i : ℤ) : SameTable t (t.modify i f) where
  size := rfl
  num := rfl
  isNull := rfl
  room := rfl
  live := rfl
  entries := by
    intro j _ _
    rw [modify_entry]
    split
    · exact ⟨hf.uuid _, hf.processed _, hf.couldNotProcess _, by rw [hf.memory]⟩
    · exact SameEntry.refl _

/-! ## `process_entry` -/

/-- The records that a call of `process_entry` passes to KVM, each as the index of
its entry and the region. -/
def registers (env : ProcessEnv) (t : UuidTable) : List (ℤ × RegionKind) :=
  match picked env t (entryIndices (getTableNumEntries t)) with
  | none => []
  | some i => if env.createVm < 0 then [] else uuidRegisters env.memory t (t.entry i).uuid

theorem registers_inRange {env : ProcessEnv} {t : UuidTable} {p : ℤ × RegionKind}
    (h : p ∈ registers env t) : 0 ≤ p.1 ∧ p.1 < t.tableNumEntries := by
  unfold registers at h
  split at h
  · cases h
  · split at h
    · cases h
    · unfold uuidRegisters scanRegisters at h
      split at h
      · cases h
      · rename_i j hj
        unfold entryRegisters at h
        split at h
        · obtain ⟨k, -, rfl⟩ := List.mem_map.mp h
          exact mem_entryIndices.mp (List.mem_of_find?_eq_some hj)
        · cases h

theorem MemoryEnv.tells_congr (env : MemoryEnv) {t t' : UuidTable}
    (h : ∀ i, flagsOf t' i = flagsOf t i) (ps : List (ℤ × RegionKind)) :
    env.tells t' ps = env.tells t ps := by
  unfold MemoryEnv.tells
  congr
  funext p
  rw [h]

theorem processPicked_tells (debugOn : Bool) (env : ProcessEnv) (i : ℤ)
    (ptr : UuidTableEntry) {s : ProcState} (hi : i ≤ s.table.tableNumEntries - 1) :
    Telling (processPicked debugOn env i ptr) s (env.memory.tells s.table
      (if env.createVm < 0 then [] else uuidRegisters env.memory s.table ptr.uuid)) := by
  unfold processPicked Telling
  rw [Program.wp_bind, wp_emit, Program.wp_bind, Program.wp_onlyIf]
  have hemit : Tells s [] (s.emit (.createVm env.createVm)) :=
    (Tells.refl s).emit (.createVm env.createVm)
  refine ⟨trivial, fun hneg => ?_, fun hpos => ?_⟩
  · rw [if_pos hneg, Program.wp_bind, wp_giveUp (s := s.emit _) hi, wp_out]
    exact ⟨trivial, hemit.modify i fun _ _ => rfl⟩
  · rw [if_neg hpos, Program.wp_bind, wp_setXxx (s := s.emit _) hi]
    have hset := hemit.modify i (setVmfd_keepsFlags env.createVm).keepsRegionFlags
    have hsame := (setVmfd_keepsFlags env.createVm).sameTable s.table i
    have hcall : Telling (Program.call (initializeMemoryUuid debugOn env.memory ptr.uuid
        env.createVm) : ProcOut ℤ) ((s.emit (.createVm env.createVm)).modify i
          (setVmfd env.createVm)) (env.memory.tells s.table
        (uuidRegisters env.memory s.table ptr.uuid)) := by
      have h := initializeMemoryUuid_tells debugOn env.memory ptr.uuid env.createVm
        ((s.emit (.createVm env.createVm)).modify i (setVmfd env.createVm))
      rw [env.memory.tells_congr hset.flags] at h
      rw [← uuidRegisters_congr env.memory hsame]
      exact h.call
    refine ⟨trivial, ?_⟩
    rw [Program.wp_bind, Program.wp_onlyIf]
    refine ⟨fun hc => absurd hc (by decide), fun _ => ?_⟩
    refine Telling.weaken (hcall.quiet fun retVal => ?_) hset
    refine quiet_bind (quiet_onlyIf (quiet_giveUp i _)) fun _ => ?_
    refine quiet_bind (quiet_reload i env.mallocPacket) fun ptr => ?_
    refine quiet_bind (quiet_emit rfl) fun _ => ?_
    refine quiet_bind (quiet_onlyIf (quiet_giveUp i _)) fun _ => ?_
    exact quiet_bind (quiet_reload i env.mallocReload) fun _ => quiet_startVcpu env i env.createVm

/-- What one call of `process_entry` tells KVM. -/
def toldBy (debugOn : Bool) (env : ProcessEnv) (t : UuidTable) :
    List KvmUserspaceMemoryRegion :=
  ((runProcessEntry debugOn env t).final ⟨t, []⟩).told

/-- The table after a call of `process_entry`. -/
def tableAfter (debugOn : Bool) (env : ProcessEnv) (t : UuidTable) : UuidTable :=
  ((runProcessEntry debugOn env t).final ⟨t, []⟩).table

theorem processEntry_tells (debugOn : Bool) (env : ProcessEnv) (s : ProcState) :
    Telling (processEntry debugOn env) s
      (env.memory.tells s.table (registers env s.table)) := by
  have hnone : pickedEntry env s.table = none → registers env s.table = [] := by
    intro h
    rw [registers, show picked env s.table _ = none from h]
  refine wp_processEntry debugOn (fun i hi => ?_) (fun h _ _ => ?_) (fun h _ => ?_)
    fun h _ _ _ _ => ?_
  · obtain ⟨-, hlt⟩ := picked_inRange hi
    rw [registers, show picked env s.table _ = some i from hi]
    exact processPicked_tells debugOn env i _ (by omega)
  -- nothing was picked, nothing is told
  all_goals
    rw [hnone h]
    exact Tells.refl s

/-- The same, said of the state in which the call ends. -/
theorem runProcessEntry_tells (debugOn : Bool) (env : ProcessEnv) (t : UuidTable) :
    Tells ⟨t, []⟩ (env.memory.tells t (registers env t))
      ((runProcessEntry debugOn env t).final ⟨t, []⟩) :=
  ((Program.wp_value_iff _).mp (processEntry_tells debugOn env ⟨t, []⟩)).2

/-- **What KVM is told**: the flags of the records in the table, and for the rest what
the environment answered. -/
theorem toldBy_eq (debugOn : Bool) (env : ProcessEnv) (t : UuidTable) :
    toldBy debugOn env t = env.memory.tells t (registers env t) :=
  (runProcessEntry_tells debugOn env t).told

theorem tableAfter_num (debugOn : Bool) (env : ProcessEnv) (t : UuidTable) :
    (tableAfter debugOn env t).tableNumEntries = t.tableNumEntries :=
  (runProcessEntry_tells debugOn env t).num

/-- No call changes the flags of a record. -/
theorem flagsOf_tableAfter (debugOn : Bool) (env : ProcessEnv) (t : UuidTable) (i : ℤ) :
    flagsOf (tableAfter debugOn env t) i = flagsOf t i :=
  (runProcessEntry_tells debugOn env t).flags i

end LxcUio.Server
