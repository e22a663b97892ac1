import LxcUio.Server.Registration
import LxcUio.Server.WorkDone

/-!
# Stale heap contents

Two runs of `get_new_entry` and `process_entry` that see the same answers and differ
only in what freshly allocated memory holds. All branches go the same way, so the two
tables agree in everything a branch depends on (`SameTable`); what KVM is told differs
exactly where the flags of a record do.
-/

namespace LxcUio.Server

open LxcUio.Foundation

/-! ## One call in two runs -/

/-- Two states of the server with `n` entries that differ in nothing a branch depends on. -/
def SameStates (n : ℤ) (s s' : ProcState) : Prop :=
  SameTable s.table s'.table ∧ s.table.tableNumEntries = n

/-- A change of an entry that keeps two entries the same. -/
def KeepsSame (f : UuidTableEntry → UuidTableEntry) : Prop :=
  ∀ e e', SameEntry e e' → SameEntry (f e) (f e')

theorem ChangesMemory.keepsSame {f : UuidTableEntry → UuidTableEntry} (hf : ChangesMemory f)
    (hnum : ∀ e, (f e).memory.numRegions = e.memory.numRegions) : KeepsSame f := by
  intro e e' h
  refine ⟨?_, ?_, ?_, ?_⟩
  · rw [hf.uuid, hf.uuid, h.uuid]
  · rw [hf.processed, hf.processed, h.processed]
  · rw [hf.couldNotProcess, hf.couldNotProcess, h.couldNotProcess]
  · rw [hnum, hnum, h.numRegions]

theorem SameTable.modify {t t' : UuidTable} (h : SameTable t t') (i : ℤ)
    {f : UuidTableEntry → UuidTableEntry} (hf : KeepsSame f) :
    SameTable (t.modify i f) (t'.modify i f) where
  size := h.size
  num := h.num
  isNull := h.isNull
  room := h.room
  live := h.live
  entries := by
    intro j h0 hj
    rw [modify_entry, modify_entry]
    split
    · exact hf _ _ (h.entries j h0 hj)
    · exact h.entries j h0 hj

section Statements

variable {ρ : Type} {n : ℤ}

/-- The statements that only report an event; the events may differ. -/
theorem same_emit (e e' : Event) :
    Program.Related (SameStates n) Eq (emit e : Proc ρ Unit) (emit e') :=
  Program.related_step rfl fun _ _ h => h

theorem same_modifyEntry (i : ℤ) {f : UuidTableEntry → UuidTableEntry} (hf : KeepsSame f) :
    Program.Related (SameStates n) Eq (modifyEntry i f : Proc ρ Unit) (modifyEntry i f) :=
  Program.related_step rfl fun _ _ h => ⟨h.1.modify i hf, h.2⟩

theorem same_setXxx (i : ℤ) {f : UuidTableEntry → UuidTableEntry} (hf : KeepsSame f) :
    Program.Related (SameStates n) Eq (setXxx i f) (setXxx i f) := by
  refine Program.related_bind Program.related_read fun s s' h => ?_
  refine Program.related_ite (by rw [h.1.num]) (fun _ => ?_) fun _ => Program.related_pure rfl
  exact Program.related_bind (same_modifyEntry i hf) fun _ _ _ => Program.related_pure rfl

theorem same_giveUp (i retVal : ℤ) : Program.Related (SameStates n) Eq
    (do giveUp i; out retVal : ProcOut Unit) (do giveUp i; out retVal) := by
  have hset : KeepsSame setCouldNotProcess :=
    fun _ _ h => ⟨h.uuid, h.processed, rfl, h.numRegions⟩
  refine Program.related_bind (Program.related_bind (same_setXxx i hset) fun _ _ _ =>
    Program.related_pure rfl) fun _ _ _ => ?_
  exact Program.related_exit _

/-- A reload delivers the same entry. -/
theorem same_reload {i : ℤ} (h0 : 0 ≤ i) (hi : i < n) (malloc : Bool) :
    Program.Related (SameStates n) SameEntry (reload i malloc) (reload i malloc) := by
  refine Program.related_bind Program.related_read fun s s' h => ?_
  have hin : i < s.table.tableNumEntries := h.2 ▸ hi
  have hlt : ¬ i ≥ s.table.tableNumEntries := by omega
  have hlt' : ¬ i ≥ s'.table.tableNumEntries := by rw [h.1.num]; exact hlt
  unfold tableEntryAtIndexCopy
  rw [if_neg hlt, if_neg hlt']
  cases malloc with
  | false => exact Program.related_exit _
  | true => exact Program.related_pure (h.1.entries i h0 hin)

end Statements

/-! ### `initialize_memory_uuid` -/

section InitializeMemory

variable {n : ℤ}

theorem keepsSame_countRegion : KeepsSame countRegion := by
  intro e e' h
  refine ⟨h.uuid, h.processed, h.couldNotProcess, ?_⟩
  show e'.memory.numRegions + 1 = e.memory.numRegions + 1
  rw [h.numRegions]

theorem same_addRegion (vmfd i : ℤ) (mmap : Option UInt64) (size : UInt32)
    {fill : UInt64 → UuidTableEntry → UuidTableEntry} (hfill : ∀ mem, KeepsSame (fill mem))
    (region : VmMemory → KvmUserspaceMemoryRegion) (ret : ℤ) :
    Program.Related (SameStates n) Eq (addRegion vmfd i mmap size fill region ret)
      (addRegion vmfd i mmap size fill region ret) := by
  cases mmap with
  | none => exact Program.related_exit _
  | some mem =>
      refine Program.related_bind (same_emit _ _) fun _ _ _ => ?_
      refine Program.related_bind (same_modifyEntry i (hfill mem)) fun _ _ _ => ?_
      refine Program.related_bind Program.related_read fun s s' _ => ?_
      refine Program.related_bind (same_emit _ _) fun _ _ _ => ?_
      refine Program.related_bind (Program.related_onlyIf rfl Iff.rfl (Program.related_exit _))
        fun _ _ _ => ?_
      exact same_modifyEntry i keepsSame_countRegion

theorem same_initializeEntry (env : MemoryEnv) (vmfd : ℤ) {i : ℤ} (h0 : 0 ≤ i) (hi : i < n) :
    Program.Related (SameStates n) Eq (initializeEntry env vmfd i)
      (initializeEntry env vmfd i) := by
  refine Program.related_bind Program.related_read fun s s' h => ?_
  have hnum := (h.1.entries i h0 (h.2 ▸ hi)).numRegions
  refine Program.related_bind (Program.related_onlyIf rfl (by rw [hnum])
    (Program.related_exit _)) fun _ _ _ => ?_
  refine Program.related_bind (Program.related_onlyIf rfl (by rw [hnum])
    (Program.related_exit _)) fun _ _ _ => ?_
  refine Program.related_bind (same_addRegion vmfd i env.mmapIDT env.pageSize
    (fun mem => (setRegionIDT_changesMemory _ mem).keepsSame fun _ => rfl)
    VmMemory.regionIDT env.setIDT) fun _ _ _ => ?_
  cases getUuidLayout env.layoutInit with
  | none => exact Program.related_exit _
  | some initLayout =>
      refine Program.related_bind (same_addRegion vmfd i env.mmapInit initLayout.size
        (fun mem => (setRegionInit_changesMemory _ mem).keepsSame fun _ => rfl)
        VmMemory.regionInit env.setInit) fun _ _ _ => ?_
      cases getUuidLayout env.layoutCore with
      | none => exact Program.related_exit _
      | some coreLayout =>
          exact same_addRegion vmfd i env.mmapCore coreLayout.size
            (fun mem => (setRegionCore_changesMemory _ mem).keepsSame fun _ => rfl)
            VmMemory.regionCore env.setCore

theorem same_scanUuid (debugOn : Bool) (env : MemoryEnv) (uuid : Uuid) (vmfd : ℤ) :
    ∀ (is : List ℤ) (found : Bool), (∀ i ∈ is, 0 ≤ i ∧ i < n) →
    Program.Related (SameStates n) Eq (scanUuid debugOn env uuid vmfd is found)
      (scanUuid debugOn env uuid vmfd is found) := by
  intro is
  induction is with
  | nil => exact fun found _ => Program.related_pure rfl
  | cons i is ih =>
      intro found hin
      obtain ⟨h0, hi⟩ := hin i List.mem_cons_self
      have hrest : ∀ j ∈ is, 0 ≤ j ∧ j < n := fun j hj => hin j (List.mem_cons_of_mem i hj)
      refine Program.related_bind Program.related_read fun s s' h => ?_
      have huuid := (h.1.entries i h0 (h.2 ▸ hi)).uuid
      refine Program.related_ite (by rw [huuid]) (fun _ => ?_) fun _ => ih found hrest
      refine Program.related_bind (Program.related_onlyIf rfl Iff.rfl (Program.related_exit _))
        fun _ _ _ => ?_
      refine Program.related_bind (same_initializeEntry env vmfd h0 hi) fun _ _ _ => ?_
      exact Program.related_ite Iff.rfl (fun _ => ih true hrest) fun _ => Program.related_pure rfl

theorem same_initializeMemoryUuid (debugOn : Bool) (env : MemoryEnv) (uuid : Uuid)
    (vmfd : ℤ) : Program.Related (SameStates n) Eq
      (initializeMemoryUuid debugOn env uuid vmfd)
      (initializeMemoryUuid debugOn env uuid vmfd) := by
  refine Program.related_bind Program.related_read fun s s' h => ?_
  rw [h.1.num, h.2]
  refine Program.related_bind (same_scanUuid debugOn env uuid vmfd _ false
    fun i hi => mem_entryIndices.mp hi) fun found found' hfound => ?_
  rw [hfound]
  exact Program.related_ite Iff.rfl (fun _ => Program.related_pure rfl) fun _ =>
    Program.related_pure rfl

end InitializeMemory

/-! ### `process_entry` -/

section ProcessEntry

variable {n : ℤ}

theorem keepsSame_setVmfd (vmfd : ℤ) : KeepsSame (setVmfd vmfd) :=
  fun _ _ h => ⟨h.uuid, h.processed, h.couldNotProcess, h.numRegions⟩

theorem keepsSame_setVcpufd (vcpufd : ℤ) : KeepsSame (setVcpufd vcpufd) :=
  fun _ _ h => ⟨h.uuid, h.processed, h.couldNotProcess, h.numRegions⟩

theorem keepsSame_setProcessed : KeepsSame setProcessed :=
  fun _ _ h => ⟨h.uuid, rfl, h.couldNotProcess, h.numRegions⟩

/-- A failing branch that does not look at the table. -/
theorem same_leave {c : Prop} [Decidable c] {x : ProcOut Unit}
    (h : Program.Related (SameStates n) Eq x x) :
    Program.Related (SameStates n) Eq (Program.onlyIf c x) (Program.onlyIf c x) :=
  Program.related_onlyIf rfl Iff.rfl h

theorem same_out (retVal : ℤ) :
    Program.Related (SameStates n) Eq (out retVal : ProcOut Unit) (out retVal) :=
  Program.related_exit _

theorem same_runVcpu (i vcpufd : ℤ) (mmapRun : RunMapping) : ∀ exits,
    Program.Related (SameStates n) Eq (runVcpu i vcpufd mmapRun exits)
      (runVcpu i vcpufd mmapRun exits) := by
  intro exits
  induction exits with
  | nil => exact Program.related_exit _
  | cons x rest ih =>
      refine Program.related_bind (same_emit _ _) fun _ _ _ => ?_
      refine Program.related_bind (same_leave (same_out _)) fun _ _ _ => ?_
      refine Program.related_bind (same_leave (Program.related_exit _)) fun _ _ _ => ?_
      cases x.reason with
      | hlt =>
          refine Program.related_bind (same_setXxx i keepsSame_setProcessed) fun _ _ herr => ?_
          rw [herr]
          exact Program.related_ite Iff.rfl (fun _ => Program.related_pure rfl) fun _ =>
            Program.related_pure rfl
      | io direction size port count data =>
          exact Program.related_bind (same_leave (same_emit _ _)) fun _ _ _ => ih
      | failEntry => exact Program.related_pure rfl
      | internalError => exact Program.related_pure rfl
      | other reason => exact ih

theorem same_startVcpu (env : ProcessEnv) {i : ℤ} (h0 : 0 ≤ i) (hi : i < n) (vmfd : ℤ) :
    Program.Related (SameStates n) Eq (startVcpu env i vmfd) (startVcpu env i vmfd) := by
  refine Program.related_bind (same_emit _ _) fun _ _ _ => ?_
  refine Program.related_bind (same_leave (same_giveUp i _)) fun _ _ _ => ?_
  refine Program.related_bind (same_setXxx i (keepsSame_setVcpufd _)) fun errno _ herr => ?_
  rw [← herr]
  refine Program.related_bind (same_leave (same_giveUp i _)) fun _ _ _ => ?_
  refine Program.related_bind (same_leave (same_giveUp i _)) fun _ _ _ => ?_
  refine Program.related_bind (same_leave (same_out _)) fun _ _ _ => ?_
  refine Program.related_bind (same_leave (same_out _)) fun _ _ _ => ?_
  refine Program.related_bind (same_leave (same_out _)) fun _ _ _ => ?_
  refine Program.related_bind (same_emit _ _) fun _ _ _ => ?_
  refine Program.related_bind (same_leave (same_out _)) fun _ _ _ => ?_
  refine Program.related_bind (same_reload h0 hi env.mallocRegs) fun _ _ _ => ?_
  refine Program.related_bind (same_emit _ _) fun _ _ _ => ?_
  refine Program.related_bind (same_leave (same_out _)) fun _ _ _ => ?_
  exact same_runVcpu i env.createVcpu env.mmapRun env.exits

theorem same_processPicked (debugOn : Bool) (env : ProcessEnv) {i : ℤ} (h0 : 0 ≤ i)
    (hi : i < n) {ptr ptr' : UuidTableEntry} (hptr : SameEntry ptr ptr') :
    Program.Related (SameStates n) Eq (processPicked debugOn env i ptr)
      (processPicked debugOn env i ptr') := by
  unfold processPicked
  rw [hptr.uuid]
  refine Program.related_bind (same_emit _ _) fun _ _ _ => ?_
  refine Program.related_bind (same_leave (same_giveUp i _)) fun _ _ _ => ?_
  refine Program.related_bind (same_setXxx i (keepsSame_setVmfd _)) fun errno _ herr => ?_
  rw [← herr]
  refine Program.related_bind (same_leave (same_giveUp i _)) fun _ _ _ => ?_
  refine Program.related_bind (Program.related_call (same_initializeMemoryUuid debugOn
    env.memory ptr.uuid env.createVm)) fun retVal _ hret => ?_
  rw [← hret]
  refine Program.related_bind (same_leave (same_giveUp i _)) fun _ _ _ => ?_
  refine Program.related_bind (same_reload h0 hi env.mallocPacket) fun _ _ _ => ?_
  refine Program.related_bind (same_emit _ _) fun _ _ _ => ?_
  refine Program.related_bind (same_leave (same_giveUp i _)) fun _ _ _ => ?_
  refine Program.related_bind (same_reload h0 hi env.mallocReload) fun _ _ _ => ?_
  exact same_startVcpu env h0 hi env.createVm

theorem same_scanEntries (debugOn : Bool) (env : ProcessEnv) : ∀ is : List ℤ,
    (∀ i ∈ is, 0 ≤ i) → Program.Related (SameStates n) Eq (scanEntries debugOn env is)
      (scanEntries debugOn env is) := by
  intro is
  induction is with
  | nil => exact fun _ => Program.related_pure rfl
  | cons i is ih =>
      intro hin
      have h0 : 0 ≤ i := hin i List.mem_cons_self
      refine Program.related_bind Program.related_read fun s s' h => ?_
      unfold tableEntryAtIndexCopy
      rw [h.1.num]
      by_cases hi : i ≥ s.table.tableNumEntries
      · rw [if_pos hi, if_pos hi]
        exact Program.related_exit _
      · rw [if_neg hi, if_neg hi]
        have hentry := h.1.entries i h0 (by omega)
        cases env.mallocScan i with
        | false => exact Program.related_exit _
        | true =>
            have hp := hentry.processed
            have hc := hentry.couldNotProcess
            refine Program.related_ite (by rw [hp, hc]) (fun _ => Program.related_exit _)
              fun _ => Program.related_ite (by rw [hp, hc]) (fun _ => ?_) fun _ => ?_
            · exact same_processPicked debugOn env h0 (by have := h.2; omega) hentry
            · exact ih fun j hj => hin j (List.mem_cons_of_mem i hj)

theorem same_processEntry (debugOn : Bool) (env : ProcessEnv) :
    Program.Related (SameStates n) Eq (processEntry debugOn env) (processEntry debugOn env) := by
  refine Program.related_bind Program.related_read fun s s' h => ?_
  have hnum : getTableNumEntries s'.table = getTableNumEntries s.table :=
    congrArg toInt h.1.num
  rw [hnum]
  refine Program.related_ite Iff.rfl (fun _ => Program.related_pure rfl) fun _ => ?_
  refine Program.related_ite Iff.rfl (fun _ => Program.related_exit _) fun _ => ?_
  exact same_scanEntries debugOn env _ fun i hi => (mem_entryIndices.mp hi).1

end ProcessEntry

/-- A call of `process_entry` leaves the two tables the same. -/
theorem SameTable.tableAfter {t t' : UuidTable} (h : SameTable t t') (debugOn : Bool)
    (env : ProcessEnv) :
    SameTable (tableAfter debugOn env t) (Server.tableAfter debugOn env t') :=
  (same_processEntry debugOn env ⟨t, []⟩ ⟨t', []⟩ ⟨h, rfl⟩).1.1

theorem SameTable.registers {t t' : UuidTable} (h : SameTable t t') (env : ProcessEnv) :
    registers env t' = registers env t := by
  have hpicked : ∀ is : List ℤ, (∀ i ∈ is, 0 ≤ i) → picked env t' is = picked env t is := by
    intro is
    induction is with
    | nil => exact fun _ => rfl
    | cons i is ih =>
        intro hin
        have hrest := ih fun j hj => hin j (List.mem_cons_of_mem i hj)
        unfold picked tableEntryAtIndexCopy
        rw [h.num]
        by_cases hi : i ≥ t.tableNumEntries
        · rw [if_pos hi, if_pos hi]
        · have hentry := h.entries i (hin i List.mem_cons_self) (by omega)
          rw [if_neg hi, if_neg hi]
          cases env.mallocScan i with
          | false => rfl
          | true => simp only [if_true, hentry.processed, hentry.couldNotProcess, hrest]
  have hnum : getTableNumEntries t' = getTableNumEntries t := congrArg toInt h.num
  unfold Server.registers
  rw [hnum, hpicked _ fun i hi => (mem_entryIndices.mp hi).1]
  cases hi : picked env t (entryIndices (getTableNumEntries t)) with
  | none => rfl
  | some i =>
      obtain ⟨hmem, hlt⟩ := picked_inRange hi
      have huuid := (h.entries i (mem_entryIndices.mp hmem).1 hlt).uuid
      simp only [huuid, uuidRegisters_congr env.memory h]

/-! ## The path -/

/-- What the memory holds that the server allocates: the block of `table_init`, the
block that `new_memory` gets in call `n`, and the new part of a table that is enlarged
then. -/
structure StaleHeap where
  table : ℤ → UuidTableEntry
  block : ℕ → VmMemory
  tail : ℕ → ℤ → UuidTableEntry

/-- A call on the path, with what the environment answers. `scribble` is a write of
another owner of the heap. -/
inductive PathCall where
  | getNewEntry (ioctlRet : ℤ) (uuid : Uuid) (malloc : Bool)
      (realloc : ℤ → Realloc UuidTableEntry)
  | processEntry (env : ProcessEnv)
  | scribble (mem : ℤ → UuidTableEntry)

/-- The answer of `realloc`, with `tail` behind the first `n` entries. -/
def withTail (n : ℤ) (tail : ℤ → UuidTableEntry) :
    Realloc UuidTableEntry → Realloc UuidTableEntry
  | .failed errno => .failed errno
  | .inPlace mem => .inPlace fun i => if i < n then mem i else tail i
  | .moved mem => .moved fun i => if i < n then mem i else tail i

/-- The table after a call; `n` is the number of the call. -/
def pathStep (debugOn : Bool) (h : StaleHeap) (n : ℕ) (t : UuidTable) : PathCall → UuidTable
  | .getNewEntry ioctlRet uuid malloc realloc =>
      (getNewEntry t ioctlRet uuid
        ⟨if malloc = true then some (h.block n) else none,
          fun bytes => withTail t.tableNumEntries (h.tail n) (realloc bytes)⟩).2
  | .processEntry env => tableAfter debugOn env t
  | .scribble mem => { t with uuidTable := t.uuidTable.disturb mem }

/-- What KVM is told by one call. -/
def PathCall.told (debugOn : Bool) (t : UuidTable) : PathCall → List KvmUserspaceMemoryRegion
  | .processEntry env => toldBy debugOn env t
  | _ => []

/-- What KVM is told by the calls from number `n` on. -/
def toldFrom (debugOn : Bool) (h : StaleHeap) :
    ℕ → UuidTable → List PathCall → List KvmUserspaceMemoryRegion
  | _, _, [] => []
  | n, t, c :: cs => c.told debugOn t ++ toldFrom debugOn h (n + 1) (pathStep debugOn h n t c) cs

/-- The table that the path begins with. -/
def StaleHeap.start (h : StaleHeap) : UuidTable := UuidTable.fresh (fun _ => default) h.table

/-- What KVM is told on the whole path. -/
def StaleHeap.told (debugOn : Bool) (h : StaleHeap) (calls : List PathCall) :
    List KvmUserspaceMemoryRegion :=
  toldFrom debugOn h 0 h.start calls

/-! ### The tables stay alike -/

section Alike

variable {R : UuidTableEntry → UuidTableEntry → Prop} {t t' : UuidTable}

theorem Alike.store (h : Alike R t t') {e e' : UuidTableEntry} (he : R e e') :
    Alike R (t.store e) (t'.store e') where
  size := h.size
  num := congrArg (· + 1) h.num
  isNull := h.isNull
  room := h.room
  live := h.live
  entries := by
    intro j h0 hj
    have hj' : j < t.tableNumEntries + 1 := hj
    by_cases hlast : j = t.tableNumEntries
    · have hlast' : j = t'.tableNumEntries := by rw [h.num]; exact hlast
      have hnew : (t.store e).entry j = e := by rw [hlast, store_entry_last]
      have hnew' : (t'.store e').entry j = e' := by rw [hlast', store_entry_last]
      rw [hnew, hnew']
      exact he
    · rw [store_entry_ne t e hlast, store_entry_ne t' e' (by rw [h.num]; exact hlast)]
      exact h.entries j h0 (by omega)

theorem Alike.newSizeBytes (h : Alike R t t') :
    t'.newSizeBytes = t.newSizeBytes := by
  unfold UuidTable.newSizeBytes UuidTable.newsize
  rw [h.size]

theorem Alike.regrown (h : Alike R t t') (hrefl : ∀ e, R e e)
    (tail tail' : ℤ → UuidTableEntry) (r : Realloc UuidTableEntry) :
    Alike R (t.regrown (withTail t.tableNumEntries tail r))
      (t'.regrown (withTail t'.tableNumEntries tail' r)) := by
  have hnew : t'.newsize = t.newsize := by
    unfold UuidTable.newsize
    rw [h.size]
  cases r with
  | failed errno => exact h
  | inPlace mem =>
      refine ⟨hnew, h.num, rfl, ?_, rfl, fun j h0 hj => ?_⟩
      · show t'.newSizeBytes / sizeofEntry = t.newSizeBytes / sizeofEntry
        rw [h.newSizeBytes]
      · have hj' : j < t.tableNumEntries := hj
        show R (if 0 ≤ j ∧ j < t.uuidTable.room then t.entry j else
            if j < t.tableNumEntries then mem j else tail j)
          (if 0 ≤ j ∧ j < t'.uuidTable.room then t'.entry j else
            if j < t'.tableNumEntries then mem j else tail' j)
        rw [h.room, h.num, if_pos hj', if_pos hj']
        split
        · exact h.entries j h0 hj'
        · exact hrefl _
  | moved mem => exact ⟨hnew, h.num, h.isNull, h.room, rfl, h.entries⟩

theorem Alike.disturb (h : Alike R t t') (hrefl : ∀ e, R e e) (mem : ℤ → UuidTableEntry) :
    Alike R { t with uuidTable := t.uuidTable.disturb mem }
      { t' with uuidTable := t'.uuidTable.disturb mem } where
  size := h.size
  num := h.num
  isNull := h.isNull
  room := h.room
  live := h.live
  entries := by
    intro j h0 hj
    show R (if t.uuidTable.Owns j then t.entry j else mem j)
      (if t'.uuidTable.Owns j then t'.entry j else mem j)
    have howns : t'.uuidTable.Owns j ↔ t.uuidTable.Owns j := by
      unfold HeapArray.Owns
      rw [h.live, h.room]
    by_cases hown : t.uuidTable.Owns j
    · rw [if_pos hown, if_pos (howns.mpr hown)]
      exact h.entries j h0 hj
    · rw [if_neg hown, if_neg (mt howns.mp hown)]
      exact hrefl _

theorem Alike.tablePut (h : Alike R t t') (hrefl : ∀ e, R e e) {e e' : UuidTableEntry}
    (he : R e e') (tail tail' : ℤ → UuidTableEntry) (realloc : ℤ → Realloc UuidTableEntry) :
    Alike R (tablePut t e fun bytes => withTail t.tableNumEntries tail (realloc bytes)).2
      (Server.tablePut t' e' fun bytes =>
        withTail t'.tableNumEntries tail' (realloc bytes)).2 := by
  unfold Server.tablePut
  rw [h.isNull, h.size, h.num, h.newSizeBytes]
  by_cases hnull : t.uuidTable.isNull = true
  · rw [if_pos hnull, if_pos hnull]
    exact h
  · rw [if_neg hnull, if_neg hnull]
    by_cases hfull : t.tableNumEntries = t.uuidTableSize
    · rw [if_pos hfull, if_pos hfull]
      have hgrown := h.regrown hrefl tail tail' (realloc t.newSizeBytes)
      rw [h.num] at hgrown
      cases hr : realloc t.newSizeBytes with
      | failed errno =>
          simp only [hr]
          exact h
      | inPlace mem =>
          simp only [hr] at hgrown ⊢
          exact hgrown.store he
      | moved mem =>
          simp only [hr] at hgrown ⊢
          exact hgrown.store he
    · rw [if_neg hfull, if_neg hfull]
      by_cases hover : t.tableNumEntries > t.uuidTableSize
      · rw [if_pos hover, if_pos hover]
        exact h
      · rw [if_neg hover, if_neg hover]
        exact h.store he

/-- A call of `get_new_entry` on two heaps. -/
theorem Alike.getNewEntry (h : Alike R t t') (hrefl : ∀ e, R e e) {m m' : VmMemory}
    (uuid : Uuid) (hnew : ∀ memory memory', newMemory (some m) = some memory →
      newMemory (some m') = some memory' → R (newEntry uuid memory) (newEntry uuid memory'))
    (ioctlRet : ℤ) (malloc : Bool) (tail tail' : ℤ → UuidTableEntry)
    (realloc : ℤ → Realloc UuidTableEntry) :
    Alike R (getNewEntry t ioctlRet uuid ⟨if malloc = true then some m else none,
        fun bytes => withTail t.tableNumEntries tail (realloc bytes)⟩).2
      (Server.getNewEntry t' ioctlRet uuid ⟨if malloc = true then some m' else none,
        fun bytes => withTail t'.tableNumEntries tail' (realloc bytes)⟩).2 := by
  by_cases hone : ioctlRet = 1
  · subst hone
    cases malloc with
    | false => exact h
    | true => exact h.tablePut hrefl (hnew _ _ rfl rfl) tail tail' realloc
  · unfold Server.getNewEntry
    simp only [hone, if_false]
    split_ifs
    all_goals exact h

end Alike

/-- Every call keeps the two tables the same, whatever the memory holds. -/
theorem SameTable.pathStep {t t' : UuidTable} (hsame : SameTable t t') (debugOn : Bool)
    (h h' : StaleHeap) (n : ℕ) (c : PathCall) :
    SameTable (pathStep debugOn h n t c) (Server.pathStep debugOn h' n t' c) := by
  cases c with
  | getNewEntry ioctlRet uuid malloc realloc =>
      refine hsame.getNewEntry SameEntry.refl uuid (fun memory memory' hm hm' => ?_) ioctlRet
        malloc (h.tail n) (h'.tail n) realloc
      -- the records differ, but both are cleared of regions
      obtain rfl := Option.some.inj hm
      obtain rfl := Option.some.inj hm'
      exact ⟨rfl, rfl, rfl, rfl⟩
  | processEntry env => exact hsame.tableAfter debugOn env
  | scribble mem => exact hsame.disturb SameEntry.refl mem

/-- Both paths begin with an empty table. -/
theorem start_alike {R : UuidTableEntry → UuidTableEntry → Prop} (h h' : StaleHeap) :
    Alike R h.start h'.start :=
  ⟨rfl, rfl, rfl, rfl, rfl, fun j h0 hj => absurd (show j < 0 from hj) (by omega)⟩

/-! ## What KVM is told in the two runs -/

/-- The records that are passed to KVM hold the same flags in both runs. -/
def PathCall.FlagsAgree (t t' : UuidTable) : PathCall → Prop
  | .processEntry env =>
      ∀ p ∈ registers env t, flagsOf t p.1 p.2 = flagsOf t' p.1 p.2
  | _ => True

/-- So at every call from number `n` on. -/
def FlagsAgree (debugOn : Bool) (h h' : StaleHeap) :
    ℕ → UuidTable → UuidTable → List PathCall → Prop
  | _, _, _, [] => True
  | n, t, t', c :: cs => c.FlagsAgree t t' ∧
      FlagsAgree debugOn h h' (n + 1) (pathStep debugOn h n t c) (pathStep debugOn h' n t' c) cs

theorem registered_inj (env : MemoryEnv) (flags flags' : UInt32) (k : RegionKind) :
    env.registered flags k = env.registered flags' k ↔ flags = flags' := by
  constructor
  · intro h
    rw [← registered_flags env flags k, h, registered_flags]
  · rintro rfl
    rfl

theorem PathCall.told_length {t t' : UuidTable} (hsame : SameTable t t') (debugOn : Bool)
    (c : PathCall) : (c.told debugOn t).length = (c.told debugOn t').length := by
  cases c with
  | processEntry env =>
      show (toldBy debugOn env t).length = (toldBy debugOn env t').length
      rw [toldBy_eq, toldBy_eq, hsame.registers]
      unfold MemoryEnv.tells
      rw [List.length_map, List.length_map]
  | getNewEntry ioctlRet uuid malloc realloc => rfl
  | scribble mem => rfl

/-- One call: all but the flags is decided by what both runs see. -/
theorem PathCall.told_eq_iff {t t' : UuidTable} (hsame : SameTable t t') (debugOn : Bool)
    (c : PathCall) : c.told debugOn t = c.told debugOn t' ↔ c.FlagsAgree t t' := by
  cases c with
  | processEntry env =>
      show toldBy debugOn env t = toldBy debugOn env t' ↔ _
      rw [toldBy_eq, toldBy_eq, hsame.registers]
      unfold MemoryEnv.tells PathCall.FlagsAgree
      rw [List.map_inj_left]
      simp only [registered_inj]
  | getNewEntry ioctlRet uuid malloc realloc => exact ⟨fun _ => trivial, fun _ => rfl⟩
  | scribble mem => exact ⟨fun _ => trivial, fun _ => rfl⟩

theorem toldFrom_eq_iff (debugOn : Bool) (h h' : StaleHeap) : ∀ (calls : List PathCall)
    (n : ℕ) (t t' : UuidTable), SameTable t t' →
    (toldFrom debugOn h n t calls = toldFrom debugOn h' n t' calls ↔
      FlagsAgree debugOn h h' n t t' calls) := by
  intro calls
  induction calls with
  | nil => exact fun _ _ _ _ => ⟨fun _ => trivial, fun _ => rfl⟩
  | cons c calls ih =>
      intro n t t' hsame
      have hrest := ih (n + 1) _ _ (hsame.pathStep debugOn h h' n c)
      constructor
      · intro heq
        obtain ⟨hcall, htail⟩ := List.append_inj heq (c.told_length hsame debugOn)
        exact ⟨(c.told_eq_iff hsame debugOn).mp hcall, hrest.mp htail⟩
      · rintro ⟨hcall, htail⟩
        unfold toldFrom
        rw [(c.told_eq_iff hsame debugOn).mpr hcall, hrest.mpr htail]

/-- **What KVM is told depends on stale flags, and on nothing else that is stale.** Two
runs that differ in what allocated memory holds tell KVM the same exactly when, at every
call of `process_entry`, the records that are registered hold the same flags. -/
theorem told_eq_iff_flagsAgree (debugOn : Bool) (h h' : StaleHeap) (calls : List PathCall) :
    h.told debugOn calls = h'.told debugOn calls ↔
      FlagsAgree debugOn h h' 0 h.start h'.start calls :=
  toldFrom_eq_iff debugOn h h' calls 0 _ _ (start_alike h h')

def zeroedHeap : StaleHeap := ⟨fun _ => default, fun _ => default, fun _ _ => default⟩

/-- Where the flags of the IDT's record will be there is a 1. -/
def dirtyHeap : StaleHeap :=
  { zeroedHeap with block := fun _ =>
      { (default : VmMemory) with
        regionIDT := { (default : KvmUserspaceMemoryRegion) with flags := 1 } } }

/-- One module is received and processed, and nothing fails. -/
def oneModule : List PathCall :=
  [.getNewEntry 1 1 true fun _ => .failed 12, .processEntry okEnv]

theorem stale_flags_reach_kvm :
    ¬ ∀ (debugOn : Bool) (h h' : StaleHeap) (calls : List PathCall),
      h.told debugOn calls = h'.told debugOn calls := by
  intro hall
  have htold := hall true zeroedHeap dirtyHeap oneModule
  simp only [StaleHeap.told, oneModule, toldFrom, PathCall.told, toldBy_eq] at htold
  revert htold
  decide

/-! ### Clean memory is enough -/

/-- Two entries that are the same, and hold the same flags. -/
def SameRecords (e e' : UuidTableEntry) : Prop :=
  SameEntry e e' ∧ ∀ k, (region e.memory k).flags = (region e'.memory k).flags

theorem SameRecords.refl (e : UuidTableEntry) : SameRecords e e :=
  ⟨SameEntry.refl e, fun _ => rfl⟩

/-- The flags of a record are those of the block that `new_memory` got: while the blocks
agree, so do the tables. -/
theorem Alike.pathStep {t t' : UuidTable} (hsame : Alike SameRecords t t') (debugOn : Bool)
    {h h' : StaleHeap} {n : ℕ}
    (hblock : ∀ k, (region (h.block n) k).flags = (region (h'.block n) k).flags)
    (c : PathCall) :
    Alike SameRecords (pathStep debugOn h n t c) (Server.pathStep debugOn h' n t' c) := by
  cases c with
  | getNewEntry ioctlRet uuid malloc realloc =>
      refine hsame.getNewEntry SameRecords.refl uuid (fun memory memory' hm hm' => ?_) ioctlRet
        malloc (h.tail n) (h'.tail n) realloc
      obtain rfl := Option.some.inj hm
      obtain rfl := Option.some.inj hm'
      refine ⟨⟨rfl, rfl, rfl, rfl⟩, fun k => ?_⟩
      have hk := hblock k
      cases k <;> exact hk
  | processEntry env =>
      have hentries : SameTable t t' :=
        { hsame with entries := fun j h0 hj => (hsame.entries j h0 hj).1 }
      have hafter := hentries.tableAfter debugOn env
      refine { hafter with entries := fun j h0 hj => ⟨hafter.entries j h0 hj, fun k => ?_⟩ }
      have hlt : j < t.tableNumEntries := tableAfter_num debugOn env t ▸ hj
      calc flagsOf (tableAfter debugOn env t) j k
          = flagsOf t j k := congrFun (flagsOf_tableAfter debugOn env t j) k
        _ = flagsOf t' j k := (hsame.entries j h0 hlt).2 k
        _ = flagsOf (tableAfter debugOn env t') j k :=
            (congrFun (flagsOf_tableAfter debugOn env t' j) k).symm
  | scribble mem => exact hsame.disturb SameRecords.refl mem

theorem flagsAgree_of_alike (debugOn : Bool) {h h' : StaleHeap}
    (hblock : ∀ n k, (region (h.block n) k).flags = (region (h'.block n) k).flags) :
    ∀ (calls : List PathCall) (n : ℕ) (t t' : UuidTable), Alike SameRecords t t' →
      FlagsAgree debugOn h h' n t t' calls := by
  intro calls
  induction calls with
  | nil => exact fun _ _ _ _ => trivial
  | cons c calls ih =>
      intro n t t' hsame
      refine ⟨?_, ih (n + 1) _ _ (hsame.pathStep debugOn (hblock n) c)⟩
      cases c with
      | processEntry env =>
          intro p hp
          obtain ⟨h0, hlt⟩ := registers_inRange hp
          exact (hsame.entries p.1 h0 hlt).2 p.2
      | getNewEntry ioctlRet uuid malloc realloc => trivial
      | scribble mem => trivial

/-- While the blocks that `new_memory` gets hold the same flags, say none, nothing else in
the heap matters. -/
theorem told_eq_of_blocks (debugOn : Bool) {h h' : StaleHeap}
    (hblock : ∀ n k, (region (h.block n) k).flags = (region (h'.block n) k).flags)
    (calls : List PathCall) : h.told debugOn calls = h'.told debugOn calls := by
  apply (toldFrom_eq_iff debugOn h h' calls 0 _ _ (start_alike h h')).mpr
  exact flagsAgree_of_alike debugOn hblock calls 0 _ _ (start_alike h h')

end LxcUio.Server
