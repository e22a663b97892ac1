import LxcUio.Proxy.Packet
import LxcUio.Proxy.UserData

/-!
# Lookups by uuid

The ioctls `kvm_host_server_get_uuid_size`, `kvm_host_server_get_init_layout` and
`kvm_host_server_get_core_layout` on the memory of the caller: the buffer brings in a uuid
and takes away a value of the module. All three go through `table_get_copy` and take every
pointer other than NULL for an entry with the uuid.
-/

namespace LxcUio.Proxy

open LxcUio.Foundation

/-! ## The ioctls -/

/-- What the calls of a lookup answer: the bytes `copy_from_user` did not read, the block of
`table_get_copy`, and the bytes `copy_to_user` did not write. -/
structure LookupEnv where
  notRead : ℕ
  kmalloc : Option CopyBlock
  notCopied : ℕ

/-- A lookup that sends the `size` bytes `value` of the entry: the value returned and the
memory of the caller. -/
def lookupIoctl (size : ℕ) (value : ModuleTableStruct → ℕ → UInt8) (t : ModuleTable)
    (ptr : UserAddr) (env : LookupEnv) (mem : UserMem) : OrOops (ℤ × UserMem) :=
  if env.notRead = 0 then
    match tableGetCopy t (loadUuid mem ptr) env.kmalloc with
    | none => none
    | some none => some (-1, mem)
    | some (some none) => none
    | some (some (some entry)) =>
        let mem' := copyToUser mem ptr (value entry) size env.notCopied
        if env.notCopied = 0 then some (0, mem') else some (-(env.notCopied : ℤ), mem')
  else some (-(env.notRead : ℤ), mem)

/-- `unsigned int size=core_layout.size+init_layout.size`. -/
def KModule.uuidSize (m : KModule) : UInt32 := m.coreLayout.size + m.initLayout.size

def kvmHostServerGetUuidSize : ModuleTable → UserAddr → LookupEnv → UserMem →
    OrOops (ℤ × UserMem) :=
  lookupIoctl 4 fun entry => byteLE entry.mod.uuidSize.toNat

/-- The bytes of the layouts that have no name here are `rest`. -/
def kvmHostServerGetInitLayout (rest : ℕ → UInt8) : ModuleTable → UserAddr → LookupEnv →
    UserMem → OrOops (ℤ × UserMem) :=
  lookupIoctl sizeofModuleLayout fun entry => layoutByte entry.mod.initLayout rest

def kvmHostServerGetCoreLayout (rest : ℕ → UInt8) : ModuleTable → UserAddr → LookupEnv →
    UserMem → OrOops (ℤ × UserMem) :=
  lookupIoctl sizeofModuleLayout fun entry => layoutByte entry.mod.coreLayout rest

inductive LookupKind where
  | uuidSize
  | initLayout
  | coreLayout
deriving DecidableEq

def kvmHostServerLookup (rest : ℕ → UInt8) : LookupKind → ModuleTable → UserAddr →
    LookupEnv → UserMem → OrOops (ℤ × UserMem)
  | .uuidSize => kvmHostServerGetUuidSize
  | .initLayout => kvmHostServerGetInitLayout rest
  | .coreLayout => kvmHostServerGetCoreLayout rest

def LayoutKind.request : LayoutKind → LookupKind
  | .init => .initLayout
  | .core => .coreLayout

/-- The buffer holds the value that the ioctl sends of the module. -/
def LookupKind.Holds : LookupKind → UserMem → UserAddr → KModule → Prop
  | .uuidSize, mem, ptr, m => loadLE mem ptr 4 = m.uuidSize.toNat
  | .initLayout, mem, ptr, m => loadLayout mem ptr = m.initLayout
  | .coreLayout, mem, ptr, m => loadLayout mem ptr = m.coreLayout

/-! ## One lookup -/

section Lookup

variable {size : ℕ} {value : ModuleTableStruct → ℕ → UInt8} {t : ModuleTable} {ptr : UserAddr}
  {env : LookupEnv} {mem : UserMem}

theorem lookup_of_copy {entry : ModuleTableStruct}
    (h : tableGetCopy t (loadUuid mem ptr) env.kmalloc = some (some (some entry)))
    (hread : env.notRead = 0) (hcopied : env.notCopied = 0) :
    lookupIoctl size value t ptr env mem = some (0, copyToUser mem ptr (value entry) size 0) := by
  simp only [lookupIoctl, hread, hcopied, h, if_true]

theorem lookup_notCopied {entry : ModuleTableStruct}
    (h : tableGetCopy t (loadUuid mem ptr) env.kmalloc = some (some (some entry)))
    (hread : env.notRead = 0) (hcopied : env.notCopied ≠ 0) :
    lookupIoctl size value t ptr env mem =
      some (-(env.notCopied : ℤ), copyToUser mem ptr (value entry) size env.notCopied) := by
  simp only [lookupIoctl, hread, hcopied, h, if_true, if_false]

theorem lookup_null (hread : env.notRead = 0)
    (h : tableGetCopy t (loadUuid mem ptr) env.kmalloc = some none) :
    lookupIoctl size value t ptr env mem = some (-1, mem) := by
  simp only [lookupIoctl, hread, h, if_true]

theorem lookup_notRead (hread : env.notRead ≠ 0) :
    lookupIoctl size value t ptr env mem = some (-(env.notRead : ℤ), mem) := by
  simp only [lookupIoctl, hread, if_false]

/-- A NULL from `table_get_copy`, or a uuid that could not be read, changes nothing. -/
theorem lookup_refused (h : env.notRead = 0 → tableGetCopy t (loadUuid mem ptr) env.kmalloc =
    some none) : ∃ ret, lookupIoctl size value t ptr env mem = some (ret, mem) ∧ ret < 0 := by
  by_cases hread : env.notRead = 0
  · exact ⟨-1, lookup_null hread (h hread), by decide⟩
  · exact ⟨-(env.notRead : ℤ), lookup_notRead hread, by omega⟩

end Lookup

theorem tableGetCopy_of_noMemory (t : ModuleTable) (uuid : Uuid) :
    tableGetCopy t uuid none = some none :=
  rfl

/-- A buffer that a copy has filled. -/
theorem copyToUser_all (mem : UserMem) (dst : ℕ) (src : ℕ → UInt8) {n i : ℕ} (hi : i < n) :
    copyToUser mem dst src n 0 (dst + i) = src i := by
  have hin : dst ≤ dst + i ∧ dst + i < dst + (n - 0) := ⟨by omega, by omega⟩
  rw [copyToUser, if_pos hin, Nat.add_sub_cancel_left]

/-- A complete copy leaves the value in the buffer. -/
theorem lookup_holds (rest : ℕ → UInt8) (kind : LookupKind) {t : ModuleTable} {ptr : UserAddr}
    {env : LookupEnv} {mem : UserMem} {entry : ModuleTableStruct}
    (h : tableGetCopy t (loadUuid mem ptr) env.kmalloc = some (some (some entry)))
    (hread : env.notRead = 0) (hcopied : env.notCopied = 0) :
    ∃ mem', kvmHostServerLookup rest kind t ptr env mem = some (0, mem') ∧
      kind.Holds mem' ptr entry.mod := by
  cases kind with
  | uuidSize =>
      refine ⟨_, lookup_of_copy h hread hcopied, ?_⟩
      exact loadLE_of_lt (fun i hi => copyToUser_all mem ptr _ hi) (UInt32.toNat_lt _)
  | initLayout =>
      refine ⟨_, lookup_of_copy h hread hcopied, ?_⟩
      exact loadLayout_of_bytes fun i hi => copyToUser_all mem ptr _ hi
  | coreLayout =>
      refine ⟨_, lookup_of_copy h hread hcopied, ?_⟩
      exact loadLayout_of_bytes fun i hi => copyToUser_all mem ptr _ hi

theorem kvmHostServerLookup_refused (rest : ℕ → UInt8) (kind : LookupKind) {t : ModuleTable}
    {ptr : UserAddr} {env : LookupEnv} {mem : UserMem}
    (h : env.notRead = 0 → tableGetCopy t (loadUuid mem ptr) env.kmalloc = some none) :
    ∃ ret, kvmHostServerLookup rest kind t ptr env mem = some (ret, mem) ∧ ret < 0 := by
  cases kind with
  | uuidSize => exact lookup_refused h
  | initLayout => exact lookup_refused h
  | coreLayout => exact lookup_refused h

/-- The layout ioctls on the caller's memory return what their functions on the uuid return,
and leave the layout in the buffer that those deliver. -/
theorem lookup_getLayout (rest : ℕ → UInt8) (kind : LayoutKind) {t : ModuleTable}
    {ptr : UserAddr} {env : LookupEnv} {mem : UserMem} {ret : ℤ} {l : Option ModuleLayout}
    (h : kvmHostServerGetLayout kind t (loadUuid mem ptr) env.notRead env.kmalloc
      env.notCopied = some (ret, l)) :
    ∃ mem', kvmHostServerLookup rest kind.request t ptr env mem = some (ret, mem') ∧
      ∀ l' ∈ l, loadLayout mem' ptr = l' := by
  unfold kvmHostServerGetLayout at h
  by_cases hread : env.notRead = 0
  · rw [if_pos hread] at h
    rcases hcopy : tableGetCopy t (loadUuid mem ptr) env.kmalloc with _ | _ | _ | entry
    · rw [hcopy] at h
      cases h
    · rw [hcopy] at h
      obtain ⟨rfl, rfl⟩ := Prod.mk.inj (Option.some.inj h)
      refine ⟨mem, ?_, by rintro l' ⟨⟩⟩
      cases kind <;> exact lookup_null hread hcopy
    · rw [hcopy] at h
      cases h
    · simp only [hcopy] at h
      by_cases hcopied : env.notCopied = 0
      · rw [if_pos hcopied] at h
        obtain ⟨rfl, rfl⟩ := Prod.mk.inj (Option.some.inj h)
        obtain ⟨mem', hrun, hholds⟩ := lookup_holds rest kind.request hcopy hread hcopied
        refine ⟨mem', hrun, fun l' hl' => ?_⟩
        obtain rfl := Option.some.inj hl'
        cases kind <;> exact hholds
      · rw [if_neg hcopied] at h
        obtain ⟨rfl, rfl⟩ := Prod.mk.inj (Option.some.inj h)
        cases kind
        all_goals exact ⟨_, lookup_notCopied hcopy hread hcopied, by rintro l' ⟨⟩⟩
  · rw [if_neg hread] at h
    obtain ⟨rfl, rfl⟩ := Prod.mk.inj (Option.some.inj h)
    refine ⟨mem, ?_, by rintro l' ⟨⟩⟩
    cases kind <;> exact lookup_notRead hread

/-! ## Exact lookups -/

section Exact

variable (rest : ℕ → UInt8) (kind : LookupKind) (t : ModuleTable) (ptr : UserAddr)
  (env : LookupEnv) (mem : UserMem)

/-- **An exact lookup.** A known uuid is answered with the value of its first entry, an
unknown one with an error and an untouched memory; `table_get_copy` tells the two apart, and
hands out nothing that stood in the block before. -/
structure LookupExact : Prop where
  known : ∀ entry, t.entryOf (loadUuid mem ptr) = some entry → env.kmalloc.isSome = true →
    env.notRead = 0 → env.notCopied = 0 →
      ∃ mem', kvmHostServerLookup rest kind t ptr env mem = some (0, mem') ∧
        kind.Holds mem' ptr entry.mod
  unknown : t.entryOf (loadUuid mem ptr) = none →
    ∃ ret, kvmHostServerLookup rest kind t ptr env mem = some (ret, mem) ∧ ret < 0
  noMemory : env.kmalloc = none →
    ∃ ret, kvmHostServerLookup rest kind t ptr env mem = some (ret, mem) ∧ ret < 0
  null : tableGetCopy t (loadUuid mem ptr) env.kmalloc = some none ↔
    t.entryOf (loadUuid mem ptr) = none ∨ env.kmalloc = none
  fresh : ∀ stale, tableGetCopy t (loadUuid mem ptr) (env.kmalloc.map fun _ => stale) =
    tableGetCopy t (loadUuid mem ptr) env.kmalloc

end Exact

/-- **When a lookup is exact**: for a known uuid, and when there is no memory for the copy. -/
theorem lookupExact_iff (rest : ℕ → UInt8) (kind : LookupKind) (t : ModuleTable)
    (ptr : UserAddr) (env : LookupEnv) (mem : UserMem) :
    LookupExact rest kind t ptr env mem ↔
      env.kmalloc = none ∨ (t.entryOf (loadUuid mem ptr)).isSome = true := by
  obtain ⟨notRead, kmalloc, notCopied⟩ := env
  cases kmalloc with
  | none =>
      have hnull := tableGetCopy_of_noMemory t (loadUuid mem ptr)
      refine iff_of_true ⟨fun _ _ hsome => ?_, fun _ => ?_, fun _ => ?_, ?_, fun _ => rfl⟩
        (Or.inl rfl)
      · cases hsome
      · exact kvmHostServerLookup_refused rest kind fun _ => hnull
      · exact kvmHostServerLookup_refused rest kind fun _ => hnull
      · exact iff_of_true hnull (Or.inr rfl)
  | some stale =>
      cases hentry : t.entryOf (loadUuid mem ptr) with
      | none =>
          -- whatever comes out of table_get_copy, it is not NULL
          refine iff_of_false (fun hexact => ?_) (by simp)
          have hnull := hexact.null.mpr (Or.inl hentry)
          rw [tableGetCopy_of_unknown hentry] at hnull
          split at hnull
          · cases hnull
          · cases Option.some.inj hnull
      | some entry =>
          have hcopy : ∀ block, tableGetCopy t (loadUuid mem ptr) (some block) =
              some (some (some entry)) := fun block => tableGetCopy_of_entry hentry block
          refine iff_of_true ⟨fun e he _ hread hcopied => ?_, fun hnone => ?_, fun hnone => ?_,
            iff_of_false ?_ ?_, fun block => ?_⟩ (Or.inr rfl)
          · obtain rfl := Option.some.inj (hentry.symm.trans he)
            exact lookup_holds rest kind (hcopy stale) hread hcopied
          · rw [hentry] at hnone
            cases hnone
          · cases hnone
          · rw [hcopy stale]
            rintro ⟨⟩
          · rw [hentry]
            rintro (⟨⟨⟩⟩ | ⟨⟨⟩⟩)
          · exact (hcopy block).trans (hcopy stale).symm

/-- **A uuid that nobody put is answered**: the call returns 0 and sends what `kmalloc`
found in its block. -/
theorem lookup_of_unknown (rest : ℕ → UInt8) (kind : LookupKind) {t : ModuleTable}
    {ptr : UserAddr} {mem : UserMem} (h : t.entryOf (loadUuid mem ptr) = none)
    (hfault : ¬ t.Faults) (stale : ModuleTableStruct) :
    ∃ mem', kvmHostServerLookup rest kind t ptr ⟨0, some (some stale), 0⟩ mem = some (0, mem') ∧
      kind.Holds mem' ptr stale.mod := by
  refine lookup_holds rest kind ?_ rfl rfl
  rw [tableGetCopy_of_unknown h, if_neg hfault]

/-- An empty table answers every uuid. -/
theorem empty_table_answers : ¬ ∀ (rest : ℕ → UInt8) (kind : LookupKind) (t : ModuleTable)
    (ptr : UserAddr) (env : LookupEnv) (mem : UserMem),
      LookupExact rest kind t ptr env mem := by
  intro hall
  let t := (UsableTable.fresh (fun _ => default) fun _ => default).table
  let mem : UserMem := fun _ => 0
  have hunknown : t.entryOf (loadUuid mem 0) = none := rfl
  have hexact := hall (fun _ => 0) .uuidSize t 0 ⟨0, some (some default), 0⟩ mem
  obtain ⟨ret, hrun, hneg⟩ := hexact.unknown hunknown
  obtain ⟨mem', hzero, -⟩ := lookup_of_unknown (fun _ => 0) .uuidSize hunknown (by decide) default
  rw [hzero] at hrun
  obtain rfl := (Prod.mk.inj (Option.some.inj hrun)).1
  exact lt_irrefl 0 hneg

end LxcUio.Proxy
