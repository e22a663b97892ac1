import LxcUio.Foundation.CInt
import LxcUio.Proxy.ModuleTable

/-!
# The proxy's entry points

The branches of `cdev_ioctl` and `cdev_write` (`cdev.c`), `process_packet`,
`send_event` and `lxc_uio_proxy_put_module_1` (`lxc-uio-proxy.c`). What the
environment decides is an argument: allocations, the number of bytes a user copy
leaves uncopied, and what Linux answers for a file.
-/

namespace LxcUio.Proxy

open LxcUio.Foundation

/-! ## Registration -/

/-- The address of a `struct file`. -/
abbrev FilePtr := ℕ

structure KvmHostServer where
  pid : ℤ
  fp : FilePtr
deriving DecidableEq

/-- `kvm_host_server_register`. The previous record is freed first, whatever
follows; `kmalloc` delivers a record whose `fp` is stale until it is assigned. -/
def kvmHostServerRegister (_ks : Option KvmHostServer) (pid ioctlParam : ℤ)
    (kmalloc : Option FilePtr) (fcheck : ℤ → Option FilePtr) :
    ℤ × Option KvmHostServer :=
  match kmalloc with
  | none => (negENOMEM, none)
  | some stale =>
      let intval := toInt ioctlParam
      if intval < 0 then (-1, some ⟨pid, stale⟩)
      else
        match fcheck intval with
        | none => (-1, some ⟨pid, stale⟩)
        | some fl => (0, some ⟨pid, fl⟩)

/-- `kvm_host_server_de_register`. -/
def kvmHostServerDeRegister (_ks : Option KvmHostServer) :
    ℤ × Option KvmHostServer :=
  (0, none)

/-! ## Announcing a module -/

/-- What `eventfd_ctx_fileget` returns for a file: a context, or an encoded error
(`ERR_PTR`), which is a pointer other than NULL. -/
inductive EventfdCtx where
  | ctx (fp : FilePtr)
  | errPtr (fp : FilePtr)
deriving DecidableEq

/-- `eventfd_signal` reads through the pointer. -/
def EventfdCtx.faults : EventfdCtx → Bool
  | .ctx _ => false
  | .errPtr _ => true

/-- `send_event`: the value returned and the context `eventfd_signal` is called
on, if it is called. -/
def sendEvent (ks : Option KvmHostServer) (t : ModuleTable)
    (eventfdCtxFileget : FilePtr → Option EventfdCtx) : ℤ × Option EventfdCtx :=
  match ks with
  | none => (0, none)
  | some server =>
      match tablePeek t with
      | none => (-1, none)
      | some _ =>
          match eventfdCtxFileget server.fp with
          | none => (-1, none)
          | some efdCtx => (0, some efdCtx)

def lxcUioProxyPutModule1 (ks : Option KvmHostServer) (t : ModuleTable)
    (uuid : Uuid) (nsproxy : ℕ) (mod : KModule)
    (krealloc : Option (ℤ → ModuleTableStruct))
    (eventfdCtxFileget : FilePtr → Option EventfdCtx) :
    ℤ × ModuleTable × Option EventfdCtx :=
  let put := tablePut t ⟨uuid, nsproxy, mod⟩ krealloc
  if put.1 = 0 then (put.1, put.2, (sendEvent ks put.2 eventfdCtxFileget).2)
  else (put.1, put.2, none)

/-! ## `kvm_host_server_get_pending_module` -/

/-- Where the ioctl stands after `table_pop` and the read of `mt->uuid`. -/
inductive Popped where
  | noEntry
  | oops
  | entry (i : ℤ) (uuid : Uuid)

/-- `mt=table_pop()` and `uuid=mt->uuid`. -/
def popEntry (t : ModuleTable) : Popped × ModuleTable :=
  match tablePop t with
  | (none, t') => (.noEntry, t')
  | (some i, t') =>
      match t'.deref i with
      | none => (.oops, t')
      | some mt => (.entry i mt.uuid, t')

/-- The value the ioctl returns when `copy_to_user` left `notCopied` bytes. -/
def copiedRetval (notCopied : ℕ) : ℤ :=
  if notCopied = 0 then 1 else -(notCopied : ℤ)

/-- The whole ioctl by a client that runs alone: the value returned, the uuid the
user received, and the table. -/
def kvmHostServerGetPendingModule (t : ModuleTable) (notCopied : ℕ) :
    OrOops (ℤ × Option Uuid × ModuleTable) :=
  match popEntry t with
  | (.noEntry, t') => some (0, none, t')
  | (.oops, _) => none
  | (.entry _ uuid, t') =>
      if notCopied = 0 then some (copiedRetval notCopied, some uuid, t')
      else some (copiedRetval notCopied, none, (tablePopReverse t').2)

/-! ## Lookups by uuid -/

inductive LayoutKind where
  | init
  | core
deriving DecidableEq

def KModule.layout (m : KModule) : LayoutKind → ModuleLayout
  | .init => m.initLayout
  | .core => m.coreLayout

/-- `kvm_host_server_get_init_layout` and `kvm_host_server_get_core_layout`: the
value returned and the layout the user received. -/
def kvmHostServerGetLayout (kind : LayoutKind) (t : ModuleTable) (uuid : Uuid)
    (notRead : ℕ) (kmalloc : Option CopyBlock) (notCopied : ℕ) :
    OrOops (ℤ × Option ModuleLayout) :=
  if notRead = 0 then
    match tableGetCopy t uuid kmalloc with
    | none => none
    | some none => some (-1, none)
    | some (some none) => none
    | some (some (some entry)) =>
        if notCopied = 0 then some (0, some (entry.mod.layout kind))
        else some (-(notCopied : ℤ), none)
  else some (-(notRead : ℤ), none)

/-! ## `write` -/

/-- The first `n - notCopied` bytes of `src` are stored at `dst`. -/
def copyToUser (mem : UserMem) (dst : UserAddr) (src : ℕ → UInt8)
    (n notCopied : ℕ) : UserMem :=
  fun a => if dst ≤ a ∧ a < dst + (n - notCopied) then src (a - dst) else mem a

/-- `process_packet`. The result of `table_get_copy` is used as it comes: NULL
faults, and so does a block without a module. `copy_to_user` leaves at most the whole area
uncopied, and its result is kept in an `int`. -/
def processPacket (t : ModuleTable) (packet1 : Packet)
    (kmalloc : Option CopyBlock) (notCopied : ℕ) (mem : UserMem) :
    OrOops (ℤ × UserMem) :=
  match tableGetCopy t packet1.uuid kmalloc with
  | none => none
  | some none => none
  | some (some none) => none
  | some (some (some mts)) =>
      let size := mts.mod.coreLayout.size.toNat
      let left := min notCopied size
      let retVal := toInt left
      let mem' := copyToUser mem packet1.memory.regionCore.userspaceAddr.toNat
        mts.mod.coreImage size left
      if retVal = 0 then some (0, mem') else some (toInt (-retVal), mem')

/-- `sizeof(packet)`. -/
def sizeofPacket : ℤ := 304

/-- `cdev_write` of a packet: the value returned and the user memory after it. -/
def cdevWrite (t : ModuleTable) (packet1 : Packet) (bytesNotCopied : ℕ)
    (kmalloc : Option CopyBlock) (notCopied : ℕ) (mem : UserMem) :
    OrOops (ℤ × UserMem) :=
  if bytesNotCopied = 0 then
    match processPacket t packet1 kmalloc notCopied mem with
    | none => none
    | some (retVal, mem') =>
        if retVal = 0 then some (sizeofPacket, mem') else some (-1, mem')
  else some (-1, mem)

/-! ## What one call does -/

/-- `popEntry` by cases: nothing pending; an entry, and the cursor is on it; or
the table is NULL. -/
theorem popEntry_not_pending {t : ModuleTable} (h : ¬ t.Pending) :
    popEntry t = (.noEntry, t) := by
  simp [popEntry, tablePop_of_not_pending h]

theorem popEntry_pending {t : ModuleTable} (h : t.Pending)
    (hnull : t.moduleTable.isNull = false) :
    popEntry t = (.entry (t.tableIndex + 1)
        (t.moduleTable.cells (t.tableIndex + 1)).uuid,
      { t with tableIndex := t.tableIndex + 1 }) := by
  simp [popEntry, tablePop_of_pending h, address_of_allocated hnull,
    deref_of_allocated (t := { t with tableIndex := t.tableIndex + 1 }) hnull]

/-- On a NULL table the cursor moves, but no entry is delivered. -/
theorem popEntry_null {t : ModuleTable} (h : t.Pending)
    (hnull : t.moduleTable.isNull = true) :
    (popEntry t).2 = { t with tableIndex := t.tableIndex + 1 } ∧
      ((popEntry t).1 = .noEntry ∨ (popEntry t).1 = .oops) := by
  by_cases hi : t.tableIndex + 1 = 0
  · simp [popEntry, tablePop_of_pending h, ModuleTable.address, hnull, hi]
  · simp [popEntry, tablePop_of_pending h, ModuleTable.address, hnull, hi,
      ModuleTable.deref]

theorem popEntry_noEntry {t t' : ModuleTable} (h : popEntry t = (.noEntry, t')) :
    ¬ t.Pending ∧ t' = t ∨ t.Pending ∧ t.address (t.tableIndex + 1) = none := by
  by_cases hp : t.Pending
  · cases haddr : t.address (t.tableIndex + 1) with
    | none => exact Or.inr ⟨hp, rfl⟩
    | some i =>
        simp only [popEntry, tablePop_of_pending hp, haddr] at h
        split at h <;> cases h
  · rw [popEntry_not_pending hp] at h
    exact Or.inl ⟨hp, (Prod.mk.inj h).2.symm⟩

theorem popEntry_entry {t t' : ModuleTable} {i : ℤ} {uuid : Uuid}
    (h : popEntry t = (.entry i uuid, t')) :
    t.Pending ∧ t.moduleTable.isNull = false ∧ i = t.tableIndex + 1 ∧
      uuid = (t.moduleTable.cells i).uuid ∧
      t' = { t with tableIndex := t.tableIndex + 1 } := by
  by_cases hp : t.Pending
  · cases hnull : t.moduleTable.isNull with
    | false =>
        rw [popEntry_pending hp hnull] at h
        injection h with hret ht
        injection hret with hi huuid
        exact ⟨hp, rfl, hi.symm, hi ▸ huuid.symm, ht.symm⟩
    | true =>
        rcases (popEntry_null hp hnull).2 with hret | hret
        all_goals
          rw [h] at hret
          cases hret
  · rw [popEntry_not_pending hp] at h
    cases (Prod.mk.inj h).1

/-- While the table is allocated, a pop without an entry found nothing pending. -/
theorem popEntry_noEntry_allocated {t t' : ModuleTable}
    (hnull : t.moduleTable.isNull = false) (h : popEntry t = (.noEntry, t')) :
    ¬ t.Pending ∧ t' = t := by
  rcases popEntry_noEntry h with hnone | ⟨-, haddr⟩
  · exact hnone
  · rw [address_of_allocated hnull] at haddr
    cases haddr

theorem popEntry_ne_oops {t t' : ModuleTable} (hnull : t.moduleTable.isNull = false) :
    popEntry t ≠ (.oops, t') := by
  intro h
  by_cases hp : t.Pending
  · rw [popEntry_pending hp hnull] at h
    cases (Prod.mk.inj h).1
  · rw [popEntry_not_pending hp] at h
    cases (Prod.mk.inj h).1

theorem popEntry_snd_eq_tablePop (t : ModuleTable) :
    (popEntry t).2 = (tablePop t).2 := by
  unfold popEntry
  split
  · rename_i h
    rw [h]
  · rename_i i t' h
    rw [h]
    split <;> rfl

theorem popEntry_sound {t : ModuleTable} (h : t.Sound) : (popEntry t).2.Sound := by
  rw [popEntry_snd_eq_tablePop]
  exact tablePop_sound h

theorem popEntry_num (t : ModuleTable) :
    (popEntry t).2.tableNumEntries = t.tableNumEntries := by
  rw [popEntry_snd_eq_tablePop, tablePop_num]

end LxcUio.Proxy
