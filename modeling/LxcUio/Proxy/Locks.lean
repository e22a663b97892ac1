import LxcUio.Foundation.LockOrder
import LxcUio.Proxy.Cdev
import Mathlib.Data.Fintype.Card
import Mathlib.Order.Basic

/-!
# The proxy's mutexes

The entry points of the proxy once more, now with each `mutex_lock` and `mutex_unlock` as
a step of its own: any number of threads run them against one `module_table` and one
`ks`. Every `goto out_unlock` and every early return is a branch that unlocks for itself.
What the environment answers to a call is part of the call.

Run alone, an entry point does what its function in `Cdev` says (`alone_*`). Memory of user
processes is left out.
-/

namespace LxcUio.Proxy.Locks

open LxcUio.Foundation LockProgram

/-! ## Mutexes and shared state -/

inductive Mutex where
  | cdev
  | ks
  | table
deriving DecidableEq

instance : Fintype Mutex where
  elems := {.cdev, .ks, .table}
  complete := by
    intro m
    cases m <;> decide

/-- The order in which they may be nested: `send_event` peeks into the table. -/
def Mutex.rank : Mutex → ℕ
  | .cdev => 0
  | .ks => 1
  | .table => 2

instance : Preorder Mutex := Preorder.lift Mutex.rank

theorem ks_lt_table : Mutex.ks < Mutex.table := (by decide : (1 : ℕ) < 2)

structure Globals where
  table : ModuleTable
  ks : Option KvmHostServer

abbrev Code : Type := LockProgram Mutex Globals ℤ

/-! ## `module_table`: one section of `table_mutex` each -/

def tablePut (mt : ModuleTableStruct) (krealloc : Option (ℤ → ModuleTableStruct))
    (next : ℤ → Code) : Code :=
  .lock .table <| read fun s =>
    if s.table.moduleTable.isNull = true then .unlock .table (next (-1))
    else if s.table.tableNumEntries > s.table.tableSize then .unlock .table (next negENOMEM)
    else if s.table.tableNumEntries = s.table.tableSize then
      match krealloc with
      | none =>
          write (fun s => { s with table := s.table.lost }) <| .unlock .table (next negENOMEM)
      | some mem =>
          write (fun s => { s with table := s.table.doubled mem }) <|
            write (fun s => { s with table := s.table.store mt }) <| .unlock .table (next 0)
    else write (fun s => { s with table := s.table.store mt }) <| .unlock .table (next 0)

/-- `kmalloc` fails before the section; in it a NULL table faults. -/
def tableGetCopy (uuid : Uuid) (kmalloc : Option CopyBlock)
    (next : Option CopyBlock → Code) : Code :=
  match kmalloc with
  | none => next none
  | some stale =>
      .lock .table <| read fun s =>
        if s.table.moduleTable.isNull = true ∧ 0 < s.table.tableNumEntries then .fault
        else
          .unlock .table <| next <| some
            ((((s.table.moduleTable.slice 0 s.table.tableNumEntries).find?
              (fun mt => mt.uuid = uuid)).map some).getD stale)

/-- What `table_pop` returns, with what comes of a read through it: a pointer into the block that
`module_table` is at that moment, or one that was computed from NULL. -/
def popped (t : ModuleTable) : Option (OrOops ℤ) :=
  (t.address t.tableIndex).map fun i => if t.moduleTable.isNull = true then none else some i

def tablePop (next : Option (OrOops ℤ) → Code) : Code :=
  .lock .table <| read fun s =>
    if s.table.Pending then
      write (fun s => { s with table := { s.table with tableIndex := s.table.tableIndex + 1 } }) <|
        read fun s => .unlock .table (next (popped s.table))
    else .unlock .table (next none)

def tablePopReverse (next : ℤ → Code) : Code :=
  .lock .table <| read fun s =>
    if s.table.tableIndex ≤ 0 then .unlock .table (next (-1))
    else
      write (fun s => { s with table := { s.table with tableIndex := s.table.tableIndex - 1 } }) <|
        .unlock .table (next 0)

def tablePeek (next : Option ℤ → Code) : Code :=
  .lock .table <| read fun s =>
    if s.table.Pending then .unlock .table (next (s.table.address (s.table.tableIndex + 1)))
    else .unlock .table (next none)

/-! ## The entry points -/

/-- `send_event`: the peek is a section inside the section of `ks_mutex`. -/
def sendEvent (eventfdCtxFileget : FilePtr → Option EventfdCtx) (next : ℤ → Code) : Code :=
  .lock .ks <| read fun s =>
    match s.ks with
    | none => .unlock .ks (next 0)
    | some server =>
        tablePeek fun ptr =>
          match ptr with
          | none => .unlock .ks (next (-1))
          | some _ =>
              match eventfdCtxFileget server.fp with
              | none => .unlock .ks (next (-1))
              | some _ => .unlock .ks (next 0)

def lxcUioProxyPutModule1 (uuid : Uuid) (nsproxy : ℕ) (mod : KModule)
    (krealloc : Option (ℤ → ModuleTableStruct))
    (eventfdCtxFileget : FilePtr → Option EventfdCtx) : Code :=
  tablePut ⟨uuid, nsproxy, mod⟩ krealloc fun retVal =>
    if retVal = 0 then sendEvent eventfdCtxFileget fun _ => .ret retVal else .ret retVal

/-- `cdev_open`, `cdev_release` and `cdev_read`: an empty section. -/
def cdevNothing : Code := .lock .cdev <| .unlock .cdev <| .ret 0

def processPacket (packet1 : Packet) (kmalloc : Option CopyBlock) (notCopied : ℕ)
    (next : ℤ → Code) : Code :=
  tableGetCopy packet1.uuid kmalloc fun mts =>
    match mts with
    | none => .fault
    | some none => .fault
    | some (some mts) =>
        let left := min notCopied mts.mod.coreLayout.size.toNat
        let retVal := toInt left
        if retVal = 0 then next 0 else next (toInt (-retVal))

def cdevWrite (packet1 : Packet) (bytesNotCopied : ℕ) (kmalloc : Option CopyBlock)
    (notCopied : ℕ) : Code :=
  .lock .cdev <| .unlock .cdev <|
    if bytesNotCopied = 0 then
      processPacket packet1 kmalloc notCopied fun retVal =>
        if retVal = 0 then .ret sizeofPacket else .ret (-1)
    else .ret (-1)

/-- The old record is dropped before `kmalloc`, the new one is visible from there on. -/
def kvmHostServerRegister (pid ioctlParam : ℤ) (kmalloc : Option FilePtr)
    (fcheck : ℤ → Option FilePtr) : Code :=
  .lock .ks <| write (fun s => { s with ks := none }) <|
    match kmalloc with
    | none => .unlock .ks (.ret negENOMEM)
    | some stale =>
        write (fun s => { s with ks := some ⟨pid, stale⟩ }) <|
          if toInt ioctlParam < 0 then .unlock .ks (.ret (-1))
          else
            match fcheck (toInt ioctlParam) with
            | none => .unlock .ks (.ret (-1))
            | some fl =>
                write (fun s => { s with ks := some ⟨pid, fl⟩ }) <| .unlock .ks (.ret 0)

def kvmHostServerDeRegister : Code :=
  .lock .ks <| write (fun s => { s with ks := none }) <| .unlock .ks (.ret 0)

/-- `mt->uuid` is read after the section of `table_pop`, in the block that the pop found: what
`table_put` does in between to `module_table` itself does not matter here. -/
def kvmHostServerGetPendingModule (notCopied : ℕ) : Code :=
  tablePop fun mt =>
    match mt with
    | none => .ret 0
    | some none => .fault
    | some (some _) => read fun _ =>
        if notCopied = 0 then .ret 1
        else tablePopReverse fun _ => .ret (-(notCopied : ℤ))

/-- `kvm_host_server_get_uuid_size`, `..._get_init_layout` and `..._get_core_layout`, which
differ in what they copy to the user. -/
def kvmHostServerLookup (uuid : Uuid) (notRead : ℕ) (kmalloc : Option CopyBlock)
    (notCopied : ℕ) : Code :=
  if notRead = 0 then
    tableGetCopy uuid kmalloc fun entry =>
      match entry with
      | none => .ret (-1)
      | some none => .fault
      | some (some _) => if notCopied = 0 then .ret 0 else .ret (-(notCopied : ℤ))
  else .ret (-(notRead : ℤ))

/-- A call into the proxy, with what the environment answers to it. -/
inductive EntryPoint where
  | putModule (uuid : Uuid) (nsproxy : ℕ) (mod : KModule)
      (krealloc : Option (ℤ → ModuleTableStruct))
      (eventfdCtxFileget : FilePtr → Option EventfdCtx)
  | cdevOpen
  | cdevRelease
  | cdevRead
  | cdevWrite (packet1 : Packet) (bytesNotCopied : ℕ) (kmalloc : Option CopyBlock)
      (notCopied : ℕ)
  | register (pid ioctlParam : ℤ) (kmalloc : Option FilePtr) (fcheck : ℤ → Option FilePtr)
  | deRegister
  | getPendingModule (notCopied : ℕ)
  | getUuidSize (uuid : Uuid) (notRead : ℕ) (kmalloc : Option CopyBlock)
      (notCopied : ℕ)
  | getLayout (kind : LayoutKind) (uuid : Uuid) (notRead : ℕ)
      (kmalloc : Option CopyBlock) (notCopied : ℕ)
  | invalidIoctl

def entry : EntryPoint → Code
  | .putModule uuid nsproxy mod krealloc eventfdCtxFileget =>
      lxcUioProxyPutModule1 uuid nsproxy mod krealloc eventfdCtxFileget
  | .cdevOpen => cdevNothing
  | .cdevRelease => cdevNothing
  | .cdevRead => cdevNothing
  | .cdevWrite packet1 bytesNotCopied kmalloc notCopied =>
      cdevWrite packet1 bytesNotCopied kmalloc notCopied
  | .register pid ioctlParam kmalloc fcheck => kvmHostServerRegister pid ioctlParam kmalloc fcheck
  | .deRegister => kvmHostServerDeRegister
  | .getPendingModule notCopied => kvmHostServerGetPendingModule notCopied
  | .getUuidSize uuid notRead kmalloc notCopied =>
      kvmHostServerLookup uuid notRead kmalloc notCopied
  | .getLayout _ uuid notRead kmalloc notCopied =>
      kvmHostServerLookup uuid notRead kmalloc notCopied
  | .invalidIoctl => .ret (-1)

/-! ## Run alone, they are the functions -/

section Alone

variable (s : Globals)

theorem alone_tablePut (mt : ModuleTableStruct) (krealloc : Option (ℤ → ModuleTableStruct))
    (next : ℤ → Code) :
    (tablePut mt krealloc next).alone s = (next (Proxy.tablePut s.table mt krealloc).1).alone
      { s with table := (Proxy.tablePut s.table mt krealloc).2 } := by
  simp only [tablePut, Proxy.tablePut, alone_lock, alone_read]
  split
  · rfl
  · split
    · rfl
    · split
      · cases krealloc <;> rfl
      · rfl

theorem alone_tableGetCopy (uuid : Uuid) (kmalloc : Option CopyBlock)
    (next : Option CopyBlock → Code) :
    (tableGetCopy uuid kmalloc next).alone s =
      (Proxy.tableGetCopy s.table uuid kmalloc).bind fun mts => (next mts).alone s := by
  cases kmalloc with
  | none => rfl
  | some stale =>
      simp only [tableGetCopy, Proxy.tableGetCopy, alone_lock, alone_read]
      split <;> rfl

theorem alone_tablePop (next : Option (OrOops ℤ) → Code) :
    (tablePop next).alone s =
      (next ((Proxy.tablePop s.table).1.map fun i =>
        if s.table.moduleTable.isNull = true then none else some i)).alone
          { s with table := (Proxy.tablePop s.table).2 } := by
  simp only [tablePop, Proxy.tablePop, alone_lock, alone_read]
  split <;> rfl

theorem alone_tablePopReverse (next : ℤ → Code) :
    (tablePopReverse next).alone s = (next (Proxy.tablePopReverse s.table).1).alone
      { s with table := (Proxy.tablePopReverse s.table).2 } := by
  simp only [tablePopReverse, Proxy.tablePopReverse, alone_lock, alone_read]
  split <;> rfl

theorem alone_tablePeek (next : Option ℤ → Code) :
    (tablePeek next).alone s = (next (Proxy.tablePeek s.table)).alone s := by
  simp only [tablePeek, Proxy.tablePeek, alone_lock, alone_read]
  split <;> rfl

theorem alone_sendEvent (fileget : FilePtr → Option EventfdCtx) (next : ℤ → Code) :
    (sendEvent fileget next).alone s =
      (next (Proxy.sendEvent s.ks s.table fileget).1).alone s := by
  simp only [sendEvent, Proxy.sendEvent, alone_lock, alone_read]
  cases s.ks with
  | none => rfl
  | some server =>
      simp only [alone_tablePeek]
      cases Proxy.tablePeek s.table with
      | none => rfl
      | some i =>
          dsimp only
          cases fileget server.fp <;> rfl

theorem alone_putModule (uuid : Uuid) (nsproxy : ℕ) (mod : KModule)
    (krealloc : Option (ℤ → ModuleTableStruct)) (fileget : FilePtr → Option EventfdCtx) :
    (entry (.putModule uuid nsproxy mod krealloc fileget)).alone s =
      some ((Proxy.lxcUioProxyPutModule1 s.ks s.table uuid nsproxy mod krealloc fileget).1,
        { s with table :=
          (Proxy.lxcUioProxyPutModule1 s.ks s.table uuid nsproxy mod krealloc fileget).2.1 }) := by
  simp only [entry, lxcUioProxyPutModule1, alone_tablePut, Proxy.lxcUioProxyPutModule1]
  split
  · rw [alone_sendEvent]
    rfl
  · rfl

theorem alone_register (pid ioctlParam : ℤ) (kmalloc : Option FilePtr)
    (fcheck : ℤ → Option FilePtr) :
    (entry (.register pid ioctlParam kmalloc fcheck)).alone s =
      some ((Proxy.kvmHostServerRegister s.ks pid ioctlParam kmalloc fcheck).1,
        { s with ks := (Proxy.kvmHostServerRegister s.ks pid ioctlParam kmalloc fcheck).2 }) := by
  cases kmalloc with
  | none => rfl
  | some stale =>
      simp only [entry, kvmHostServerRegister, Proxy.kvmHostServerRegister, alone_lock, alone_write]
      split
      · rfl
      · cases fcheck (toInt ioctlParam) <;> rfl

theorem alone_deRegister :
    (entry .deRegister).alone s = some ((Proxy.kvmHostServerDeRegister s.ks).1,
      { s with ks := (Proxy.kvmHostServerDeRegister s.ks).2 }) := rfl

theorem alone_getPendingModule (notCopied : ℕ) :
    (entry (.getPendingModule notCopied)).alone s =
      (Proxy.kvmHostServerGetPendingModule s.table notCopied).map fun r =>
        (r.1, { s with table := r.2.2 }) := by
  simp only [entry, kvmHostServerGetPendingModule, alone_tablePop,
    Proxy.kvmHostServerGetPendingModule, popEntry]
  have hnull : (Proxy.tablePop s.table).2.moduleTable.isNull = s.table.moduleTable.isNull := by
    unfold Proxy.tablePop
    split <;> rfl
  rcases hpop : Proxy.tablePop s.table with ⟨_ | i, t'⟩
  · rfl
  · rw [hpop] at hnull
    dsimp only at hnull
    simp only [Option.map_some, ModuleTable.deref, ← hnull]
    by_cases hlost : t'.moduleTable.isNull = true
    · simp only [if_pos hlost]
      rfl
    · simp only [if_neg hlost, alone_read, copiedRetval]
      split
      · rfl
      · rw [alone_tablePopReverse]
        rfl

theorem alone_getLayout (kind : LayoutKind) (uuid : Uuid) (notRead : ℕ)
    (kmalloc : Option CopyBlock) (notCopied : ℕ) :
    (entry (.getLayout kind uuid notRead kmalloc notCopied)).alone s =
      (Proxy.kvmHostServerGetLayout kind s.table uuid notRead kmalloc notCopied).map fun r =>
        (r.1, s) := by
  simp only [entry, kvmHostServerLookup, Proxy.kvmHostServerGetLayout]
  split
  · rw [alone_tableGetCopy]
    rcases Proxy.tableGetCopy s.table uuid kmalloc with _ | _ | _ | mts
    · rfl
    · rfl
    · rfl
    · dsimp only [Option.bind_some]
      split <;> rfl
  · rfl

theorem alone_processPacket (packet1 : Packet) (kmalloc : Option CopyBlock)
    (notCopied : ℕ) (next : ℤ → Code) (mem : UserMem) :
    (processPacket packet1 kmalloc notCopied next).alone s =
      (Proxy.processPacket s.table packet1 kmalloc notCopied mem).bind fun r =>
        (next r.1).alone s := by
  unfold processPacket Proxy.processPacket
  rw [alone_tableGetCopy]
  rcases Proxy.tableGetCopy s.table packet1.uuid kmalloc with _ | _ | _ | mts
  · rfl
  · rfl
  · rfl
  · rw [Option.bind_some]
    by_cases hleft : toInt (min notCopied mts.mod.coreLayout.size.toNat : ℕ) = 0
    · simp only [hleft, if_true, Option.bind_some]
    · simp only [hleft, if_false, Option.bind_some]

theorem alone_cdevWrite (packet1 : Packet) (bytesNotCopied : ℕ)
    (kmalloc : Option CopyBlock) (notCopied : ℕ) (mem : UserMem) :
    (entry (.cdevWrite packet1 bytesNotCopied kmalloc notCopied)).alone s =
      (Proxy.cdevWrite s.table packet1 bytesNotCopied kmalloc notCopied mem).map fun r =>
        (r.1, s) := by
  simp only [entry, cdevWrite, alone_lock, alone_unlock, Proxy.cdevWrite]
  by_cases hread : bytesNotCopied = 0
  · rw [if_pos hread, if_pos hread, alone_processPacket s packet1 kmalloc notCopied _ mem]
    cases Proxy.processPacket s.table packet1 kmalloc notCopied mem with
    | none => rfl
    | some r =>
        by_cases hret : r.1 = 0
        · simp only [Option.bind_some, if_pos hret, alone_ret, Option.map_some]
        · simp only [Option.bind_some, if_neg hret, alone_ret, Option.map_some]
  · rw [if_neg hread, if_neg hread]
    rfl

end Alone

/-! ## Every entry point keeps to the order -/

section Ordered

variable {held : Set Mutex}

theorem ordered_tablePut (mt : ModuleTableStruct) (krealloc : Option (ℤ → ModuleTableStruct))
    {next : ℤ → Code} (habove : ∀ m ∈ held, m < Mutex.table)
    (hnext : ∀ retVal, Ordered held (next retVal)) :
    Ordered held (tablePut mt krealloc next) := by
  have hout : ∀ retVal, Ordered (insert Mutex.table held) (.unlock .table (next retVal)) :=
    fun retVal => .unlock habove (hnext retVal)
  refine .lock habove (.read fun s => ?_)
  refine .ite (hout (-1)) (.ite (hout negENOMEM) (.ite ?_ ?_))
  · cases krealloc with
    | none => exact .write (hout negENOMEM)
    | some mem => exact .write (.write (hout 0))
  · exact .write (hout 0)

theorem ordered_tableGetCopy (uuid : Uuid) (kmalloc : Option CopyBlock)
    {next : Option CopyBlock → Code} (habove : ∀ m ∈ held, m < Mutex.table)
    (hnext : ∀ mts, Ordered held (next mts)) :
    Ordered held (tableGetCopy uuid kmalloc next) := by
  cases kmalloc with
  | none => exact hnext none
  | some stale =>
      refine .lock habove (.read fun s => ?_)
      exact .ite .fault (.unlock habove (hnext _))

theorem ordered_tablePop {next : Option (OrOops ℤ) → Code} (habove : ∀ m ∈ held, m < Mutex.table)
    (hnext : ∀ p, Ordered held (next p)) : Ordered held (tablePop next) := by
  refine .lock habove (.read fun s => ?_)
  exact .ite (.write (.read fun s => .unlock habove (hnext _)))
    (.unlock habove (hnext none))

theorem ordered_tablePopReverse {next : ℤ → Code} (habove : ∀ m ∈ held, m < Mutex.table)
    (hnext : ∀ retVal, Ordered held (next retVal)) : Ordered held (tablePopReverse next) := by
  refine .lock habove (.read fun s => ?_)
  exact .ite (.unlock habove (hnext (-1)))
    (.write (.unlock habove (hnext 0)))

theorem ordered_tablePeek {next : Option ℤ → Code} (habove : ∀ m ∈ held, m < Mutex.table)
    (hnext : ∀ p, Ordered held (next p)) : Ordered held (tablePeek next) := by
  refine .lock habove (.read fun s => ?_)
  exact .ite (.unlock habove (hnext _)) (.unlock habove (hnext none))

/-- The only nesting: `table_mutex` inside `ks_mutex`. -/
theorem ordered_sendEvent (fileget : FilePtr → Option EventfdCtx) {next : ℤ → Code}
    (habove : ∀ m ∈ held, m < Mutex.ks) (hnext : ∀ retVal, Ordered held (next retVal)) :
    Ordered held (sendEvent fileget next) := by
  have hout : ∀ retVal, Ordered (insert Mutex.ks held) (.unlock .ks (next retVal)) :=
    fun retVal => .unlock habove (hnext retVal)
  have hinner : ∀ m ∈ insert Mutex.ks held, m < Mutex.table := by
    rintro m (rfl | hm)
    · exact ks_lt_table
    · exact lt_trans (habove m hm) ks_lt_table
  refine .lock habove (.read fun s => ?_)
  cases s.ks with
  | none => exact hout 0
  | some server =>
      refine ordered_tablePeek hinner fun ptr => ?_
      cases ptr with
      | none => exact hout (-1)
      | some i =>
          dsimp only
          cases fileget server.fp with
          | none => exact hout (-1)
          | some efdCtx => exact hout 0

theorem ordered_processPacket (packet1 : Packet) (kmalloc : Option CopyBlock)
    (notCopied : ℕ) {next : ℤ → Code} (habove : ∀ m ∈ held, m < Mutex.table)
    (hnext : ∀ retVal, Ordered held (next retVal)) :
    Ordered held (processPacket packet1 kmalloc notCopied next) := by
  unfold processPacket
  refine ordered_tableGetCopy _ kmalloc habove fun mts => ?_
  rcases mts with _ | _ | mts
  · exact .fault
  · exact .fault
  · exact .ite (hnext 0) (hnext _)

theorem above_nothing (m : Mutex) : ∀ m' ∈ (∅ : Set Mutex), m' < m := fun _ h => h.elim

theorem ordered_cdevNothing : Ordered ∅ cdevNothing :=
  .lock (above_nothing _) (.unlock (above_nothing _) (.ret 0))

theorem ordered_cdevWrite (packet1 : Packet) (bytesNotCopied : ℕ)
    (kmalloc : Option CopyBlock) (notCopied : ℕ) :
    Ordered ∅ (cdevWrite packet1 bytesNotCopied kmalloc notCopied) := by
  refine .lock (above_nothing _) (.unlock (above_nothing _) ?_)
  refine .ite ?_ (.ret (-1))
  exact ordered_processPacket packet1 kmalloc notCopied (above_nothing _) fun retVal =>
    .ite (.ret _) (.ret _)

theorem ordered_register (pid ioctlParam : ℤ) (kmalloc : Option FilePtr)
    (fcheck : ℤ → Option FilePtr) :
    Ordered ∅ (kvmHostServerRegister pid ioctlParam kmalloc fcheck) := by
  have hout : ∀ retVal, Ordered (insert Mutex.ks ∅) (.unlock .ks (.ret retVal) : Code) :=
    fun retVal => .unlock (above_nothing _) (.ret retVal)
  refine .lock (above_nothing _) (.write ?_)
  cases kmalloc with
  | none => exact hout negENOMEM
  | some stale =>
      refine .write (.ite (hout (-1)) ?_)
      cases fcheck (toInt ioctlParam) with
      | none => exact hout (-1)
      | some fl => exact .write (hout 0)

theorem ordered_getPendingModule (notCopied : ℕ) :
    Ordered ∅ (kvmHostServerGetPendingModule notCopied) := by
  refine ordered_tablePop (above_nothing _) fun mt => ?_
  rcases mt with _ | _ | i
  · exact .ret 0
  · exact .fault
  · refine .read fun s => .ite (.ret 1) ?_
    exact ordered_tablePopReverse (above_nothing _) fun _ => .ret _

theorem ordered_lookup (uuid : Uuid) (notRead : ℕ) (kmalloc : Option CopyBlock)
    (notCopied : ℕ) : Ordered ∅ (kvmHostServerLookup uuid notRead kmalloc notCopied) := by
  refine .ite (ordered_tableGetCopy uuid kmalloc (above_nothing _) fun mts => ?_)
    (.ret _)
  rcases mts with _ | _ | mts
  · exact .ret _
  · exact .fault
  · exact .ite (.ret _) (.ret _)

theorem entry_ordered (e : EntryPoint) : Ordered ∅ (entry e) := by
  cases e with
  | putModule uuid nsproxy mod krealloc fileget =>
      show Ordered ∅ (lxcUioProxyPutModule1 uuid nsproxy mod krealloc fileget)
      refine ordered_tablePut _ krealloc (above_nothing _) fun retVal => ?_
      exact .ite (ordered_sendEvent fileget (above_nothing _) fun _ => .ret retVal)
        (.ret retVal)
  | cdevOpen => exact ordered_cdevNothing
  | cdevRelease => exact ordered_cdevNothing
  | cdevRead => exact ordered_cdevNothing
  | cdevWrite packet1 bytesNotCopied kmalloc notCopied =>
      exact ordered_cdevWrite packet1 bytesNotCopied kmalloc notCopied
  | register pid ioctlParam kmalloc fcheck => exact ordered_register pid ioctlParam kmalloc fcheck
  | deRegister =>
      exact .lock (above_nothing _)
        (.write (.unlock (above_nothing _) (.ret 0)))
  | getPendingModule notCopied => exact ordered_getPendingModule notCopied
  | getUuidSize uuid notRead kmalloc notCopied =>
      exact ordered_lookup uuid notRead kmalloc notCopied
  | getLayout kind uuid notRead kmalloc notCopied =>
      exact ordered_lookup uuid notRead kmalloc notCopied
  | invalidIoctl => exact .ret (-1)

end Ordered

/-! ## All interleavings -/

section Threads

variable {ι : Type} [DecidableEq ι]

abbrev ProxyThreads (ι : Type) : Type := LockState ι Mutex Globals ℤ

/-- **The proxy cannot deadlock on its own locks**, whatever its threads call and however
their steps are interleaved. -/
theorem proxy_locksSafe (globals : Globals) {s : ProxyThreads ι}
    (h : Via (lockStep entry) anyStep (LockState.init globals 0) s) : s.LocksSafe :=
  LockState.locksSafe_of_ordered entry_ordered (LockState.init_disciplined globals 0) h

/-- A put has `ks_mutex` and is about to peek into the table, a pop has `table_mutex`, and a
register waits for the put. -/
theorem proxy_locksSafe_nested : ∃ s : ProxyThreads ℕ,
    Via (lockStep entry) anyStep
      (LockState.init ⟨(UsableTable.fresh (fun _ => default) fun _ => default).table,
        some ⟨1, 7⟩⟩ 0) s ∧
      s.WaitsFor 0 1 ∧ s.WaitsFor 2 0 ∧ s.LocksSafe := by
  let globals : Globals :=
    ⟨(UsableTable.fresh (fun _ => default) fun _ => default).table, some ⟨1, 7⟩⟩
  have hrun : ∃ s : ProxyThreads ℕ, exec (lockStep entry) (LockState.init globals 0)
      [.call 0 (.putModule 0 0 default none fun _ => none), .step 0, .step 0, .step 0, .step 0,
        .step 0, .step 0, .call 1 (.getPendingModule 0), .step 1,
        .call 2 (.register 2 3 (some 0) fun _ => some 8)] = some s ∧
      s.WaitsFor 0 1 ∧ s.WaitsFor 2 0 :=
    ⟨_, rfl, ⟨_, _, rfl, rfl⟩, _, _, rfl, rfl⟩
  obtain ⟨s, hs, hpeek, hregister⟩ := hrun
  exact ⟨s, via_of_exec hs, hpeek, hregister, proxy_locksSafe globals (via_of_exec hs)⟩

end Threads

end LxcUio.Proxy.Locks
