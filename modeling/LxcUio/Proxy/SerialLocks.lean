import LxcUio.Foundation.SerialSections
import LxcUio.Proxy.Locks
import LxcUio.Proxy.TableLog

/-!
# The proxy's sections are atomic

`table_mutex` guards the table and `ks_mutex` the registration, and every entry point keeps
to the two phases of `TwoPhase`: the only nested sections are those of `send_event`, and
`send_event` writes nothing. So threads that interleave inside their sections come to no state
that they would not come to section by section, and what a free mutex guards was left there by
whole operations that the threads have called.

Only `kvm_host_server_get_pending_module` reads without a mutex, in the block into which
`table_pop` returned a pointer. The uuid that it finds there decides nothing in the proxy.
-/

namespace LxcUio.Proxy.Locks

open LxcUio.Foundation LockProgram

/-! ## What each mutex guards -/

/-- `cdev_mutex` guards nothing. -/
def Mutex.Guards : Mutex → Type
  | .cdev => Unit
  | .ks => Option KvmHostServer
  | .table => ModuleTable

def Globals.guardedBy (s : Globals) : (m : Mutex) → m.Guards
  | .cdev => ()
  | .ks => s.ks
  | .table => s.table

def guarded : Guarded Mutex Globals where
  Part := Mutex.Guards
  part := fun m s => s.guardedBy m
  ext := by
    intro s t h
    obtain ⟨table, ks⟩ := s
    obtain rfl : table = t.table := h .table
    obtain rfl : ks = t.ks := h .ks
    rfl
  Bare := Unit
  bare := fun _ => ()

section Local

variable {H : Set Mutex}

theorem agreeOn_table {s t : Globals} (hin : Mutex.table ∈ H) (h : guarded.AgreeOn H s t) :
    s.table = t.table :=
  h _ hin

theorem agreeOn_ks {s t : Globals} (hin : Mutex.ks ∈ H) (h : guarded.AgreeOn H s t) :
    s.ks = t.ks :=
  h _ hin

theorem local_table (hin : Mutex.table ∈ H) (F : ModuleTable → ModuleTable) :
    guarded.Local H fun s => { s with table := F s.table } where
  inside := by
    intro s t h m hm
    cases m with
    | cdev => rfl
    | ks => exact h .ks hm
    | table => exact congrArg F (agreeOn_table hin h)
  outside := by
    intro s m hm
    cases m with
    | cdev => rfl
    | ks => rfl
    | table => exact absurd hin hm

theorem local_ks (hin : Mutex.ks ∈ H) (ks : Option KvmHostServer) :
    guarded.Local H fun s => { s with ks := ks } where
  inside := by
    intro s t h m hm
    cases m with
    | cdev => rfl
    | ks => rfl
    | table => exact h .table hm
  outside := by
    intro s m hm
    cases m with
    | cdev => rfl
    | ks => exact absurd hin hm
    | table => rfl

end Local

/-! ## Every entry point keeps to the phases -/

section TwoPhase

variable {ph : LockPhase}

theorem twoPhase_tablePut (mt : ModuleTableStruct) (krealloc : Option (ℤ → ModuleTableStruct))
    {next : ℤ → Code} (hnext : ∀ retVal, TwoPhase guarded .taking ∅ (next retVal)) :
    TwoPhase guarded .taking ∅ (tablePut mt krealloc next) := by
  have hout : ∀ {ph : LockPhase} (retVal : ℤ),
      TwoPhase guarded ph {.table} (.unlock .table (next retVal)) :=
    fun retVal => .last (hnext retVal)
  have hin : Mutex.table ∈ ({.table} : Set Mutex) := rfl
  refine .enter (.read (fun s t h => by rw [agreeOn_table hin h]) fun s => ?_)
  refine .ite (hout (-1)) (.ite (hout negENOMEM) (.ite ?_ ?_))
  · cases krealloc with
    | none =>
        exact .first ⟨_, hin⟩ (local_table hin ModuleTable.lost) (fun _ _ _ => rfl)
          (hout negENOMEM)
    | some mem =>
        -- the doubled table is stored into before anybody else sees it
        refine .first ⟨_, hin⟩ (local_table hin fun t => t.doubled mem) (fun _ _ _ => rfl) ?_
        exact .later (local_table hin fun t => t.store mt) (fun _ => rfl) (hout 0)
  · exact .first ⟨_, hin⟩ (local_table hin fun t => t.store mt) (fun _ _ h => h) (hout 0)

theorem twoPhase_tableGetCopy (uuid : Uuid) (kmalloc : Option CopyBlock)
    {next : Option CopyBlock → Code}
    (hnext : ∀ mts, TwoPhase guarded .taking ∅ (next mts)) :
    TwoPhase guarded .taking ∅ (tableGetCopy uuid kmalloc next) := by
  cases kmalloc with
  | none => exact hnext none
  | some stale =>
      have hin : Mutex.table ∈ ({.table} : Set Mutex) := rfl
      refine .enter (.read (fun s t h => by rw [agreeOn_table hin h]) fun s => ?_)
      exact .ite .fault (.last (hnext _))

theorem twoPhase_tablePop {next : Option (OrOops ℤ) → Code}
    (hnext : ∀ p, TwoPhase guarded .taking ∅ (next p)) :
    TwoPhase guarded .taking ∅ (tablePop next) := by
  have hin : Mutex.table ∈ ({.table} : Set Mutex) := rfl
  refine .enter (.read (fun s t h => by rw [agreeOn_table hin h]) fun s => ?_)
  refine .ite ?_ (.last (hnext none))
  refine .first ⟨_, hin⟩ (local_table hin fun t => { t with tableIndex := t.tableIndex + 1 })
    (fun _ _ h => h) ?_
  exact .read (fun s t h => by rw [agreeOn_table hin h]) fun s => .last (hnext _)

theorem twoPhase_tablePopReverse {next : ℤ → Code}
    (hnext : ∀ retVal, TwoPhase guarded .taking ∅ (next retVal)) :
    TwoPhase guarded .taking ∅ (tablePopReverse next) := by
  have hin : Mutex.table ∈ ({.table} : Set Mutex) := rfl
  refine .enter (.read (fun s t h => by rw [agreeOn_table hin h]) fun s => ?_)
  refine .ite (.last (hnext (-1))) ?_
  exact .first ⟨_, hin⟩ (local_table hin fun t => { t with tableIndex := t.tableIndex - 1 })
    (fun _ _ h => h) (.last (hnext 0))

/-- The peek of `send_event`: with it the thread begins to give its mutexes back. -/
theorem twoPhase_tablePeek {next : Option ℤ → Code}
    (hnext : ∀ p, TwoPhase guarded .leaving {.ks} (next p)) :
    TwoPhase guarded .taking {.ks} (tablePeek next) := by
  have hin : Mutex.table ∈ (insert .table {.ks} : Set Mutex) := Or.inl rfl
  have hrest : (insert .table {.ks} : Set Mutex) \ {.table} = {.ks} := by
    rw [Set.insert_sdiff_self_of_notMem]
    decide
  have hout : ∀ p, TwoPhase guarded .taking (insert .table {.ks}) (.unlock .table (next p)) := by
    intro p
    refine .release hin ?_ ?_
    · rw [hrest]
      exact ⟨_, rfl⟩
    · rw [hrest]
      exact hnext p
  refine .lock (by decide) (.read (fun s t h => by rw [agreeOn_table hin h]) fun s => ?_)
  exact .ite (hout _) (hout none)

theorem twoPhase_sendEvent (fileget : FilePtr → Option EventfdCtx) {next : ℤ → Code}
    (hnext : ∀ retVal, TwoPhase guarded .taking ∅ (next retVal)) :
    TwoPhase guarded .taking ∅ (sendEvent fileget next) := by
  have hin : Mutex.ks ∈ ({.ks} : Set Mutex) := rfl
  refine .enter (.read (fun s t h => by rw [agreeOn_ks hin h]) fun s => ?_)
  cases s.ks with
  | none => exact .last (hnext 0)
  | some server =>
      refine twoPhase_tablePeek fun ptr => ?_
      cases ptr with
      | none => exact .last (hnext (-1))
      | some i =>
          dsimp only
          cases fileget server.fp with
          | none => exact .last (hnext (-1))
          | some efdCtx => exact .last (hnext 0)

theorem twoPhase_processPacket (packet1 : Packet) (kmalloc : Option CopyBlock)
    (notCopied : ℕ) {next : ℤ → Code}
    (hnext : ∀ retVal, TwoPhase guarded .taking ∅ (next retVal)) :
    TwoPhase guarded .taking ∅ (processPacket packet1 kmalloc notCopied next) := by
  unfold processPacket
  refine twoPhase_tableGetCopy _ kmalloc fun mts => ?_
  rcases mts with _ | _ | mts
  · exact .fault
  · exact .fault
  · exact .ite (hnext 0) (hnext _)

theorem twoPhase_cdevNothing : TwoPhase guarded .taking ∅ cdevNothing :=
  .enter (.last (.ret 0))

theorem twoPhase_cdevWrite (packet1 : Packet) (bytesNotCopied : ℕ)
    (kmalloc : Option CopyBlock) (notCopied : ℕ) :
    TwoPhase guarded .taking ∅ (cdevWrite packet1 bytesNotCopied kmalloc notCopied) := by
  refine .enter (.last (.ite ?_ (.ret (-1))))
  exact twoPhase_processPacket packet1 kmalloc notCopied fun retVal => .ite (.ret _) (.ret _)

theorem twoPhase_register (pid ioctlParam : ℤ) (kmalloc : Option FilePtr)
    (fcheck : ℤ → Option FilePtr) :
    TwoPhase guarded .taking ∅ (kvmHostServerRegister pid ioctlParam kmalloc fcheck) := by
  have hin : Mutex.ks ∈ ({.ks} : Set Mutex) := rfl
  have hout : ∀ retVal, TwoPhase guarded .leaving {.ks} (.unlock .ks (.ret retVal) : Code) :=
    fun retVal => .last (.ret retVal)
  refine .enter (.first ⟨_, hin⟩ (local_ks hin none) (fun _ _ h => h) ?_)
  cases kmalloc with
  | none => exact hout negENOMEM
  | some stale =>
      refine .later (local_ks hin _) (fun _ => rfl) (.ite (hout (-1)) ?_)
      cases fcheck (toInt ioctlParam) with
      | none => exact hout (-1)
      | some fl => exact .later (local_ks hin _) (fun _ => rfl) (hout 0)

theorem twoPhase_deRegister : TwoPhase guarded .taking ∅ kvmHostServerDeRegister := by
  have hin : Mutex.ks ∈ ({.ks} : Set Mutex) := rfl
  exact .enter (.first ⟨_, hin⟩ (local_ks hin none) (fun _ _ h => h) (.last (.ret 0)))

/-- After the section of `table_pop` the thread looks at no global again before the next one. -/
theorem twoPhase_getPendingModule (notCopied : ℕ) :
    TwoPhase guarded .taking ∅ (kvmHostServerGetPendingModule notCopied) := by
  refine twoPhase_tablePop fun mt => ?_
  rcases mt with _ | _ | i
  · exact .ret 0
  · exact .fault
  · refine .bare (fun _ _ _ => rfl) fun s => .ite (.ret 1) ?_
    exact twoPhase_tablePopReverse fun _ => .ret _

theorem twoPhase_lookup (uuid : Uuid) (notRead : ℕ) (kmalloc : Option CopyBlock)
    (notCopied : ℕ) :
    TwoPhase guarded .taking ∅ (kvmHostServerLookup uuid notRead kmalloc notCopied) := by
  refine .ite (twoPhase_tableGetCopy uuid kmalloc fun mts => ?_) (.ret _)
  rcases mts with _ | _ | mts
  · exact .ret _
  · exact .fault
  · exact .ite (.ret _) (.ret _)

theorem entry_twoPhase (e : EntryPoint) : TwoPhase guarded .taking ∅ (entry e) := by
  cases e with
  | putModule uuid nsproxy mod krealloc fileget =>
      show TwoPhase guarded .taking ∅ (lxcUioProxyPutModule1 uuid nsproxy mod krealloc fileget)
      refine twoPhase_tablePut _ krealloc fun retVal => ?_
      exact .ite (twoPhase_sendEvent fileget fun _ => .ret retVal) (.ret retVal)
  | cdevOpen => exact twoPhase_cdevNothing
  | cdevRelease => exact twoPhase_cdevNothing
  | cdevRead => exact twoPhase_cdevNothing
  | cdevWrite packet1 bytesNotCopied kmalloc notCopied =>
      exact twoPhase_cdevWrite packet1 bytesNotCopied kmalloc notCopied
  | register pid ioctlParam kmalloc fcheck => exact twoPhase_register pid ioctlParam kmalloc fcheck
  | deRegister => exact twoPhase_deRegister
  | getPendingModule notCopied => exact twoPhase_getPendingModule notCopied
  | getUuidSize uuid notRead kmalloc notCopied =>
      exact twoPhase_lookup uuid notRead kmalloc notCopied
  | getLayout kind uuid notRead kmalloc notCopied =>
      exact twoPhase_lookup uuid notRead kmalloc notCopied
  | invalidIoctl => exact .ret (-1)

end TwoPhase

/-! ## What every section keeps -/

/-- The operations of the table by which a call may change it. -/
def EntryPoint.tableCalls : EntryPoint → List TableCall
  | .putModule uuid nsproxy mod krealloc _ => [.put ⟨uuid, nsproxy, mod⟩ krealloc]
  | .getPendingModule _ => [.pop, .popReverse]
  | _ => []

/-- A whole registration or de-registration. -/
inductive RecordCall where
  | register (pid ioctlParam : ℤ) (kmalloc : Option FilePtr) (fcheck : ℤ → Option FilePtr)
  | deRegister

def RecordCall.run (ks : Option KvmHostServer) : RecordCall → Option KvmHostServer
  | .register pid ioctlParam kmalloc fcheck =>
      (Proxy.kvmHostServerRegister ks pid ioctlParam kmalloc fcheck).2
  | .deRegister => (Proxy.kvmHostServerDeRegister ks).2

/-- The entry point that makes it. -/
def RecordCall.entryPoint : RecordCall → EntryPoint
  | .register pid ioctlParam kmalloc fcheck => .register pid ioctlParam kmalloc fcheck
  | .deRegister => .deRegister

/-- `made` are the calls that the threads make. -/
def TableReached (made : Set EntryPoint) (t₀ t : ModuleTable) : Prop :=
  ∃ cs, t = runCalls t₀ cs ∧ ∀ c ∈ cs, ∃ e ∈ made, c ∈ e.tableCalls

def RecordReached (made : Set EntryPoint) (ks₀ ks : Option KvmHostServer) : Prop :=
  ∃ cs : List RecordCall, ks = cs.foldl RecordCall.run ks₀ ∧ ∀ c ∈ cs, c.entryPoint ∈ made

/-- Both globals are what whole operations of these calls lead to from `start`. -/
structure GlobalsReached (made : Set EntryPoint) (start s : Globals) : Prop where
  table : TableReached made start.table s.table
  ks : RecordReached made start.ks s.ks

section Keep

variable {made : Set EntryPoint} {start s : Globals}

/-- The code keeps it, from outside all sections. -/
abbrev Keeps (made : Set EntryPoint) (start : Globals) (code : Code) (s : Globals) : Prop :=
  code.SectionsKeep (GlobalsReached made start) ∅ s

theorem GlobalsReached.refl (made : Set EntryPoint) (start : Globals) :
    GlobalsReached made start start where
  table := ⟨[], rfl, by rintro c ⟨⟩⟩
  ks := ⟨[], rfl, by rintro c ⟨⟩⟩

/-- One more operation of the table. -/
theorem GlobalsReached.call (h : GlobalsReached made start s) {e : EntryPoint} (he : e ∈ made)
    {c : TableCall} (hc : c ∈ e.tableCalls) {t : ModuleTable} (ht : t = (c.run s.table).2) :
    GlobalsReached made start { s with table := t } := by
  obtain ⟨cs, hs, hcs⟩ := h.table
  refine ⟨⟨cs ++ [c], ?_, ?_⟩, h.ks⟩
  · show t = _
    rw [ht, runCalls, List.foldl_append, hs]
    rfl
  · intro d hd
    rcases List.mem_append.mp hd with hold | hnew
    · exact hcs d hold
    · rw [List.mem_singleton.mp hnew]
      exact ⟨e, he, hc⟩

/-- One more registration or de-registration. -/
theorem GlobalsReached.recordCall (h : GlobalsReached made start s) {c : RecordCall}
    (hc : c.entryPoint ∈ made) {ks : Option KvmHostServer} (hks : ks = c.run s.ks) :
    GlobalsReached made start { s with ks := ks } := by
  obtain ⟨cs, hs, hcs⟩ := h.ks
  refine ⟨h.table, cs ++ [c], ?_, ?_⟩
  · show ks = _
    rw [hks, List.foldl_append, ← hs]
    rfl
  · intro d hd
    rcases List.mem_append.mp hd with hold | hnew
    · exact hcs d hold
    · rw [List.mem_singleton.mp hnew]
      exact hc

theorem keep_tablePut (mt : ModuleTableStruct) (krealloc : Option (ℤ → ModuleTableStruct))
    {next : ℤ → Code} {e : EntryPoint} (he : e ∈ made)
    (hcall : .put mt krealloc ∈ e.tableCalls) (hs : GlobalsReached made start s)
    (hnext : ∀ retVal t, GlobalsReached made start t → Keeps made start (next retVal) t) :
    Keeps made start (tablePut mt krealloc next) s := by
  refine .enter hs fun t ht => .inside ⟨_, rfl⟩ ?_
  have hput := ht.call he hcall rfl
  dsimp only [TableCall.run, Proxy.tablePut] at hput
  show SectionsKeep _ (ite _ _ _) _ t
  split_ifs at hput ⊢ with hnull hover hfull
  · exact .last (hnext _ _ ht)
  · exact .last (hnext _ _ ht)
  · cases krealloc with
    | none => exact .inside ⟨_, rfl⟩ (.last (hnext _ _ hput))
    | some mem => exact .inside ⟨_, rfl⟩ (.inside ⟨_, rfl⟩ (.last (hnext _ _ hput)))
  · exact .inside ⟨_, rfl⟩ (.last (hnext _ _ hput))

theorem keep_tableGetCopy (uuid : Uuid) (kmalloc : Option CopyBlock)
    {next : Option CopyBlock → Code} (hs : GlobalsReached made start s)
    (hnext : ∀ mts t, GlobalsReached made start t → Keeps made start (next mts) t) :
    Keeps made start (tableGetCopy uuid kmalloc next) s := by
  cases kmalloc with
  | none => exact hnext none s hs
  | some stale =>
      refine .enter hs fun t ht => .inside ⟨_, rfl⟩ ?_
      exact .ite ht (.last (hnext _ _ ht))

theorem keep_tablePop {next : Option (OrOops ℤ) → Code} {e : EntryPoint} (he : e ∈ made)
    (hcall : .pop ∈ e.tableCalls) (hs : GlobalsReached made start s)
    (hnext : ∀ p t, GlobalsReached made start t → Keeps made start (next p) t) :
    Keeps made start (tablePop next) s := by
  refine .enter hs fun t ht => .inside ⟨_, rfl⟩ ?_
  have hpop := ht.call he hcall rfl
  dsimp only [TableCall.run, Proxy.tablePop] at hpop
  show SectionsKeep _ (ite _ _ _) _ t
  split_ifs at hpop ⊢ with hp
  · exact .inside ⟨_, rfl⟩ (.inside ⟨_, rfl⟩ (.last (hnext _ _ hpop)))
  · exact .last (hnext _ _ ht)

theorem keep_tablePopReverse {next : ℤ → Code} {e : EntryPoint} (he : e ∈ made)
    (hcall : .popReverse ∈ e.tableCalls) (hs : GlobalsReached made start s)
    (hnext : ∀ retVal t, GlobalsReached made start t → Keeps made start (next retVal) t) :
    Keeps made start (tablePopReverse next) s := by
  refine .enter hs fun t ht => .inside ⟨_, rfl⟩ ?_
  have hpop := ht.call he hcall rfl
  dsimp only [TableCall.run, Proxy.tablePopReverse] at hpop
  show SectionsKeep _ (ite _ _ _) _ t
  split_ifs at hpop ⊢ with hp
  · exact .last (hnext _ _ ht)
  · exact .inside ⟨_, rfl⟩ (.last (hnext _ _ hpop))

theorem keep_sendEvent (fileget : FilePtr → Option EventfdCtx) {next : ℤ → Code}
    (hs : GlobalsReached made start s)
    (hnext : ∀ retVal t, GlobalsReached made start t → Keeps made start (next retVal) t) :
    Keeps made start (sendEvent fileget next) s := by
  refine .enter hs fun t ht => .inside ⟨_, rfl⟩ ?_
  have hout : ∀ retVal, SectionsKeep (GlobalsReached made start) (.unlock .ks (next retVal)) {.ks}
      t := fun retVal => .last (hnext retVal t ht)
  cases hks : t.ks with
  | none => exact hout 0
  | some server =>
      have hrest : (insert .table {.ks} : Set Mutex) \ {.table} = {.ks} := by
        rw [Set.insert_sdiff_self_of_notMem]
        decide
      dsimp only
      refine .nested ⟨_, rfl⟩ (.inside ⟨_, Or.inl rfl⟩ (.ite ⟨Or.inl rfl, ?_⟩ ⟨Or.inl rfl, ?_⟩))
      · -- the table is given back before the entry is looked at
        rw [hrest]
        simp only [id_eq]
        cases t.table.address (t.table.tableIndex + 1) with
        | none => exact hout (-1)
        | some i =>
            dsimp only
            cases fileget server.fp with
            | none => exact hout (-1)
            | some efdCtx => exact hout 0
      · rw [hrest]
        exact hout (-1)

/-- The sections of `cdev_mutex` are empty. -/
theorem keep_cdevSection {next : Code} (hs : GlobalsReached made start s)
    (hnext : ∀ t, GlobalsReached made start t → Keeps made start next t) :
    Keeps made start (LockProgram.lock .cdev (.unlock .cdev next)) s :=
  .enter hs fun t ht => .last (hnext t ht)

theorem keep_processPacket (packet1 : Packet) (kmalloc : Option CopyBlock)
    (notCopied : ℕ) {next : ℤ → Code} (hs : GlobalsReached made start s)
    (hnext : ∀ retVal t, GlobalsReached made start t → Keeps made start (next retVal) t) :
    Keeps made start (processPacket packet1 kmalloc notCopied next) s := by
  unfold processPacket
  refine keep_tableGetCopy packet1.uuid kmalloc hs fun mts t ht => ?_
  rcases mts with _ | _ | mts
  · exact ht
  · exact ht
  · have hret : ∀ retVal : ℤ, SectionsKeep (GlobalsReached made start)
        (if retVal = 0 then next 0 else next (toInt (-retVal))) ∅ t :=
      fun retVal => .ite (hnext 0 t ht) (hnext _ t ht)
    exact hret _

theorem keep_cdevWrite (packet1 : Packet) (bytesNotCopied : ℕ)
    (kmalloc : Option CopyBlock) (notCopied : ℕ) (hs : GlobalsReached made start s) :
    Keeps made start (cdevWrite packet1 bytesNotCopied kmalloc notCopied) s := by
  refine keep_cdevSection hs fun t ht => .ite ?_ ht
  exact keep_processPacket packet1 kmalloc notCopied ht fun retVal u hu => .ite hu hu

theorem keep_register (pid ioctlParam : ℤ) (kmalloc : Option FilePtr)
    (fcheck : ℤ → Option FilePtr) (he : .register pid ioctlParam kmalloc fcheck ∈ made)
    (hs : GlobalsReached made start s) :
    Keeps made start (kvmHostServerRegister pid ioctlParam kmalloc fcheck) s := by
  refine .enter hs fun t ht => .inside ⟨_, rfl⟩ ?_
  have hreg : GlobalsReached made start
      { t with ks := (Proxy.kvmHostServerRegister t.ks pid ioctlParam kmalloc fcheck).2 } :=
    ht.recordCall (c := .register pid ioctlParam kmalloc fcheck) he rfl
  unfold Proxy.kvmHostServerRegister at hreg
  cases kmalloc with
  | none => exact .last hreg
  | some stale =>
      refine .inside ⟨_, rfl⟩ ?_
      dsimp only at hreg
      split_ifs at hreg ⊢ with hneg
      · exact .last hreg
      · cases hfl : fcheck (toInt ioctlParam) with
        | none =>
            rw [hfl] at hreg
            exact .last hreg
        | some fl =>
            rw [hfl] at hreg
            exact .inside ⟨_, rfl⟩ (.last hreg)

theorem keep_getPendingModule (notCopied : ℕ) (he : .getPendingModule notCopied ∈ made)
    (hs : GlobalsReached made start s) :
    Keeps made start (kvmHostServerGetPendingModule notCopied) s := by
  have hpop : TableCall.pop ∈ (EntryPoint.getPendingModule notCopied).tableCalls :=
    List.mem_cons_self
  have hreverse : TableCall.popReverse ∈ (EntryPoint.getPendingModule notCopied).tableCalls :=
    List.mem_cons_of_mem _ List.mem_cons_self
  refine keep_tablePop he hpop hs fun mt t ht => ?_
  rcases mt with _ | _ | i
  · exact ht
  · exact ht
  · refine .bare ht fun u hu => .ite hu ?_
    exact keep_tablePopReverse he hreverse hu fun _ _ hv => hv

theorem keep_lookup (uuid : Uuid) (notRead : ℕ) (kmalloc : Option CopyBlock)
    (notCopied : ℕ) (hs : GlobalsReached made start s) :
    Keeps made start (kvmHostServerLookup uuid notRead kmalloc notCopied) s := by
  refine .ite (keep_tableGetCopy uuid kmalloc hs fun mts t ht => ?_) hs
  rcases mts with _ | _ | mts
  · exact ht
  · exact ht
  · exact .ite ht ht

theorem entry_keep (e : EntryPoint) (he : e ∈ made) (hs : GlobalsReached made start s) :
    Keeps made start (entry e) s := by
  cases e with
  | putModule uuid nsproxy mod krealloc fileget =>
      show (lxcUioProxyPutModule1 uuid nsproxy mod krealloc fileget).SectionsKeep _ ∅ s
      refine keep_tablePut ⟨uuid, nsproxy, mod⟩ krealloc he List.mem_cons_self hs
        fun retVal t ht => ?_
      exact .ite (keep_sendEvent fileget ht fun _ _ hu => hu) ht
  | cdevOpen => exact keep_cdevSection hs fun _ ht => ht
  | cdevRelease => exact keep_cdevSection hs fun _ ht => ht
  | cdevRead => exact keep_cdevSection hs fun _ ht => ht
  | cdevWrite packet1 bytesNotCopied kmalloc notCopied =>
      exact keep_cdevWrite packet1 bytesNotCopied kmalloc notCopied hs
  | register pid ioctlParam kmalloc fcheck =>
      exact keep_register pid ioctlParam kmalloc fcheck he hs
  | deRegister =>
      refine .enter hs fun t ht => .inside ⟨_, rfl⟩ (.last ?_)
      exact ht.recordCall (c := .deRegister) he rfl
  | getPendingModule notCopied => exact keep_getPendingModule notCopied he hs
  | getUuidSize uuid notRead kmalloc notCopied =>
      exact keep_lookup uuid notRead kmalloc notCopied hs
  | getLayout kind uuid notRead kmalloc notCopied =>
      exact keep_lookup uuid notRead kmalloc notCopied hs
  | invalidIoctl => exact hs

end Keep

/-! ## All interleavings -/

section Threads

variable {ι : Type} [DecidableEq ι]

/-- **The proxy's sections are atomic**: a state in which no thread is in a section is
reached by a run that never interrupts one, with the same threads at the same places. -/
theorem proxy_serial (globals : Globals) {s : ProxyThreads ι}
    (h : Via (lockStep entry) anyStep (LockState.init globals 0) s) (hquiet : s.Quiet) :
    LockState.Serial entry (LockState.init globals 0) s :=
  LockState.serial_of_twoPhase entry_twoPhase h hquiet

/-- The calls that the threads of a run make. -/
def callsOf (as : List (LockLabel ι EntryPoint)) : Set EntryPoint :=
  {e | ∃ i, LockLabel.call i e ∈ as}

/-- **Behind a free mutex everything is complete**: whatever the threads do elsewhere, the
table is what whole operations make of the one at the start, and the record what whole
registrations and de-registrations leave, all of them of calls that the run makes. -/
theorem free_globals_reached (start : Globals) {as : List (LockLabel ι EntryPoint)}
    {s : ProxyThreads ι} (h : exec (lockStep entry) (LockState.init start 0) as = some s) :
    (s.holder .table = none → TableReached (callsOf as) start.table s.shared.table) ∧
      (s.holder .ks = none → RecordReached (callsOf as) start.ks s.shared.ks) := by
  obtain ⟨globals, hreached, hfree⟩ :=
    LockState.free_parts_of_calls entry_twoPhase (fun e he _ hs => entry_keep e he hs)
      (GlobalsReached.refl (callsOf as) start) h fun i _ he => ⟨i, he⟩
  refine ⟨fun hmutex => ?_, fun hmutex => ?_⟩
  · have htable : s.shared.table = globals.table := hfree .table hmutex
    rw [htable]
    exact hreached.table
  · have hks : s.shared.ks = globals.ks := hfree .ks hmutex
    rw [hks]
    exact hreached.ks

/-- A put takes `table_mutex` while a register is between its writes, and later peeks for
the server registered. -/
def interrupted : List (LockLabel ℕ EntryPoint) :=
  [.call 0 (.register 2 3 (some 0) fun _ => some 8),
    .call 1 (.putModule 0 0 default none fun fp => some (.ctx fp)),
    .step 0, .step 1, .step 0, .step 1, .step 1, .step 0, .step 0, .step 1, .step 0,
    .step 1, .step 1, .step 1, .step 1, .step 1, .step 1]

abbrev atLoad : Globals := ⟨(UsableTable.fresh (fun _ => default) fun _ => default).table, none⟩

theorem proxy_serial_interrupted : ∃ s : ProxyThreads ℕ,
    exec (lockStep entry) (LockState.init atLoad 0) interrupted = some s ∧ s.Quiet ∧
      s.shared.ks = some ⟨2, 8⟩ ∧ s.shared.table.tableNumEntries = 1 ∧
      LockState.Serial entry (LockState.init atLoad 0) s := by
  have hrun : ∃ s : ProxyThreads ℕ, exec (lockStep entry) (LockState.init atLoad 0)
      interrupted = some s ∧ s.Quiet ∧ s.shared.ks = some ⟨2, 8⟩ ∧
      s.shared.table.tableNumEntries = 1 := by
    refine ⟨_, rfl, fun i => Or.inl ?_, rfl, rfl⟩
    ext m
    cases m <;> exact iff_of_false (by rintro ⟨⟩) fun h => h
  obtain ⟨s, hs, hquiet, hks, hnum⟩ := hrun
  exact ⟨s, hs, hquiet, hks, hnum, proxy_serial atLoad (via_of_exec hs) hquiet⟩

/-- The table is free again before the register is done, and in the end both are. -/
theorem free_globals_reached_interrupted : ∃ s t : ProxyThreads ℕ,
    exec (lockStep entry) (LockState.init atLoad 0) (interrupted.take 10) = some s ∧
      s.holder .ks = some 0 ∧ s.holder .table = none ∧
      TableReached (callsOf (interrupted.take 10)) atLoad.table s.shared.table ∧
      exec (lockStep entry) (LockState.init atLoad 0) interrupted = some t ∧
      t.shared.ks = some ⟨2, 8⟩ ∧ RecordReached (callsOf interrupted) none t.shared.ks := by
  have hmiddle : ∃ s : ProxyThreads ℕ, exec (lockStep entry) (LockState.init atLoad 0)
      (interrupted.take 10) = some s ∧ s.holder .ks = some 0 ∧ s.holder .table = none :=
    ⟨_, rfl, rfl, rfl⟩
  have hend : ∃ t : ProxyThreads ℕ, exec (lockStep entry) (LockState.init atLoad 0)
      interrupted = some t ∧ t.holder .ks = none ∧ t.shared.ks = some ⟨2, 8⟩ :=
    ⟨_, rfl, rfl, rfl⟩
  obtain ⟨s, hs, hheld, htable⟩ := hmiddle
  obtain ⟨t, ht, hfree, hks⟩ := hend
  exact ⟨s, t, hs, hheld, htable, (free_globals_reached atLoad hs).1 htable, ht, hks,
    (free_globals_reached atLoad ht).2 hfree⟩

end Threads

end LxcUio.Proxy.Locks
