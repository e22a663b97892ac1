import LxcUio.Proxy.Device

/-!
# What the users of the device can do to the proxy

Any number of processes issue system calls on the device, with any command word, argument and
memory, while modules are put. `accepted` lists what `table_put` took, `calls` every system
call that returned; no step reads either of them. A call that faults does not return.

No call of a user adds, loses or changes an entry, the cursor has not moved further than the
requests for a module, and every request returns what `chardev.h` announces for it, where it
announces anything.
-/

namespace LxcUio.Proxy

open LxcUio.Foundation Locks

/-! ## The machine -/

/-- A system call that returned, with the caller's pid. -/
inductive DeviceCall where
  | ioctl (ioctlNum : ℕ) (pid : ℤ) (ret : ℤ)
  | write (ret : ℤ)

structure DeviceState where
  globals : Globals
  accepted : List ModuleTableStruct
  calls : List DeviceCall

inductive DeviceLabel where
  | putModule (uuid : Uuid) (nsproxy : ℕ) (mod : KModule)
      (krealloc : Option (ℤ → ModuleTableStruct))
      (eventfdCtxFileget : FilePtr → Option EventfdCtx)
  | write (buff : UserAddr) (count : ℕ) (env : WriteEnv) (user : UserSpace)
  | ioctl (ioctlNum ioctlParam : ℕ) (env : IoctlEnv) (mem : UserMem)

def DeviceState.init (mem kmem : ℤ → ModuleTableStruct) : DeviceState :=
  ⟨⟨(UsableTable.fresh mem kmem).table, none⟩, [], []⟩

/-- The globals that a faulting ioctl leaves: its pop has happened. -/
def oopsed (lxcUioCdevMajorNumber : ℕ) (s : Globals) (ioctlNum : ℕ) : Globals :=
  if ioctlNum = Word.kvmHostServerGetPendingModule lxcUioCdevMajorNumber then
    { s with table := (tablePop s.table).2 }
  else s

def deviceStep (major : ℕ) (s : DeviceState) : DeviceLabel → Option DeviceState
  | .putModule uuid nsproxy mod krealloc fileget =>
      let r := lxcUioProxyPutModule1 s.globals.ks s.globals.table uuid nsproxy mod krealloc fileget
      some { s with
        globals := { s.globals with table := r.2.1 }
        accepted := if r.1 = 0 then s.accepted ++ [⟨uuid, nsproxy, mod⟩] else s.accepted }
  | .write buff count env user =>
      match cdevWriteUser s.globals.table buff count env user with
      | none => some s
      | some r => some { s with calls := s.calls ++ [.write r.1] }
  | .ioctl ioctlNum ioctlParam env mem =>
      match cdevIoctl major s.globals ioctlNum ioctlParam env mem with
      | none => some { s with globals := oopsed major s.globals ioctlNum }
      | some r =>
          some { s with globals := r.2.1, calls := s.calls ++ [.ioctl ioctlNum env.pid r.1] }

/-! ## What is promised -/

/-- The values that an ioctl may return: 1 only for a module, and 0 only for a request. -/
def Announced (major ioctlNum : ℕ) (ret : ℤ) : Prop :=
  ret < 0 ∨
    ret = 0 ∧ (∃ r : Request, ioctlNum = r.word major) ∨
    ret = 1 ∧ ioctlNum = Word.kvmHostServerGetPendingModule major

def DeviceCall.Announced (major : ℕ) : DeviceCall → Prop
  | .ioctl ioctlNum _ ret => Proxy.Announced major ioctlNum ret
  | .write ret => ret = sizeofPacket ∨ ret = -1

/-- The call is a delivered module. -/
def DeviceCall.delivers (major : ℕ) : DeviceCall → Bool
  | .ioctl ioctlNum _ ret => ioctlNum = Word.kvmHostServerGetPendingModule major ∧ ret = 1
  | .write _ => false

/-- A process with this pid has asked to be registered. -/
def DeviceCall.registers (major : ℕ) (pid : ℤ) : DeviceCall → Prop
  | .ioctl ioctlNum pid' _ => ioctlNum = Word.kvmHostServerRegister major ∧ pid' = pid
  | .write _ => False

/-- **The device's contract.** As many entries are counted as were put, and unless the table was
lost it holds them in order; no more of them were delivered than the cursor has passed; every
value returned is announced; and whoever is registered has asked for it. -/
structure DeviceContract (major : ℕ) (s : DeviceState) : Prop where
  count : s.globals.table.tableNumEntries = s.accepted.length
  entries : s.globals.table.moduleTable.isNull = false →
    s.globals.table.moduleTable.slice 0 s.globals.table.tableNumEntries = s.accepted
  delivered : (s.calls.countP (DeviceCall.delivers major) : ℤ) ≤ s.globals.table.tableIndex + 1
  cursor : s.globals.table.tableIndex < s.accepted.length
  values : ∀ c ∈ s.calls, c.Announced major
  record : ∀ server, s.globals.ks = some server → ∃ c ∈ s.calls, c.registers major server.pid

/-! ## What the calls do -/

/-- The entries of a table, or of the block that it was before it was lost. -/
def ModuleTable.entries (t : ModuleTable) : List ModuleTableStruct :=
  t.moduleTable.slice 0 t.tableNumEntries

theorem tablePut_entries {t : ModuleTable} (h : t.Sound) (mt : ModuleTableStruct)
    (krealloc : Option (ℤ → ModuleTableStruct)) :
    (tablePut t mt krealloc).2.entries =
      if (tablePut t mt krealloc).1 = 0 then t.entries ++ [mt] else t.entries := by
  rcases tablePut_cases h mt krealloc with ⟨hret, happ, -, -⟩ | ⟨hneg, -, hsame⟩ |
    ⟨hneg, -, -, hlost⟩
  · rw [if_pos hret, ModuleTable.entries, happ.num]
    exact HeapArray.slice_snoc h.num_nonneg happ.kept happ.last
  · rw [if_neg (by omega), hsame]
  · -- the cells of the block that is lost are not written
    rw [if_neg (by omega), hlost]
    rfl

theorem tablePut_tableIndex {t : ModuleTable} (h : t.Sound) (mt : ModuleTableStruct)
    (krealloc : Option (ℤ → ModuleTableStruct)) :
    (tablePut t mt krealloc).2.tableIndex = t.tableIndex := by
  rcases tablePut_cases h mt krealloc with ⟨-, happ, -, -⟩ | ⟨-, -, hsame⟩ | ⟨-, -, -, hlost⟩
  · exact happ.index
  · rw [hsame]
  · rw [hlost]
    rfl

theorem putModule_retVal (ks : Option KvmHostServer) (t : ModuleTable) (uuid : Uuid) (nsproxy : ℕ)
    (mod : KModule) (krealloc : Option (ℤ → ModuleTableStruct))
    (fileget : FilePtr → Option EventfdCtx) :
    (lxcUioProxyPutModule1 ks t uuid nsproxy mod krealloc fileget).1 =
        (tablePut t ⟨uuid, nsproxy, mod⟩ krealloc).1 ∧
      (lxcUioProxyPutModule1 ks t uuid nsproxy mod krealloc fileget).2.1 =
        (tablePut t ⟨uuid, nsproxy, mod⟩ krealloc).2 := by
  unfold lxcUioProxyPutModule1
  dsimp only
  split <;> exact ⟨rfl, rfl⟩

/-- A registration leaves nobody, or the caller. -/
theorem register_outcome (ks : Option KvmHostServer) (pid ioctlParam : ℤ)
    (kmalloc : Option FilePtr) (fcheck : ℤ → Option FilePtr) :
    (Proxy.kvmHostServerRegister ks pid ioctlParam kmalloc fcheck).1 ≤ 0 ∧
      ∀ server, (Proxy.kvmHostServerRegister ks pid ioctlParam kmalloc fcheck).2 = some server →
        server.pid = pid := by
  have herror : (-1 : ℤ) ≤ 0 := by decide
  unfold Proxy.kvmHostServerRegister
  split
  · exact ⟨by decide, by rintro server ⟨⟩⟩
  · dsimp only
    split
    · exact ⟨herror, by rintro server ⟨⟩; rfl⟩
    · split
      · exact ⟨herror, by rintro server ⟨⟩; rfl⟩
      · exact ⟨le_refl 0, by rintro server ⟨⟩; rfl⟩

theorem lookup_retVal {size : ℕ} {value : ModuleTableStruct → ℕ → UInt8} {t : ModuleTable}
    {ptr : UserAddr} {env : LookupEnv} {mem : UserMem} {r : ℤ × UserMem}
    (h : lookupIoctl size value t ptr env mem = some r) : r.1 ≤ 0 := by
  unfold lookupIoctl at h
  split at h
  · split at h
    · cases h
    · obtain rfl := Option.some.inj h
      exact (by decide : (-1 : ℤ) ≤ 0)
    · cases h
    · dsimp only at h
      split at h <;> obtain rfl := Option.some.inj h
      · exact le_refl 0
      · show -(env.notCopied : ℤ) ≤ 0
        omega
  · obtain rfl := Option.some.inj h
    show -(env.notRead : ℤ) ≤ 0
    omega

/-- The pop moves the cursor forward, and by one when there is an entry. -/
theorem popEntry_index (t : ModuleTable) :
    t.tableIndex ≤ (popEntry t).2.tableIndex ∧
      ∀ i uuid, (popEntry t).1 = .entry i uuid →
        (popEntry t).2.tableIndex = t.tableIndex + 1 := by
  refine ⟨?_, fun i uuid hentry => ?_⟩
  · rw [popEntry_snd_eq_tablePop]
    unfold tablePop
    split
    · exact Int.le_add_one (le_refl _)
    · exact le_refl _
  · have hpop : popEntry t = (.entry i uuid, (popEntry t).2) := Prod.ext hentry rfl
    obtain ⟨-, -, -, -, hpopped⟩ := popEntry_entry hpop
    rw [hpopped]

/-- Taking it back moves the cursor no further than the pop moved it. -/
theorem popReverse_index {t u : ModuleTable} (h : t.tableIndex = u.tableIndex + 1) :
    u.tableIndex ≤ (tablePopReverse t).2.tableIndex := by
  unfold tablePopReverse
  split
  · exact h ▸ Int.le_add_one (le_refl _)
  · show u.tableIndex ≤ t.tableIndex - 1
    omega

/-- What `kvm_host_server_get_pending_module` returns, and where it leaves the cursor. -/
theorem getPendingModuleUser_cases {t : ModuleTable} (h : t.Sound) {dst notCopied : ℕ}
    {mem : UserMem} {r : ℤ × ModuleTable × UserMem}
    (hr : getPendingModuleUser t dst notCopied mem = some r) :
    r.2.1.Sound ∧ r.2.1.entries = t.entries ∧
      ((r.1 = 1 ∧ r.2.1.tableIndex = t.tableIndex + 1) ∨
        (r.1 ≤ 0 ∧ t.tableIndex ≤ r.2.1.tableIndex)) := by
  have hsound := popEntry_sound h
  have hindex := popEntry_index t
  have hentries : (popEntry t).2.entries = t.entries := by
    rw [popEntry_snd_eq_tablePop, ModuleTable.entries, tablePop_moduleTable, tablePop_num]
    rfl
  unfold getPendingModuleUser at hr
  split at hr
  · rename_i u hpop
    rw [hpop] at hsound hindex hentries
    obtain rfl := Option.some.inj hr
    exact ⟨hsound, hentries, Or.inr ⟨le_refl 0, hindex.1⟩⟩
  · cases hr
  · rename_i i uuid u hpop
    rw [hpop] at hsound hindex hentries
    have hmoved := hindex.2 i uuid rfl
    dsimp only at hr
    split at hr <;> obtain rfl := Option.some.inj hr
    · rename_i hn
      exact ⟨hsound, hentries, Or.inl ⟨if_pos hn, hmoved⟩⟩
    · rename_i hn
      refine ⟨tablePopReverse_sound hsound, ?_, Or.inr ⟨?_, popReverse_index hmoved⟩⟩
      · rw [← hentries, ModuleTable.entries, tablePopReverse_num]
        unfold tablePopReverse
        split <;> rfl
      · show copiedRetval notCopied ≤ 0
        rw [copiedRetval, if_neg hn]
        omega

/-! ## Every step keeps the contract -/

/-- What every step keeps: also the cells of a lost table are those that were put. -/
structure DeviceInv (major : ℕ) (s : DeviceState) : Prop where
  cells : s.globals.table.entries = s.accepted
  delivered : (s.calls.countP (DeviceCall.delivers major) : ℤ) ≤ s.globals.table.tableIndex + 1
  cursor : s.globals.table.tableIndex < s.accepted.length
  values : ∀ c ∈ s.calls, c.Announced major
  record : ∀ server, s.globals.ks = some server → ∃ c ∈ s.calls, c.registers major server.pid
  sound : s.globals.table.Sound

theorem DeviceInv.contract {major : ℕ} {s : DeviceState} (h : DeviceInv major s) :
    DeviceContract major s where
  count := by
    have hlength := congrArg List.length h.cells
    have hnum := h.sound.num_nonneg
    rw [ModuleTable.entries, HeapArray.length_slice] at hlength
    omega
  entries := fun _ => h.cells
  delivered := h.delivered
  cursor := h.cursor
  values := h.values
  record := h.record

/-- A call that returns a value announced; when it delivers, the cursor has moved. -/
theorem DeviceInv.call {major : ℕ} {s : DeviceState} (h : DeviceInv major s) {c : DeviceCall}
    {g : Globals} (hc : c.Announced major)
    (hsound : g.table.Sound) (hentries : g.table.entries = s.globals.table.entries)
    (hindex : s.globals.table.tableIndex + (if c.delivers major = true then 1 else 0) ≤
      g.table.tableIndex)
    (hrecord : ∀ server, g.ks = some server → s.globals.ks = some server ∨
      c.registers major server.pid) :
    DeviceInv major { s with globals := g, calls := s.calls ++ [c] } where
  cells := hentries.trans h.cells
  delivered := by
    have hle := h.delivered
    show ((s.calls ++ [c]).countP (DeviceCall.delivers major) : ℤ) ≤ g.table.tableIndex + 1
    rw [List.countP_append, List.countP_singleton]
    split at hindex <;> simp only [*, if_true, if_false, Bool.false_eq_true] <;> omega
  cursor := by
    have hlength := congrArg List.length (hentries.trans h.cells)
    rw [ModuleTable.entries, HeapArray.length_slice] at hlength
    have hlt := hsound.index_lt
    show g.table.tableIndex < s.accepted.length
    omega
  values := by
    intro d hd
    rcases List.mem_append.mp hd with hd | hd
    · exact h.values d hd
    · rw [List.mem_singleton.mp hd]
      exact hc
  record := by
    intro server hks
    rcases hrecord server hks with hold | hnew
    · obtain ⟨d, hd, hregisters⟩ := h.record server hold
      exact ⟨d, List.mem_append_left _ hd, hregisters⟩
    · exact ⟨c, List.mem_append_right _ (List.mem_singleton_self c), hnew⟩
  sound := hsound

/-- What a branch of `cdev_ioctl` does: the entries stay, and only the ioctl that delivers a
module returns 1. -/
theorem handler_outcome {s : Globals} (h : s.table.Sound) (r : Request) {ioctlParam : ℕ}
    {env : IoctlEnv} {mem : UserMem} {out : ℤ × Globals × UserMem}
    (hr : r.handler s ioctlParam env mem = some out) :
    out.2.1.table.Sound ∧ out.2.1.table.entries = s.table.entries ∧
      ((out.1 = 1 ∧ r = .getPendingModule ∧
          out.2.1.table.tableIndex = s.table.tableIndex + 1) ∨
        (out.1 ≤ 0 ∧ s.table.tableIndex ≤ out.2.1.table.tableIndex)) ∧
      ∀ server, out.2.1.ks = some server →
        s.ks = some server ∨ r = .register ∧ server.pid = env.pid := by
  cases r with
  | register =>
      obtain rfl := Option.some.inj hr
      obtain ⟨hret, hks⟩ := register_outcome s.ks env.pid ioctlParam env.kmalloc env.fcheck
      exact ⟨h, rfl, Or.inr ⟨hret, le_refl _⟩,
        fun server hserver => Or.inr ⟨rfl, hks server hserver⟩⟩
  | deRegister =>
      obtain rfl := Option.some.inj hr
      exact ⟨h, rfl, Or.inr ⟨le_refl 0, le_refl _⟩, by rintro server ⟨⟩⟩
  | getPendingModule =>
      obtain ⟨res, hres, rfl⟩ := Option.map_eq_some_iff.mp hr
      obtain ⟨hsound, hentries, hcases⟩ := getPendingModuleUser_cases h hres
      refine ⟨hsound, hentries, ?_, fun server hserver => Or.inl hserver⟩
      rcases hcases with ⟨hret, hindex⟩ | hnone
      · exact Or.inl ⟨hret, rfl, hindex⟩
      · exact Or.inr hnone
  | lookup kind =>
      obtain ⟨res, hres, rfl⟩ := Option.map_eq_some_iff.mp hr
      have hret : res.1 ≤ 0 := by
        cases kind with
        | uuidSize => exact lookup_retVal hres
        | initLayout => exact lookup_retVal hres
        | coreLayout => exact lookup_retVal hres
      exact ⟨h, rfl, Or.inr ⟨hret, le_refl _⟩, fun server hserver => Or.inl hserver⟩

theorem delivers_iff {major : ℕ} (r : Request) (pid ret : ℤ) :
    (DeviceCall.ioctl (r.word major) pid ret).delivers major = true ↔
      r = .getPendingModule ∧ ret = 1 := by
  have hword : r.word major = Word.kvmHostServerGetPendingModule major ↔ r = .getPendingModule := by
    constructor
    · intro hsame
      exact Request.eq_of_word_eq (hsame.trans (rfl : _ = Request.getPendingModule.word major))
    · rintro rfl
      rfl
  simp only [DeviceCall.delivers, hword, decide_eq_true_eq]

/-- Leaving the globals of a call that faults. -/
theorem DeviceInv.oopsed {major : ℕ} {s : DeviceState} (h : DeviceInv major s) (ioctlNum : ℕ) :
    DeviceInv major { s with globals := Proxy.oopsed major s.globals ioctlNum } := by
  unfold Proxy.oopsed
  split
  · have hindex := (popEntry_index s.globals.table).1
    have hsound := tablePop_sound h.sound
    rw [popEntry_snd_eq_tablePop] at hindex
    have hentries : (tablePop s.globals.table).2.entries = s.accepted := by
      rw [ModuleTable.entries, tablePop_moduleTable, tablePop_num]
      exact h.cells
    refine ⟨hentries, ?_, ?_, h.values, h.record, hsound⟩
    · exact h.delivered.trans (Int.add_le_add_right hindex 1)
    · have hlength := congrArg List.length hentries
      rw [ModuleTable.entries, HeapArray.length_slice] at hlength
      have hlt := hsound.index_lt
      show (tablePop s.globals.table).2.tableIndex < s.accepted.length
      omega
  · exact h

theorem deviceInv_step {major : ℕ} (s : DeviceState) (a : DeviceLabel)
    (t : DeviceState) (h : DeviceInv major s) (hs : deviceStep major s a = some t) :
    DeviceInv major t := by
  cases a with
  | putModule uuid nsproxy mod krealloc fileget =>
      obtain ⟨hret, htable⟩ :=
        putModule_retVal s.globals.ks s.globals.table uuid nsproxy mod krealloc fileget
      obtain rfl := Option.some.inj hs
      have hentries := tablePut_entries h.sound ⟨uuid, nsproxy, mod⟩ krealloc
      have hindex := tablePut_tableIndex h.sound ⟨uuid, nsproxy, mod⟩ krealloc
      rw [← htable, ← hret] at hentries
      rw [← htable] at hindex
      rw [h.cells] at hentries
      refine ⟨hentries, ?_, ?_, h.values, h.record, ?_⟩
      · have hle := h.delivered
        rw [← hindex] at hle
        exact hle
      · have hlt := h.cursor
        rw [← hindex] at hlt
        refine hlt.trans_le ?_
        dsimp only
        split
        · rw [List.length_append]
          omega
        · exact le_refl _
      · have hsound := tablePut_sound h.sound ⟨uuid, nsproxy, mod⟩ krealloc
        rw [← htable] at hsound
        exact hsound
  | write buff count env user =>
      simp only [deviceStep] at hs
      split at hs <;> obtain rfl := Option.some.inj hs
      · exact h
      · rename_i r hwrite
        refine h.call (g := s.globals) ?_ h.sound rfl (by simp [DeviceCall.delivers])
          fun server hks => Or.inl hks
        exact cdevWrite_bounded hwrite
  | ioctl ioctlNum ioctlParam env mem =>
      simp only [deviceStep] at hs
      by_cases hword : ∃ r : Request, ioctlNum = r.word major
      · obtain ⟨r, rfl⟩ := hword
        rw [cdevIoctl_word] at hs
        split at hs <;> obtain rfl := Option.some.inj hs
        · exact h.oopsed _
        · rename_i out hout
          obtain ⟨hsound, hentries, hret, hks⟩ := handler_outcome h.sound r hout
          refine h.call ?_ hsound hentries ?_ fun server hserver => ?_
          · rcases hret with ⟨hone, rfl, -⟩ | ⟨hle, -⟩
            · exact Or.inr (Or.inr ⟨hone, rfl⟩)
            · rcases hle.lt_or_eq with hneg | hzero
              · exact Or.inl hneg
              · exact Or.inr (Or.inl ⟨hzero, r, rfl⟩)
          · rcases hret with ⟨-, -, hindex⟩ | ⟨hle, hindex⟩
            · rw [hindex]
              split <;> omega
            · rw [if_neg]
              · omega
              · rw [delivers_iff]
                omega
          · rcases hks server hserver with hold | ⟨rfl, hpid⟩
            · exact Or.inl hold
            · exact Or.inr ⟨rfl, hpid.symm⟩
      · have hother : ∀ r : Request, ioctlNum ≠ r.word major := fun r hr => hword ⟨r, hr⟩
        rw [cdevIoctl_other _ _ _ _ _ hother] at hs
        obtain rfl := Option.some.inj hs
        refine h.call (g := s.globals) (Or.inl (show (-1 : ℤ) < 0 by decide)) h.sound rfl ?_
          fun server hks => Or.inl hks
        rw [if_neg]
        · omega
        · intro hdelivers
          simp [DeviceCall.delivers] at hdelivers

theorem init_deviceInv (major : ℕ) (mem kmem : ℤ → ModuleTableStruct) :
    DeviceInv major (DeviceState.init mem kmem) where
  cells := rfl
  delivered := le_refl 0
  cursor := (by decide : (-1 : ℤ) < 0)
  values := fun _ hc => absurd hc List.not_mem_nil
  record := by rintro server ⟨⟩
  sound := (UsableTable.fresh mem kmem).sound

/-- **Whatever the users do**, in every state of every run the contract of the device holds. -/
theorem device_contract (major : ℕ) (mem kmem : ℤ → ModuleTableStruct)
    (as : List DeviceLabel) :
    StatesMeet (deviceStep major) (DeviceContract major) (DeviceState.init mem kmem) as :=
  statesMeet_of_invariant (I := DeviceInv major) (fun _ h => h.contract)
    deviceInv_step as _ (init_deviceInv major mem kmem)

end LxcUio.Proxy
