import LxcUio.Proxy.Cdev
import LxcUio.Server.GuestMemory
import LxcUio.Server.WorkDone

/-!
# What the VM runs

The server and the proxy together in one call of `process_entry`: the two layout ioctls
and the `write` of the packet are answered by the proxy's functions, each on the table
that the proxy has at that moment. The memory of the server's process is followed
through the calls: `mmap` delivers zeroed pages, the proxy copies into it, and while `KVM_RUN`
runs the guest stores into what is registered with its VM. The image is that of the module
until the guest changes it.
-/

namespace LxcUio.System

open LxcUio.Foundation
open LxcUio.Server

/-! ## The proxy's side -/

/-- A call that the proxy answers: its table, the bytes that `copy_from_user` left, the
block of `table_get_copy`, and the bytes that `copy_to_user` left. -/
structure ProxyCall where
  table : Proxy.ModuleTable
  notRead : ℕ
  kmalloc : Option Proxy.CopyBlock
  notCopied : ℕ

def ProxyCall.layout (c : ProxyCall) (kind : Proxy.LayoutKind) (uuid : Uuid) :
    Proxy.OrOops (ℤ × Option ModuleLayout) :=
  Proxy.kvmHostServerGetLayout kind c.table uuid c.notRead c.kmalloc c.notCopied

def ProxyCall.write (c : ProxyCall) (packet : Packet) (mem : UserMem) :
    Proxy.OrOops (ℤ × UserMem) :=
  Proxy.cdevWrite c.table packet c.notRead c.kmalloc c.notCopied mem

/-- The three calls that are made for one entry. Modules may be put between them. -/
structure ProxySide where
  init : ProxyCall
  core : ProxyCall
  packet : ProxyCall

/-- The table holds module `m` under the uuid. -/
def HoldsModule (t : Proxy.ModuleTable) (uuid : Uuid) (m : Proxy.KModule) : Prop :=
  ∃ k, 0 ≤ k ∧ k < t.tableNumEntries ∧ (t.moduleTable.cells k).uuid = uuid ∧
    (t.moduleTable.cells k).mod = m

/-- The uuids in the proxy's table are distinct. -/
def DistinctModules (t : Proxy.ModuleTable) : Prop :=
  ∀ j k, 0 ≤ j → j < t.tableNumEntries → 0 ≤ k → k < t.tableNumEntries →
    (t.moduleTable.cells j).uuid = (t.moduleTable.cells k).uuid → j = k

/-- A copy is a copy of the module with the uuid. -/
theorem tableGetCopy_mod {t : Proxy.ModuleTable} (hdistinct : DistinctModules t)
    {uuid : Uuid} {m : Proxy.KModule} (hm : HoldsModule t uuid m)
    {kmalloc : Option Proxy.CopyBlock} {entry : Proxy.ModuleTableStruct}
    (h : Proxy.tableGetCopy t uuid kmalloc = some (some (some entry))) : entry.mod = m := by
  obtain ⟨k, hk0, hk, huuid, rfl⟩ := hm
  cases kmalloc with
  | none => cases Option.some.inj h
  | some stale =>
      unfold Proxy.tableGetCopy at h
      simp only at h
      split at h
      · cases h
      · cases hfind : (t.moduleTable.slice 0 t.tableNumEntries).find?
            fun mt => mt.uuid = uuid with
        | none =>
            have hnone := List.find?_eq_none.mp hfind _ (HeapArray.mem_slice.mpr ⟨k, hk0, hk, rfl⟩)
            exact absurd (decide_eq_true huuid) hnone
        | some mt =>
            rw [hfind] at h
            obtain rfl := Option.some.inj (Option.some.inj (Option.some.inj h))
            obtain ⟨j, hj0, hj, rfl⟩ := HeapArray.mem_slice.mp (List.mem_of_find?_eq_some hfind)
            have hsame : (t.moduleTable.cells j).uuid = uuid := by
              simpa using List.find?_some hfind
            rw [hdistinct j k hj0 hj hk0 hk (hsame.trans huuid.symm)]

/-- A layout that is delivered is that of the module with the uuid. -/
theorem ProxyCall.layout_eq {c : ProxyCall} (hdistinct : DistinctModules c.table)
    {uuid : Uuid} {m : Proxy.KModule} (hm : HoldsModule c.table uuid m)
    {kind : Proxy.LayoutKind} {ret : ℤ} {layout : ModuleLayout}
    (h : c.layout kind uuid = some (ret, some layout)) : ret = 0 ∧ layout = m.layout kind := by
  unfold ProxyCall.layout Proxy.kvmHostServerGetLayout at h
  split at h
  · split at h
    · cases h
    · cases h
    · cases h
    · rename_i entry hcopy
      have hmod := tableGetCopy_mod hdistinct hm hcopy
      split at h
      · obtain ⟨rfl, hlayout⟩ := Prod.mk.inj (Option.some.inj h)
        rw [← hmod]
        exact ⟨rfl, (Option.some.inj hlayout).symm⟩
      · cases h
  · cases h

/-- `process_packet` returns 0 when the whole core image of the module was copied. -/
theorem processPacket_image {t : Proxy.ModuleTable} (hdistinct : DistinctModules t)
    {packet : Packet} {m : Proxy.KModule} (hm : HoldsModule t packet.uuid m)
    {kmalloc : Option Proxy.CopyBlock} {notCopied : ℕ} {mem mem' : UserMem}
    (h : Proxy.processPacket t packet kmalloc notCopied mem = some (0, mem')) :
    ∀ n < m.coreLayout.size.toNat,
      mem' (packet.memory.regionCore.userspaceAddr.toNat + n) = m.coreImage n := by
  intro n hn
  unfold Proxy.processPacket at h
  split at h
  · cases h
  · cases h
  · cases h
  · rename_i mts hcopy
    obtain rfl := tableGetCopy_mod hdistinct hm hcopy
    have hsize : mts.mod.coreLayout.size.toNat < 2 ^ 32 := mts.mod.coreLayout.size.toNat_lt
    simp only at h
    split at h
    · rename_i hzero
      -- an area has fewer than 2^32 bytes, so the `int` is 0 only if all were copied
      have hall : min notCopied mts.mod.coreLayout.size.toNat = 0 := by
        have := (toInt_eq_zero_iff (by omega) (by omega)).mp hzero
        omega
      obtain rfl := (Prod.mk.inj (Option.some.inj h)).2
      have hin : packet.memory.regionCore.userspaceAddr.toNat ≤
            packet.memory.regionCore.userspaceAddr.toNat + n ∧
          packet.memory.regionCore.userspaceAddr.toNat + n <
            packet.memory.regionCore.userspaceAddr.toNat +
              (mts.mod.coreLayout.size.toNat - 0) := ⟨by omega, by omega⟩
      rw [hall, Proxy.copyToUser, if_pos hin, Nat.add_sub_cancel_left]
    · rename_i hleft
      exact absurd (Prod.mk.inj (Option.some.inj h)).1 (toInt_neg_ne_zero hleft)

/-- A packet that is accepted brings the whole core image of the module with its uuid. -/
theorem ProxyCall.write_image {c : ProxyCall} (hdistinct : DistinctModules c.table)
    {packet : Packet} {m : Proxy.KModule} (hm : HoldsModule c.table packet.uuid m)
    {mem mem' : UserMem} (h : c.write packet mem = some (Proxy.sizeofPacket, mem')) :
    ∀ n < m.coreLayout.size.toNat,
      mem' (packet.memory.regionCore.userspaceAddr.toNat + n) = m.coreImage n := by
  intro n hn
  unfold ProxyCall.write Proxy.cdevWrite at h
  split at h
  · cases hpacket : Proxy.processPacket c.table packet c.kmalloc c.notCopied mem with
    | none =>
        rw [hpacket] at h
        cases h
    | some r =>
        obtain ⟨retVal, copied⟩ := r
        simp only [hpacket] at h
        split at h
        · rename_i hzero
          obtain rfl : copied = mem' := (Prod.mk.inj (Option.some.inj h)).2
          subst hzero
          exact processPacket_image hdistinct hm hpacket n hn
        · exact absurd (Prod.mk.inj (Option.some.inj h)).1 (by decide)
  · exact absurd (Prod.mk.inj (Option.some.inj h)).1 (by decide)

/-! ## The memory of the server -/

/-- What the guest stores while a `KVM_RUN` runs, by the calls made before it. -/
abbrev Guest : Type := List Event → UserAddr → Option UInt8

/-- The address lies in memory that was registered with the VM. -/
def registered (events : List Event) (a : UserAddr) : Bool :=
  events.any fun e =>
    match e with
    | .setUserMemoryRegion _ r ret =>
        0 ≤ ret ∧ r.userspaceAddr.toNat ≤ a ∧ a < r.userspaceAddr.toNat + r.memorySize.toNat
    | _ => false

/-- The byte that a call after `before` lets the guest store. -/
def guestStore (guest : Guest) (before : List Event) (e : Event) (a : UserAddr) : Option UInt8 :=
  match e with
  | .kvmRun _ _ => if registered before a = true then guest before a else none
  | _ => none

/-- What a call after `before` does to the memory of the server's process. -/
def effect (w : ProxySide) (guest : Guest) (before : List Event) (e : Event) (mem : UserMem) :
    UserMem :=
  match e with
  | .mmap addr size => fun a =>
      if addr.toNat ≤ a ∧ a < addr.toNat + size.toNat then 0 else mem a
  | .writePacket packet _ =>
      match w.packet.write packet mem with
      | some (_, mem') => mem'
      | none => mem
  | .kvmRun _ _ => fun a => (guestStore guest before e a).getD (mem a)
  | _ => mem

/-- Every call is taken with the calls before it. -/
def overCalls {β : Type*} (f : List Event → Event → β → β) (b : β) (events : List Event) : β :=
  (events.foldl (fun p e => (p.1 ++ [e], f p.1 e p.2)) (([] : List Event), b)).2

theorem overCalls_snoc {β : Type*} (f : List Event → Event → β → β) (b : β)
    (events : List Event) (e : Event) :
    overCalls f b (events ++ [e]) = f events e (overCalls f b events) := by
  have hbefore : ∀ (es before : List Event) (c : β),
      (es.foldl (fun p e => (p.1 ++ [e], f p.1 e p.2)) (before, c)).1 = before ++ es := by
    intro es
    induction es with
    | nil => exact fun before _ => (List.append_nil before).symm
    | cons e es ih =>
        intro before c
        rw [List.foldl_cons, ih, List.append_assoc]
        rfl
  unfold overCalls
  rw [List.foldl_append, List.foldl_cons, List.foldl_nil]
  dsimp only
  rw [hbefore, List.nil_append]

def memoryAfter (w : ProxySide) (guest : Guest) (mem : UserMem) (events : List Event) : UserMem :=
  overCalls (effect w guest) mem events

/-- The last byte that the guest has stored at the address. -/
def stored (guest : Guest) (events : List Event) (a : UserAddr) : Option UInt8 :=
  overCalls (fun before e last => (guestStore guest before e a).or last) none events

theorem memoryAfter_emit (w : ProxySide) (guest : Guest) (mem : UserMem) (s : ProcState)
    (e : Event) : memoryAfter w guest mem (s.emit e).events =
      effect w guest s.events e (memoryAfter w guest mem s.events) :=
  overCalls_snoc (effect w guest) mem s.events e

theorem stored_emit (guest : Guest) (s : ProcState) (e : Event) (a : UserAddr) :
    stored guest (s.emit e).events a =
      (guestStore guest s.events e a).or (stored guest s.events a) :=
  overCalls_snoc _ none s.events e

/-- A guest that has not run has stored nothing. -/
theorem stored_of_not_run (guest : Guest) (a : UserAddr) : ∀ events : List Event,
    (∀ vcpufd ret, Event.kvmRun vcpufd ret ∉ events) → stored guest events a = none := by
  intro events
  induction events using List.reverseRecOn with
  | nil => exact fun _ => rfl
  | append_singleton events e ih =>
      intro hnot
      have hearlier := ih fun vcpufd ret hrun => hnot vcpufd ret (List.mem_append_left _ hrun)
      have hnone : guestStore guest events e a = none := by
        cases e with
        | kvmRun vcpufd ret =>
            exact absurd (List.mem_append_right _ (List.mem_singleton.mpr rfl)) (hnot vcpufd ret)
        | _ => rfl
      have hstep := overCalls_snoc (fun before e last => (guestStore guest before e a).or last)
        none events e
      rw [hnone] at hstep
      exact hstep.trans hearlier

/-- What `write` returned is what the proxy's function returns. -/
def Answered (w : ProxySide) (guest : Guest) (mem : UserMem) (events : List Event) : Prop :=
  ∀ before packet bytesWritten behind,
    events = before ++ .writePacket packet bytesWritten :: behind →
    ∃ mem', w.packet.write packet (memoryAfter w guest mem before) = some (bytesWritten, mem')

theorem Answered.of_emit {w : ProxySide} {guest : Guest} {mem : UserMem} {s : ProcState}
    {e : Event} (h : Answered w guest mem (s.emit e).events) :
    Answered w guest mem s.events := by
  intro before packet bytesWritten behind hevents
  apply h before packet bytesWritten (behind ++ [e])
  rw [emit_events, hevents, List.append_assoc]
  rfl

/-- The range does not overlap a mapping that was made before. -/
def FreshRange (events : List Event) (run len : ℕ) : Prop :=
  ∀ addr size, Event.mmap addr size ∈ events →
    addr.toNat + size.toNat ≤ run ∨ run + len ≤ addr.toNat

/-! ## The vcpu runs the module -/

/-- The host memory behind the core region, just before a call, with any contents of the mapping
of `struct kvm_run`, which is made after the copy. -/
def CoreMemory (w : ProxySide) (guest : Guest) (mem : UserMem) (m : Proxy.KModule) (i : ℤ)
    (s : ProcState) (P : UserAddr → ℕ → UInt8 → Prop) : Prop :=
  ∀ (run len : ℕ) (mem' : UserMem), FreshRange s.events run len →
    (∀ a, a < run ∨ run + len ≤ a → mem' a = memoryAfter w guest mem s.events a) →
    ∀ n < m.coreLayout.size.toNat, ∀ a : ℕ,
      a = (region (s.table.entry i).memory .core).userspaceAddr.toNat + n → P a n (mem' a)

/-- The VM of entry `i` when `KVM_RUN` is called on `vcpufd` in state `s`. The memory of the
core region holds the core image at the first such call; later it holds what the guest has made
of it. -/
structure RunsModule (w : ProxySide) (guest : Guest) (mem : UserMem) (m : Proxy.KModule) (i : ℤ)
    (vcpufd : ℤ) (s : ProcState) : Prop where
  ownVm : Event.createVm (s.table.entry i).vmfd ∈ s.events
  registered : ∀ k, ∃ ret, 0 ≤ ret ∧ Event.setUserMemoryRegion (s.table.entry i).vmfd
    (region (s.table.entry i).memory k) ret ∈ s.events
  mapped : ∀ k, ∃ size, Event.mmap (region (s.table.entry i).memory k).userspaceAddr size ∈
    s.events ∧ (region (s.table.entry i).memory k).memorySize = size.toUInt64
  slots : ∀ k k', (region (s.table.entry i).memory k).slot =
    (region (s.table.entry i).memory k').slot → k = k'
  size : (region (s.table.entry i).memory .core).memorySize = m.coreLayout.size.toUInt64
  firstImage : (∀ vcpufd ret, Event.kvmRun vcpufd ret ∉ s.events) →
    CoreMemory w guest mem m i s fun _ n byte => byte = m.coreImage n
  image : CoreMemory w guest mem m i s fun a n byte =>
    byte = (stored guest s.events a).getD (m.coreImage n)
  ownVcpu : Event.createVcpu (s.table.entry i).vmfd (s.table.entry i).vcpufd ∈ s.events
  runs : vcpufd = (s.table.entry i).vcpufd
  given : ∃ regs ret, 0 ≤ ret ∧ Event.setRegs (s.table.entry i).vcpufd regs ret ∈ s.events
  start : ∀ vcpufd regs ret, Event.setRegs vcpufd regs ret ∈ s.events →
    (region (s.table.entry i).memory .core).guestPhysAddr = regs.rip

/-- What is assumed of the proxy while an entry with this uuid is processed: it holds
module `m` under it, with the same layouts all the time, and both layout ioctls are made
and deliver a layout. -/
structure Serves (w : ProxySide) (env : MemoryEnv) (uuid : Uuid) (m : Proxy.KModule) :
    Prop where
  distinctInit : DistinctModules w.init.table
  distinctCore : DistinctModules w.core.table
  distinctPacket : DistinctModules w.packet.table
  holdsInit : ∃ m', HoldsModule w.init.table uuid m' ∧ m'.initLayout = m.initLayout
  holdsCore : ∃ m', HoldsModule w.core.table uuid m' ∧ m'.coreLayout = m.coreLayout
  holdsPacket : HoldsModule w.packet.table uuid m
  mallocInit : env.layoutInit.malloc = true
  mallocCore : env.layoutCore.malloc = true
  initLayout : w.init.layout .init uuid =
    some (env.layoutInit.ret, some env.layoutInit.layout)
  coreLayout : w.core.layout .core uuid =
    some (env.layoutCore.ret, some env.layoutCore.layout)

section Stages

variable {w : ProxySide} {guest : Guest} {mem : UserMem} {m : Proxy.KModule} {env : ProcessEnv}
  {uuid : Uuid} {i : ℤ} {s : ProcState}

theorem Serves.init_delivers {env : MemoryEnv} (h : Serves w env uuid m) :
    env.layoutInit.delivers = true := by
  obtain ⟨m', hm', -⟩ := h.holdsInit
  exact decide_eq_true ⟨h.mallocInit, (ProxyCall.layout_eq h.distinctInit hm' h.initLayout).1⟩

theorem Serves.core_delivers {env : MemoryEnv} (h : Serves w env uuid m) :
    env.layoutCore.delivers = true ∧ env.layoutCore.layout = m.coreLayout := by
  obtain ⟨m', hm', hsame⟩ := h.holdsCore
  obtain ⟨hret, hlayout⟩ := ProxyCall.layout_eq h.distinctCore hm' h.coreLayout
  exact ⟨decide_eq_true ⟨h.mallocCore, hret⟩, hlayout.trans hsame⟩

/-! ### Before the vcpu starts -/

def OfVcpu : Event → Prop
  | .setRegs _ _ _ => True
  | .kvmRun _ _ => True
  | _ => False

def NotStarted (s : ProcState) : Prop := ∀ e ∈ s.events, ¬ OfVcpu e

theorem NotStarted.emit (h : NotStarted s) {e : Event} (he : ¬ OfVcpu e) :
    NotStarted (s.emit e) := by
  intro e' he'
  rcases List.mem_append.mp he' with hold | hnew
  · exact h e' hold
  · obtain rfl := List.mem_singleton.mp hnew
    exact he

theorem NotStarted.setsUp (h : NotStarted s) {u : ProcState} (hu : SetsUp i s u) :
    NotStarted u := by
  intro e he hvcpu
  refine h e (hu.mem_of_not he fun hsets => ?_) hvcpu
  cases e
  all_goals first
    | exact hsets
    | exact hvcpu

/-- What is to hold of every state: if it is the one after a `KVM_RUN`, of the one before. -/
def RunsWell (w : ProxySide) (guest : Guest) (mem : UserMem) (m : Proxy.KModule) (i : ℤ)
    (u : ProcState) : Prop :=
  ∀ s vcpufd ret, u = s.emit (.kvmRun vcpufd ret) → Answered w guest mem s.events →
    RunsModule w guest mem m i vcpufd s

theorem emit_inj {s s' : ProcState} {e e' : Event} (h : s.emit e = s'.emit e') :
    s = s' ∧ e = e' := by
  obtain ⟨table, events⟩ := s
  obtain ⟨table', events'⟩ := s'
  obtain ⟨rfl, hevents⟩ := ProcState.mk.inj h
  obtain ⟨rfl, hlast⟩ := List.append_inj' hevents rfl
  exact ⟨rfl, List.singleton_inj.mp hlast⟩

/-- A state whose last call is another one. -/
theorem runsWell_emit {e : Event} (he : ∀ vcpufd ret, e ≠ .kvmRun vcpufd ret) :
    RunsWell w guest mem m i (s.emit e) :=
  fun _ vcpufd ret h => absurd (emit_inj h).2 (he vcpufd ret)

theorem NotStarted.not_run (h : NotStarted s) (vcpufd ret : ℤ) :
    Event.kvmRun vcpufd ret ∉ s.events :=
  fun hrun => h _ hrun trivial

theorem NotStarted.runsWell (h : NotStarted s) : RunsWell w guest mem m i s := by
  rintro s' vcpufd ret rfl
  exact absurd (List.mem_append_right _ (List.mem_singleton.mpr rfl)) (h.not_run vcpufd ret)

/-- The entry after `initialize_memory_uuid`. -/
structure Prepared (env : ProcessEnv) (m : Proxy.KModule) (uuid : Uuid) (i : ℤ)
    (s : ProcState) : Prop where
  inRange : i ≤ s.table.tableNumEntries - 1
  uuid : (s.table.entry i).uuid = uuid
  vmfd : (s.table.entry i).vmfd = env.createVm
  ownVm : Event.createVm env.createVm ∈ s.events
  ready : ∀ k, RegionReady env.memory env.createVm i s k
  layout : env.memory.layoutCore.layout = m.coreLayout

theorem Prepared.emit (h : Prepared env m uuid i s) (e : Event) :
    Prepared env m uuid i (s.emit e) :=
  ⟨h.inRange, h.uuid, h.vmfd, List.mem_append_left _ h.ownVm, fun k => (h.ready k).emit e,
    h.layout⟩

/-- A store that leaves uuid, VM and memory of the entry alone. -/
theorem Prepared.modify (h : Prepared env m uuid i s) {f : UuidTableEntry → UuidTableEntry}
    (huuid : ∀ e, (f e).uuid = e.uuid) (hvmfd : ∀ e, (f e).vmfd = e.vmfd)
    (hmem : ∀ e, (f e).memory = e.memory) : Prepared env m uuid i (s.modify i f) where
  inRange := h.inRange
  uuid := by rw [procModify_table, modify_entry_same, huuid, h.uuid]
  vmfd := by rw [procModify_table, modify_entry_same, hvmfd, h.vmfd]
  ownVm := h.ownVm
  ready := fun k => (h.ready k).modify fun e => by rw [hmem]
  layout := h.layout

/-- The core area holds the module and what the guest has stored over it, if the proxy answered
the `write`. -/
def Loaded (w : ProxySide) (guest : Guest) (mem : UserMem) (m : Proxy.KModule) (i : ℤ)
    (s : ProcState) : Prop :=
  Answered w guest mem s.events → ∀ n < m.coreLayout.size.toNat, ∀ a : ℕ,
    a = (region (s.table.entry i).memory .core).userspaceAddr.toNat + n →
    memoryAfter w guest mem s.events a = (stored guest s.events a).getD (m.coreImage n)

/-- A call that changes the memory by what the guest stores only. -/
theorem Loaded.emit (h : Loaded w guest mem m i s) {e : Event}
    (he : ∀ mem a, effect w guest s.events e mem a =
      (guestStore guest s.events e a).getD (mem a)) :
    Loaded w guest mem m i (s.emit e) := by
  intro hanswered n hn a ha
  rw [memoryAfter_emit, stored_emit, he]
  cases guestStore guest s.events e a with
  | some byte => rfl
  | none => exact h hanswered.of_emit n hn a ha

theorem Loaded.modify (h : Loaded w guest mem m i s) {f : UuidTableEntry → UuidTableEntry}
    (hmem : ∀ e, (f e).memory = e.memory) : Loaded w guest mem m i (s.modify i f) := by
  intro hanswered n hn a ha
  rw [procModify_table, modify_entry_same, hmem] at ha
  exact h hanswered n hn a ha

/-- The `write` that is answered with the length of the packet, before the guest runs. -/
theorem Prepared.loaded (h : Prepared env m uuid i s) (hserves : Serves w env.memory uuid m)
    (hnot : NotStarted s) :
    Loaded w guest mem m i (s.emit (.writePacket
      ⟨(s.table.entry i).uuid, (s.table.entry i).memory⟩ Proxy.sizeofPacket)) := by
  rintro hanswered n hn a rfl
  obtain ⟨mem', hwrite⟩ := hanswered s.events _ _ [] rfl
  have hcopied : effect w guest s.events (.writePacket
      ⟨(s.table.entry i).uuid, (s.table.entry i).memory⟩ Proxy.sizeofPacket)
      (memoryAfter w guest mem s.events) = mem' := by
    simp only [effect, hwrite]
  have hstored : ∀ a, stored guest s.events a = none :=
    fun a => stored_of_not_run guest a s.events hnot.not_run
  rw [memoryAfter_emit, hcopied, stored_emit, hstored]
  have hholds : HoldsModule w.packet.table (s.table.entry i).uuid m := by
    rw [h.uuid]
    exact hserves.holdsPacket
  exact ProxyCall.write_image hserves.distinctPacket hholds hwrite n hn

/-! ### The vcpu -/

/-- The entry once its vcpu has its registers. -/
structure Running (w : ProxySide) (guest : Guest) (mem : UserMem) (env : ProcessEnv)
    (m : Proxy.KModule) (uuid : Uuid) (i : ℤ) (s : ProcState) : Prop
    extends Prepared env m uuid i s where
  loaded : Loaded w guest mem m i s
  vcpufd : (s.table.entry i).vcpufd = env.createVcpu
  ownVcpu : Event.createVcpu env.createVm env.createVcpu ∈ s.events
  given : ∃ ret, 0 ≤ ret ∧ Event.setRegs env.createVcpu initialRegs ret ∈ s.events
  start : ∀ vcpufd regs ret, Event.setRegs vcpufd regs ret ∈ s.events → regs = initialRegs

theorem mem_emit {e e' : Event} (h : e ∈ (s.emit e').events) : e ∈ s.events ∨ e = e' := by
  rcases List.mem_append.mp h with hold | hnew
  · exact Or.inl hold
  · exact Or.inr (List.mem_singleton.mp hnew)

/-- The vcpu runs, or a character is written. -/
theorem Running.emit (h : Running w guest mem env m uuid i s) {e : Event}
    (heffect : ∀ mem a, effect w guest s.events e mem a =
      (guestStore guest s.events e a).getD (mem a))
    (hregs : ∀ vcpufd regs ret, e ≠ .setRegs vcpufd regs ret) :
    Running w guest mem env m uuid i (s.emit e) where
  toPrepared := h.toPrepared.emit e
  loaded := h.loaded.emit heffect
  vcpufd := h.vcpufd
  ownVcpu := List.mem_append_left _ h.ownVcpu
  given := by
    obtain ⟨ret, hret, hgiven⟩ := h.given
    exact ⟨ret, hret, List.mem_append_left _ hgiven⟩
  start := by
    intro vcpufd regs ret hstart
    rcases mem_emit hstart with hold | hnew
    · exact h.start vcpufd regs ret hold
    · exact absurd hnew.symm (hregs vcpufd regs ret)

theorem Running.setProcessed (h : Running w guest mem env m uuid i s) :
    Running w guest mem env m uuid i (s.modify i setProcessed) where
  toPrepared := h.toPrepared.modify (fun _ => rfl) (fun _ => rfl) fun _ => rfl
  loaded := h.loaded.modify fun _ => rfl
  vcpufd := by
    rw [procModify_table, modify_entry_same]
    exact h.vcpufd
  ownVcpu := h.ownVcpu
  given := h.given
  start := h.start

/-- `regions` differ in their slots, and the core region begins where the vcpu does. -/
theorem Running.runsModule (h : Running w guest mem env m uuid i s)
    (hanswered : Answered w guest mem s.events) :
    RunsModule w guest mem m i env.createVcpu s := by
  have hfilled := fun k => (h.ready k).filled
  have hcoreSize : env.memory.regionSize .core = m.coreLayout.size :=
    congrArg ModuleLayout.size h.layout
  have himage : CoreMemory w guest mem m i s fun a n byte =>
      byte = (stored guest s.events a).getD (m.coreImage n) := by
    intro run len mem' hfresh hmem' n hn a ha
    have hmapped := (h.ready .core).mapped
    rw [hcoreSize] at hmapped
    -- the byte lies in the mapping of the core area, so not in that of `struct kvm_run`
    refine (hmem' a ?_).trans (h.loaded hanswered n hn a ha)
    have hrange := hfresh _ _ hmapped
    omega
  refine ⟨?_, ?_, ?_, ?_, ?_, fun hfirst => ?_, himage, ?_, h.vcpufd.symm, ?_, ?_⟩
  · rw [h.vmfd]
    exact h.ownVm
  · intro k
    rw [h.vmfd]
    exact (h.ready k).accepted
  · intro k
    refine ⟨env.memory.regionSize k, (h.ready k).mapped, ?_⟩
    rw [hfilled k]
    cases k <;> rfl
  · intro k k' hslot
    rw [hfilled k, hfilled k', registered_slot, registered_slot] at hslot
    exact RegionKind.slot_injective hslot
  · rw [hfilled .core]
    exact congrArg UInt32.toUInt64 hcoreSize
  · intro run len mem' hfresh hmem' n hn a ha
    have hbyte : mem' a = (stored guest s.events a).getD (m.coreImage n) :=
      himage run len mem' hfresh hmem' n hn a ha
    rw [stored_of_not_run guest a s.events hfirst] at hbyte
    exact hbyte
  · rw [h.vmfd, h.vcpufd]
    exact h.ownVcpu
  · obtain ⟨ret, hret, hgiven⟩ := h.given
    rw [h.vcpufd]
    exact ⟨initialRegs, ret, hret, hgiven⟩
  · intro vcpufd regs ret hstart
    rw [h.start vcpufd regs ret hstart, hfilled .core]
    rfl

theorem Running.runsWell (h : Running w guest mem env m uuid i s) (ret : ℤ) :
    RunsWell w guest mem m i (s.emit (.kvmRun env.createVcpu ret)) := by
  intro s' vcpufd ret' heq hanswered
  obtain ⟨rfl, hcall⟩ := emit_inj heq
  obtain ⟨rfl, -⟩ := Event.kvmRun.inj hcall
  exact h.runsModule hanswered

theorem runVcpu_runs (mmapRun : RunMapping) : ∀ (exits : List VcpuExit) (s : ProcState),
    Running w guest mem env m uuid i s →
    (runVcpu i env.createVcpu mmapRun exits).wp (RunsWell w guest mem m i) (fun _ _ => True)
      (fun _ _ => True) s := by
  intro exits
  induction exits with
  | nil => exact fun s _ => (Program.wp_exit _).mpr trivial
  | cons x rest ih =>
      intro s h
      have hrun : Running w guest mem env m uuid i (s.emit (.kvmRun env.createVcpu x.ret)) :=
        h.emit (fun _ _ => rfl) fun _ _ _ hc => by cases hc
      simp only [runVcpu, Program.wp_bind, wp_emit, Program.wp_onlyIf, wp_out,
        Program.wp_exit]
      refine ⟨h.runsWell x.ret, fun _ => trivial, fun _ => ⟨fun _ => trivial, fun _ => ?_⟩⟩
      cases x.reason with
      | hlt =>
          simp only [Program.wp_bind, wp_setXxx (s := s.emit _) h.inRange]
          refine ⟨h.setProcessed.runsWell x.ret, ?_⟩
          rw [if_neg (lt_irrefl _), Program.wp_pure]
          trivial
      | io direction size port count data =>
          have hput : Running w guest mem env m uuid i
              ((s.emit (.kvmRun env.createVcpu x.ret)).emit (.putchar data)) :=
            hrun.emit (fun _ _ => rfl) fun _ _ _ hc => by cases hc
          have hwell : RunsWell w guest mem m i
              ((s.emit (.kvmRun env.createVcpu x.ret)).emit (.putchar data)) :=
            runsWell_emit fun _ _ hc => by cases hc
          simp only [Program.wp_bind, Program.wp_onlyIf, wp_emit]
          exact ⟨fun _ => ⟨hwell, ih _ hput⟩, fun _ => ih _ hrun⟩
      | failEntry => exact (Program.wp_pure _).mpr trivial
      | internalError => exact (Program.wp_pure _).mpr trivial
      | other reason => exact ih _ hrun

/-- A marked entry whose vcpu has not started. -/
theorem NotStarted.marked (h : NotStarted s) :
    RunsWell w guest mem m i (s.modify i setCouldNotProcess) :=
  NotStarted.runsWell h

theorem startVcpu_runs (h : Prepared env m uuid i s) (hloaded : Loaded w guest mem m i s)
    (hnot : NotStarted s) :
    Visits (RunsWell w guest mem m i) (startVcpu env i env.createVm) s := by
  have hcreated : NotStarted (s.emit (.createVcpu env.createVm env.createVcpu)) :=
    hnot.emit fun hc => hc
  have hcreate := h.emit (.createVcpu env.createVm env.createVcpu)
  apply visits_emit hcreated.runsWell
  refine visits_giveUp hcreate.inRange hcreated.marked fun _ => ?_
  apply visits_setXxx hcreate.inRange (NotStarted.runsWell hcreated)
  have hstored := hcreate.modify (f := setVcpufd env.createVcpu) (fun _ => rfl) (fun _ => rfl)
    fun _ => rfl
  refine visits_giveUp hstored.inRange (NotStarted.runsWell hcreated) fun _ => ?_
  refine visits_giveUp hstored.inRange (NotStarted.runsWell hcreated) fun _ => ?_
  refine visits_out fun _ => visits_out fun _ => visits_out fun _ => ?_
  have hsregs := NotStarted.emit (s := (s.emit (.createVcpu env.createVm env.createVcpu)).modify i
    (setVcpufd env.createVcpu)) hcreated (e := .setSregs env.createVcpu 0 0 env.setSregs)
    fun hc => hc
  apply visits_emit hsregs.runsWell
  refine visits_out fun _ => visits_reload hstored.inRange ?_
  refine visits_emit (runsWell_emit fun _ _ hc => by cases hc) (visits_out fun hpos => ?_)
  · refine runVcpu_runs env.mmapRun env.exits _ ⟨(hstored.emit _).emit _, ?_, ?_, ?_, ?_, ?_⟩
    · have hloaded' := (hloaded.emit (e := .createVcpu env.createVm env.createVcpu)
        fun _ _ => rfl).modify (f := setVcpufd env.createVcpu) fun _ => rfl
      exact (hloaded'.emit fun _ _ => rfl).emit fun _ _ => rfl
    · rw [emit_table, emit_table, procModify_table, modify_entry_same]
      rfl
    · refine List.mem_append_left _ (List.mem_append_left _ ?_)
      exact List.mem_append_right _ (List.mem_singleton.mpr rfl)
    · exact ⟨env.setRegs, not_lt.mp hpos, List.mem_append_right _ (List.mem_singleton.mpr rfl)⟩
    · intro vcpufd regs ret hstart
      rcases mem_emit hstart with hold | hnew
      · exact absurd trivial (hsregs _ hold)
      · cases hnew
        rfl

theorem processPicked_runs (debugOn : Bool) {t : UuidTable} (hdistinct : t.Distinct)
    (h0 : 0 ≤ i) (hi : i < t.tableNumEntries)
    (hserves : Serves w env.memory (t.entry i).uuid m) :
    Visits (RunsWell w guest mem m i) (processPicked debugOn env i (t.entry i)) ⟨t, []⟩ := by
  have hin : i ≤ t.tableNumEntries - 1 := by omega
  have hstart : NotStarted ⟨t, []⟩ := fun e he => by cases he
  have hvm : NotStarted ((⟨t, []⟩ : ProcState).emit (.createVm env.createVm)) :=
    hstart.emit fun hc => hc
  apply visits_emit hvm.runsWell
  refine visits_giveUp hin hvm.marked fun _ => ?_
  refine visits_setXxx hin (NotStarted.runsWell hvm) ?_
  refine visits_giveUp hin (NotStarted.runsWell hvm) fun _ => ?_
  -- `uuid_table[i]` carries its uuid and its VM from here on
  obtain ⟨s, hs⟩ : ∃ s, s = ((⟨t, []⟩ : ProcState).emit (.createVm env.createVm)).modify i
    (setVmfd env.createVm) := ⟨_, rfl⟩
  have hnot : NotStarted s := hs ▸ hvm
  have hnum : s.table.tableNumEntries = t.tableNumEntries := by rw [hs]; rfl
  have huuid : ∀ j, (s.table.entry j).uuid = (t.entry j).uuid := by
    intro j
    rw [hs, procModify_table, modify_entry]
    split <;> rfl
  have hvmfd : (s.table.entry i).vmfd = env.createVm := by
    rw [hs, procModify_table, modify_entry_same]
    rfl
  have hown : Event.createVm env.createVm ∈ s.events := by
    rw [hs]
    exact List.mem_singleton.mpr rfl
  have hdistinct' : s.table.Distinct := by
    intro j k hj0 hj hk0 hk heq
    rw [huuid, huuid] at heq
    exact hdistinct j k hj0 (hnum ▸ hj) hk0 (hnum ▸ hk) heq
  rw [← hs, ← huuid i]
  refine (Program.wp_bind _ _).mpr ((Program.wp_call _).mpr ?_)
  have hready := initializeMemoryUuid_ready debugOn hserves.init_delivers
    hserves.core_delivers.1 env.createVm hdistinct' h0 (hnum ▸ hi)
  have hnext : ∀ (r : ℤ) (u : ProcState), SetsUp i s u ∧
      (r < 0 ∨ Ready env.memory env.createVm i allRegions s u) →
      Visits (RunsWell w guest mem m i) (do
        Program.onlyIf (r < 0) (do giveUp i; out r)
        let ptr ← reload i env.mallocPacket
        emit (.writePacket ⟨ptr.uuid, ptr.memory⟩ env.bytesWritten)
        let retVal := sendPacket env.bytesWritten
        Program.onlyIf (retVal < 0) (do giveUp i; out retVal)
        let _ ← reload i env.mallocReload
        startVcpu env i env.createVm) u := by
    rintro r u ⟨hsets, hresult⟩
    have hu : NotStarted u := hnot.setsUp hsets
    have hui : i ≤ u.table.tableNumEntries - 1 := by rw [hsets.num, hnum]; exact hin
    refine visits_giveUp hui hu.marked fun hpos => ?_
    obtain ⟨-, hall⟩ := hresult.resolve_left hpos
    have hprepared : Prepared env m (t.entry i).uuid i u :=
      ⟨hui, (hsets.uuid i).trans (huuid i), (hsets.vmfd i).trans hvmfd, hsets.mem hown,
        fun k => hall k (by cases k <;> decide), hserves.core_delivers.2⟩
    have hwritten : NotStarted (u.emit (.writePacket
        ⟨(u.table.entry i).uuid, (u.table.entry i).memory⟩ env.bytesWritten)) :=
      hu.emit fun hc => hc
    refine visits_reload hui (visits_emit hwritten.runsWell ?_)
    refine visits_giveUp hui hwritten.marked fun hsent => visits_reload hui ?_
    rw [eq_sizeofPacket hsent] at hwritten ⊢
    exact startVcpu_runs (hprepared.emit _) (hprepared.loaded hserves hu) hwritten
  exact Program.wp_weaken hready (fun u hu => (hnot.setsUp hu).runsWell) hnext hnext

end Stages

/-- **The VM runs the module that was inserted.** Whenever a call of `process_entry`
reaches `KVM_RUN`, it does so for the first unsettled entry `i` and on its vcpu; the three
regions of entry `i` are registered with its VM in three slots, behind the core region lies the
core image of the module that the proxy holds under the uuid of entry `i`, and the vcpu starts
where the guest sees that region. The image is whole at the first `KVM_RUN`, and later it is
what the guest has made of it. -/
theorem vm_runs_module (debugOn : Bool) (env : ProcessEnv) (t : UuidTable) (w : ProxySide)
    (guest : Guest) (mem : UserMem) (m : Proxy.KModule) (hdistinct : t.Distinct)
    (hserves : ∀ i, FirstUnsettled t i → Serves w env.memory (t.entry i).uuid m) :
    ∀ (s : ProcState) (vcpufd ret : ℤ),
      s.emit (.kvmRun vcpufd ret) ∈ (runProcessEntry debugOn env t).visited →
      Answered w guest mem s.events →
      ∃ i, FirstUnsettled t i ∧ RunsModule w guest mem m i vcpufd s := by
  intro s vcpufd ret hvisited hanswered
  have hvisits := visits_processEntry debugOn env (s := ⟨t, []⟩)
    (I := fun u => ∃ i, FirstUnsettled t i ∧ RunsWell w guest mem m i u) ?_
  · obtain ⟨i, hfirst, hwell⟩ := hvisits.1 _ hvisited
    exact ⟨i, hfirst, hwell s vcpufd ret rfl hanswered⟩
  · intro i hfirst
    have hpicked : Visits (RunsWell w guest mem m i) (processPicked debugOn env i (t.entry i))
        ⟨t, []⟩ :=
      processPicked_runs debugOn hdistinct hfirst.nonneg hfirst.inRange (hserves i hfirst)
    exact Program.wp_weaken hpicked (fun u hwell => ⟨i, hfirst, hwell⟩) (fun _ _ _ => trivial)
      fun _ _ _ => trivial

/-! ### One module in both tables -/

/-- The proxy holds the module under the uuid 1, and all copies succeed. -/
def holdingCall (m : Proxy.KModule) : ProxyCall where
  table := ⟨HeapArray.malloc 256 fun _ => ⟨1, 0, m⟩, 256, 1, 0⟩
  notRead := 0
  kmalloc := some (some default)
  notCopied := 0

def holdingProxy (m : Proxy.KModule) : ProxySide :=
  ⟨holdingCall m, holdingCall m, holdingCall m⟩

/-- Everything succeeds, and the layouts are those of the module. -/
def loadEnv (m : Proxy.KModule) (exits : List VcpuExit) : ProcessEnv :=
  { okEnv with
    memory := { okEnv.memory with
      layoutInit := ⟨true, 0, m.initLayout⟩
      layoutCore := ⟨true, 0, m.coreLayout⟩ }
    exits := exits }

/-- The server has received the uuid 1. -/
def receivedTable : UuidTable :=
  (UuidTable.fresh (fun _ => default) fun _ => default).store (newEntry 1 clearedMemory)

theorem receivedTable_distinct : receivedTable.Distinct := by
  intro i j hi0 hi hj0 hj _
  have hi' : i < 1 := hi
  have hj' : j < 1 := hj
  omega

theorem receivedTable_first {i : ℤ} (h : FirstUnsettled receivedTable i) : i = 0 := by
  have hi : i < 1 := h.inRange
  have hnonneg := h.nonneg
  omega

theorem holdingProxy_serves (m : Proxy.KModule) (exits : List VcpuExit) (i : ℤ)
    (h : FirstUnsettled receivedTable i) :
    Serves (holdingProxy m) (loadEnv m exits).memory (receivedTable.entry i).uuid m := by
  obtain rfl := receivedTable_first h
  have hdistinct : DistinctModules (holdingCall m).table := by
    intro j k hj0 hj hk0 hk _
    have hj' : j < 1 := hj
    have hk' : k < 1 := hk
    omega
  have hholds : HoldsModule (holdingCall m).table 1 m :=
    ⟨0, le_refl 0, (by decide : (0 : ℤ) < 1), rfl, rfl⟩
  exact ⟨hdistinct, hdistinct, hdistinct, ⟨m, hholds, rfl⟩, ⟨m, hholds, rfl⟩, hholds, rfl, rfl,
    rfl, rfl⟩

/-- The proxy that holds the module accepts every packet. -/
theorem holdingCall_write (m : Proxy.KModule) (packet : Packet) (mem : UserMem) :
    ∃ mem', (holdingCall m).write packet mem = some (Proxy.sizeofPacket, mem') := by
  obtain ⟨mts, hcopy⟩ : ∃ mts, Proxy.tableGetCopy (holdingCall m).table packet.uuid
      (holdingCall m).kmalloc = some (some (some mts)) := by
    have hsound : (holdingCall m).table.moduleTable.isNull = false := rfl
    have hblock : (holdingCall m).kmalloc = some (some default) := rfl
    unfold Proxy.tableGetCopy
    rw [hblock]
    simp only [hsound, Bool.false_eq_true, false_and, if_false]
    cases List.find? _ _ with
    | none => exact ⟨default, rfl⟩
    | some mt => exact ⟨mt, rfl⟩
  have hzero : toInt 0 = 0 := rfl
  have hwrite : (holdingCall m).write packet mem = some (304, Proxy.copyToUser mem
      packet.memory.regionCore.userspaceAddr.toNat mts.mod.coreImage
      mts.mod.coreLayout.size.toNat 0) := by
    unfold ProxyCall.write Proxy.cdevWrite Proxy.processPacket
    rw [hcopy]
    simp [holdingCall, hzero, Proxy.sizeofPacket]
  exact ⟨_, hwrite⟩

/-- Every packet was written whole. -/
def writtenWhole (events : List Event) : Bool :=
  events.all fun e =>
    match e with
    | .writePacket _ bytesWritten => bytesWritten = Proxy.sizeofPacket
    | _ => true

theorem holdingProxy_answered {m : Proxy.KModule} {guest : Guest} {mem : UserMem}
    {events : List Event} (h : writtenWhole events = true) :
    Answered (holdingProxy m) guest mem events := by
  rintro before packet bytesWritten behind rfl
  have hmem : Event.writePacket packet bytesWritten ∈
      before ++ .writePacket packet bytesWritten :: behind :=
    List.mem_append_right _ List.mem_cons_self
  obtain rfl : bytesWritten = Proxy.sizeofPacket :=
    of_decide_eq_true (List.all_eq_true.mp h _ hmem)
  exact holdingCall_write m packet _

def neverRun (events : List Event) : Bool :=
  events.all fun e =>
    match e with
    | .kvmRun _ _ => false
    | _ => true

theorem not_mem_of_neverRun {events : List Event} (h : neverRun events = true) (vcpufd ret : ℤ) :
    Event.kvmRun vcpufd ret ∉ events := by
  intro hmem
  have hfalse := List.all_eq_true.mp h _ hmem
  cases hfalse

theorem emit_of_getLast {u : ProcState} {e : Event} (h : u.events.getLast? = some e) :
    (⟨u.table, u.events.dropLast⟩ : ProcState).emit e = u := by
  obtain ⟨table, events⟩ := u
  obtain ⟨before, rfl⟩ := List.getLast?_eq_some_iff.mp h
  show ProcState.mk table ((before ++ [e]).dropLast ++ [e]) = _
  rw [List.dropLast_concat]

/-- `hlt` and `nop`. -/
def haltModule : Proxy.KModule where
  initLayout := ⟨0x8000, 4096, 0, 0⟩
  coreLayout := ⟨0x4000, 2, 2, 0⟩
  coreImage := fun n => if n = 0 then 0xf4 else 0x90

def haltExits : List VcpuExit := [⟨0, .hlt⟩]

/-- Its only `KVM_RUN`. -/
theorem haltModule_run : ∃ u ∈
    (runProcessEntry true (loadEnv haltModule haltExits) receivedTable).visited,
    u.events.getLast? = some (.kvmRun 8 0) ∧ writtenWhole u.events.dropLast = true ∧
      neverRun u.events.dropLast = true := by
  decide +kernel

theorem vm_runs_haltModule : ∃ s : ProcState,
    s.emit (.kvmRun 8 0) ∈
        (runProcessEntry true (loadEnv haltModule haltExits) receivedTable).visited ∧
      RunsModule (holdingProxy haltModule) (fun _ _ => none) (fun _ => 0) haltModule 0 8 s ∧
      CoreMemory (holdingProxy haltModule) (fun _ _ => none) (fun _ => 0) haltModule 0 s
        fun _ n byte => byte = haltModule.coreImage n := by
  obtain ⟨u, hvisited, hlast, hwhole, hnever⟩ := haltModule_run
  rw [← emit_of_getLast hlast] at hvisited
  obtain ⟨i, hi, hruns⟩ := vm_runs_module true (loadEnv haltModule haltExits) receivedTable
    (holdingProxy haltModule) (fun _ _ => none) (fun _ => 0) haltModule receivedTable_distinct
    (holdingProxy_serves haltModule haltExits) _ 8 0 hvisited (holdingProxy_answered hwhole)
  obtain rfl := receivedTable_first hi
  exact ⟨_, hvisited, hruns, hruns.firstImage (not_mem_of_neverRun hnever)⟩

/-- `mov dx,0x3f8; mov [0x1008],al; out dx,al; hlt`, and a byte of data. -/
def storeModule : Proxy.KModule where
  initLayout := ⟨0x8000, 4096, 0, 0⟩
  coreLayout := ⟨0x4000, 9, 8, 0⟩
  coreImage := fun n => [0xba, 0xf8, 0x03, 0xa2, 0x08, 0x10, 0xee, 0xf4, 0x00].getD n 0

/-- The vcpu starts with 2 in `al`, and the core region lies at 0x30000. -/
def storeGuest : Guest := fun _ a => if a = 0x30008 then some 2 else none

def storeExits : List VcpuExit := [⟨0, .io 1 1 0x3f8 1 2⟩, ⟨0, .hlt⟩]

/-- Its second `KVM_RUN`. -/
theorem storeModule_run : ∃ u ∈
    (runProcessEntry true (loadEnv storeModule storeExits) receivedTable).visited,
    u.events.getLast? = some (.kvmRun 8 0) ∧ writtenWhole u.events.dropLast = true ∧
      (region (u.table.entry 0).memory .core).userspaceAddr.toNat = 0x30000 ∧
      memoryAfter (holdingProxy storeModule) storeGuest (fun _ => 0) u.events.dropLast 0x30008 =
        2 := by
  decide +kernel

/-- A guest that writes to its own image does not run the image of the module any more. -/
theorem guest_changes_image :
    receivedTable.Distinct ∧
    (∀ i, FirstUnsettled receivedTable i → Serves (holdingProxy storeModule)
      (loadEnv storeModule storeExits).memory (receivedTable.entry i).uuid storeModule) ∧
    ∃ s : ProcState,
      s.emit (.kvmRun 8 0) ∈
        (runProcessEntry true (loadEnv storeModule storeExits) receivedTable).visited ∧
      Answered (holdingProxy storeModule) storeGuest (fun _ => 0) s.events ∧
      ¬ CoreMemory (holdingProxy storeModule) storeGuest (fun _ => 0) storeModule 0 s
        fun _ n byte => byte = storeModule.coreImage n := by
  refine ⟨receivedTable_distinct, holdingProxy_serves storeModule storeExits, ?_⟩
  obtain ⟨u, hvisited, hlast, hwhole, hcore, hbyte⟩ := storeModule_run
  rw [← emit_of_getLast hlast] at hvisited
  refine ⟨_, hvisited, holdingProxy_answered hwhole, fun hexact => ?_⟩
  -- the byte behind the code, with `struct kvm_run` mapped nowhere near it
  have himage := hexact 0 0 _ (fun _ _ _ => Or.inr (Nat.zero_le _)) (fun _ _ => rfl) 8 (by decide)
    0x30008 (by rw [hcore])
  rw [hbyte] at himage
  exact absurd himage (by decide)

end LxcUio.System
