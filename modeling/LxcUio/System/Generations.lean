import LxcUio.Foundation.ForwardSimulation
import LxcUio.Foundation.WorkQueue
import LxcUio.Server.Serving
import LxcUio.System.Mirror

/-!
# One server after the other

The proxy outlives its servers: its table and its cursor stay when a server returns from
`main`, is killed, or leaves through `signal_callback_handler`, and the next server drains
from where the cursor stands. The host is run here with any number of servers, one after the
other, each of which may end at any moment.

An ioctl that is under way when its process ends comes to its end in the kernel: the entry
that it popped stays popped, and nobody has received it. What `send_event` does with the
`struct file` of a server that is gone is not followed here; it wakes no server.

- `delivered` records what earlier servers received, `start` where the cursor stood when the
  last one of them ended.
- `Follows` relates the host to a work queue: the log is what was submitted, the cursor says
  what was taken, and an entry is finished when `process_entry` returns 1 for it.
-/

namespace LxcUio.System

open LxcUio.Foundation LxcUio.Proxy LxcUio.Server

/-! ## The machine -/

structure GenState where
  host : HostState
  delivered : List Uuid
  start : ℤ

inductive GenLabel where
  | host (a : HostLabel)
  | kill
  | interrupt (cdevOpen : Bool)
  | restart (efd : FilePtr) (mem : ℤ → UuidTableEntry)

def GenState.init (proxy : ModuleTable) (efd : FilePtr) (mem : ℤ → UuidTableEntry) :
    GenState where
  host := HostState.init proxy efd mem
  delivered := []
  start := proxy.tableIndex

/-- The process is gone. -/
def hasEnded : Pc → Bool
  | .returned => true
  | .killed => true
  | _ => false

/-- The ioctl under way, if any, comes to its end; it is the un-pop that may be left to do. -/
def HostState.ioctlEnds (s : HostState) : ModuleTable :=
  match s.client with
  | .copyFailed _ _ => (tablePopReverse s.proxy).2
  | _ => s.proxy

/-- The server ends where it stands. -/
def GenState.ends (s : GenState) : GenState where
  host := { s.host with
    proxy := s.host.ioctlEnds
    client := .idle
    main := { s.host.main with pc := .killed, popped := [] } }
  delivered := s.delivered ++ s.host.main.popped
  start := s.host.ioctlEnds.tableIndex

/-- `signal_callback_handler`: its `deregister_server` reaches the proxy while the device is
open. -/
def GenState.interrupted (s : GenState) (cdevOpen : Bool) : GenState :=
  { s.ends with host := { s.ends.host with
      ks := if cdevOpen = true then (kvmHostServerDeRegister s.host.ks).2 else s.host.ks } }

/-- The next server starts, with an eventfd of its own. -/
def GenState.restarted (s : GenState) (efd : FilePtr) (mem : ℤ → UuidTableEntry) : GenState where
  host := { s.host with
    efd := efd
    counter := 0
    main := MainState.init mem
    drained := none }
  delivered := s.delivered ++ s.host.main.popped
  start := s.host.proxy.tableIndex

def genStep (debugOn : Bool) (s : GenState) : GenLabel → Option GenState
  | .host a => (hostStep debugOn s.host a).map fun h => { s with host := h }
  | .kill => if hasEnded s.host.main.pc = true then none else some s.ends
  | .interrupt cdevOpen =>
      -- the handler waits for `ks_mutex`
      if hasEnded s.host.main.pc = true ∨ s.host.sender ≠ .idle then none
      else some (s.interrupted cdevOpen)
  | .restart efd mem =>
      match s.host.client with
      | .idle => if hasEnded s.host.main.pc = true then some (s.restarted efd mem) else none
      | _ => none

/-! ## The runs -/

/-- While a server runs nothing fails but the server itself. -/
def GenRuns (s : GenState) : GenLabel → Prop
  | .host a => MirrorInPlaceRuns s.host a
  | _ => True

/-- No server ends inside the ioctl that hands it an entry. -/
def EndsBetweenCalls (s : GenState) : GenLabel → Prop
  | .kill => s.host.client = .idle
  | .interrupt _ => s.host.client = .idle
  | _ => True

/-- All servers together have received what the cursor has passed since it stood at `k`,
each entry once, in the order in which they were put. -/
def NothingMissed (k : ℤ) (s : GenState) : Prop :=
  s.delivered ++ s.host.main.popped =
    proxyUuids s.host.proxy (k + 1) (s.host.received + 1)

/-! ## Ending and starting -/

theorem ioctlEnds_eq {s : HostState} (h : Healthy s) : s.ioctlEnds = s.proxy := by
  unfold HostState.ioctlEnds
  split
  · rename_i i retval hfailed
    exact absurd hfailed h.not_copyFailed
  · rfl

/-- A server that is gone leaves the proxy as it is; the next one begins at the cursor. -/
theorem MirrorInv.begins {k : ℤ} {s t : HostState} (h : MirrorInv k s)
    (hproxy : t.proxy = s.proxy) (hlog : t.log = s.log) (hclient : t.client = .idle)
    (hmain : MainInv t.main) (hpopped : t.main.popped = []) :
    MirrorInv s.proxy.tableIndex t := by
  have hsound := h.healthy.sound
  have hreceived : t.received = s.proxy.tableIndex := by
    rw [received_idle hclient, hproxy]
  refine ⟨⟨?_, ?_, Or.inl hclient⟩, hmain, ?_, hsound.index_ge, le_of_eq hreceived.symm, ?_, ?_,
    ?_⟩
  · rw [hproxy]
    exact hsound
  · rw [hproxy]
    exact h.healthy.allocated
  · rw [hproxy, hlog]
    exact h.log
  · rw [hreceived, hproxy]
    exact hsound.index_lt
  · rw [hpopped, hreceived, proxyUuids, HeapArray.slice_eq_nil _ (le_refl _), List.map_nil]
  · intro i uuid hholds
    rw [hclient] at hholds
    cases hholds

/-- A server that was killed says nothing any more. -/
theorem killed_mainInv {s : MainState} (h : MainInv s) :
    MainInv { s with pc := .killed, popped := [] } :=
  ⟨(fun hb => by cases hb), trivial, h.noBugs, h.stop⟩

theorem MirrorInv.ends {s : GenState} (h : MirrorInv s.start s.host) :
    MirrorInv s.ends.start s.ends.host := by
  have hproxy := ioctlEnds_eq h.healthy
  have hbegins := h.begins (t := s.ends.host) hproxy rfl rfl (killed_mainInv h.main) rfl
  show MirrorInv s.host.ioctlEnds.tableIndex s.ends.host
  rw [hproxy]
  exact hbegins

theorem MirrorInv.interrupted {s : GenState} (h : MirrorInv s.start s.host) (cdevOpen : Bool) :
    MirrorInv (s.interrupted cdevOpen).start (s.interrupted cdevOpen).host :=
  ⟨⟨h.ends.healthy.sound, h.ends.healthy.allocated, h.ends.healthy.client⟩, h.ends.main,
    h.ends.log, h.ends.k_ge, h.ends.k_le, h.ends.received_lt, h.ends.popped, h.ends.held⟩

theorem MirrorInv.restarted {s : GenState} (h : MirrorInv s.start s.host) (efd : FilePtr)
    (mem : ℤ → UuidTableEntry) (hidle : s.host.client = .idle) :
    MirrorInv (s.restarted efd mem).start (s.restarted efd mem).host :=
  h.begins rfl rfl hidle (init_mainInv mem) rfl

/-- Every step of the host with its servers. -/
theorem genStep_cases {debugOn : Bool} {s t : GenState} {a : GenLabel}
    (hs : genStep debugOn s a = some t) :
    (∃ b h, a = .host b ∧ hostStep debugOn s.host b = some h ∧ t = { s with host := h }) ∨
    (a = .kill ∧ t = s.ends) ∨
    (∃ cdevOpen, a = .interrupt cdevOpen ∧ t = s.interrupted cdevOpen) ∨
    (∃ efd mem, a = .restart efd mem ∧ s.host.client = .idle ∧ t = s.restarted efd mem) := by
  cases a with
  | host b =>
      obtain ⟨h, hh, rfl⟩ := Option.map_eq_some_iff.mp hs
      exact Or.inl ⟨b, h, rfl, hh, rfl⟩
  | kill =>
      simp only [genStep] at hs
      split at hs
      · cases hs
      · exact Or.inr (Or.inl ⟨rfl, (Option.some.inj hs).symm⟩)
  | interrupt cdevOpen =>
      simp only [genStep] at hs
      split at hs
      · cases hs
      · exact Or.inr (Or.inr (Or.inl ⟨cdevOpen, rfl, (Option.some.inj hs).symm⟩))
  | restart efd mem =>
      simp only [genStep] at hs
      split at hs
      · split at hs
        · exact Or.inr (Or.inr (Or.inr ⟨efd, mem, rfl, ‹_›, (Option.some.inj hs).symm⟩))
        · cases hs
      · cases hs

/-- Through all servers the proxy's table mirrors the log, and the server of the moment has
what was popped since it began. -/
theorem mirrorInv_genStep {debugOn : Bool} {s t : GenState} {a : GenLabel}
    (h : MirrorInv s.start s.host) (hg : GenRuns s a) (hs : genStep debugOn s a = some t) :
    MirrorInv t.start t.host := by
  rcases genStep_cases hs with ⟨b, u, rfl, hu, rfl⟩ | ⟨rfl, rfl⟩ | ⟨cdevOpen, rfl, rfl⟩ |
    ⟨efd, mem, rfl, hidle, rfl⟩
  · exact mirrorInv_step debugOn _ _ _ _ h hg hu
  · exact h.ends
  · exact h.interrupted cdevOpen
  · exact h.restarted efd mem hidle

/-! ## What all servers have received -/

/-- The servers before this one have received what was popped before it began. -/
structure HandedOver (k : ℤ) (s : GenState) : Prop where
  mirror : MirrorInv s.start s.host
  k_ge : -1 ≤ k
  k_le : k ≤ s.start
  delivered : s.delivered = proxyUuids s.host.proxy (k + 1) (s.start + 1)

theorem HandedOver.nothingMissed {k : ℤ} {s : GenState} (h : HandedOver k s) :
    NothingMissed k s := by
  have hle := h.k_le
  have hreceived := h.mirror.k_le
  rw [NothingMissed, h.delivered, h.mirror.popped,
    ← proxyUuids_append s.host.proxy (by omega) (by omega)]

/-- No step of the host changes the entries that earlier servers received. -/
theorem proxyUuids_hostStep {debugOn : Bool} {s t : HostState} {a : HostLabel} {lo hi : ℤ}
    (h : Healthy s) (hg : AllSucceeds s a) (hs : hostStep debugOn s a = some t) (h0 : 0 ≤ lo)
    (hle : hi ≤ s.proxy.tableNumEntries) :
    proxyUuids t.proxy lo hi = proxyUuids s.proxy lo hi := by
  cases hostStep_move hs with
  | put hput => exact proxyUuids_appended (h.put_succeeds hg).2 h0 hle
  | putFailed hput => exact absurd (h.put_succeeds hg).1 hput
  | popNone hclient hpop hm =>
      obtain ⟨-, rfl⟩ := popEntry_noEntry_allocated h.allocated hpop
      rfl
  | popOops hclient hask hpop => exact absurd hpop (popEntry_ne_oops h.allocated)
  | popped hclient hask hpop =>
      obtain ⟨-, -, -, -, rfl⟩ := popEntry_entry hpop
      rfl
  | unpopped hclient hm => exact absurd hclient h.not_copyFailed
  | _ => rfl

/-- Between two calls the server of the moment has all that was popped. -/
theorem HandedOver.all {k : ℤ} {s : GenState} (h : HandedOver k s)
    (hidle : s.host.client = .idle) :
    s.delivered ++ s.host.main.popped =
      proxyUuids s.host.proxy (k + 1) (s.host.proxy.tableIndex + 1) := by
  have hall := h.nothingMissed
  rwa [NothingMissed, received_idle hidle] at hall

theorem HandedOver.ends {k : ℤ} {s : GenState} (h : HandedOver k s)
    (hidle : s.host.client = .idle) : HandedOver k s.ends where
  mirror := h.mirror.ends
  k_ge := h.k_ge
  k_le := by
    show k ≤ s.host.ioctlEnds.tableIndex
    have hkle := h.mirror.k_le
    rw [received_idle hidle] at hkle
    rw [ioctlEnds_eq h.mirror.healthy]
    exact le_trans h.k_le hkle
  delivered := by
    show s.delivered ++ s.host.main.popped =
      proxyUuids s.host.ioctlEnds (k + 1) (s.host.ioctlEnds.tableIndex + 1)
    rw [ioctlEnds_eq h.mirror.healthy]
    exact h.all hidle

theorem handedOver_step {debugOn : Bool} {k : ℤ} {s t : GenState} {a : GenLabel}
    (h : HandedOver k s) (hg : GenRuns s a) (hb : EndsBetweenCalls s a)
    (hs : genStep debugOn s a = some t) : HandedOver k t := by
  have hmirror := mirrorInv_genStep h.mirror hg hs
  rcases genStep_cases hs with ⟨b, u, rfl, hu, rfl⟩ | ⟨rfl, rfl⟩ | ⟨cdevOpen, rfl, rfl⟩ |
    ⟨efd, mem, rfl, hidle, rfl⟩
  · refine ⟨hmirror, h.k_ge, h.k_le, ?_⟩
    have hle := h.mirror.k_le
    have hlt := h.mirror.received_lt
    have hge := h.k_ge
    show s.delivered = proxyUuids u.proxy (k + 1) (s.start + 1)
    rw [h.delivered, proxyUuids_hostStep h.mirror.healthy hg.1.1 hu (by omega) (by omega)]
  · exact h.ends hb
  · exact ⟨hmirror, h.k_ge, (h.ends hb).k_le, (h.ends hb).delivered⟩
  · refine ⟨hmirror, h.k_ge, ?_, h.all hidle⟩
    have hkle := h.mirror.k_le
    rw [received_idle hidle] at hkle
    exact le_trans h.k_le hkle

/-- An entry that a server had popped and not received is one that no server receives. -/
theorem ends_misses {k : ℤ} {s : GenState} (h : HandedOver k s)
    (hbusy : s.host.client ≠ .idle) : ¬ NothingMissed k s.ends := by
  intro hmissed
  rcases h.mirror.healthy.client with hidle | ⟨i, uuid, hholds⟩
  · exact hbusy hidle
  · obtain ⟨hi, -⟩ := h.mirror.held i uuid hholds
    have hall := h.nothingMissed
    have hge := h.k_le
    have hkle := h.mirror.k_le
    rw [received_holds hholds] at hkle
    rw [NothingMissed, received_holds hholds] at hall
    change (s.delivered ++ s.host.main.popped) ++ [] = proxyUuids s.host.ioctlEnds (k + 1)
      (s.host.ioctlEnds.tableIndex + 1) at hmissed
    rw [ioctlEnds_eq h.mirror.healthy, List.append_nil, hall] at hmissed
    have hlength := congrArg List.length hmissed
    rw [proxyUuids, proxyUuids, List.length_map, List.length_map, HeapArray.length_slice,
      HeapArray.length_slice] at hlength
    omega

theorem init_handedOver (proxy : UsableTable) (efd : FilePtr) (mem : ℤ → UuidTableEntry) :
    HandedOver proxy.table.tableIndex (GenState.init proxy.table efd mem) where
  mirror := init_mirrorInv proxy efd mem
  k_ge := proxy.sound.index_ge
  k_le := le_refl _
  delivered := by
    show [] = proxyUuids proxy.table _ (proxy.table.tableIndex + 1)
    rw [proxyUuids, HeapArray.slice_eq_nil _ (le_refl _), List.map_nil]

/-- A server starts, one module is put, and the server pops it. -/
def untilPopped : List GenLabel :=
  (hostBoot ++ [HostLabel.put default (some fun _ => default), .ioctlPop entryEnv]).map .host

/-- A host that nothing was put into. -/
def genStart : GenState :=
  GenState.init (UsableTable.fresh (fun _ => default) fun _ => default).table 1 fun _ => default

/-- There it is killed, and the next one starts. -/
def killedInside : List GenLabel := untilPopped ++ [.kill, .restart 2 fun _ => default]

theorem killedInside_runs (s : GenState) : StepsMeet (genStep true) GenRuns s killedInside := by
  apply stepsMeet_of_forall
  simp [killedInside, untilPopped, hostBoot, GenRuns, MirrorInPlaceRuns, MirrorRuns, AllSucceeds,
    AllocationsSucceed, ReceivesFew, ServerInPlace, Except.isOk, Except.toBool]

/-- **Exactly once over all servers.** In a run in which nothing fails but the servers, the
servers have between them received, in every state, each entry that the cursor has passed
exactly once, if and only if none of them ended inside the ioctl that handed it an entry. -/
theorem nothingMissed_iff (debugOn : Bool) (proxy : UsableTable) (efd : FilePtr)
    (mem : ℤ → UuidTableEntry) (as : List GenLabel)
    (hruns : StepsMeet (genStep debugOn) GenRuns (GenState.init proxy.table efd mem) as) :
    StatesMeet (genStep debugOn) (NothingMissed proxy.table.tableIndex)
        (GenState.init proxy.table efd mem) as ↔
      StepsMeet (genStep debugOn) EndsBetweenCalls (GenState.init proxy.table efd mem) as := by
  refine statesMeet_iff_stepsMeet_within (I := HandedOver proxy.table.tableIndex)
    (fun s h => h.nothingMissed) (fun s a t h hg hb hs => handedOver_step h hg hb hs) ?_ as _
    (init_handedOver proxy efd mem) hruns
  intro s a t h hg hb hs
  rcases genStep_cases hs with ⟨b, u, rfl, hu, rfl⟩ | ⟨rfl, rfl⟩ | ⟨cdevOpen, rfl, rfl⟩ |
    ⟨efd, mem, rfl, hidle, rfl⟩
  · exact absurd trivial hb
  · exact ends_misses h hb
  · exact ends_misses h hb
  · exact absurd trivial hb

/-- The module that the killed server had popped is missed. -/
theorem killed_server_misses :
    ¬ StatesMeet (genStep true) (NothingMissed (-1)) genStart killedInside := by
  intro hstates
  have hcalls := (nothingMissed_iff true (UsableTable.fresh _ _) 1 _ killedInside
    (killedInside_runs _)).mp hstates
  have hpopped : exec (genStep true) genStart untilPopped = some _ := rfl
  obtain ⟨hidle, -⟩ := hcalls.after hpopped _ rfl
  cases hidle

/-! ## The work queue -/

/-- What a step is to the work queue. -/
def visible (s : GenState) : GenLabel → List (WorkQueue.Label Uuid)
  | .host (.put mt krealloc) =>
      if (tablePut s.host.proxy mt krealloc).1 = 0 then [.submit mt.uuid] else []
  | .host (.ioctlPop _) =>
      match (popEntry s.host.proxy).1 with
      | .entry _ uuid => [.take uuid]
      | _ => []
  | .host (.server l) => (finishedUuid s.host.main l).toList.map .finish
  | .host _ => []
  | .kill => [.handOver]
  | .interrupt _ => [.handOver]
  | .restart _ _ => [.handOver]

/-- The queue that the host stands for: `m` entries are served by the server of the moment. -/
structure FollowsAt (m : ℤ) (s : GenState) (q : WorkQueue Uuid) : Prop where
  entries : q.entries = s.host.log
  taken : (q.taken : ℤ) = s.host.proxy.tableIndex + 1
  nonneg : 0 ≤ m
  fates : (q.fates.length : ℤ) = s.start + 1 + m
  serving : Serving m s.host.main.table s.host.main.pc

def Follows (s : GenState) (q : WorkQueue Uuid) : Prop :=
  MirrorInv s.start s.host ∧ ∃ m, FollowsAt m s q

theorem log_getElem? {k : ℤ} {s : HostState} (h : MirrorInv k s) {j : ℕ}
    (hj : (j : ℤ) < s.proxy.tableNumEntries) :
    s.log[j]? = some (s.proxy.moduleTable.cells j).uuid := by
  rw [← h.log, proxyUuids, List.getElem?_map, HeapArray.getElem?_slice _ (by omega), zero_add]
  rfl

theorem popped_getElem? {k : ℤ} {s : HostState} (h : MirrorInv k s) {j : ℕ} {uuid : Uuid}
    (hget : s.main.popped[j]? = some uuid) :
    k + 1 + j ≤ s.received ∧ uuid = (s.proxy.moduleTable.cells (k + 1 + j)).uuid := by
  obtain ⟨hlt, -⟩ := List.getElem?_eq_some_iff.mp hget
  have hpopped := h.popped
  have hlength := congrArg List.length hpopped
  rw [proxyUuids, List.length_map, HeapArray.length_slice] at hlength
  have hbound : k + 1 + (j : ℤ) < s.received + 1 := by omega
  rw [hpopped, proxyUuids, List.getElem?_map, HeapArray.getElem?_slice _ hbound] at hget
  exact ⟨by omega, (Option.some.inj hget).symm⟩

theorem received_le_index {k : ℤ} {s : HostState} (h : MirrorInv k s) :
    s.received ≤ s.proxy.tableIndex := by
  rcases h.healthy.client with hidle | ⟨i, uuid, hholds⟩
  · exact le_of_eq (received_idle hidle)
  · obtain ⟨rfl, -⟩ := h.held i uuid hholds
    rw [received_holds hholds]
    omega

/-- What a server has served is the first entry of the queue without a fate. -/
theorem FollowsAt.current {m : ℤ} {s : GenState} {q : WorkQueue Uuid} (h : FollowsAt m s q)
    (hmirror : MirrorInv s.start s.host) {uuid : Uuid}
    (hget : s.host.main.popped[m.toNat]? = some uuid) : q.current = some uuid := by
  obtain ⟨hle, huuid⟩ := popped_getElem? hmirror hget
  have hindex := received_le_index hmirror
  have htaken := h.taken
  have hfates := h.fates
  have hnonneg := h.nonneg
  have hlt := hmirror.received_lt
  have hfated : s.start + 1 + ((m.toNat : ℕ) : ℤ) = (q.fates.length : ℤ) := by omega
  rw [hfated] at hle huuid
  rw [WorkQueue.current, CursorLog.delivered, List.getElem?_take_of_lt (by omega), h.entries,
    log_getElem? hmirror (by omega), huuid]

/-- Another process takes over. -/
theorem FollowsAt.handOver {m : ℤ} {s t : GenState} {q : WorkQueue Uuid} (h : FollowsAt m s q)
    (hlog : t.host.log = s.host.log) (hproxy : t.host.proxy = s.host.proxy)
    (hstart : t.start = s.host.proxy.tableIndex)
    (hserving : Serving 0 t.host.main.table t.host.main.pc) : FollowsAt 0 t q.handOver where
  entries := h.entries.trans hlog.symm
  taken := by
    rw [hproxy]
    exact h.taken
  nonneg := le_refl 0
  fates := by
    rw [WorkQueue.length_handOver, hstart, add_zero]
    exact h.taken
  serving := hserving

/-- A step that the queue does not see. -/
theorem FollowsAt.other {m : ℤ} {s : GenState} {q : WorkQueue Uuid} {u : HostState}
    (h : FollowsAt m s q) (hlog : u.log = s.host.log)
    (hindex : u.proxy.tableIndex = s.host.proxy.tableIndex)
    (hserving : Serving m u.main.table u.main.pc) : FollowsAt m { s with host := u } q where
  entries := h.entries.trans hlog.symm
  taken := by
    show (q.taken : ℤ) = u.proxy.tableIndex + 1
    rw [hindex]
    exact h.taken
  nonneg := h.nonneg
  fates := h.fates
  serving := hserving

/-- A step of the host is the step of the queue that it shows. -/
theorem followsAt_hostStep {debugOn : Bool} {m : ℤ} {s : GenState} {q : WorkQueue Uuid}
    {a : HostLabel} {u : HostState} (hmirror : MirrorInv s.start s.host) (h : FollowsAt m s q)
    (hg : MirrorInPlaceRuns s.host a) (hs : hostStep debugOn s.host a = some u) :
    ∃ v, exec WorkQueue.step q (visible s (.host a)) = some v ∧
      ∃ n, FollowsAt n { s with host := u } v := by
  have hhealthy := hmirror.healthy
  have hserving : (∀ l, a ≠ .server l) → Serving m u.main.table u.main.pc := fun ha =>
    serving_hostStep ha hhealthy hmirror.main h.serving hg hs
  cases hostStep_move hs with
  | @put mt krealloc hput =>
      refine ⟨q.submit mt.uuid, ?_, m, ?_⟩
      · show exec WorkQueue.step q (if _ then [.submit mt.uuid] else []) = _
        rw [if_pos hput]
        rfl
      · refine ⟨congrArg (· ++ [mt.uuid]) h.entries, ?_, h.nonneg, h.fates, h.serving⟩
        show (q.taken : ℤ) = (tablePut s.host.proxy mt krealloc).2.tableIndex + 1
        rw [(hhealthy.put_succeeds hg.1.1).2.index]
        exact h.taken
  | putFailed hput => exact absurd (hhealthy.put_succeeds hg.1.1).1 hput
  | @popNone env t m' hclient hpop hm =>
      obtain ⟨-, rfl⟩ := popEntry_noEntry_allocated hhealthy.allocated hpop
      refine ⟨q, ?_, m, h.other rfl rfl (hserving (by rintro l ⟨⟩))⟩
      simp only [visible, hpop]
      rfl
  | popOops hclient hask hpop => exact absurd hpop (popEntry_ne_oops hhealthy.allocated)
  | @popped env i uuid t hclient hask hpop =>
      obtain ⟨hp, -, rfl, huuid, rfl⟩ := popEntry_entry hpop
      have htaken := h.taken
      have hlt : s.host.proxy.tableIndex + 1 < s.host.proxy.tableNumEntries := by
        unfold ModuleTable.Pending at hp
        omega
      have hpeek : q.peek = some uuid := by
        rw [CursorLog.peek, h.entries, log_getElem? hmirror (by omega), huuid, htaken]
      refine ⟨q.take (WorkQueue.taken_lt hpeek), ?_, m, ?_⟩
      · simp only [visible, hpop]
        show (if h : q.peek = some uuid then _ else none).bind _ = _
        rw [dif_pos hpeek]
        rfl
      · refine ⟨h.entries, ?_, h.nonneg, h.fates, h.serving⟩
        show ((q.taken + 1 : ℕ) : ℤ) = s.host.proxy.tableIndex + 1 + 1
        omega
  | unpopped hclient hm => exact absurd hclient hhealthy.not_copyFailed
  | @server l m' hl hm =>
      have hruns : InPlaceRuns s.host.main l := by
        obtain ⟨hfew, hin⟩ := few_of_isLocal (s := s.host.main) hl
        exact ⟨⟨hg.1.1, hfew⟩, hin⟩
      rcases serving_step h.nonneg hmirror.main h.serving hruns hm with
        ⟨hnone, hserved⟩ | ⟨uuid, hsome, hget, hserved⟩
      · refine ⟨q, ?_, m, h.other rfl rfl hserved⟩
        simp only [visible, hnone]
        rfl
      · have hcurrent := h.current hmirror hget
        refine ⟨q.finish (WorkQueue.fates_lt hcurrent), ?_, m + 1, h.entries, h.taken, ?_, ?_,
          hserved⟩
        · simp only [visible, hsome]
          show (if h : q.current = some uuid then _ else none).bind _ = _
          rw [dif_pos hcurrent]
          rfl
        · have := h.nonneg
          omega
        · show ((q.fates ++ [Fate.finished]).length : ℤ) = s.start + 1 + (m + 1)
          have hfates := h.fates
          rw [List.length_append, List.length_singleton]
          omega
  | _ => exact ⟨q, rfl, m, h.other rfl rfl (hserving (by rintro l ⟨⟩))⟩

/-- A step of the host with its servers is a run of the queue. -/
theorem follows_step {debugOn : Bool} (s : GenState) (a : GenLabel) (t : GenState)
    (q : WorkQueue Uuid) (h : Follows s q) (hg : GenRuns s a)
    (hs : genStep debugOn s a = some t) :
    ∃ v, exec WorkQueue.step q (visible s a) = some v ∧ Follows t v := by
  obtain ⟨hmirror, m, hm⟩ := h
  have hmirror' := mirrorInv_genStep hmirror hg hs
  have hends := ioctlEnds_eq hmirror.healthy
  rcases genStep_cases hs with ⟨b, u, rfl, hu, rfl⟩ | ⟨rfl, rfl⟩ | ⟨cdevOpen, rfl, rfl⟩ |
    ⟨efd, mem, rfl, hidle, rfl⟩
  · obtain ⟨v, hv, hfollows⟩ := followsAt_hostStep hmirror hm hg hu
    exact ⟨v, hv, hmirror', hfollows⟩
  · refine ⟨q.handOver, rfl, hmirror', 0, hm.handOver rfl hends ?_ trivial⟩
    exact congrArg ModuleTable.tableIndex hends
  · refine ⟨q.handOver, rfl, hmirror', 0, hm.handOver rfl hends ?_ trivial⟩
    exact congrArg ModuleTable.tableIndex hends
  · exact ⟨q.handOver, rfl, hmirror', 0, hm.handOver rfl rfl rfl rfl⟩

theorem startLog_taken_le (proxy : UsableTable) : (proxy.table.tableIndex + 1).toNat ≤
    (proxyUuids proxy.table 0 proxy.table.tableNumEntries).length := by
  have hlt := proxy.sound.index_lt
  rw [proxyUuids, List.length_map, HeapArray.length_slice, sub_zero]
  exact Int.toNat_le_toNat hlt

/-- What is in the table when the host is first looked at. -/
def startLog (proxy : UsableTable) : CursorLog Uuid where
  entries := proxyUuids proxy.table 0 proxy.table.tableNumEntries
  taken := (proxy.table.tableIndex + 1).toNat
  taken_le := startLog_taken_le proxy

theorem init_follows_queue (proxy : UsableTable) (efd : FilePtr) (mem : ℤ → UuidTableEntry) :
    Follows (GenState.init proxy.table efd mem) (WorkQueue.start (startLog proxy)) := by
  have hge := proxy.sound.index_ge
  refine ⟨init_mirrorInv proxy efd mem, 0, rfl, ?_, le_refl 0, ?_, rfl⟩
  · show (((proxy.table.tableIndex + 1).toNat : ℕ) : ℤ) = proxy.table.tableIndex + 1
    omega
  · show ((List.replicate (proxy.table.tableIndex + 1).toNat Fate.lost).length : ℤ) =
      proxy.table.tableIndex + 1 + 0
    rw [List.length_replicate]
    omega

theorem proxyUuids_eq_drop (t : ModuleTable) {lo hi : ℤ} (h0 : 0 ≤ lo) (hle : lo ≤ hi)
    (hnum : hi ≤ t.tableNumEntries) :
    proxyUuids t lo hi =
      ((proxyUuids t 0 t.tableNumEntries).take hi.toNat).drop lo.toNat := by
  have hlength : ∀ n, (proxyUuids t 0 n).length = n.toNat := by
    intro n
    rw [proxyUuids, List.length_map, HeapArray.length_slice, sub_zero]
  rw [proxyUuids_append t (le_trans h0 hle) hnum, ← hlength hi, List.take_left,
    proxyUuids_append t h0 hle, ← hlength lo, List.drop_left]

/-- **The host is a work queue** through any number of servers, which may end at any moment.
Every run shows a run of the queue: the modules are handed out in the order in which they were
put and served in the order in which they were handed out, none of them twice, and what is
lost is what a server had been handed and had not served when it ended. -/
theorem generations_follow_queue (debugOn : Bool) (proxy : UsableTable) (efd : FilePtr)
    (mem : ℤ → UuidTableEntry) (as : List GenLabel) (s : GenState)
    (hrun : exec (genStep debugOn) (GenState.init proxy.table efd mem) as = some s)
    (hg : StepsMeet (genStep debugOn) GenRuns (GenState.init proxy.table efd mem) as) :
    ∃ q ls, ls = trace (genStep debugOn) visible (GenState.init proxy.table efd mem) as ∧
      exec WorkQueue.step (WorkQueue.start (startLog proxy)) ls = some q ∧
      q.entries = s.host.log ∧
      WorkQueue.takes ls =
        proxyUuids s.host.proxy (proxy.table.tableIndex + 1) (s.host.proxy.tableIndex + 1) ∧
      (WorkQueue.finishes ls).Sublist (WorkQueue.takes ls) := by
  have hsim := @follows_step debugOn
  obtain ⟨q, hq, hmirror, m, hm⟩ := exec_trace hsim as (init_follows_queue proxy efd mem) hg hrun
  obtain ⟨hdelivered, hsublist⟩ := WorkQueue.finishes_sublist hq
  refine ⟨q, _, rfl, hq, hm.entries, ?_, hsublist⟩
  have hge := proxy.sound.index_ge
  have hlt := hmirror.healthy.sound.index_lt
  have htaken := hm.taken
  have hlength := (startLog proxy).length_delivered
  have hstart : (proxy.table.tableIndex + 1).toNat ≤ q.delivered.length := by
    rw [hdelivered, List.length_append, hlength]
    exact Nat.le_add_right _ _
  rw [CursorLog.length_delivered] at hstart
  have hcursor : (s.host.proxy.tableIndex + 1).toNat = q.taken := by omega
  rw [proxyUuids_eq_drop s.host.proxy (by omega) (by omega) (by omega), hmirror.log, hcursor,
    ← hm.entries]
  show _ = q.delivered.drop (startLog proxy).taken
  rw [hdelivered, ← hlength, List.drop_left]

/-- The queue of the run in which the server is killed inside its ioctl. -/
theorem killed_server_follows_queue :
    ∃ q, exec WorkQueue.step
        (WorkQueue.start (startLog (UsableTable.fresh (fun _ => default) fun _ => default)))
        [.submit 0, .take 0, .handOver, .handOver] = some q := by
  have hrun : exec (genStep true) genStart killedInside = some _ := rfl
  obtain ⟨q, ls, hls, hq, -⟩ := generations_follow_queue true (UsableTable.fresh _ _) 1 _
    killedInside _ hrun (killedInside_runs _)
  rw [hls] at hq
  exact ⟨q, hq⟩

end LxcUio.System
