import LxcUio.Server.Serving
import LxcUio.System.Host

/-!
# The server's table mirrors the proxy's

Between two calls of `get_new_entry` the uuids in `uuid_table` are those of
`module_table[k+1..table_index]`, where `k` is where the cursor stood when the server
started, and the uuids behind `table_index` are those it has not received. The
invariant `MirrorInv` relates both tables to `popped`, the list of what
`get_new_entry` was given, and to `log`, the list of what was put.
-/

namespace LxcUio.System

open LxcUio.Foundation LxcUio.Proxy LxcUio.Server

/-! ## The runs -/

/-- Fewer than 2^22 modules are received. -/
def ReceivesFew (s : HostState) : HostLabel → Prop
  | .ioctlCopy _ _ => s.main.popped.length + 1 < 2 ^ 22
  | _ => True

/-- `realloc` enlarges the server's table in place. -/
def ServerInPlace (s : HostState) : HostLabel → Prop
  | .ioctlCopy _ env => GrowsInPlace s.main.table env.realloc
  | _ => True

/-- Nothing fails, and fewer than 2^22 modules are received. -/
def MirrorRuns (s : HostState) (a : HostLabel) : Prop := AllSucceeds s a ∧ ReceivesFew s a

/-- Those runs in which the server's table is enlarged in place. -/
def MirrorInPlaceRuns (s : HostState) (a : HostLabel) : Prop :=
  MirrorRuns s a ∧ ServerInPlace s a

/-! ## What `main` receives -/

/-- The uuid that a step of `main` receives. -/
def receivedUuid : MainLabel → List Uuid
  | .gotEntry ioctlRet uuid _ => if ioctlRet = 1 then [uuid] else []
  | _ => []

theorem processed_popped (s : MainState) (site : Site) (ret : ℤ) :
    (s.processed site ret).popped = s.popped := by
  rcases processed_cases s site ret with ⟨_, _, _, hgo⟩ | ⟨_, _, _, hleave⟩
  · rw [hgo]
  · rw [hleave]
    rfl

theorem received_popped (s : MainState) (ioctlRet : ℤ) (uuid : Uuid) (env : NewEntryEnv) :
    (s.received ioctlRet uuid env).popped =
      s.popped ++ receivedUuid (.gotEntry ioctlRet uuid env) := by
  by_cases h : ioctlRet = 1 <;> simp [MainState.received, receivedUuid, h]

theorem mainStep_popped {debugOn : Bool} {s t : MainState} {l : MainLabel}
    (hs : mainStep debugOn s l = some t) : t.popped = s.popped ++ receivedUuid l := by
  cases mainStep_move hs with
  | @drained ioctlRet uuid env hpc =>
      rw [← received_popped]
      unfold MainState.drained
      split
      · rfl
      · split <;> rfl
  | @processReturn site ret hpc =>
      rw [processed_popped]
      exact (List.append_nil _).symm
  | @bug site b hpc =>
      rw [processed_popped]
      exact (List.append_nil _).symm
  | @woken ioctlRet uuid env hpc =>
      rw [← received_popped]
      unfold MainState.woken
      split
      · rfl
      · split
        · rfl
        · split <;> rfl
  | _ => exact (List.append_nil _).symm

/-- Without an entry the environment of `get_new_entry` is not asked. -/
theorem gotEntry_zero (debugOn : Bool) (s : MainState) (env env' : NewEntryEnv) :
    mainStep debugOn s (.gotEntry 0 0 env) = mainStep debugOn s (.gotEntry 0 0 env') := by
  have hsame : s.received 0 0 env = s.received 0 0 env' := by
    simp [MainState.received, getNewEntry]
  cases hpc : s.pc <;> simp only [mainStep, hpc, hsame]

theorem few_of_isLocal {s : MainState} {l : MainLabel} (hl : isLocal l = true) :
    FewModules s l ∧ InPlace s l := by
  cases l with
  | gotEntry => cases hl
  | _ => exact ⟨trivial, trivial⟩

/-- The server's own invariant is kept by every step of the host. -/
theorem mainInv_hostStep {debugOn : Bool} {s t : HostState} {a : HostLabel}
    (hhealthy : Healthy s) (h : MainInv s.main) (hg : MirrorInPlaceRuns s a)
    (hs : hostStep debugOn s a = some t) : MainInv t.main := by
  have hkeep : ∀ {l : MainLabel} {m : MainState}, mainStep debugOn s.main l = some m →
      InPlaceRuns s.main l → MainInv m :=
    fun hm hruns => mainInv_step debugOn _ _ _ h hruns hm
  cases hostStep_move hs with
  | @popNone env u m hclient hpop hm =>
      rw [gotEntry_zero debugOn s.main env entryEnv] at hm
      refine hkeep hm ⟨⟨⟨rfl, ?_⟩, fun hret => ?_⟩, fun _ => ⟨_, rfl⟩⟩
      · exact fun _ _ hfailed => by cases hfailed
      · cases hret
  | copied hclient hm =>
      exact hkeep hm ⟨⟨hg.1.1.2, fun _ => hg.1.2⟩, hg.2⟩
  | unpopped hclient hm =>
      exact absurd hclient hhealthy.not_copyFailed
  | registered hidle hret hm =>
      exact hkeep hm ⟨⟨trivial, trivial⟩, trivial⟩
  | deRegistered hidle hm =>
      exact hkeep hm ⟨⟨trivial, trivial⟩, trivial⟩
  | selected hcounter hm =>
      exact hkeep hm ⟨⟨trivial, trivial⟩, trivial⟩
  | selectError hret hm =>
      exact hkeep hm ⟨⟨trivial, trivial⟩, trivial⟩
  | read hcounter hm =>
      exact hkeep hm ⟨⟨trivial, trivial⟩, trivial⟩
  | readFailed hm =>
      exact hkeep hm ⟨⟨trivial, trivial⟩, trivial⟩
  | server hl hm =>
      obtain ⟨hfew, hin⟩ := few_of_isLocal (s := s.main) hl
      exact hkeep hm ⟨⟨hg.1.1, hfew⟩, hin⟩
  | _ => exact h

/-! ## The two tables -/

/-- The uuids of the entries from `lo` up to, not including, `hi`. -/
def proxyUuids (t : ModuleTable) (lo hi : ℤ) : List Uuid :=
  (t.moduleTable.slice lo hi).map ModuleTableStruct.uuid

def serverUuids (t : UuidTable) : List Uuid :=
  (t.uuidTable.slice 0 t.tableNumEntries).map UuidTableEntry.uuid

/-- The last entry of the proxy that the server has received. -/
def HostState.received (s : HostState) : ℤ :=
  match s.client with
  | .holds i _ => i - 1
  | _ => s.proxy.tableIndex

structure MirrorInv (k : ℤ) (s : HostState) : Prop where
  healthy : Healthy s
  main : MainInv s.main
  log : proxyUuids s.proxy 0 s.proxy.tableNumEntries = s.log
  k_ge : -1 ≤ k
  k_le : k ≤ s.received
  received_lt : s.received < s.proxy.tableNumEntries
  popped : s.main.popped = proxyUuids s.proxy (k + 1) (s.received + 1)
  held : ∀ i uuid, s.client = .holds i uuid →
    i = s.proxy.tableIndex ∧ uuid = (s.proxy.moduleTable.cells i).uuid

/-- A put changes no entry that was there. -/
theorem proxyUuids_appended {t t' : ModuleTable} {mt : ModuleTableStruct}
    (h : Proxy.Appended t t' mt) {lo hi : ℤ} (h0 : 0 ≤ lo) (hle : hi ≤ t.tableNumEntries) :
    proxyUuids t' lo hi = proxyUuids t lo hi :=
  HeapArray.slice_map_congr _ fun i hlo hhi => by rw [h.kept i (by omega) (by omega)]

theorem proxyUuids_succ (t : ModuleTable) {lo hi : ℤ} (h : lo ≤ hi) :
    proxyUuids t lo (hi + 1) = proxyUuids t lo hi ++ [(t.moduleTable.cells hi).uuid] := by
  rw [proxyUuids, HeapArray.slice_succ _ h, List.map_append]
  rfl

theorem received_idle {s : HostState} (h : s.client = .idle) :
    s.received = s.proxy.tableIndex := by
  rw [HostState.received, h]

theorem received_holds {s : HostState} {i : ℤ} {uuid : Uuid} (h : s.client = .holds i uuid) :
    s.received = i - 1 := by
  rw [HostState.received, h]

/-- A step that neither puts, pops nor receives. -/
theorem MirrorInv.other {k : ℤ} {s t : HostState} (h : MirrorInv k s)
    (hhealthy : Healthy t) (hmain : MainInv t.main) (hproxy : t.proxy = s.proxy)
    (hlog : t.log = s.log) (hclient : t.client = s.client)
    (hpopped : t.main.popped = s.main.popped) : MirrorInv k t := by
  have hreceived : t.received = s.received := by
    unfold HostState.received
    rw [hclient, hproxy]
  refine ⟨hhealthy, hmain, ?_, h.k_ge, ?_, ?_, ?_, ?_⟩
  · rw [hproxy, hlog]
    exact h.log
  · rw [hreceived]
    exact h.k_le
  · rw [hreceived, hproxy]
    exact h.received_lt
  · rw [hpopped, hproxy, hreceived]
    exact h.popped
  · rw [hclient, hproxy]
    exact h.held

/-- A put extends the proxy's table and the list of what was put. -/
theorem MirrorInv.put {k : ℤ} {s : HostState} (h : MirrorInv k s) {u : ModuleTable}
    {mt : ModuleTableStruct} (happ : Proxy.Appended s.proxy u mt) (hsound : u.Sound)
    (queued : List ℤ) :
    MirrorInv k { s with proxy := u, queued := queued, log := s.log ++ [mt.uuid] } := by
  have hnonneg := h.healthy.sound.num_nonneg
  have hlt := h.received_lt
  have hreceived : HostState.received
      { s with proxy := u, queued := queued, log := s.log ++ [mt.uuid] } = s.received := by
    unfold HostState.received
    rw [happ.index]
  refine ⟨⟨hsound, happ.allocated, h.healthy.client⟩, h.main, ?_, h.k_ge, ?_, ?_, ?_, ?_⟩
  · show proxyUuids u 0 u.tableNumEntries = s.log ++ [mt.uuid]
    rw [happ.num, proxyUuids_succ u hnonneg, proxyUuids_appended happ (le_refl 0) (le_refl _),
      happ.last, h.log]
  · rw [hreceived]
    exact h.k_le
  · rw [hreceived]
    show s.received < u.tableNumEntries
    rw [happ.num]
    omega
  · rw [hreceived]
    show s.main.popped = proxyUuids u (k + 1) (s.received + 1)
    rw [h.popped, proxyUuids_appended happ (by have := h.k_ge; omega) (by omega)]
  · intro i uuid hclient
    change s.client = .holds i uuid at hclient
    obtain ⟨hi, huuid⟩ := h.held i uuid hclient
    have hindex := h.healthy.sound.index_lt
    have hk := h.k_ge
    have hkle := h.k_le
    rw [received_holds hclient] at hkle
    refine ⟨hi.trans happ.index.symm, ?_⟩
    show uuid = (u.moduleTable.cells i).uuid
    rw [huuid, happ.kept i (by omega) (by omega)]

/-- The pop hands the next entry to the ioctl. -/
theorem MirrorInv.pop {k : ℤ} {s : HostState} (h : MirrorInv k s) (hclient : s.client = .idle)
    (hp : s.proxy.Pending) :
    MirrorInv k { s with
      proxy := { s.proxy with tableIndex := s.proxy.tableIndex + 1 }
      client := .holds (s.proxy.tableIndex + 1)
        (s.proxy.moduleTable.cells (s.proxy.tableIndex + 1)).uuid } := by
  have hsound := tablePop_sound h.healthy.sound
  rw [tablePop_of_pending hp] at hsound
  have hreceived : HostState.received { s with
      proxy := { s.proxy with tableIndex := s.proxy.tableIndex + 1 }
      client := .holds (s.proxy.tableIndex + 1)
        (s.proxy.moduleTable.cells (s.proxy.tableIndex + 1)).uuid } = s.received := by
    rw [received_idle hclient]
    exact add_sub_cancel_right _ _
  refine ⟨⟨hsound, h.healthy.allocated, Or.inr ⟨_, _, rfl⟩⟩, h.main, h.log, h.k_ge, ?_, ?_,
    ?_, ?_⟩
  · rw [hreceived]
    exact h.k_le
  · rw [hreceived]
    exact h.received_lt
  · rw [hreceived]
    exact h.popped
  · rintro i uuid hholds
    injection hholds with hi huuid
    subst hi
    exact ⟨rfl, huuid.symm⟩

/-- The copy hands it to the server. -/
theorem MirrorInv.copied {k : ℤ} {s : HostState} (h : MirrorInv k s) {i : ℤ} {uuid : Uuid}
    (hclient : s.client = .holds i uuid) {m : MainState} (hmain : MainInv m)
    (hpopped : m.popped = s.main.popped ++ [uuid]) :
    MirrorInv k { s with client := .idle, main := m } := by
  obtain ⟨hi, huuid⟩ := h.held i uuid hclient
  have hkle := h.k_le
  have hold := h.popped
  rw [received_holds hclient] at hkle hold
  rw [sub_add_cancel] at hold
  refine ⟨⟨h.healthy.sound, h.healthy.allocated, Or.inl rfl⟩, hmain, h.log, h.k_ge, ?_, ?_, ?_,
    ?_⟩
  · show k ≤ s.proxy.tableIndex
    omega
  · exact h.healthy.sound.index_lt
  · show m.popped = proxyUuids s.proxy (k + 1) (s.proxy.tableIndex + 1)
    rw [hpopped, hold, ← hi, proxyUuids_succ _ (by omega), huuid]
  · rintro j uuid' ⟨⟩

theorem mirrorInv_step (debugOn : Bool) (k : ℤ) (s : HostState) (a : HostLabel)
    (t : HostState) (h : MirrorInv k s) (hg : MirrorInPlaceRuns s a)
    (hs : hostStep debugOn s a = some t) : MirrorInv k t := by
  have hhealthy := healthy_step h.healthy hg.1.1 hs
  have hmain := mainInv_hostStep h.healthy h.main hg hs
  have hsame : ∀ {l : MainLabel} {m : MainState}, mainStep debugOn s.main l = some m →
      receivedUuid l = [] → m.popped = s.main.popped := by
    intro l m hm hnone
    rw [mainStep_popped hm, hnone, List.append_nil]
  cases hostStep_move hs with
  | @put mt krealloc hput =>
      exact h.put (h.healthy.put_succeeds hg.1.1).2 hhealthy.sound _
  | putFailed hput => exact absurd (h.healthy.put_succeeds hg.1.1).1 hput
  | popNone hclient hpop hm =>
      obtain ⟨-, hproxy⟩ := popEntry_noEntry_allocated h.healthy.allocated hpop
      exact h.other hhealthy hmain hproxy rfl rfl (hsame hm rfl)
  | popOops hclient hask hpop => exact absurd hpop (popEntry_ne_oops h.healthy.allocated)
  | @popped env i uuid u hclient hask hpop =>
      obtain ⟨hp, -, rfl, rfl, rfl⟩ := popEntry_entry hpop
      exact h.pop hclient hp
  | @copied env i uuid m hclient hm => exact h.copied hclient hmain (mainStep_popped hm)
  | copyFailed hclient hn => exact absurd hg.1.1.1 hn
  | unpopped hclient hm => exact absurd hclient h.healthy.not_copyFailed
  | registered hidle hret hm => exact h.other hhealthy hmain rfl rfl rfl (hsame hm rfl)
  | deRegistered hidle hm => exact h.other hhealthy hmain rfl rfl rfl (hsame hm rfl)
  | selected hcounter hm => exact h.other hhealthy hmain rfl rfl rfl (hsame hm rfl)
  | selectError hret hm => exact h.other hhealthy hmain rfl rfl rfl (hsame hm rfl)
  | read hcounter hm => exact h.other hhealthy hmain rfl rfl rfl (hsame hm rfl)
  | readFailed hm => exact h.other hhealthy hmain rfl rfl rfl (hsame hm rfl)
  | @server l m hl hm =>
      have hnone : receivedUuid l = [] := by
        cases l with
        | gotEntry => cases hl
        | _ => rfl
      exact h.other hhealthy hmain rfl rfl rfl (hsame hm hnone)
  | _ => exact h.other hhealthy hmain rfl rfl rfl rfl

/-- A step of the host in which `main` does not return from `process_entry`. -/
theorem serving_hostStep {debugOn : Bool} {s t : HostState} {a : HostLabel} {m : ℤ}
    (ha : ∀ l, a ≠ .server l) (hhealthy : Healthy s) (hmain : MainInv s.main)
    (h : Serving m s.main.table s.main.pc) (hg : MirrorInPlaceRuns s a)
    (hs : hostStep debugOn s a = some t) : Serving m t.main.table t.main.pc := by
  have hkeep : ∀ {l : MainLabel} {u : MainState}, mainStep debugOn s.main l = some u →
      l ≠ .processReturn → InPlaceRuns s.main l → Serving m u.table u.pc :=
    fun hu hl hruns => serving_same hl hmain h hruns hu
  cases hostStep_move hs with
  | @popNone env u m' hclient hpop hm =>
      rw [gotEntry_zero debugOn s.main env entryEnv] at hm
      refine hkeep hm (by rintro ⟨⟩) ⟨⟨⟨rfl, ?_⟩, fun hret => ?_⟩, fun _ => ⟨_, rfl⟩⟩
      · exact fun _ _ hfailed => by cases hfailed
      · cases hret
  | copied hclient hm => exact hkeep hm (by rintro ⟨⟩) ⟨⟨hg.1.1.2, fun _ => hg.1.2⟩, hg.2⟩
  | unpopped hclient hm => exact absurd hclient hhealthy.not_copyFailed
  | registered hidle hret hm => exact hkeep hm (by rintro ⟨⟩) ⟨⟨trivial, trivial⟩, trivial⟩
  | deRegistered hidle hm => exact hkeep hm (by rintro ⟨⟩) ⟨⟨trivial, trivial⟩, trivial⟩
  | selected hcounter hm => exact hkeep hm (by rintro ⟨⟩) ⟨⟨trivial, trivial⟩, trivial⟩
  | selectError hret hm => exact hkeep hm (by rintro ⟨⟩) ⟨⟨trivial, trivial⟩, trivial⟩
  | read hcounter hm => exact hkeep hm (by rintro ⟨⟩) ⟨⟨trivial, trivial⟩, trivial⟩
  | readFailed hm => exact hkeep hm (by rintro ⟨⟩) ⟨⟨trivial, trivial⟩, trivial⟩
  | @server l u hl hm => exact absurd rfl (ha l)
  | _ => exact h

/-! ## The server's table mirrors the proxy's -/

/-- The server holds what the cursor has passed since it stood at `k`, and what is
behind the cursor is what it has not received, in the order it was put. -/
structure Mirrors (k : ℤ) (s : HostState) : Prop where
  received : serverUuids s.main.table =
    proxyUuids s.proxy (k + 1) (s.proxy.tableIndex + 1)
  waiting : s.log.drop (k + 1).toNat = serverUuids s.main.table ++
    proxyUuids s.proxy (s.proxy.tableIndex + 1) s.proxy.tableNumEntries

/-- The tables are compared between two calls of `get_new_entry`, while the server's
exists. -/
def Mirrored (k : ℤ) (s : HostState) : Prop :=
  s.client = .idle → s.main.pc.usesTable = true → Mirrors k s

theorem proxyUuids_append (t : ModuleTable) {lo mid hi : ℤ} (h : lo ≤ mid) (h' : mid ≤ hi) :
    proxyUuids t lo hi = proxyUuids t lo mid ++ proxyUuids t mid hi := by
  rw [proxyUuids, HeapArray.slice_append _ h h', List.map_append]
  rfl

theorem init_mirrorInv (proxy : UsableTable) (efd : FilePtr) (mem : ℤ → UuidTableEntry) :
    MirrorInv proxy.table.tableIndex (HostState.init proxy.table efd mem) where
  healthy := ⟨proxy.sound, proxy.allocated, Or.inl rfl⟩
  main := init_mainInv mem
  log := rfl
  k_ge := proxy.sound.index_ge
  k_le := le_refl _
  received_lt := proxy.sound.index_lt
  popped := by
    show [] = proxyUuids proxy.table _ (proxy.table.tableIndex + 1)
    rw [proxyUuids, HeapArray.slice_eq_nil _ (le_refl _), List.map_nil]
  held := fun _ _ hclient => by cases hclient

theorem MirrorInv.mirrored {k : ℤ} {s : HostState} (h : MirrorInv k s) : Mirrored k s := by
  intro hidle hpc
  obtain ⟨hholds, -⟩ := h.main.atPc.holds_around hpc
  have hge := h.k_ge
  have hle := h.k_le
  have hpopped := h.popped
  have hlt := h.healthy.sound.index_lt
  rw [received_idle hidle] at hle hpopped
  have hreceived : serverUuids s.main.table =
      proxyUuids s.proxy (k + 1) (s.proxy.tableIndex + 1) := hholds.uuids.trans hpopped
  refine ⟨hreceived, ?_⟩
  have hlength : (proxyUuids s.proxy 0 (k + 1)).length = (k + 1).toNat := by
    rw [proxyUuids, List.length_map, HeapArray.length_slice, sub_zero]
  calc s.log.drop (k + 1).toNat
      = (proxyUuids s.proxy 0 (k + 1) ++
          proxyUuids s.proxy (k + 1) s.proxy.tableNumEntries).drop (k + 1).toNat := by
        rw [← h.log, proxyUuids_append s.proxy (by omega : 0 ≤ k + 1) (by omega)]
    _ = proxyUuids s.proxy (k + 1) s.proxy.tableNumEntries := by
        rw [← hlength, List.drop_left]
    _ = serverUuids s.main.table ++
          proxyUuids s.proxy (s.proxy.tableIndex + 1) s.proxy.tableNumEntries := by
        rw [proxyUuids_append s.proxy (by omega : k + 1 ≤ s.proxy.tableIndex + 1) (by omega),
          hreceived]

/-- **The mirror holds** in every run in which nothing fails, fewer than 2^22 modules are
received and every growth of the server's table stays in place. -/
theorem mirrored_of_inPlace (debugOn : Bool) (proxy : UsableTable) (efd : FilePtr)
    (mem : ℤ → UuidTableEntry) (s : HostState)
    (h : Via (hostStep debugOn) MirrorInPlaceRuns (HostState.init proxy.table efd mem) s) :
    Mirrored proxy.table.tableIndex s :=
  (h.invariant (MirrorInv _) (init_mirrorInv proxy efd mem)
    fun u a v => mirrorInv_step debugOn _ u a v).mirrored

/-! ### A module that is put and received -/

/-- With nothing left to drain, one more module is put, popped and received. -/
theorem via_receive (debugOn : Bool) (G : HostState → HostLabel → Prop) {s : HostState}
    (env : NewEntryEnv) (hpc : s.main.pc = .drain) (hclient : s.client = .idle)
    (hhealthy : Healthy s) (hend : ¬ s.proxy.Pending)
    (hput : ∀ u, G u (.put default (some fun _ => default)))
    (hpop : ∀ u, G u (.ioctlPop env)) (hcopy : ∀ u, u.main = s.main → G u (.ioctlCopy 0 env)) :
    ∃ t uuid, Via (hostStep debugOn) G s t ∧
      t.main = (s.main.received 1 uuid env).drained ∧ t.client = .idle ∧
      ¬ t.proxy.Pending := by
  obtain ⟨hret, happ⟩ := @tablePut_succeeds s.proxy hhealthy.sound hhealthy.allocated
    default (some fun _ => default) fun _ => rfl
  have hlt := hhealthy.sound.index_lt
  have hnum := happ.num
  have hindex := happ.index
  unfold ModuleTable.Pending at hend
  let u := (Proxy.tablePut s.proxy default (some fun _ => default)).2
  have hpending : u.Pending := by
    show u.tableIndex + 1 ≤ u.tableNumEntries - 1
    rw [hnum, hindex]
    omega
  let s₁ : HostState := { s with
    proxy := u
    queued := s.proxy.tableNumEntries :: s.queued
    log := s.log ++ [(default : ModuleTableStruct).uuid] }
  have h₁ : hostStep debugOn s (.put default (some fun _ => default)) = some s₁ := if_pos hret
  let uuid := (u.moduleTable.cells (u.tableIndex + 1)).uuid
  let s₂ : HostState := { s₁ with
    proxy := { u with tableIndex := u.tableIndex + 1 }
    client := .holds (u.tableIndex + 1) uuid }
  have h₂ : hostStep debugOn s₁ (.ioctlPop env) = some s₂ := by
    simp only [hostStep, s₁, hclient, hpc, asksEntry, popEntry_pending hpending happ.allocated,
      s₂, uuid]
  have h₃ : hostStep debugOn s₂ (.ioctlCopy 0 env) = some { s₂ with
      client := .idle, main := (s.main.received 1 uuid env).drained } := by
    show serverStep debugOn { s₂ with client := .idle } (.gotEntry 1 uuid env) = _
    simp only [serverStep, s₂, s₁, mainStep, hpc, Option.map_some]
  refine ⟨_, uuid, ((Via.refl.snoc (hput s) h₁).snoc (hpop s₁) h₂).snoc (hcopy s₂ rfl) h₃,
    rfl, rfl, ?_⟩
  show ¬ u.tableIndex + 1 + 1 ≤ u.tableNumEntries - 1
  rw [hnum, hindex]
  omega

theorem hostBoot_inPlace (s : HostState) :
    StepsMeet (hostStep true) MirrorInPlaceRuns s hostBoot := by
  apply stepsMeet_of_forall
  simp [hostBoot, MirrorInPlaceRuns, MirrorRuns, AllSucceeds, AllocationsSucceed, ReceivesFew,
    ServerInPlace, Except.isOk, Except.toBool]

/-- Up to 256 modules are received without growing the server's table. -/
theorem host_fills_table (n : ℕ) (hn : n ≤ 256) :
    ∃ s, Via (hostStep true) MirrorInPlaceRuns hostStart s ∧ s.main.pc = .drain ∧
      s.client = .idle ∧ ¬ s.proxy.Pending ∧ s.main.popped.length = n ∧
      s.main.table.uuidTableSize = 256 := by
  induction n with
  | zero =>
      have hrun : exec (hostStep true) hostStart hostBoot = some _ := rfl
      exact ⟨_, via_of_stepsMeet hrun (hostBoot_inPlace _), rfl, rfl, by decide, rfl, rfl⟩
  | succ n ih =>
      obtain ⟨s, hvia, hpc, hclient, hend, hpopped, hsize⟩ := ih (by omega)
      have hinv := hvia.invariant (MirrorInv _) (init_mirrorInv (UsableTable.fresh _ _) 1 _)
        fun u a v => mirrorInv_step true _ u a v
      have hat := hinv.main.atPc
      rw [hpc] at hat
      have hnum := hat.1.num_eq
      obtain ⟨t, uuid, ht, hmain, hidle, hend'⟩ :=
        via_receive true MirrorInPlaceRuns entryEnv hpc hclient
          hinv.healthy hend (fun _ => ⟨⟨fun _ => rfl, trivial⟩, trivial⟩)
          (fun _ => ⟨⟨trivial, trivial⟩, trivial⟩) fun u hu =>
            ⟨⟨⟨rfl, rfl, entryEnv_granted _⟩, by show u.main.popped.length + 1 < _; rw [hu]; omega⟩,
              fun _ => ⟨_, rfl⟩⟩
      have hget := getNewEntry_room hat.1.exact_table.allocated (by omega) uuid
      have hret : (s.main.received 1 uuid entryEnv).retVal = 1 := congrArg Prod.fst hget
      rw [MainState.drained, if_pos (by omega)] at hmain
      refine ⟨t, hvia.trans ht, by rw [hmain]; exact hpc, hidle, hend', ?_, ?_⟩
      · rw [hmain]
        show (s.main.popped ++ [uuid]).length = n + 1
        rw [List.length_append, hpopped]
        rfl
      · rw [hmain]
        show (getNewEntry s.main.table 1 uuid entryEnv).2.uuidTableSize = 256
        rw [hget]
        exact hsize

/-- A module that is put, popped and copied is in both tables. -/
theorem received_module_is_mirrored :
    ∃ s, s.client = .idle ∧ s.main.pc = .drain ∧ s.main.popped.length = 1 ∧
      Mirrored (-1) s := by
  obtain ⟨s, hvia, hpc, hclient, -, hpopped, -⟩ := host_fills_table 1 (by omega)
  exact ⟨s, hclient, hpc, hpopped,
    mirrored_of_inPlace true (UsableTable.fresh _ _) 1 (fun _ => default) s hvia⟩

/-- The 257th module: `realloc` moves the block; then its old place is written by its
new owner, and the first uuid is another one. -/
theorem moved_table_breaks_mirror :
    ¬ ∀ (debugOn : Bool) (proxy : UsableTable) (efd : FilePtr) (mem : ℤ → UuidTableEntry)
      (s : HostState),
      Via (hostStep debugOn) MirrorRuns (HostState.init proxy.table efd mem) s →
        Mirrored proxy.table.tableIndex s := by
  intro hall
  obtain ⟨s, hvia, hpc, hclient, hend, hpopped, hsize⟩ := host_fills_table 256 (le_refl 256)
  have hinv := hvia.invariant (MirrorInv _) (init_mirrorInv (UsableTable.fresh _ _) 1 _)
    fun u a v => mirrorInv_step true _ u a v
  have hat := hinv.main.atPc
  rw [hpc] at hat
  have hnum := hat.1.num_eq
  obtain ⟨t, uuid, ht, hmain, hidle, -⟩ :=
    via_receive true MirrorRuns movedEnv hpc hclient
      hinv.healthy hend (fun _ => ⟨fun _ => rfl, trivial⟩)
      (fun _ => ⟨trivial, trivial⟩) fun u hu =>
        ⟨⟨rfl, rfl, fun _ _ h => by cases h⟩, by
          show u.main.popped.length + 1 < _; rw [hu]; omega⟩
  have hget := getNewEntry_moved hat.1.exact_table.allocated (by omega) uuid
  have hret : (s.main.received 1 uuid movedEnv).retVal = 1 := congrArg Prod.fst hget
  rw [MainState.drained, if_pos (by omega)] at hmain
  have htable : t.main.table = (getNewEntry s.main.table 1 uuid movedEnv).2 := by
    rw [hmain]
    rfl
  rw [hget] at htable
  have hfreed : t.main.table.uuidTable.live = false := by rw [htable]; rfl
  have hlong : 0 < t.main.table.tableNumEntries := by
    rw [htable]
    show 0 < s.main.table.tableNumEntries + 1
    omega
  have hdrain : t.main.pc = .drain := by rw [hmain]; exact hpc
  -- the new owner of the block writes another uuid where the first entry was
  let other := (t.proxy.moduleTable.cells 0).uuid + 1
  let mem : ℤ → UuidTableEntry := fun _ => ⟨other, 0, 0, default, false, false⟩
  have hscribble : hostStep true t (.server (.scribble mem)) = some { t with
      main := { t.main with
        table := { t.main.table with
          uuidTable := t.main.table.uuidTable.disturb mem } } } := by
    show serverStep true t (.scribble mem) = _
    rw [serverStep, mainStep_scribble true hdrain]
    rfl
  have hruns : MirrorRuns t (.server (.scribble mem)) := ⟨trivial, trivial⟩
  have hmirror := (hall true (UsableTable.fresh _ _) 1 _ _
    (((hvia.mono fun _ _ hg => hg.1).trans ht).snoc hruns hscribble) hidle
    (by show t.main.pc.usesTable = true; rw [hdrain]; rfl)).received
  have hfirst : (t.main.table.uuidTable.disturb mem).cells 0 = mem 0 :=
    HeapArray.disturb_cells_freed _ mem 0 hfreed
  change ((t.main.table.uuidTable.disturb mem).slice 0 t.main.table.tableNumEntries).map
    UuidTableEntry.uuid = (t.proxy.moduleTable.slice 0 (t.proxy.tableIndex + 1)).map
      ModuleTableStruct.uuid at hmirror
  rw [HeapArray.slice_cons _ hlong, List.map_cons, hfirst] at hmirror
  by_cases hle : t.proxy.tableIndex + 1 ≤ 0
  · rw [HeapArray.slice_eq_nil _ hle] at hmirror
    cases hmirror
  · rw [HeapArray.slice_cons t.proxy.moduleTable (by omega), List.map_cons] at hmirror
    have hsame : other = (t.proxy.moduleTable.cells 0).uuid := (List.cons.inj hmirror).1
    simp [other] at hsame

end LxcUio.System
