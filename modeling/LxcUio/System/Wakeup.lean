import LxcUio.System.Host

/-!
# Wake-ups, lost and spurious

The event loop takes one entry for each time `select` returns, and then clears the
counter. Two invariants relate the counter, the cursor and the puts on their way:

- `WakeInv`: what is pending is announced, or will be. It is lost when the counter is
  cleared while a second entry is pending and no put is on its way.
- `SignalInv`: what is announced is pending. It is lost when a put is announced whose
  entry the drain has consumed.
-/

namespace LxcUio.System

open LxcUio.Foundation LxcUio.Proxy LxcUio.Server

/-- A put is between its `table_put` and the end of its `send_event`. -/
def HostState.InFlight (s : HostState) : Prop := s.queued ≠ [] ∨ s.sender ≠ .idle

/-! ## No lost wake-up -/

/-- If the server waits and no put is on its way, what is pending is announced. -/
def NoLostWakeup (s : HostState) : Prop :=
  s.main.pc = .select → ¬ s.InFlight → s.proxy.Pending → 0 < s.counter

/-- `table_pop` and `table_peek` return NULL only when nothing is pending: the table
was not lost in front of its first entry. -/
def HandsOut (t : ModuleTable) : Prop := t.Pending → t.address (t.tableIndex + 1) ≠ none

/-- The guard: the eventfd is not read while an entry is pending and no put is on its
way. -/
def WakeGuard (s : HostState) : HostLabel → Prop
  | .ioctlPop _ => HandsOut s.proxy
  | .sendPeek => HandsOut s.proxy
  | .readEventfd true => s.proxy.Pending → s.InFlight
  | _ => True

/-- The proxy knows the server's eventfd. -/
def Registered (s : HostState) : Prop := ∃ server, s.ks = some server ∧ server.fp = s.efd

/-- What is pending is announced, or will be. -/
def Covered (s : HostState) : Prop := s.proxy.Pending → 0 < s.counter ∨ s.InFlight

def WakeAt (s : HostState) : Phase → Prop
  | .boot => True
  | .setup => Registered s
  | .drain => Registered s
  | .work => Registered s ∧ Covered s
  | .getNew => Registered s ∧ Covered s
  | .read => Registered s ∧ Covered s
  | .ended => True

structure WakeInv (s : HostState) : Prop where
  atPhase : WakeAt s (phase s.main.pc)
  failed : FailedNegative s

theorem WakeAt.localMove {s : HostState} {p q : Phase} (h : WakeAt s p)
    (hmove : LocalMove p q) : WakeAt s q := by
  cases hmove with
  | stay => exact h
  | drain => exact h
  | leave => trivial

/-- A step of a put leaves the registration alone and keeps what is pending covered. -/
theorem WakeAt.send {s t : HostState} {p : Phase} (h : WakeAt s p) (hks : t.ks = s.ks)
    (hefd : t.efd = s.efd) (hcov : Registered s → Covered s → Covered t) : WakeAt t p := by
  have hreg : Registered s → Registered t := by
    rintro ⟨server, hserver, hfp⟩
    exact ⟨server, hks.trans hserver, hfp.trans hefd.symm⟩
  cases p with
  | boot => trivial
  | setup => exact hreg h
  | drain => exact hreg h
  | work => exact ⟨hreg h.1, hcov h.1 h.2⟩
  | getNew => exact ⟨hreg h.1, hcov h.1 h.2⟩
  | read => exact ⟨hreg h.1, hcov h.1 h.2⟩
  | ended => trivial

/-- A put that failed leaves nothing new pending. -/
theorem tablePut_failed {t : ModuleTable} {mt : ModuleTableStruct}
    {krealloc : Option (ℤ → ModuleTableStruct)} (h : (tablePut t mt krealloc).1 ≠ 0) :
    (tablePut t mt krealloc).2.Pending ↔ t.Pending := by
  unfold Proxy.tablePut at h ⊢
  split
  · rfl
  · split
    · rfl
    · split
      · cases krealloc with
        | none => rfl
        | some mem => simp_all
      · simp_all

theorem tablePeek_none {t : ModuleTable} (h : HandsOut t) (hpeek : tablePeek t = none) :
    ¬ t.Pending := by
  intro hp
  rw [tablePeek, if_pos hp] at hpeek
  exact h hp hpeek

theorem register_ok {ks ks' : Option KvmHostServer} {pid fd ret : ℤ}
    {kmalloc : Option FilePtr} {efd : FilePtr}
    (hret : kvmHostServerRegister ks pid fd kmalloc (fun _ => some efd) = (ret, ks'))
    (h : 0 ≤ libcReturn ret) : ks' = some ⟨pid, efd⟩ := by
  unfold kvmHostServerRegister at hret
  split at hret
  · obtain ⟨rfl, -⟩ := Prod.mk.inj hret
    exact absurd h (by decide)
  · dsimp only at hret
    split at hret
    · obtain ⟨rfl, -⟩ := Prod.mk.inj hret
      exact absurd h (by decide)
    · exact (Prod.mk.inj hret).2.symm

/-- The pop of an entry leaves less pending. -/
theorem Covered.popped {s : HostState} (h : Covered s) (client : ClientPhase) :
    Covered { s with
      proxy := { s.proxy with tableIndex := s.proxy.tableIndex + 1 }
      client := client } := by
  intro hp
  apply h
  have : s.proxy.tableIndex + 1 + 1 ≤ s.proxy.tableNumEntries - 1 := hp
  unfold ModuleTable.Pending
  omega

/-- What the drain or the event loop does with an answer of `get_new_entry`. When the
drain ends, nothing is pending. -/
theorem WakeAt.gotEntry {debugOn : Bool} {s : HostState} {p q : MainState} {ret : ℤ}
    {uuid : Uuid} {env : NewEntryEnv} (h : WakeAt s (phase p.pc))
    (hm : mainStep debugOn p (.gotEntry ret uuid env) = some q)
    (hcov : ret = 0 → Covered s) : WakeAt s (phase q.pc) := by
  rcases gotEntry_step hm with ⟨hd, -, hto⟩ | ⟨hn, hto⟩
  · rw [hd] at h
    rcases hto with ⟨hto, -⟩ | hto | ⟨hto, hret⟩ <;> rw [hto]
    · exact h
    · trivial
    · exact ⟨h, hcov hret⟩
  · rw [hn] at h
    rcases hto with hto | hto <;> rw [hto]
    · exact h
    · trivial

/-- `select` changes nothing that `WakeAt` speaks about. -/
theorem WakeAt.selected {debugOn : Bool} {s : HostState} {p q : MainState} {ret : ℤ}
    {readable : Bool} (h : WakeAt s (phase p.pc))
    (hm : mainStep debugOn p (.selected ret readable) = some q) : WakeAt s (phase q.pc) := by
  obtain ⟨hpc, -, hto⟩ := selected_step hm
  rw [hpc] at h
  rcases hto with ⟨hto, -⟩ | ⟨hto, -⟩ | ⟨hto, -⟩ <;> rw [hto]
  · trivial
  · exact h
  · exact h

theorem wakeInv_step (debugOn : Bool) (s : HostState) (a : HostLabel) (t : HostState)
    (h : WakeInv s) (hg : WakeGuard s a) (hs : hostStep debugOn s a = some t) :
    WakeInv t := by
  refine ⟨?_, failedNegative_step h.failed hs⟩
  have hfailed := h.failed
  replace h := h.atPhase
  cases hostStep_move hs with
  | put => exact h.send rfl rfl fun _ _ _ => Or.inr (Or.inl (List.cons_ne_nil _ _))
  | putFailed hput => exact h.send rfl rfl fun _ hcov hp => hcov ((tablePut_failed hput).mp hp)
  | notRegistered hidle hks hi =>
      refine h.send rfl rfl ?_
      rintro ⟨server, hserver, -⟩
      rw [hks] at hserver
      cases hserver
  | locked => exact h.send rfl rfl fun _ _ _ => Or.inr (Or.inr (by simp))
  | peekedNone hsender hpeek =>
      exact h.send rfl rfl fun _ _ hp => absurd hp (tablePeek_none hg hpeek)
  | peeked => exact h.send rfl rfl fun _ _ _ => Or.inr (Or.inr (by simp))
  | signalled => exact h.send rfl rfl fun _ _ _ => Or.inl (Nat.succ_pos _)
  | @signalledOther i server hsender hks hfp =>
      refine h.send rfl rfl ?_
      rintro ⟨server', hserver, hfp'⟩
      obtain rfl := Option.some.inj (hks.symm.trans hserver)
      exact absurd hfp' hfp
  | @popNone env u m hclient hpop hm =>
      have hnone : ¬ s.proxy.Pending ∧ u = s.proxy := by
        rcases popEntry_noEntry hpop with hnone | ⟨hp, haddr⟩
        · exact hnone
        · exact absurd haddr (hg hp)
      obtain ⟨hnp, rfl⟩ := hnone
      exact WakeAt.gotEntry (s := s) h hm fun _ hp => absurd hp hnp
  | @popOops env u hclient hask hpop =>
      have hpopped := popEntry_snd_eq_tablePop s.proxy
      rw [hpop] at hpopped
      obtain rfl : u = (tablePop s.proxy).2 := hpopped
      refine h.send rfl rfl fun _ hcov => ?_
      by_cases hp : s.proxy.Pending
      · rw [tablePop_of_pending hp]
        exact hcov.popped .oopsed
      · rw [tablePop_of_not_pending hp]
        exact hcov
  | popped hclient hask hpop =>
      obtain ⟨-, -, -, -, rfl⟩ := popEntry_entry hpop
      exact h.send rfl rfl fun _ hcov => hcov.popped _
  | copied hclient hm => exact WakeAt.gotEntry (s := s) h hm fun hret => by cases hret
  | copyFailed => exact h
  | unpopped hclient hm =>
      rw [gotEntry_error (libcReturn_neg (hfailed _ _ hclient)) hm]
      trivial
  | @registered pid fd kmalloc ret ks m hidle hret hm =>
      obtain ⟨-, -, hto⟩ := registered_step hm
      rcases hto with hto | ⟨hto, hnonneg⟩ <;> rw [hto]
      · trivial
      · exact ⟨_, register_ok hret hnonneg, rfl⟩
  | deRegistered hidle hm =>
      rw [(deregistered_step hm).2]
      trivial
  | selected hcounter hm => exact WakeAt.selected (s := s) h hm
  | selectError hret hm => exact WakeAt.selected (s := s) h hm
  | read hcounter hm =>
      obtain ⟨hphase, -, hto⟩ := eventfdRead_step hm
      rw [hphase] at h
      rcases hto with hto | ⟨hto, -⟩ <;> rw [hto]
      · trivial
      · exact ⟨h.1, fun hp => Or.inr (hg hp)⟩
  | readFailed hm =>
      obtain ⟨hphase, -, hto⟩ := eventfdRead_step hm
      rcases hto with hto | ⟨hto, hret⟩ <;> rw [hto]
      · trivial
      · cases hret
  | server hl hm => exact h.localMove (local_step hl hm).1

/-- **No wake-up is lost** in a run that keeps to the guard, from any proxy table, with
any outcome of the puts, of the copies and of the server's own calls. -/
theorem noLostWakeup_of_guarded (debugOn : Bool) (proxy : ModuleTable) (efd : FilePtr)
    (mem : ℤ → UuidTableEntry) (s : HostState)
    (h : Via (hostStep debugOn) WakeGuard (HostState.init proxy efd mem) s) :
    NoLostWakeup s := by
  have hinv : WakeInv s := h.invariant WakeInv ⟨trivial, fun _ _ hc => by cases hc⟩
    (wakeInv_step debugOn)
  intro hpc hidle hp
  have hat := hinv.atPhase
  rw [hpc] at hat
  exact (hat.2 hp).resolve_right hidle

/-! ### Two puts before one read -/

theorem handsOut_of_allocated {t : ModuleTable} (hnull : t.moduleTable.isNull = false) :
    HandsOut t := by
  intro _
  rw [address_of_allocated hnull]
  exact Option.some_ne_none _

/-- A call of `process_entry` that returns, from the call to `main`. -/
theorem via_call {debugOn : Bool} {G : HostState → HostLabel → Prop} {s : HostState}
    {site : Site} {env : ProcessEnv} {ret : ℤ} (hpc : s.main.pc = .process site)
    (hfits : CountFits s.main.table)
    (hval : (runProcessEntry debugOn env s.main.table).value = .returned ret)
    (hcall : G s (.server (.callProcess env))) (hstep : ∀ t, G t (.server .processStep))
    (hreturn : ∀ t, G t (.server .processReturn)) :
    ∃ u, CallDoes env s.main.table (.returned ret) u ∧ Via (hostStep debugOn) G s { s with
      main := { s.main with
        pc := .inProcess site [] (.returned ret), table := u }.processed site ret } := by
  have hsteps : ∀ (todo : List UuidTable) (u : UuidTable), Via (hostStep debugOn) G
      { s with main := { s.main with pc := .inProcess site todo (.returned ret), table := u } }
      { s with main := { s.main with
          pc := .inProcess site [] (.returned ret), table := todo.getLastD u } } := by
    intro todo
    induction todo with
    | nil => exact fun _ => Via.refl
    | cons v todo ih =>
        intro u
        rw [List.getLastD_cons]
        exact (Via.refl.snoc (hstep _) rfl).trans (ih v)
  let todo := (runProcessEntry debugOn env s.main.table).visited.map ProcState.table
  have hdoes := (runProcessEntry_does debugOn env hfits).2
  have hentered : hostStep debugOn s (.server (.callProcess env)) = some { s with
      main := { s.main with pc := .inProcess site todo (.returned ret) } } := by
    show serverStep debugOn s (.callProcess env) = _
    simp only [serverStep, mainStep, hpc, hval, Option.map_some, todo]
  rw [hval] at hdoes
  exact ⟨todo.getLastD s.main.table, hdoes,
    ((Via.refl.snoc hcall hentered).trans (hsteps todo s.main.table)).snoc (hreturn _) rfl⟩

/-- Nothing to drain and nothing to process: the server waits. -/
def hostIdle : List HostLabel :=
  [.ioctlPop entryEnv, .server (.callProcess okEnv), .server .processReturn]

/-- A put that runs to its end while the server is registered. -/
def putAnnounced (i : ℤ) : List HostLabel :=
  [.put default (some fun _ => default), .sendLock i, .sendPeek, .sendSignal]

/-- One turn of the event loop up to `process_entry`. -/
def eventTurn : List HostLabel :=
  [.selectReady, .ioctlPop entryEnv, .ioctlCopy 0 entryEnv, .readEventfd true]

/-- One module is put while the server waits, and is announced. -/
theorem one_put_is_announced :
    ∃ s, exec (hostStep true) hostStart (hostBoot ++ hostIdle ++ putAnnounced 0) = some s ∧
      s.main.pc = .select ∧ s.proxy.Pending ∧ NoLostWakeup s := by
  have hrun : exec (hostStep true) hostStart (hostBoot ++ hostIdle ++ putAnnounced 0) =
      some _ := rfl
  refine ⟨_, hrun, rfl, by decide, ?_⟩
  refine noLostWakeup_of_guarded true _ 1 (fun _ => default) _ (via_of_stepsMeet hrun ?_)
  iterate 7
    refine fun _ h => ⟨trivial, ?_⟩
    obtain rfl := Option.some.inj h
  refine fun _ h => ⟨handsOut_of_allocated rfl, ?_⟩
  obtain rfl := Option.some.inj h
  iterate 4
    refine fun _ h => ⟨trivial, ?_⟩
    obtain rfl := Option.some.inj h
  refine fun _ h => ⟨handsOut_of_allocated rfl, ?_⟩
  obtain rfl := Option.some.inj h
  exact fun _ _ => ⟨trivial, trivial⟩

/-- Two modules are put before the server reads its eventfd: it takes the first one and
then waits, with the second one pending and nothing left to wake it. -/
theorem two_puts_lose_wakeup :
    ¬ ∀ (debugOn : Bool) (proxy : ModuleTable) (efd : FilePtr) (mem : ℤ → UuidTableEntry)
      (s : HostState), Via (hostStep debugOn) anyStep (HostState.init proxy efd mem) s →
        NoLostWakeup s := by
  intro hall
  obtain ⟨s, hrun, hpc, hnum, hregions, hp, hc, hcounter, hqueued, hsender, hpending⟩ :
      ∃ s, exec (hostStep true) hostStart
          (hostBoot ++ hostIdle ++ putAnnounced 0 ++ putAnnounced 1 ++ eventTurn) = some s ∧
        s.main.pc = .process .event ∧ s.main.table.tableNumEntries = 1 ∧
        (s.main.table.entry 0).memory.numRegions = 0 ∧
        (s.main.table.entry 0).processed = false ∧
        (s.main.table.entry 0).couldNotProcess = false ∧
        s.counter = 0 ∧ s.queued = [] ∧ s.sender = .idle ∧ s.proxy.Pending :=
    ⟨_, rfl, rfl, rfl, rfl, rfl, rfl, rfl, rfl, rfl, by decide⟩
  obtain ⟨u, -, hu⟩ := via_call (G := anyStep) hpc ⟨by omega, by omega⟩
    (okEnv_returns_one true hnum hregions hp hc) trivial (fun _ => trivial) fun _ => trivial
  have hwoken := hall true _ _ _ _ ((via_of_exec hrun).trans hu) rfl
    (by rintro (h | h); exacts [h hqueued, h hsender]) hpending
  change 0 < s.counter at hwoken
  omega

/-! ## No spurious shutdown -/

/-- `main` did not leave because `get_new_entry` had no entry for it, and an entry is
there when it is about to ask for one. -/
structure NoSpuriousShutdown (s : HostState) : Prop where
  stop : ∀ stop, s.main.stop = some stop → ¬ noEntryBranch stop
  pending : s.main.pc = .getNew → s.client = .idle → s.proxy.Pending

/-- The guard: no put is announced whose entry the drain has consumed, or will. -/
def AnnouncesFresh (s : HostState) : HostLabel → Prop
  | .sendSignal => ∀ i, s.sender = .peeked i → ∃ e, s.drained = some e ∧ e < i
  | _ => True

/-- The runs in which nothing fails and only what the drain left is announced. -/
def FreshRuns (s : HostState) (a : HostLabel) : Prop := AllSucceeds s a ∧ AnnouncesFresh s a

/-- The entry of the put that holds `ks_mutex`. -/
def Sender.entry : Sender → Option ℤ
  | .idle => none
  | .locked i => some i
  | .peeked i => some i

/-- How many puts on their way have their entry behind `e`. -/
def HostState.fresh (s : HostState) (e : ℤ) : ℕ :=
  s.queued.countP (fun i => e < i) + s.sender.entry.toList.countP (fun i => e < i)

/-- The number of entries behind the cursor. -/
def HostState.behind (s : HostState) : ℤ := s.proxy.tableNumEntries - 1 - s.proxy.tableIndex

/-- The entry that the server has popped but not received yet. -/
def window : ClientPhase → ℤ
  | .idle => 0
  | _ => 1

/-- Nothing was announced yet. -/
def Silent (s : HostState) : Prop := s.counter = 0 ∧ s.drained = none

/-- Announcements, made and on their way, are matched by pending entries and `w` more. -/
def Balanced (w : ℤ) (s : HostState) : Prop :=
  ∃ e, s.drained = some e ∧ e ≤ s.proxy.tableIndex ∧
    (s.counter : ℤ) + s.fresh e ≤ s.behind + w

def SignalAt (s : HostState) : Phase → Prop
  | .boot => Silent s
  | .setup => Silent s
  | .drain => Silent s
  | .work => Balanced 0 s
  | .getNew => 0 < s.counter ∧ Balanced (window s.client) s
  | .read => 0 < s.counter ∧ Balanced 1 s
  | .ended => True

/-- The puts on their way have their entries in the table. -/
def EntriesPut (s : HostState) : Prop :=
  ∀ i, i ∈ s.queued ∨ s.sender.entry = some i → i < s.proxy.tableNumEntries

theorem SignalAt.localMove {s : HostState} {p q : Phase} (h : SignalAt s p)
    (hmove : LocalMove p q) : SignalAt s q := by
  cases hmove with
  | stay => exact h
  | drain => exact h
  | leave => trivial

/-- A step of a put. -/
theorem SignalAt.send {s t : HostState} {p : Phase} (h : SignalAt s p)
    (hclient : t.client = s.client) (hdrained : t.drained = s.drained)
    (hindex : t.proxy.tableIndex = s.proxy.tableIndex) (hcounter : s.counter ≤ t.counter)
    (hsilent : s.drained = none → t.counter = s.counter)
    (hbalance : ∀ e, s.drained = some e → e ≤ s.proxy.tableIndex →
      (t.counter : ℤ) + t.fresh e - t.behind ≤ s.counter + s.fresh e - s.behind) :
    SignalAt t p := by
  have hs : Silent s → Silent t := by
    rintro ⟨hzero, hnone⟩
    exact ⟨(hsilent hnone).trans hzero, hdrained.trans hnone⟩
  have hb : ∀ w, Balanced w s → Balanced w t := by
    rintro w ⟨e, he, hle, hsum⟩
    have := hbalance e he hle
    exact ⟨e, hdrained.trans he, hindex ▸ hle, by omega⟩
  cases p with
  | boot => exact hs h
  | setup => exact hs h
  | drain => exact hs h
  | work => exact hb 0 h
  | getNew => exact ⟨lt_of_lt_of_le h.1 hcounter, hclient ▸ hb _ h.2⟩
  | read => exact ⟨lt_of_lt_of_le h.1 hcounter, hb 1 h.2⟩
  | ended => trivial

/-- Taking a put out of the queue takes its entry out of the count. -/
theorem countP_queued {queued : List ℤ} {i e : ℤ} (hi : i ∈ queued) :
    queued.countP (fun j => e < j) =
      (queued.erase i).countP (fun j => e < j) + if e < i then 1 else 0 := by
  rw [(List.perm_cons_erase hi).countP_eq, List.countP_cons]
  simp only [decide_eq_true_eq]

theorem entriesPut_step {debugOn : Bool} {s t : HostState} {a : HostLabel}
    (hhealthy : Healthy s) (hg : AllSucceeds s a) (h : EntriesPut s)
    (hs : hostStep debugOn s a = some t) : EntriesPut t := by
  cases hostStep_move hs with
  | @put mt krealloc hput =>
      have hnum := (hhealthy.put_succeeds hg).2.num
      intro i hi
      show i < (Proxy.tablePut s.proxy mt krealloc).2.tableNumEntries
      rw [hnum]
      rcases hi with hi | hi
      · rcases List.mem_cons.mp hi with rfl | hi
        · omega
        · have := h i (Or.inl hi)
          omega
      · have := h i (Or.inr hi)
        omega
  | putFailed hput => exact absurd (hhealthy.put_succeeds hg).1 hput
  | notRegistered hidle hks hi =>
      rintro j (hj | hj)
      · exact h j (Or.inl (List.mem_of_mem_erase hj))
      · exact h j (Or.inr hj)
  | @locked i server hidle hks hi =>
      rintro j (hj | hj)
      · exact h j (Or.inl (List.mem_of_mem_erase hj))
      · obtain rfl : i = j := Option.some.inj hj
        exact h i (Or.inl hi)
  | peekedNone hsender hpeek => exact fun j hj => h j (hj.imp_right fun hj => by cases hj)
  | @peeked i j hsender hpeek =>
      rintro k (hk | hk)
      · exact h k (Or.inl hk)
      · exact h k (Or.inr (hsender ▸ hk))
  | signalled hsender hks hfp =>
      exact fun j hj => h j (hj.imp_right fun hj => by cases hj)
  | signalledOther hsender hks hfp =>
      exact fun j hj => h j (hj.imp_right fun hj => by cases hj)
  | @popNone env u m hclient hpop hm =>
      have hnum : u.tableNumEntries = s.proxy.tableNumEntries := by
        rw [← popEntry_num s.proxy, hpop]
      exact fun i hi => hnum ▸ h i hi
  | @popOops env u hclient hask hpop =>
      have hnum : u.tableNumEntries = s.proxy.tableNumEntries := by
        rw [← popEntry_num s.proxy, hpop]
      exact fun i hi => hnum ▸ h i hi
  | popped hclient hask hpop =>
      obtain ⟨-, -, -, -, rfl⟩ := popEntry_entry hpop
      exact h
  | unpopped => exact fun i hi => (tablePopReverse_num s.proxy).symm ▸ h i hi
  | _ => exact h

structure SignalInv (s : HostState) : Prop where
  healthy : Healthy s
  entries : EntriesPut s
  atPhase : SignalAt s (phase s.main.pc)
  stop : ∀ stop, s.main.stop = some stop → ¬ noEntryBranch stop

/-- At the end of the drain all entries are consumed, and no put on its way has one
behind. -/
theorem fresh_eq_zero {s : HostState} (hentries : EntriesPut s) (hp : ¬ s.proxy.Pending) :
    s.fresh s.proxy.tableIndex = 0 := by
  unfold ModuleTable.Pending at hp
  have hle : ∀ i, i ∈ s.queued ∨ s.sender.entry = some i → ¬ s.proxy.tableIndex < i := by
    intro i hi
    have := hentries i hi
    omega
  have hqueued : s.queued.countP (fun i => s.proxy.tableIndex < i) = 0 := by
    rw [List.countP_eq_zero]
    exact fun i hi => by simpa using hle i (Or.inl hi)
  have hsender : s.sender.entry.toList.countP (fun i => s.proxy.tableIndex < i) = 0 := by
    rw [List.countP_eq_zero]
    exact fun i hi => by simpa using hle i (Or.inr (Option.mem_toList.mp hi))
  rw [HostState.fresh, hqueued, hsender]

/-- Taking the first pending entry moves it into the window. -/
theorem Balanced.popped {s : HostState} (h : Balanced 0 s) (client : ClientPhase) :
    Balanced 1 { s with
      proxy := { s.proxy with tableIndex := s.proxy.tableIndex + 1 }
      client := client } := by
  obtain ⟨e, he, hle, hsum⟩ := h
  refine ⟨e, he, ?_, ?_⟩
  · show e ≤ s.proxy.tableIndex + 1
    omega
  · show (s.counter : ℤ) + s.fresh e ≤
      s.proxy.tableNumEntries - 1 - (s.proxy.tableIndex + 1) + 1
    unfold HostState.behind at hsum
    omega

theorem Balanced.mono {s : HostState} {v w : ℤ} (h : Balanced v s) (hle : v ≤ w) :
    Balanced w s := by
  obtain ⟨e, he, hindex, hsum⟩ := h
  exact ⟨e, he, hindex, by omega⟩

theorem window_nonneg (client : ClientPhase) : 0 ≤ window client := by
  cases client <;> simp [window]

/-- With the balance kept, an announcement means that an entry is pending. -/
theorem pending_of_balanced {s : HostState} (hcounter : 0 < s.counter)
    (h : Balanced 0 s) : s.proxy.Pending := by
  obtain ⟨e, -, -, hsum⟩ := h
  unfold HostState.behind at hsum
  unfold ModuleTable.Pending
  omega

theorem phase_of_asksEntry {pc : Pc} (h : asksEntry pc = true) :
    phase pc = .drain ∨ phase pc = .getNew := by
  cases pc with
  | drain => exact Or.inl rfl
  | getNew => exact Or.inr rfl
  | _ => cases h

theorem signalAt_step {debugOn : Bool} {s t : HostState} {a : HostLabel} (h : SignalInv s)
    (hg : FreshRuns s a) (hs : hostStep debugOn s a = some t) :
    SignalAt t (phase t.main.pc) ∧ Calm s.main t.main := by
  have hat := h.atPhase
  cases hostStep_move hs with
  | @put mt krealloc hput =>
      obtain ⟨-, happ⟩ := h.healthy.put_succeeds hg.1
      have hnum := happ.num
      have hindex := happ.index
      have hlt := h.healthy.sound.index_lt
      refine ⟨hat.send rfl rfl hindex (le_refl _) (fun _ => rfl) fun e _ hle => ?_, .same rfl⟩
      have hnew : e < s.proxy.tableNumEntries := by omega
      simp only [HostState.behind, HostState.fresh, hnum, hindex, List.countP_cons,
        decide_eq_true_eq, if_pos hnew]
      omega
  | putFailed hput => exact absurd (h.healthy.put_succeeds hg.1).1 hput
  | @notRegistered i hidle hks hi =>
      refine ⟨hat.send rfl rfl rfl (le_refl _) (fun _ => rfl) fun e _ _ => ?_, .same rfl⟩
      have := countP_queued (e := e) hi
      simp only [HostState.fresh, HostState.behind]
      omega
  | @locked i server hidle hks hi =>
      refine ⟨hat.send rfl rfl rfl (le_refl _) (fun _ => rfl) fun e _ _ => ?_, .same rfl⟩
      have := countP_queued (e := e) hi
      simp only [HostState.fresh, HostState.behind, hidle, Sender.entry, Option.toList_some,
        Option.toList_none, List.countP_cons, List.countP_nil, decide_eq_true_eq]
      omega
  | @peekedNone i hsender hpeek =>
      refine ⟨hat.send rfl rfl rfl (le_refl _) (fun _ => rfl) fun e _ _ => ?_, .same rfl⟩
      simp only [HostState.fresh, HostState.behind, Sender.entry, Option.toList_none,
        List.countP_nil]
      omega
  | @peeked i j hsender hpeek =>
      refine ⟨hat.send rfl rfl rfl (le_refl _) (fun _ => rfl) fun e _ _ => ?_, .same rfl⟩
      simp only [HostState.fresh, HostState.behind, hsender, Sender.entry]
      omega
  | @signalled i server hsender hks hfp =>
      obtain ⟨e', he', hlt⟩ := hg.2 i hsender
      refine ⟨hat.send rfl rfl rfl (Nat.le_succ _) (fun hnone => ?_) fun e he _ => ?_, .same rfl⟩
      · rw [he'] at hnone
        cases hnone
      · obtain rfl := Option.some.inj (he'.symm.trans he)
        simp only [HostState.fresh, HostState.behind, hsender, Sender.entry,
          Option.toList_some, Option.toList_none, List.countP_cons, List.countP_nil,
          decide_eq_true_eq, if_pos hlt]
        omega
  | @signalledOther i server hsender hks hfp =>
      refine ⟨hat.send rfl rfl rfl (le_refl _) (fun _ => rfl) fun e _ _ => ?_, .same rfl⟩
      simp only [HostState.fresh, HostState.behind, Sender.entry, Option.toList_none,
        List.countP_nil]
      omega
  | @popNone env u m hclient hpop hm =>
      obtain ⟨hnp, rfl⟩ := popEntry_noEntry_allocated h.healthy.allocated hpop
      rcases gotEntry_step hm with ⟨hd, hcalm, hto⟩ | ⟨hn, -⟩
      · refine ⟨?_, hcalm⟩
        rw [hd] at hat
        obtain ⟨hzero, hdrained⟩ := hat
        rcases hto with ⟨-, hret⟩ | hto | ⟨hto, -⟩
        · exact absurd rfl hret
        · rw [hto]
          trivial
        · rw [hto]
          -- the drain ends here: nothing is announced, and nothing that will be is behind
          refine ⟨s.proxy.tableIndex, by simp [hdrained], le_refl _, ?_⟩
          have hfresh := fresh_eq_zero h.entries hnp
          have hlt := h.healthy.sound.index_lt
          change (s.counter : ℤ) + s.fresh s.proxy.tableIndex ≤ s.behind + 0
          unfold HostState.behind
          omega
      · rw [hn] at hat
        obtain ⟨hcounter, hbalanced⟩ := hat
        rw [hclient] at hbalanced
        exact absurd (pending_of_balanced hcounter hbalanced) hnp
  | popOops hclient hask hpop => exact absurd hpop (popEntry_ne_oops h.healthy.allocated)
  | @popped env i uuid u hclient hask hpop =>
      obtain ⟨-, -, -, -, rfl⟩ := popEntry_entry hpop
      refine ⟨?_, .same rfl⟩
      rcases phase_of_asksEntry hask with hphase | hphase <;> rw [hphase] at hat
      · show SignalAt _ (phase s.main.pc)
        rw [hphase]
        exact hat
      · show SignalAt _ (phase s.main.pc)
        obtain ⟨hcounter, hbalanced⟩ := hat
        rw [hclient] at hbalanced
        rw [hphase]
        exact ⟨hcounter, Balanced.popped hbalanced _⟩
  | @copied env i uuid m hclient hm =>
      obtain ⟨hcalm, hto⟩ := gotEntry_one hg.1.2.1 hm
      refine ⟨?_, hcalm⟩
      rcases hto with ⟨hd, hto⟩ | ⟨hn, hto⟩
      · rw [hd] at hat
        rw [hto]
        exact hat
      · rw [hn] at hat
        obtain ⟨hcounter, hbalanced⟩ := hat
        rw [hclient] at hbalanced
        rw [hto]
        exact ⟨hcounter, hbalanced⟩
  | copyFailed hclient hn => exact absurd hg.1.1 hn
  | unpopped hclient hm => exact absurd hclient h.healthy.not_copyFailed
  | registered hidle hret hm =>
      obtain ⟨hboot, hcalm, hto⟩ := registered_step hm
      refine ⟨?_, hcalm⟩
      rw [hboot] at hat
      rcases hto with hto | ⟨hto, -⟩ <;> rw [hto]
      · trivial
      · exact hat
  | deRegistered hidle hm =>
      obtain ⟨hcalm, hto⟩ := deregistered_step hm
      refine ⟨?_, hcalm⟩
      rw [hto]
      trivial
  | selected hcounter hm =>
      obtain ⟨hpc, hcalm, hto⟩ := selected_step hm
      refine ⟨?_, hcalm⟩
      rw [hpc] at hat
      rcases hto with ⟨-, hret⟩ | ⟨hto, -⟩ | ⟨-, -, hread⟩
      · omega
      · rw [hto]
        exact ⟨hcounter, Balanced.mono hat (window_nonneg s.client)⟩
      · cases hread
  | selectError hret hm =>
      obtain ⟨-, hcalm, hto⟩ := selected_step hm
      refine ⟨?_, hcalm⟩
      rcases hto with ⟨hto, -⟩ | ⟨-, hread⟩ | ⟨-, hnonneg, -⟩
      · rw [hto]
        trivial
      · cases hread
      · omega
  | read hcounter hm =>
      obtain ⟨hphase, hcalm, hto⟩ := eventfdRead_step hm
      refine ⟨?_, hcalm⟩
      rw [hphase] at hat
      rcases hto with hto | ⟨hto, -⟩ <;> rw [hto]
      · trivial
      · obtain ⟨-, e, he, hle, hsum⟩ := hat
        refine ⟨e, he, hle, ?_⟩
        change ((0 : ℕ) : ℤ) + s.fresh e ≤ s.behind + 0
        omega
  | readFailed hm =>
      obtain ⟨-, hcalm, hto⟩ := eventfdRead_step hm
      refine ⟨?_, hcalm⟩
      rcases hto with hto | ⟨-, hret⟩
      · rw [hto]
        trivial
      · cases hret
  | server hl hm =>
      obtain ⟨hmove, hcalm⟩ := local_step hl hm
      exact ⟨hat.localMove hmove, hcalm⟩

theorem signalInv_step (debugOn : Bool) (s : HostState) (a : HostLabel) (t : HostState)
    (h : SignalInv s) (hg : FreshRuns s a) (hs : hostStep debugOn s a = some t) :
    SignalInv t := by
  obtain ⟨hat, hcalm⟩ := signalAt_step h hg hs
  refine ⟨healthy_step h.healthy hg.1 hs, entriesPut_step h.healthy hg.1 h.entries hs, hat, ?_⟩
  intro stop hstop
  rcases hcalm stop hstop with hold | hne
  · exact h.stop stop hold
  · exact hne

/-- **No spurious shutdown** in a run in which nothing fails and every put that is
announced has its entry behind what the drain consumed. -/
theorem noSpuriousShutdown_of_fresh (debugOn : Bool) (proxy : UsableTable) (efd : FilePtr)
    (mem : ℤ → UuidTableEntry) (s : HostState)
    (h : Via (hostStep debugOn) FreshRuns (HostState.init proxy.table efd mem) s) :
    NoSpuriousShutdown s := by
  have hinit : SignalInv (HostState.init proxy.table efd mem) := by
    refine ⟨⟨proxy.sound, proxy.allocated, Or.inl rfl⟩, ?_, ⟨rfl, rfl⟩, ?_⟩
    · rintro i (hi | hi) <;> cases hi
    · intro stop hstop
      cases hstop
  have hinv : SignalInv s := h.invariant SignalInv hinit (signalInv_step debugOn)
  refine ⟨hinv.stop, fun hpc hclient => ?_⟩
  have hat := hinv.atPhase
  rw [hpc] at hat
  obtain ⟨hcounter, hbalanced⟩ := hat
  rw [hclient] at hbalanced
  exact pending_of_balanced hcounter hbalanced

/-! ### A put that the drain consumes -/

/-- The module is put and announced after the registration; then it is drained. -/
def drainedPut : List HostLabel :=
  hostBoot ++ putAnnounced 0 ++
    [.ioctlPop entryEnv, .ioctlCopy 0 entryEnv, .ioctlPop entryEnv]

theorem drainedPut_succeeds (s : HostState) :
    StepsMeet (hostStep true) AllSucceeds s drainedPut := by
  apply stepsMeet_of_forall
  have hmalloc : entryEnv.malloc.isSome = true := rfl
  simp [drainedPut, hostBoot, putAnnounced, AllSucceeds, AllocationsSucceed,
    entryEnv_granted, hmalloc, Except.isOk, Except.toBool]

theorem hostIdle_succeeds (s : HostState) :
    StepsMeet (hostStep true) FreshRuns s
      (hostBoot ++ hostIdle ++ [.put default (some fun _ => default), .sendLock 0, .sendPeek]) := by
  apply stepsMeet_of_forall
  simp [hostBoot, hostIdle, FreshRuns, AnnouncesFresh, AllSucceeds, AllocationsSucceed,
    okEnv_mallocSucceeds, Except.isOk, Except.toBool]

/-- A module that is put while the server waits is there when `select` returns. -/
theorem fresh_put_is_there :
    ∃ s, s.main.pc = .getNew ∧ s.client = .idle ∧ NoSpuriousShutdown s := by
  obtain ⟨s, u, t, hrun, hsender, hdrained, hsignal, hready, hpc, hclient⟩ :
      ∃ s u t, exec (hostStep true) hostStart (hostBoot ++ hostIdle ++
          [.put default (some fun _ => default), .sendLock 0, .sendPeek]) = some s ∧
        s.sender = .peeked 0 ∧ s.drained = some (-1) ∧
        hostStep true s .sendSignal = some u ∧ hostStep true u .selectReady = some t ∧
        t.main.pc = .getNew ∧ t.client = .idle :=
    ⟨_, _, _, rfl, rfl, rfl, rfl, rfl, rfl, rfl⟩
  have hfresh : FreshRuns s .sendSignal := by
    refine ⟨trivial, fun i hi => ⟨-1, hdrained, ?_⟩⟩
    rw [hsender] at hi
    injection hi with hi
    omega
  have hvia := via_of_stepsMeet hrun (hostIdle_succeeds hostStart)
  have hlast : FreshRuns u .selectReady := ⟨trivial, trivial⟩
  exact ⟨t, hpc, hclient, noSpuriousShutdown_of_fresh true (UsableTable.fresh _ _) 1
    (fun _ => default) t ((hvia.snoc hfresh hsignal).snoc hlast hready)⟩

/-- The module is put before the drain, and its event is still there when the server
has processed it: `select` returns, and there is no entry. -/
theorem drained_put_stops_server :
    ¬ ∀ (debugOn : Bool) (proxy : UsableTable) (efd : FilePtr) (mem : ℤ → UuidTableEntry)
      (s : HostState),
      Via (hostStep debugOn) AllSucceeds (HostState.init proxy.table efd mem) s →
        NoSpuriousShutdown s := by
  intro hall
  obtain ⟨s, hrun, hpc, hfits, hnum, hregions, hp, hc, hcounter, hclient, hpending⟩ :
      ∃ s, exec (hostStep true) hostStart drainedPut = some s ∧
        s.main.pc = .process .first ∧ CountFits s.main.table ∧
        s.main.table.tableNumEntries = 1 ∧
        (s.main.table.entry 0).memory.numRegions = 0 ∧
        (s.main.table.entry 0).processed = false ∧
        (s.main.table.entry 0).couldNotProcess = false ∧
        s.counter = 1 ∧ s.client = .idle ∧ ¬ s.proxy.Pending :=
    ⟨_, rfl, rfl, ⟨by decide, by decide⟩, rfl, rfl, rfl, rfl, rfl, rfl, by decide⟩
  obtain ⟨u, hdoes, hu⟩ := via_call (G := AllSucceeds) hpc hfits
    (okEnv_returns_one true hnum hregions hp hc) okEnv_mallocSucceeds (fun _ => trivial)
    fun _ => trivial
  -- the entry is processed now, and the next call finds nothing to do
  have hu0 : u.tableNumEntries = 1 ∧ (u.entry 0).processed = true ∧
      (u.entry 0).couldNotProcess = false := by
    rcases hdoes.returned_cases with ⟨hret, -⟩ | ⟨-, i, hfirst, htouch, hdone⟩ | hneg
    · cases hret
    · have h0 := hfirst.nonneg
      have h1 := hfirst.inRange
      obtain rfl : i = 0 := by omega
      exact ⟨htouch.num.trans hnum, hdone⟩
    · omega
  obtain ⟨s', hs', hpc', htable, hcounter', hclient', hproxy⟩ :
      ∃ s', Via (hostStep true) AllSucceeds s s' ∧ s'.main.pc = .process .first ∧
        s'.main.table = u ∧ s'.counter = 1 ∧ s'.client = .idle ∧ s'.proxy = s.proxy :=
    ⟨_, hu, rfl, rfl, hcounter, hclient, rfl⟩
  subst htable
  obtain ⟨v, -, hv⟩ := via_call (G := AllSucceeds) hpc' ⟨by omega, by omega⟩
    (returns_zero_of_processed true hu0.1 hu0.2.1 hu0.2.2) okEnv_mallocSucceeds
    (fun _ => trivial) fun _ => trivial
  have hready := (((via_of_stepsMeet hrun (drainedPut_succeeds _)).trans hs').trans hv).snoc
    (show AllSucceeds _ .selectReady from trivial) (if_pos (by show 0 < s'.counter; omega))
  have hwoken := (hall true (UsableTable.fresh _ _) _ _ _ hready).pending rfl hclient'
  rw [← hproxy] at hpending
  exact hpending hwoken

end LxcUio.System
