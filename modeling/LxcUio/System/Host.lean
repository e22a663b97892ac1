import LxcUio.Server.WorkDone
import LxcUio.System.Delivery

/-!
# One server and the proxy

The whole host: the proxy, any number of `lxc_uio_proxy_put_module_1` calls, and one
kvm-host-server. A put is `table_put`, then the three sections of `send_event` under
`ks_mutex`; the server's ioctl is the pop, the copy and, when the copy failed, the
un-pop. All of these interleave.

- `queued` are the puts between `table_put` and `send_event`, by the index of their
  entry; `sender` is the one that holds `ks_mutex`.
- `counter` is the server's eventfd, `efd` its `struct file`.
- `log` records the uuids put, in order, and `drained` where the cursor stood when
  the drain came to its end. No step reads either of them.
-/

namespace LxcUio.System

open LxcUio.Foundation LxcUio.Proxy LxcUio.Server

/-! ## The system -/

/-- The `send_event` that holds `ks_mutex`: before and after `table_peek`. -/
inductive Sender where
  | idle
  | locked (i : ℤ)
  | peeked (i : ℤ)
deriving DecidableEq

structure HostState where
  proxy : ModuleTable
  ks : Option KvmHostServer
  efd : FilePtr
  counter : ℕ
  queued : List ℤ
  sender : Sender
  client : ClientPhase
  main : MainState
  log : List Uuid
  drained : Option ℤ

inductive HostLabel where
  | put (mt : ModuleTableStruct) (krealloc : Option (ℤ → ModuleTableStruct))
  | sendLock (i : ℤ)
  | sendPeek
  | sendSignal
  | ioctlPop (env : NewEntryEnv)
  | ioctlCopy (notCopied : ℕ) (env : NewEntryEnv)
  | ioctlUnpop (env : NewEntryEnv)
  | register (pid fd : ℤ) (kmalloc : Option FilePtr)
  | deRegister
  | selectReady
  | selectError (ret : ℤ)
  | readEventfd (ok : Bool)
  | server (l : MainLabel)

/-- The labels of `main` that neither the proxy nor the eventfd has a part in. -/
def isLocal : MainLabel → Bool
  | .registered _ => false
  | .gotEntry _ _ _ => false
  | .selected _ _ => false
  | .eventfdRead _ => false
  | .deregistered _ => false
  | _ => true

/-- What the C library makes of the value a system call returned. -/
def libcReturn (ret : ℤ) : ℤ := if ret < 0 then -1 else ret

/-- `main` is in `get_new_entry`. -/
def asksEntry : Pc → Bool
  | .drain => true
  | .getNew => true
  | _ => false

def HostState.init (proxy : ModuleTable) (efd : FilePtr) (mem : ℤ → UuidTableEntry) :
    HostState where
  proxy := proxy
  ks := none
  efd := efd
  counter := 0
  queued := []
  sender := .idle
  client := .idle
  main := MainState.init mem
  log := (proxy.moduleTable.slice 0 proxy.tableNumEntries).map ModuleTableStruct.uuid
  drained := none

/-- A step of `main`. -/
def serverStep (debugOn : Bool) (s : HostState) (l : MainLabel) : Option HostState :=
  (mainStep debugOn s.main l).map fun m => { s with main := m }

def hostStep (debugOn : Bool) (s : HostState) : HostLabel → Option HostState
  | .put mt krealloc =>
      let put := tablePut s.proxy mt krealloc
      if put.1 = 0 then
        some { s with
          proxy := put.2
          queued := s.proxy.tableNumEntries :: s.queued
          log := s.log ++ [mt.uuid] }
      else some { s with proxy := put.2 }
  | .sendLock i =>
      match s.sender, s.ks with
      | .idle, none =>
          if i ∈ s.queued then some { s with queued := s.queued.erase i } else none
      | .idle, some _ =>
          if i ∈ s.queued then
            some { s with queued := s.queued.erase i, sender := .locked i }
          else none
      | _, _ => none
  | .sendPeek =>
      match s.sender with
      | .locked i =>
          match tablePeek s.proxy with
          | none => some { s with sender := .idle }
          | some _ => some { s with sender := .peeked i }
      | _ => none
  | .sendSignal =>
      match s.sender, s.ks with
      | .peeked _, some server =>
          if server.fp = s.efd then
            some { s with sender := .idle, counter := s.counter + 1 }
          else some { s with sender := .idle }
      | _, _ => none
  | .ioctlPop env =>
      match s.client, asksEntry s.main.pc with
      | .idle, true =>
          match popEntry s.proxy with
          | (.noEntry, t) =>
              serverStep debugOn
                { s with
                  proxy := t
                  drained := if s.drained.isNone then some t.tableIndex else s.drained }
                (.gotEntry 0 0 env)
          | (.oops, t) => some { s with proxy := t, client := .oopsed }
          | (.entry i uuid, t) => some { s with proxy := t, client := .holds i uuid }
      | _, _ => none
  | .ioctlCopy notCopied env =>
      match s.client with
      | .holds i uuid =>
          if notCopied = 0 then
            serverStep debugOn { s with client := .idle }
              (.gotEntry (libcReturn (copiedRetval notCopied)) uuid env)
          else
            some { s with client := .copyFailed i (copiedRetval notCopied) }
      | _ => none
  | .ioctlUnpop env =>
      match s.client with
      | .copyFailed _ retval =>
          serverStep debugOn
            { s with proxy := (tablePopReverse s.proxy).2, client := .idle }
            (.gotEntry (libcReturn retval) 0 env)
      | _ => none
  | .register pid fd kmalloc =>
      match s.sender with
      | .idle =>
          let r := kvmHostServerRegister s.ks pid fd kmalloc fun _ => some s.efd
          serverStep debugOn { s with ks := r.2 } (.registered (libcReturn r.1))
      | _ => none
  | .deRegister =>
      match s.sender with
      | .idle =>
          let r := kvmHostServerDeRegister s.ks
          serverStep debugOn { s with ks := r.2 } (.deregistered (libcReturn r.1))
      | _ => none
  | .selectReady => if 0 < s.counter then serverStep debugOn s (.selected 1 true) else none
  | .selectError ret => if ret < 0 then serverStep debugOn s (.selected ret false) else none
  | .readEventfd true =>
      if 0 < s.counter then
        serverStep debugOn { s with counter := 0 } (.eventfdRead 8)
      else none
  | .readEventfd false => serverStep debugOn s (.eventfdRead (-1))
  | .server l => if isLocal l = true then serverStep debugOn s l else none

/-! ## Phases of the server -/

/-- How far the server has come, as seen from the proxy. -/
inductive Phase where
  | boot
  | setup
  | drain
  | work
  | getNew
  | read
  | ended
deriving DecidableEq

def phase : Pc → Phase
  | .getMajorNumber => .boot
  | .openKvm => .boot
  | .checkExtension => .boot
  | .eventfd => .boot
  | .openCdev => .boot
  | .registerServer => .boot
  | .tableInit => .setup
  | .drain => .drain
  | .process _ => .work
  | .inProcess _ _ _ => .work
  | .select => .work
  | .getNew => .getNew
  | .readEventfd => .read
  | .outTable => .ended
  | .outDeregister => .ended
  | .outEfd => .ended
  | .returned => .ended
  | .killed => .ended

/-- The branches of `main` taken when `get_new_entry` did not return 1 after `select`
announced an entry. -/
def noEntryBranch (stop : Stop) : Prop :=
  stop = .noNewEntry ∨ stop = .newEntryError ∨ stop = .newEntryUnexpected

instance (stop : Stop) : Decidable (noEntryBranch stop) :=
  inferInstanceAs (Decidable (_ ∨ _ ∨ _))

/-- The phase a local step leads to. -/
inductive LocalMove : Phase → Phase → Prop
  | stay (p : Phase) : LocalMove p p
  | drain : LocalMove .setup .drain
  | leave (p : Phase) : LocalMove p .ended

/-- From `s` to `t` none of these branches was taken. -/
def Calm (s t : MainState) : Prop :=
  ∀ stop, t.stop = some stop → s.stop = some stop ∨ ¬ noEntryBranch stop

theorem Calm.same {s t : MainState} (h : t.stop = s.stop) : Calm s t :=
  fun _ ht => Or.inl (h ▸ ht)

theorem Calm.leave {s t : MainState} {stop : Stop} (h : t.stop = some stop)
    (hne : ¬ noEntryBranch stop) : Calm s t := by
  intro stop' ht
  obtain rfl := Option.some.inj (h.symm.trans ht)
  exact Or.inr hne

theorem processStops_calm : ∀ stop ∈ processStops, ¬ noEntryBranch stop := by decide

theorem processed_phase (s : MainState) (site : Site) (ret : ℤ) :
    (phase (s.processed site ret).pc = .work ∨ phase (s.processed site ret).pc = .ended) ∧
      Calm s (s.processed site ret) := by
  rcases processed_cases s site ret with ⟨_, _, rfl | rfl, hgo⟩ | ⟨stop, _, hstop, hleave⟩
  · rw [hgo]
    exact ⟨Or.inl rfl, .same rfl⟩
  · rw [hgo]
    exact ⟨Or.inl rfl, .same rfl⟩
  · rw [hleave]
    exact ⟨Or.inr rfl, .leave rfl (processStops_calm stop hstop)⟩

theorem LocalMove.of_work {p : Phase} (h : p = .work ∨ p = .ended) : LocalMove .work p := by
  rcases h with rfl | rfl
  · exact .stay _
  · exact .leave _

/-- **Local steps** stay in their phase, enter the drain, or leave for good. -/
theorem local_step {debugOn : Bool} {s t : MainState} {l : MainLabel}
    (hl : isLocal l = true) (hs : mainStep debugOn s l = some t) :
    LocalMove (phase s.pc) (phase t.pc) ∧ Calm s t := by
  cases mainStep_move hs with
  | noMajorNumber hpc hret => exact ⟨.leave _, .same rfl⟩
  | majorNumber hpc hret =>
      rw [hpc]
      exact ⟨.stay .boot, .same rfl⟩
  | noKvm hpc hfd => exact ⟨.leave _, .same rfl⟩
  | kvm hpc hfd =>
      rw [hpc]
      exact ⟨.stay .boot, .same rfl⟩
  | extensionError hpc hret => exact ⟨.leave _, .same rfl⟩
  | noExtension hpc => exact ⟨.leave _, .same rfl⟩
  | extension hpc hret =>
      rw [hpc]
      exact ⟨.stay .boot, .same rfl⟩
  | noEventfd hpc hfd => exact ⟨.leave _, .same rfl⟩
  | eventfd hpc hfd =>
      rw [hpc]
      exact ⟨.stay .boot, .same rfl⟩
  | noCdev hpc hfd => exact ⟨.leave _, .same rfl⟩
  | cdev hpc hfd =>
      rw [hpc]
      exact ⟨.stay .boot, .same rfl⟩
  | noTable hpc hret => exact ⟨.leave _, .same rfl⟩
  | tableInit hpc hret =>
      rw [hpc]
      exact ⟨.drain, .same rfl⟩
  | callProcess hpc =>
      rw [hpc]
      exact ⟨.stay .work, .same rfl⟩
  | processStep hpc =>
      rw [hpc]
      exact ⟨.stay .work, .same rfl⟩
  | @processReturn site ret hpc =>
      rw [hpc]
      obtain ⟨hphase, hcalm⟩ := processed_phase s site ret
      exact ⟨.of_work hphase, hcalm⟩
  | @bug site b hpc =>
      rw [hpc]
      obtain ⟨hphase, hcalm⟩ :=
        processed_phase { s with bugs := s.bugs ++ [b] } site (-1)
      exact ⟨.of_work hphase, hcalm⟩
  | crashed hpc =>
      -- the server died in `process_entry`
      exact ⟨.leave _, .same rfl⟩
  | deleteTable hpc => exact ⟨.leave _, .same rfl⟩
  | closed hpc => exact ⟨.leave _, .same rfl⟩
  | scribble hpc => exact ⟨.stay _, .same rfl⟩
  -- what is left talks to the proxy
  | _ => cases hl

theorem getNewEntry_eq_zero (t : UuidTable) (ret : ℤ) (uuid : Uuid) (env : NewEntryEnv) :
    (getNewEntry t ret uuid env).1 = 0 ↔ ret = 0 := by
  unfold getNewEntry
  split
  · rfl
  · split
    · rename_i h
      exact iff_of_true rfl h
    · split
      · rename_i h
        cases newMemory env.malloc <;> simp [h]
      · rfl

/-- **The answer of `get_new_entry`**: the drain ends with an answer 0, and the event
loop goes on to read the eventfd or leaves. -/
theorem gotEntry_step {debugOn : Bool} {s t : MainState} {ret : ℤ} {uuid : Uuid}
    {env : NewEntryEnv} (hs : mainStep debugOn s (.gotEntry ret uuid env) = some t) :
    (phase s.pc = .drain ∧ Calm s t ∧
      (phase t.pc = .drain ∧ ret ≠ 0 ∨ phase t.pc = .ended ∨ phase t.pc = .work ∧ ret = 0)) ∨
    (phase s.pc = .getNew ∧ (phase t.pc = .read ∨ phase t.pc = .ended)) := by
  have hzero := getNewEntry_eq_zero s.table ret uuid env
  cases mainStep_move hs with
  | drained hpc =>
      left
      rw [hpc]
      refine ⟨rfl, ?_⟩
      unfold MainState.drained
      split
      · rename_i hpos
        refine ⟨.same rfl, Or.inl ⟨congrArg phase hpc, fun hret => ?_⟩⟩
        have hretVal : (s.received ret uuid env).retVal = 0 := hzero.mpr hret
        omega
      · split
        · rename_i hret
          exact ⟨.same rfl, Or.inr (Or.inr ⟨rfl, hzero.mp hret⟩)⟩
        · exact ⟨.leave rfl (by decide), Or.inr (Or.inl rfl)⟩
  | woken hpc =>
      right
      rw [hpc]
      refine ⟨rfl, ?_⟩
      unfold MainState.woken
      split
      · exact Or.inr rfl
      · split
        · exact Or.inl rfl
        · split <;> exact Or.inr rfl

/-- With memory for the entry, an answer 1 keeps the drain going and the event loop on
its way to the read. -/
theorem gotEntry_one {debugOn : Bool} {s t : MainState} {uuid : Uuid} {env : NewEntryEnv}
    (hmalloc : env.malloc.isSome = true)
    (hs : mainStep debugOn s (.gotEntry 1 uuid env) = some t) :
    Calm s t ∧ (phase s.pc = .drain ∧ phase t.pc = .drain ∨
      phase s.pc = .getNew ∧ phase t.pc = .read) := by
  obtain ⟨stale, hstale⟩ := Option.isSome_iff_exists.mp hmalloc
  have hret : (s.received 1 uuid env).retVal = 1 := by
    simp [MainState.received, getNewEntry, newMemory, hstale]
  cases mainStep_move hs with
  | drained hpc =>
      rw [MainState.drained, if_pos (by omega), hpc]
      exact ⟨.same rfl, Or.inl ⟨rfl, congrArg phase hpc⟩⟩
  | woken hpc =>
      rw [MainState.woken, if_neg (by omega), if_pos hret, hpc]
      exact ⟨.same rfl, Or.inr ⟨rfl, rfl⟩⟩

/-- An error of `get_new_entry` ends the server. -/
theorem gotEntry_error {debugOn : Bool} {s t : MainState} {ret : ℤ} {uuid : Uuid}
    {env : NewEntryEnv} (hneg : ret < 0)
    (hs : mainStep debugOn s (.gotEntry ret uuid env) = some t) : phase t.pc = .ended := by
  have hret : (s.received ret uuid env).retVal = ret := by
    simp [MainState.received, getNewEntry, hneg]
  cases mainStep_move hs with
  | drained hpc =>
      rw [MainState.drained, if_neg (by omega), if_neg (by omega)]
      rfl
  | woken hpc =>
      rw [MainState.woken, if_neg (by omega), if_neg (by omega), if_pos (by omega)]
      rfl

theorem registered_step {debugOn : Bool} {s t : MainState} {ret : ℤ}
    (hs : mainStep debugOn s (.registered ret) = some t) :
    phase s.pc = .boot ∧ Calm s t ∧
      (phase t.pc = .ended ∨ phase t.pc = .setup ∧ 0 ≤ ret) := by
  cases mainStep_move hs with
  | notRegistered hpc hret => exact ⟨congrArg phase hpc, .same rfl, Or.inl rfl⟩
  | registered hpc hret =>
      exact ⟨congrArg phase hpc, .same rfl, Or.inr ⟨rfl, not_lt.mp hret⟩⟩

theorem deregistered_step {debugOn : Bool} {s t : MainState} {ret : ℤ}
    (hs : mainStep debugOn s (.deregistered ret) = some t) :
    Calm s t ∧ phase t.pc = .ended := by
  cases mainStep_move hs with
  | deregistered hpc => exact ⟨.same rfl, rfl⟩

theorem selected_step {debugOn : Bool} {s t : MainState} {ret : ℤ} {readable : Bool}
    (hs : mainStep debugOn s (.selected ret readable) = some t) :
    s.pc = .select ∧ Calm s t ∧
      (phase t.pc = .ended ∧ ret < 0 ∨ phase t.pc = .getNew ∧ readable = true ∨
        phase t.pc = .work ∧ 0 ≤ ret ∧ readable = false) := by
  cases mainStep_move hs with
  | selectError hpc hneg => exact ⟨hpc, .leave rfl (by decide), Or.inl ⟨rfl, hneg⟩⟩
  | readable hpc hret => exact ⟨hpc, .same rfl, Or.inr (Or.inl ⟨rfl, rfl⟩)⟩
  | notReadable hpc hret =>
      exact ⟨hpc, .same rfl, Or.inr (Or.inr ⟨congrArg phase hpc, not_lt.mp hret, rfl⟩)⟩

theorem eventfdRead_step {debugOn : Bool} {s t : MainState} {ret : ℤ}
    (hs : mainStep debugOn s (.eventfdRead ret) = some t) :
    phase s.pc = .read ∧ Calm s t ∧
      (phase t.pc = .ended ∨ phase t.pc = .work ∧ ret = 8) := by
  cases mainStep_move hs with
  | eventfdRead hpc => exact ⟨congrArg phase hpc, .same rfl, Or.inr ⟨rfl, rfl⟩⟩
  | readError hpc hret => exact ⟨congrArg phase hpc, .leave rfl (by decide), Or.inl rfl⟩

/-! ## What a step can do -/

theorem serverStep_some {debugOn : Bool} {s t : HostState} {l : MainLabel}
    (h : serverStep debugOn s l = some t) :
    ∃ m, mainStep debugOn s.main l = some m ∧ t = { s with main := m } := by
  obtain ⟨m, hm, rfl⟩ := Option.map_eq_some_iff.mp h
  exact ⟨m, hm, rfl⟩

/-- Every step of the host, with what it found and what it left. -/
inductive HostMove (debugOn : Bool) (s : HostState) : HostLabel → HostState → Prop
  | put {mt krealloc} (hput : (tablePut s.proxy mt krealloc).1 = 0) :
      HostMove debugOn s (.put mt krealloc)
        { s with
          proxy := (tablePut s.proxy mt krealloc).2
          queued := s.proxy.tableNumEntries :: s.queued
          log := s.log ++ [mt.uuid] }
  | putFailed {mt krealloc} (hput : (tablePut s.proxy mt krealloc).1 ≠ 0) :
      HostMove debugOn s (.put mt krealloc)
        { s with proxy := (tablePut s.proxy mt krealloc).2 }
  | notRegistered {i} (hidle : s.sender = .idle) (hks : s.ks = none) (hi : i ∈ s.queued) :
      HostMove debugOn s (.sendLock i) { s with queued := s.queued.erase i }
  | locked {i server} (hidle : s.sender = .idle) (hks : s.ks = some server)
      (hi : i ∈ s.queued) :
      HostMove debugOn s (.sendLock i)
        { s with queued := s.queued.erase i, sender := .locked i }
  | peekedNone {i} (hsender : s.sender = .locked i) (hpeek : tablePeek s.proxy = none) :
      HostMove debugOn s .sendPeek { s with sender := .idle }
  | peeked {i j} (hsender : s.sender = .locked i) (hpeek : tablePeek s.proxy = some j) :
      HostMove debugOn s .sendPeek { s with sender := .peeked i }
  | signalled {i server} (hsender : s.sender = .peeked i) (hks : s.ks = some server)
      (hfp : server.fp = s.efd) :
      HostMove debugOn s .sendSignal { s with sender := .idle, counter := s.counter + 1 }
  | signalledOther {i server} (hsender : s.sender = .peeked i) (hks : s.ks = some server)
      (hfp : server.fp ≠ s.efd) :
      HostMove debugOn s .sendSignal { s with sender := .idle }
  | popNone {env t m} (hclient : s.client = .idle) (hpop : popEntry s.proxy = (.noEntry, t))
      (hm : mainStep debugOn s.main (.gotEntry 0 0 env) = some m) :
      HostMove debugOn s (.ioctlPop env)
        { s with
          proxy := t
          drained := if s.drained.isNone then some t.tableIndex else s.drained
          main := m }
  | popOops {env t} (hclient : s.client = .idle) (hask : asksEntry s.main.pc = true)
      (hpop : popEntry s.proxy = (.oops, t)) :
      HostMove debugOn s (.ioctlPop env) { s with proxy := t, client := .oopsed }
  | popped {env i uuid t} (hclient : s.client = .idle) (hask : asksEntry s.main.pc = true)
      (hpop : popEntry s.proxy = (.entry i uuid, t)) :
      HostMove debugOn s (.ioctlPop env) { s with proxy := t, client := .holds i uuid }
  | copied {env i uuid m} (hclient : s.client = .holds i uuid)
      (hm : mainStep debugOn s.main (.gotEntry 1 uuid env) = some m) :
      HostMove debugOn s (.ioctlCopy 0 env) { s with client := .idle, main := m }
  | copyFailed {n env i uuid} (hclient : s.client = .holds i uuid) (hn : n ≠ 0) :
      HostMove debugOn s (.ioctlCopy n env)
        { s with client := .copyFailed i (copiedRetval n) }
  | unpopped {env i retval m} (hclient : s.client = .copyFailed i retval)
      (hm : mainStep debugOn s.main (.gotEntry (libcReturn retval) 0 env) = some m) :
      HostMove debugOn s (.ioctlUnpop env)
        { s with proxy := (tablePopReverse s.proxy).2, client := .idle, main := m }
  | registered {pid fd kmalloc ret ks m} (hidle : s.sender = .idle)
      (hret : kvmHostServerRegister s.ks pid fd kmalloc (fun _ => some s.efd) = (ret, ks))
      (hm : mainStep debugOn s.main (.registered (libcReturn ret)) = some m) :
      HostMove debugOn s (.register pid fd kmalloc) { s with ks := ks, main := m }
  | deRegistered {m} (hidle : s.sender = .idle)
      (hm : mainStep debugOn s.main (.deregistered 0) = some m) :
      HostMove debugOn s .deRegister { s with ks := none, main := m }
  | selected {m} (hcounter : 0 < s.counter)
      (hm : mainStep debugOn s.main (.selected 1 true) = some m) :
      HostMove debugOn s .selectReady { s with main := m }
  | selectError {ret m} (hret : ret < 0)
      (hm : mainStep debugOn s.main (.selected ret false) = some m) :
      HostMove debugOn s (.selectError ret) { s with main := m }
  | read {m} (hcounter : 0 < s.counter)
      (hm : mainStep debugOn s.main (.eventfdRead 8) = some m) :
      HostMove debugOn s (.readEventfd true) { s with counter := 0, main := m }
  | readFailed {m} (hm : mainStep debugOn s.main (.eventfdRead (-1)) = some m) :
      HostMove debugOn s (.readEventfd false) { s with main := m }
  | server {l m} (hl : isLocal l = true) (hm : mainStep debugOn s.main l = some m) :
      HostMove debugOn s (.server l) { s with main := m }

theorem hostStep_move {debugOn : Bool} {s t : HostState} {a : HostLabel}
    (hs : hostStep debugOn s a = some t) : HostMove debugOn s a t := by
  cases a with
  | put mt krealloc =>
      simp only [hostStep] at hs
      split at hs <;> obtain rfl := Option.some.inj hs
      · exact .put ‹_›
      · exact .putFailed ‹_›
  | sendLock i =>
      simp only [hostStep] at hs
      split at hs
      · split at hs
        · obtain rfl := Option.some.inj hs
          exact .notRegistered ‹_› ‹_› ‹_›
        · cases hs
      · split at hs
        · obtain rfl := Option.some.inj hs
          exact .locked ‹_› ‹_› ‹_›
        · cases hs
      · cases hs
  | sendPeek =>
      simp only [hostStep] at hs
      split at hs
      · split at hs <;> obtain rfl := Option.some.inj hs
        · exact .peekedNone ‹_› ‹_›
        · exact .peeked ‹_› ‹_›
      · cases hs
  | sendSignal =>
      simp only [hostStep] at hs
      split at hs
      · split at hs <;> obtain rfl := Option.some.inj hs
        · exact .signalled ‹_› ‹_› ‹_›
        · exact .signalledOther ‹_› ‹_› ‹_›
      · cases hs
  | ioctlPop env =>
      simp only [hostStep] at hs
      split at hs
      · split at hs
        · obtain ⟨m, hm, rfl⟩ := serverStep_some hs
          exact .popNone ‹_› ‹_› hm
        · obtain rfl := Option.some.inj hs
          exact .popOops ‹_› ‹_› ‹_›
        · obtain rfl := Option.some.inj hs
          exact .popped ‹_› ‹_› ‹_›
      · cases hs
  | ioctlCopy n env =>
      simp only [hostStep] at hs
      split at hs
      · split at hs
        · rename_i hn
          subst hn
          obtain ⟨m, hm, rfl⟩ := serverStep_some hs
          exact .copied ‹_› hm
        · obtain rfl := Option.some.inj hs
          exact .copyFailed ‹_› ‹_›
      · cases hs
  | ioctlUnpop env =>
      simp only [hostStep] at hs
      split at hs
      · obtain ⟨m, hm, rfl⟩ := serverStep_some hs
        exact .unpopped ‹_› hm
      · cases hs
  | register pid fd kmalloc =>
      simp only [hostStep] at hs
      split at hs
      · obtain ⟨m, hm, rfl⟩ := serverStep_some hs
        exact .registered ‹_› rfl hm
      · cases hs
  | deRegister =>
      simp only [hostStep] at hs
      split at hs
      · obtain ⟨m, hm, rfl⟩ := serverStep_some hs
        exact .deRegistered ‹_› hm
      · cases hs
  | selectReady =>
      simp only [hostStep] at hs
      split at hs
      · obtain ⟨m, hm, rfl⟩ := serverStep_some hs
        exact .selected ‹_› hm
      · cases hs
  | selectError ret =>
      simp only [hostStep] at hs
      split at hs
      · obtain ⟨m, hm, rfl⟩ := serverStep_some hs
        exact .selectError ‹_› hm
      · cases hs
  | readEventfd ok =>
      cases ok with
      | true =>
          simp only [hostStep] at hs
          split at hs
          · obtain ⟨m, hm, rfl⟩ := serverStep_some hs
            exact .read ‹_› hm
          · cases hs
      | false =>
          obtain ⟨m, hm, rfl⟩ := serverStep_some hs
          exact .readFailed hm
  | server l =>
      simp only [hostStep] at hs
      split at hs
      · obtain ⟨m, hm, rfl⟩ := serverStep_some hs
        exact .server ‹_› hm
      · cases hs

/-- A copy that failed has a negative value to return. -/
def FailedNegative (s : HostState) : Prop :=
  ∀ i retval, s.client = .copyFailed i retval → retval < 0

theorem failedNegative_step {debugOn : Bool} {s t : HostState} {a : HostLabel}
    (h : FailedNegative s) (hs : hostStep debugOn s a = some t) : FailedNegative t := by
  cases hostStep_move hs with
  | @copyFailed n env i uuid hclient hn =>
      rintro j retval hj
      injection hj with hi hretval
      rw [← hretval, copiedRetval, if_neg hn]
      omega
  | popOops => rintro i retval ⟨⟩
  | popped => rintro i retval ⟨⟩
  | copied => rintro i retval ⟨⟩
  | unpopped => rintro i retval ⟨⟩
  | _ => exact h

theorem libcReturn_neg {ret : ℤ} (h : ret < 0) : libcReturn ret < 0 := by
  rw [libcReturn, if_pos h]
  decide

/-! ## Runs in which nothing fails -/

/-- All allocations and all copies to the user succeed. -/
def AllSucceeds (s : HostState) : HostLabel → Prop
  | .put _ krealloc =>
      s.proxy.tableNumEntries = s.proxy.tableSize → krealloc.isSome = true
  | .ioctlCopy notCopied env =>
      notCopied = 0 ∧ env.malloc.isSome = true ∧ GrowthGranted s.main.table env.realloc
  | .register _ _ kmalloc => kmalloc.isSome = true
  | .server l => AllocationsSucceed s.main l
  | _ => True

/-- The proxy's table is there, and no copy has failed. -/
structure Healthy (s : HostState) : Prop where
  sound : s.proxy.Sound
  allocated : s.proxy.moduleTable.isNull = false
  client : s.client = .idle ∨ ∃ i uuid, s.client = .holds i uuid

theorem Healthy.not_copyFailed {s : HostState} (h : Healthy s) {i retval : ℤ} :
    s.client ≠ .copyFailed i retval := by
  rcases h.client with hidle | ⟨j, uuid, hholds⟩
  · rw [hidle]
    rintro ⟨⟩
  · rw [hholds]
    rintro ⟨⟩

/-- A put finds room in a healthy host. -/
theorem Healthy.put_succeeds {s : HostState} (h : Healthy s) {mt : ModuleTableStruct}
    {krealloc : Option (ℤ → ModuleTableStruct)} (hg : AllSucceeds s (.put mt krealloc)) :
    (tablePut s.proxy mt krealloc).1 = 0 ∧
      Proxy.Appended s.proxy (tablePut s.proxy mt krealloc).2 mt :=
  tablePut_succeeds h.sound h.allocated mt hg

theorem healthy_step {debugOn : Bool} {s t : HostState} {a : HostLabel} (h : Healthy s)
    (hg : AllSucceeds s a) (hs : hostStep debugOn s a = some t) : Healthy t := by
  have hpops := popEntry_sound h.sound
  cases hostStep_move hs with
  | @put mt krealloc hput =>
      exact ⟨tablePut_sound h.sound mt krealloc, (h.put_succeeds hg).2.allocated, h.client⟩
  | putFailed hput => exact absurd (h.put_succeeds hg).1 hput
  | popNone hclient hpop hm =>
      obtain ⟨-, rfl⟩ := popEntry_noEntry_allocated h.allocated hpop
      exact ⟨h.sound, h.allocated, h.client⟩
  | popOops hclient hask hpop => exact absurd hpop (popEntry_ne_oops h.allocated)
  | @popped env i uuid u hclient hask hpop =>
      rw [hpop] at hpops
      obtain ⟨-, -, -, -, rfl⟩ := popEntry_entry hpop
      exact ⟨hpops, h.allocated, Or.inr ⟨i, uuid, rfl⟩⟩
  | copied => exact ⟨h.sound, h.allocated, Or.inl rfl⟩
  | copyFailed hclient hn => exact absurd hg.1 hn
  | unpopped hclient hm => exact absurd hclient h.not_copyFailed
  | _ => exact ⟨h.sound, h.allocated, h.client⟩

/-! ## Undisturbed, the steps are the source's functions -/

/-- The three sections under `ks_mutex`, with nothing in between, are `send_event` on
an open eventfd. -/
theorem sendEvent_undisturbed (debugOn : Bool) (s : HostState) (i : ℤ)
    (hidle : s.sender = .idle) (hi : i ∈ s.queued) :
    ∃ run, exec (hostStep debugOn) s run = some { s with
      queued := s.queued.erase i
      counter :=
        if (sendEvent s.ks s.proxy fun fp => some (.ctx fp)).2 = some (.ctx s.efd)
        then s.counter + 1 else s.counter } := by
  obtain ⟨proxy, ks, efd, counter, queued, sender, client, main, log, drained⟩ := s
  obtain rfl : sender = .idle := hidle
  have hmem : i ∈ queued := hi
  cases ks with
  | none => exact ⟨[.sendLock i], by simp [exec, hostStep, hmem, sendEvent]⟩
  | some server =>
      cases hpeek : tablePeek proxy with
      | none =>
          exact ⟨[.sendLock i, .sendPeek], by simp [exec, hostStep, hmem, sendEvent, hpeek]⟩
      | some j =>
          refine ⟨[.sendLock i, .sendPeek, .sendSignal], ?_⟩
          by_cases hfp : server.fp = efd
          · simp [exec, hostStep, hmem, sendEvent, hpeek, hfp]
          · simp [exec, hostStep, hmem, sendEvent, hpeek, hfp]

/-- The pop, the copy and the un-pop, with nothing in between, are the ioctl. -/
theorem ioctl_undisturbed (debugOn : Bool) (s : HostState) (notCopied : ℕ)
    (env : NewEntryEnv) (hidle : s.client = .idle) (hpc : s.main.pc = .getNew)
    (hdrained : s.drained.isSome = true) {ret : ℤ} {uuid : Option Uuid} {t : ModuleTable}
    (h : kvmHostServerGetPendingModule s.proxy notCopied = some (ret, uuid, t)) :
    ∃ run, exec (hostStep debugOn) s run =
      serverStep debugOn { s with proxy := t }
        (.gotEntry (libcReturn ret) (uuid.getD 0) env) := by
  obtain ⟨proxy, ks, efd, counter, queued, sender, client, main, log, drained⟩ := s
  obtain rfl : client = .idle := hidle
  have hask : asksEntry main.pc = true := by
    have : main.pc = .getNew := hpc
    rw [this]
    rfl
  obtain ⟨e, rfl⟩ := Option.isSome_iff_exists.mp hdrained
  unfold kvmHostServerGetPendingModule at h
  dsimp only at h
  split at h
  · rename_i t' hpop
    obtain ⟨rfl, rfl, rfl⟩ : 0 = ret ∧ none = uuid ∧ t' = t := by simpa using h
    exact ⟨[.ioctlPop env], by
      simp [exec, hostStep, hask, hpop, libcReturn]⟩
  · cases h
  · rename_i i u t' hpop
    split at h
    · rename_i hn
      subst hn
      obtain ⟨rfl, rfl, rfl⟩ : copiedRetval 0 = ret ∧ some u = uuid ∧ t' = t := by
        simpa using h
      exact ⟨[.ioctlPop env, .ioctlCopy 0 env], by
        simp [exec, hostStep, hask, hpop]⟩
    · rename_i hn
      obtain ⟨rfl, rfl, rfl⟩ : copiedRetval notCopied = ret ∧ none = uuid ∧
          (tablePopReverse t').2 = t := by
        simpa using h
      exact ⟨[.ioctlPop env, .ioctlCopy notCopied env, .ioctlUnpop env], by
        simp [exec, hostStep, hask, hpop, hn]⟩

/-! ## The start of a run -/

/-- A fresh proxy, and a server that has not started yet. -/
def hostStart : HostState :=
  HostState.init (UsableTable.fresh (fun _ => default) fun _ => default).table 1
    fun _ => default

/-- The server registers and prepares its table. -/
def hostBoot : List HostLabel :=
  [.server (.majorNumber 240), .server (.kvmOpened 3), .server (.extension 1),
    .server (.eventfdCreated 4), .server (.cdevOpened 5), .register 1 4 (some 0),
    .server (.initTable (.ok fun _ => default))]

theorem entryEnv_granted (t : UuidTable) : GrowthGranted t entryEnv.realloc :=
  fun _ _ h => by cases h

end LxcUio.System
