import LxcUio.Foundation.LabelledRun
import LxcUio.Tap.LoadModule

/-!
# Who gets to `do_init_module`

`init_module` and `finit_module` as `patch_module-c.patch` leaves them, from the permission
checks to the end of `load_module`. Any number of calls run interleaved, and
`modules_disabled` is set at any time. Of each call the checks it made are recorded, with
what they found.

`may_init_module` is Linux's and a parameter. What `load_module` does before the tap is one
step, which fails with any error.
-/

namespace LxcUio.Tap

open LxcUio.Foundation LxcUio.Proxy

/-! ## The system calls -/

def MODULE_INIT_IGNORE_MODVERSIONS : BitVec 32 := 1
def MODULE_INIT_IGNORE_VERMAGIC : BitVec 32 := 2
def MODULE_INIT_LXC : BitVec 32 := 0x1000000

/-- `-EPERM`. -/
def negEPERM : ℤ := -1

/-- `-EINVAL`. -/
def negEINVAL : ℤ := -22

structure Caller where
  capSysModule : Bool
  capSysAdmin : Bool
deriving DecidableEq

inductive Syscall where
  | initModule
  | finitModule (flags : BitVec 32)
deriving DecidableEq

/-- The flags that `load_module` is called with. -/
def Syscall.flags : Syscall → BitVec 32
  | .initModule => 0
  | .finitModule flags => flags

/-- The module is loaded with `MODULE_INIT_LXC`. -/
def Syscall.Lxc (c : Syscall) : Prop := c.flags &&& MODULE_INIT_LXC ≠ 0

instance (c : Syscall) : Decidable c.Lxc := inferInstanceAs (Decidable (¬ _))

/-- A check that a call made: `may_init_module` with `modules_disabled` as it was then and
the value returned, the test of `modules_disabled`, and `capable(CAP_SYS_ADMIN)`. -/
inductive Check where
  | mayInitModule (modulesDisabled : Bool) (err : ℤ)
  | modulesDisabled (value : Bool)
  | capableSysAdmin (value : Bool)
deriving DecidableEq

inductive CallPc where
  | mayInit
  | lxcDisabled
  | lxcCapable
  | testErr (err : ℤ)
  | testFlags
  | readFile
  | loadModule
  | tapCheck
  | tapCopy
  | tapCall (nsproxy : ℕ)
  | sysfsCleanup (err : ℤ)
  | doInitModule
  | returned (ret : ℤ)
deriving DecidableEq

structure Call where
  caller : Caller
  syscall : Syscall
  pc : CallPc
  checks : List Check
deriving DecidableEq

def Call.goto (c : Call) (pc : CallPc) : Call := { c with pc := pc }

def Call.record (c : Call) (check : Check) : Call := { c with checks := c.checks ++ [check] }

/-- What the environment answers to a step. -/
inductive Answer where
  | go
  | result (ret : ℤ)
  | proxy (proxyModule : Option ModuleState) (putModulePointerSet : Bool)
  | namespaces (o : NsOutcomes)

/-- One step of a call. -/
def callStep (mayInitModule : Caller → Bool → ℤ) (modulesDisabled : Bool) (c : Call)
    (a : Answer) : Option Call :=
  match c.pc, a with
  | .mayInit, .go =>
      let err := mayInitModule c.caller modulesDisabled
      let checked := c.record (.mayInitModule modulesDisabled err)
      match c.syscall with
      | .initModule =>
          if err ≠ 0 then some (checked.goto (.returned err))
          else some (checked.goto .readFile)
      | .finitModule flags =>
          if flags &&& MODULE_INIT_LXC ≠ 0 then some (checked.goto .lxcDisabled)
          else some (checked.goto (.testErr err))
  | .lxcDisabled, .go =>
      let checked := c.record (.modulesDisabled modulesDisabled)
      if modulesDisabled = true then some (checked.goto (.returned negEPERM))
      else some (checked.goto .lxcCapable)
  | .lxcCapable, .go =>
      let checked := c.record (.capableSysAdmin c.caller.capSysAdmin)
      if c.caller.capSysAdmin = false then some (checked.goto (.returned (-1)))
      -- err=0, whatever may_init_module returned
      else some (checked.goto (.testErr 0))
  | .testErr err, .go =>
      if err ≠ 0 then some (c.goto (.returned err)) else some (c.goto .testFlags)
  | .testFlags, .go =>
      if c.syscall.flags &&& ~~~(MODULE_INIT_IGNORE_MODVERSIONS ||| MODULE_INIT_IGNORE_VERMAGIC |||
          MODULE_INIT_LXC) ≠ 0 then
        some (c.goto (.returned negEINVAL))
      else some (c.goto .readFile)
  | .readFile, .result err =>
      if err ≠ 0 then some (c.goto (.returned err)) else some (c.goto .loadModule)
  | .loadModule, .result err =>
      if err ≠ 0 then some (c.goto (.returned err))
      else if c.syscall.flags &&& MODULE_INIT_LXC ≠ 0 then some (c.goto .tapCheck)
      else some (c.goto .doInitModule)
  -- the tap: err is still 0
  | .tapCheck, .proxy proxyModule putModulePointerSet =>
      if lxcUioFinishedLoading proxyModule = true ∧ putModulePointerSet = true then
        some (c.goto .tapCopy)
      else some (c.goto (.sysfsCleanup 0))
  | .tapCopy, .namespaces o =>
      match (lxcUioNsproxyDeepCopy o []).1 with
      | none => some (c.goto (.sysfsCleanup 0))
      | some nsproxy => some (c.goto (.tapCall nsproxy))
  | .tapCall _, .result ret =>
      if ret < 0 then some (c.goto (.sysfsCleanup 0)) else some (c.goto (.returned 0))
  | .sysfsCleanup err, .go => some (c.goto (.returned err))
  | .doInitModule, .result ret => some (c.goto (.returned ret))
  | _, _ => none

/-- The calls under way and those that have returned, each under a number. -/
structure SyscallState where
  modulesDisabled : Bool
  calls : ℕ → Option Call

inductive SyscallLabel where
  | setModulesDisabled (value : Bool)
  | enter (i : ℕ) (caller : Caller) (syscall : Syscall)
  | step (i : ℕ) (a : Answer)

def SyscallState.init (modulesDisabled : Bool) : SyscallState := ⟨modulesDisabled, fun _ => none⟩

def SyscallState.update (s : SyscallState) (i : ℕ) (c : Call) : SyscallState :=
  { s with calls := Function.update s.calls i (some c) }

def syscallStep (mayInitModule : Caller → Bool → ℤ) (s : SyscallState) :
    SyscallLabel → Option SyscallState
  | .setModulesDisabled value => some { s with modulesDisabled := value }
  | .enter i caller syscall =>
      match s.calls i with
      | none => some (s.update i ⟨caller, syscall, .mayInit, []⟩)
      | some _ => none
  | .step i a =>
      match s.calls i with
      | none => none
      | some c => (callStep mayInitModule s.modulesDisabled c a).map (s.update i)

/-! ## The tap, step by step -/

/-- The steps of the tap take a call where `loadModuleLxc` says: if it returns, with that
value. -/
theorem tap_returns (mayInitModule : Caller → Bool → ℤ) (modulesDisabled : Bool) (c : Call)
    (s : ProxyState) (mod : KModule) (o : TapOutcomes) {ret : ℤ}
    (hret : (loadModuleLxc 0 s mod o []).1 = some ret) : ∃ as,
    exec (callStep mayInitModule modulesDisabled) (c.goto .tapCheck) as =
      some (c.goto (.returned ret)) := by
  unfold loadModuleLxc at hret
  by_cases hgate : lxcUioFinishedLoading s.proxyModule = true ∧ s.putModulePointerSet = true
  · rw [if_pos hgate] at hret
    cases hcopy : lxcUioNsproxyDeepCopy o.namespaces [] with
    | mk copied held =>
      rw [hcopy] at hret
      cases copied with
      | none =>
          obtain rfl := Option.some.inj hret
          refine ⟨[.proxy s.proxyModule s.putModulePointerSet, .namespaces o.namespaces, .go], ?_⟩
          simp [exec, callStep, Call.goto, hgate, hcopy]
      | some nsproxy =>
          dsimp only at hret
          obtain ⟨put, hput⟩ : ∃ put, put = lxcUioProxyPutModule1 s.ks s.table o.uuid nsproxy mod
            o.krealloc o.eventfdCtxFileget := ⟨_, rfl⟩
          rw [← hput] at hret
          split at hret
          · cases hret
          · refine ⟨[.proxy s.proxyModule s.putModulePointerSet, .namespaces o.namespaces,
              .result put.1] ++ if put.1 < 0 then [.go] else [], ?_⟩
            split at hret
            · rename_i hneg
              obtain rfl := Option.some.inj hret
              simp [exec, callStep, Call.goto, hgate, hcopy, hneg]
            · rename_i hpos
              obtain rfl := Option.some.inj hret
              simp [exec, callStep, Call.goto, hgate, hcopy, hpos]
  · rw [if_neg hgate] at hret
    obtain rfl := Option.some.inj hret
    refine ⟨[.proxy s.proxyModule s.putModulePointerSet, .go], ?_⟩
    simp [exec, callStep, Call.goto, hgate]

/-! ## What a call has passed -/

/-- `may_init_module` let the caller through: it has CAP_SYS_MODULE, and modules were not
disabled then. -/
structure PassedMayInit (c : Call) : Prop where
  checked : Check.mayInitModule false 0 ∈ c.checks
  capable : c.caller.capSysModule = true

/-- The checks of the branch for `MODULE_INIT_LXC`: modules were not disabled, and the caller
has CAP_SYS_ADMIN. -/
structure PassedLxc (c : Call) : Prop where
  notDisabled : Check.modulesDisabled false ∈ c.checks
  checked : Check.capableSysAdmin true ∈ c.checks
  capable : c.caller.capSysAdmin = true

/-- The permission checks are behind the call, and it has not returned. -/
def CallPc.PastPermissions : CallPc → Prop
  | .mayInit => False
  | .lxcDisabled => False
  | .lxcCapable => False
  | .testErr _ => False
  | .returned _ => False
  | _ => True

/-- **The container path gives no host execution.** -/
structure HostProtected (s : SyscallState) : Prop where
  initAllowed : ∀ i c, s.calls i = some c → c.pc = .doInitModule → PassedMayInit c
  lxcNeverInit : ∀ i c, s.calls i = some c → c.syscall.Lxc → c.pc ≠ .doInitModule
  lxcAllowed : ∀ i c, s.calls i = some c → c.syscall.Lxc → c.pc.PastPermissions → PassedLxc c

/-- The checks for the kind of call that it is. -/
def Passed (c : Call) : Prop :=
  (c.syscall.Lxc → PassedLxc c) ∧ (¬ c.syscall.Lxc → PassedMayInit c)

/-- What a call has passed by the time it stands at its program counter. -/
def CallOk (c : Call) : Prop :=
  match c.pc with
  | .mayInit => True
  | .lxcDisabled => c.syscall.Lxc
  | .lxcCapable => c.syscall.Lxc ∧ Check.modulesDisabled false ∈ c.checks
  | .testErr err => err = 0 → Passed c
  | .testFlags => Passed c
  | .readFile => Passed c
  | .loadModule => Passed c
  | .tapCheck => c.syscall.Lxc ∧ Passed c
  | .tapCopy => c.syscall.Lxc ∧ Passed c
  | .tapCall _ => c.syscall.Lxc ∧ Passed c
  | .sysfsCleanup _ => c.syscall.Lxc ∧ Passed c
  | .doInitModule => ¬ c.syscall.Lxc ∧ Passed c
  | .returned _ => True

theorem CallOk.passed {c : Call} (h : CallOk c) (hpast : c.pc.PastPermissions) : Passed c := by
  unfold CallOk at h
  cases hpc : c.pc <;> rw [hpc] at h hpast
  case testFlags => exact h
  case readFile => exact h
  case loadModule => exact h
  case tapCheck => exact h.2
  case tapCopy => exact h.2
  case tapCall => exact h.2
  case sysfsCleanup => exact h.2
  case doInitModule => exact h.2
  all_goals exact hpast.elim

section Steps

variable {mayInitModule : Caller → Bool → ℤ}

theorem Passed.goto {c : Call} (h : Passed c) (pc : CallPc) : Passed (c.goto pc) :=
  ⟨fun hlxc => ⟨(h.1 hlxc).notDisabled, (h.1 hlxc).checked, (h.1 hlxc).capable⟩,
    fun hlxc => ⟨(h.2 hlxc).checked, (h.2 hlxc).capable⟩⟩

/-- `may_init_module`, and where it leads. -/
theorem mayInit_ok (hmay : ∀ caller disabled, mayInitModule caller disabled = 0 →
      caller.capSysModule = true ∧ disabled = false) {disabled : Bool} {c c' : Call}
    (hpc : c.pc = .mayInit) (hstep : callStep mayInitModule disabled c .go = some c') :
    CallOk c' := by
  have hallowed : ∀ pc, mayInitModule c.caller disabled = 0 →
      PassedMayInit ((c.record (.mayInitModule disabled
        (mayInitModule c.caller disabled))).goto pc) := by
    intro pc hret
    obtain ⟨hcap, hdisabled⟩ := hmay c.caller disabled hret
    refine ⟨List.mem_append_right _ (List.mem_singleton.mpr ?_), hcap⟩
    rw [hret, hdisabled]
  simp only [callStep, hpc] at hstep
  cases hcall : c.syscall with
  | initModule =>
      simp only [hcall] at hstep
      have hno : ¬ c.syscall.Lxc := by
        rw [hcall]
        decide
      split at hstep
      · obtain rfl := Option.some.inj hstep
        exact trivial
      · rename_i hret
        obtain rfl := Option.some.inj hstep
        exact ⟨fun hlxc => absurd hlxc hno, fun _ => hallowed _ (not_not.mp hret)⟩
  | finitModule flags =>
      simp only [hcall] at hstep
      split at hstep
      · rename_i hlxc
        obtain rfl := Option.some.inj hstep
        show c.syscall.Lxc
        rw [hcall]
        exact hlxc
      · rename_i hno
        obtain rfl := Option.some.inj hstep
        refine fun hret => ⟨fun hlxc => absurd ?_ hno, fun _ => hallowed _ hret⟩
        change c.syscall.Lxc at hlxc
        rw [hcall] at hlxc
        exact hlxc

/-- Each step of a call keeps what the call has passed. -/
theorem callStep_ok (hmay : ∀ caller disabled, mayInitModule caller disabled = 0 →
      caller.capSysModule = true ∧ disabled = false) {disabled : Bool} {c c' : Call} {a : Answer}
    (h : CallOk c) (hstep : callStep mayInitModule disabled c a = some c') : CallOk c' := by
  unfold CallOk at h
  cases hpc : c.pc with
  | mayInit =>
      cases a with
      | go => exact mayInit_ok hmay hpc hstep
      | _ => simp [callStep, hpc] at hstep
  | lxcDisabled =>
      cases a with
      | go =>
          simp only [callStep, hpc] at h hstep
          split at hstep
          · obtain rfl := Option.some.inj hstep
            exact trivial
          · rename_i hdisabled
            obtain rfl := Option.some.inj hstep
            refine ⟨h, List.mem_append_right _ (List.mem_singleton.mpr ?_)⟩
            rw [Bool.not_eq_true] at hdisabled
            rw [hdisabled]
      | _ => simp [callStep, hpc] at hstep
  | lxcCapable =>
      cases a with
      | go =>
          simp only [callStep, hpc] at h hstep
          split at hstep
          · obtain rfl := Option.some.inj hstep
            exact trivial
          · rename_i hcap
            obtain rfl := Option.some.inj hstep
            rw [Bool.not_eq_false] at hcap
            -- `err` is 0 from here on, whatever `may_init_module` said
            refine fun _ => ⟨fun _ => ⟨List.mem_append_left _ h.2,
              List.mem_append_right _ (List.mem_singleton.mpr ?_), hcap⟩,
              fun hno => absurd h.1 hno⟩
            rw [hcap]
      | _ => simp [callStep, hpc] at hstep
  | testErr err =>
      cases a with
      | go =>
          simp only [callStep, hpc] at h hstep
          split at hstep
          · obtain rfl := Option.some.inj hstep
            exact trivial
          · rename_i herr
            obtain rfl := Option.some.inj hstep
            exact (h (not_not.mp herr)).goto .testFlags
      | _ => simp [callStep, hpc] at hstep
  | testFlags =>
      cases a with
      | go =>
          simp only [callStep, hpc] at h hstep
          split at hstep
          · obtain rfl := Option.some.inj hstep
            exact trivial
          · obtain rfl := Option.some.inj hstep
            exact h.goto .readFile
      | _ => simp [callStep, hpc] at hstep
  | readFile =>
      cases a with
      | result err =>
          simp only [callStep, hpc] at h hstep
          split at hstep
          · obtain rfl := Option.some.inj hstep
            exact trivial
          · obtain rfl := Option.some.inj hstep
            exact h.goto .loadModule
      | _ => simp [callStep, hpc] at hstep
  | loadModule =>
      cases a with
      | result err =>
          simp only [callStep, hpc] at h hstep
          split at hstep
          · obtain rfl := Option.some.inj hstep
            exact trivial
          · -- the tap branches off before `do_init_module`
            split at hstep
            · rename_i hlxc
              obtain rfl := Option.some.inj hstep
              exact ⟨hlxc, h.goto .tapCheck⟩
            · rename_i hno
              obtain rfl := Option.some.inj hstep
              exact ⟨hno, h.goto .doInitModule⟩
      | _ => simp [callStep, hpc] at hstep
  | tapCheck =>
      cases a with
      | proxy proxyModule putModulePointerSet =>
          simp only [callStep, hpc] at h hstep
          split at hstep
          · obtain rfl := Option.some.inj hstep
            exact ⟨h.1, h.2.goto .tapCopy⟩
          · obtain rfl := Option.some.inj hstep
            exact ⟨h.1, h.2.goto (.sysfsCleanup 0)⟩
      | _ => simp [callStep, hpc] at hstep
  | tapCopy =>
      cases a with
      | namespaces o =>
          simp only [callStep, hpc] at h hstep
          split at hstep
          · obtain rfl := Option.some.inj hstep
            exact ⟨h.1, h.2.goto (.sysfsCleanup 0)⟩
          · rename_i nsproxy _
            obtain rfl := Option.some.inj hstep
            exact ⟨h.1, h.2.goto (.tapCall nsproxy)⟩
      | _ => simp [callStep, hpc] at hstep
  | tapCall nsproxy =>
      cases a with
      | result ret =>
          simp only [callStep, hpc] at h hstep
          -- a failed put jumps to the cleanup, a successful one returns
          split at hstep
          · obtain rfl := Option.some.inj hstep
            exact ⟨h.1, h.2.goto (.sysfsCleanup 0)⟩
          · obtain rfl := Option.some.inj hstep
            exact trivial
      | _ => simp [callStep, hpc] at hstep
  | sysfsCleanup err =>
      cases a with
      | go =>
          simp only [callStep, hpc] at hstep
          obtain rfl := Option.some.inj hstep
          exact trivial
      | _ => simp [callStep, hpc] at hstep
  | doInitModule =>
      cases a with
      | result ret =>
          simp only [callStep, hpc] at hstep
          obtain rfl := Option.some.inj hstep
          exact trivial
      | _ => simp [callStep, hpc] at hstep
  | returned ret => simp [callStep, hpc] at hstep

end Steps

/-! ## All calls -/

def CallsOk (s : SyscallState) : Prop := ∀ i c, s.calls i = some c → CallOk c

theorem CallsOk.update {s : SyscallState} (h : CallsOk s) {i : ℕ} {c : Call} (hc : CallOk c) :
    CallsOk (s.update i c) := by
  intro j c' hj
  change Function.update s.calls i (some c) j = some c' at hj
  by_cases hji : j = i
  · subst hji
    rw [Function.update_self] at hj
    obtain rfl := Option.some.inj hj
    exact hc
  · rw [Function.update_of_ne hji] at hj
    exact h j c' hj

theorem CallsOk.hostProtected {s : SyscallState} (h : CallsOk s) : HostProtected s where
  initAllowed := by
    intro i c hc hpc
    have hok := h i c hc
    unfold CallOk at hok
    rw [hpc] at hok
    exact hok.2.2 hok.1
  lxcNeverInit := by
    intro i c hc hlxc hpc
    have hok := h i c hc
    unfold CallOk at hok
    rw [hpc] at hok
    exact hok.1 hlxc
  lxcAllowed := fun i c hc hlxc hpast => ((h i c hc).passed hpast).1 hlxc

/-- **Who gets to `do_init_module`**, in every state that any number of calls can reach. The
hypothesis is about Linux: `may_init_module` fails unless the caller has CAP_SYS_MODULE and
modules are not disabled. -/
theorem hostProtected_of_run (mayInitModule : Caller → Bool → ℤ)
    (hmay : ∀ caller disabled, mayInitModule caller disabled = 0 →
      caller.capSysModule = true ∧ disabled = false)
    {disabled : Bool} {s : SyscallState}
    (h : Via (syscallStep mayInitModule) anyStep (SyscallState.init disabled) s) :
    HostProtected s := by
  refine CallsOk.hostProtected (h.invariant CallsOk (fun i c hc => by cases hc) ?_)
  intro u l v hu _ hstep
  cases l with
  | setModulesDisabled value =>
      obtain rfl := Option.some.inj hstep
      exact hu
  | enter i caller syscall =>
      simp only [syscallStep] at hstep
      split at hstep
      · obtain rfl := Option.some.inj hstep
        exact hu.update trivial
      · cases hstep
  | step i a =>
      simp only [syscallStep] at hstep
      split at hstep
      · cases hstep
      · rename_i c hc
        obtain ⟨c', hc', rfl⟩ := Option.map_eq_some_iff.mp hstep
        exact hu.update (callStep_ok hmay (hu i c hc) hc')

/-- `may_init_module` of Linux 4.7.3. -/
def linuxMayInitModule (c : Caller) (modulesDisabled : Bool) : ℤ :=
  if c.capSysModule = false ∨ modulesDisabled = true then negEPERM else 0

/-- An administrator's module and a container's module, loaded at the same time: one gets to
`do_init_module`, the other to the call of the proxy. -/
theorem hostProtected_of_two_calls : ∃ s : SyscallState,
    HostProtected s ∧
      (s.calls 0).map Call.pc = some .doInitModule ∧
      (s.calls 1).map Call.pc = some (.tapCall 5) := by
  have hmay : ∀ caller disabled, linuxMayInitModule caller disabled = 0 →
      caller.capSysModule = true ∧ disabled = false := by
    rintro ⟨_ | _, _ | _⟩ (_ | _) h <;> first | exact ⟨rfl, rfl⟩ | exact absurd h (by decide)
  have hrun : ∃ s, exec (syscallStep linuxMayInitModule) (SyscallState.init false)
      [.enter 0 ⟨true, false⟩ (.finitModule 0),
        .enter 1 ⟨false, true⟩ (.finitModule MODULE_INIT_LXC),
        .step 0 .go, .step 1 .go, .step 1 .go, .step 0 .go, .step 1 .go, .step 1 .go, .step 1 .go,
        .step 0 .go, .step 0 (.result 0), .step 1 (.result 0), .step 0 (.result 0),
        .setModulesDisabled true, .step 1 (.result 0), .step 1 (.proxy (some .live) true),
        .step 1 (.namespaces ⟨some 5, .ok 0, .ok 0, .ok 0, .ok 0, .ok 0, .ok 0⟩)] = some s ∧
      (s.calls 0).map Call.pc = some .doInitModule ∧
        (s.calls 1).map Call.pc = some (.tapCall 5) := ⟨_, rfl, rfl, rfl⟩
  obtain ⟨s, hs, hinit, htap⟩ := hrun
  exact ⟨s, hostProtected_of_run linuxMayInitModule hmay (via_of_exec hs), hinit, htap⟩

end LxcUio.Tap
