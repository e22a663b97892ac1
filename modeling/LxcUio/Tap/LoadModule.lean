import LxcUio.Proxy.Cdev

/-!
# The tap in `load_module`

The branch for `MODULE_INIT_LXC` that `patch_module-c.patch` adds, and the copy of
the namespaces of insmod's process (`patch_nsproxy-c.patch`) that it hands to the
proxy. `held` is the list of the objects that the copy allocated and that were not
released yet, the most recent first.

`load_module` reaches the tap with `err = 0`; the label `sysfs_cleanup` ends by
returning `err`. The put announces the entry to the server: the call does not come back when
`eventfd_signal` gets an error pointer, or when `ks->fp` cannot be followed.
-/

namespace LxcUio.Tap

open LxcUio.Foundation LxcUio.Proxy

/-! ## The namespace copy -/

/-- An object that `lxc_uio_create_new_namespaces` allocates or takes. -/
inductive NsObject where
  | nsproxy (p : ℕ)
  | mntNs (p : ℕ)
  | utsNs (p : ℕ)
  | ipcNs (p : ℕ)
  | pidNs (p : ℕ)
  | cgroupNs (p : ℕ)
  | netNs (p : ℕ)
deriving DecidableEq

/-- What `create_nsproxy` and the six copy functions return; an error pointer is
`.error err`. -/
structure NsOutcomes where
  createNsproxy : Option ℕ
  copyMntNs : Except ℤ ℕ
  copyUtsname : Except ℤ ℕ
  copyIpcs : Except ℤ ℕ
  copyPidNs : Except ℤ ℕ
  copyCgroupNs : Except ℤ ℕ
  copyNetNs : Except ℤ ℕ

/-! The labels of the unwinding path; each falls through to the next. -/

def outNs (nsp : ℕ) (held : List NsObject) : List NsObject :=
  held.erase (.nsproxy nsp)

def outUts (nsp mnt : ℕ) (held : List NsObject) : List NsObject :=
  outNs nsp (held.erase (.mntNs mnt))

def outIpc (nsp mnt uts : ℕ) (held : List NsObject) : List NsObject :=
  outUts nsp mnt (held.erase (.utsNs uts))

def outPid (nsp mnt uts ipc : ℕ) (held : List NsObject) : List NsObject :=
  outIpc nsp mnt uts (held.erase (.ipcNs ipc))

def outCgroup (nsp mnt uts ipc pid : ℕ) (held : List NsObject) : List NsObject :=
  outPid nsp mnt uts ipc (held.erase (.pidNs pid))

def outNet (nsp mnt uts ipc pid cgroup : ℕ) (held : List NsObject) : List NsObject :=
  outCgroup nsp mnt uts ipc pid (held.erase (.cgroupNs cgroup))

def lxcUioCreateNewNamespaces (o : NsOutcomes) (held : List NsObject) :
    Except ℤ ℕ × List NsObject :=
  match o.createNsproxy with
  | none => (.error negENOMEM, held)
  | some nsp =>
    let held := .nsproxy nsp :: held
    match o.copyMntNs with
    | .error err => (.error err, outNs nsp held)
    | .ok mnt =>
      let held := .mntNs mnt :: held
      match o.copyUtsname with
      | .error err => (.error err, outUts nsp mnt held)
      | .ok uts =>
        let held := .utsNs uts :: held
        match o.copyIpcs with
        | .error err => (.error err, outIpc nsp mnt uts held)
        | .ok ipc =>
          let held := .ipcNs ipc :: held
          match o.copyPidNs with
          | .error err => (.error err, outPid nsp mnt uts ipc held)
          | .ok pid =>
            let held := .pidNs pid :: held
            match o.copyCgroupNs with
            | .error err => (.error err, outCgroup nsp mnt uts ipc pid held)
            | .ok cgroup =>
              let held := .cgroupNs cgroup :: held
              match o.copyNetNs with
              | .error err => (.error err, outNet nsp mnt uts ipc pid cgroup held)
              | .ok net => (.ok nsp, .netNs net :: held)

/-- Every allocation and every copy succeeds. -/
def NsOutcomes.Succeed (o : NsOutcomes) : Prop :=
  o.createNsproxy.isSome = true ∧ o.copyMntNs.isOk = true ∧ o.copyUtsname.isOk = true ∧
    o.copyIpcs.isOk = true ∧ o.copyPidNs.isOk = true ∧ o.copyCgroupNs.isOk = true ∧
    o.copyNetNs.isOk = true

/-- The deep copy, NULL on error. -/
def lxcUioNsproxyDeepCopy (o : NsOutcomes) (held : List NsObject) :
    Option ℕ × List NsObject :=
  match lxcUioCreateNewNamespaces o held with
  | (.error _, held') => (none, held')
  | (.ok newNs, held') => (some newNs, held')

/-- The whole copy: the struct, and the six namespaces that were copied for it. -/
structure NsOutcomes.Copied (o : NsOutcomes) (newNs : ℕ) (copy : List NsObject) : Prop where
  nsproxy : o.createNsproxy = some newNs ∧ NsObject.nsproxy newNs ∈ copy
  mntNs : ∃ p, o.copyMntNs = .ok p ∧ NsObject.mntNs p ∈ copy
  utsNs : ∃ p, o.copyUtsname = .ok p ∧ NsObject.utsNs p ∈ copy
  ipcNs : ∃ p, o.copyIpcs = .ok p ∧ NsObject.ipcNs p ∈ copy
  pidNs : ∃ p, o.copyPidNs = .ok p ∧ NsObject.pidNs p ∈ copy
  cgroupNs : ∃ p, o.copyCgroupNs = .ok p ∧ NsObject.cgroupNs p ∈ copy
  netNs : ∃ p, o.copyNetNs = .ok p ∧ NsObject.netNs p ∈ copy

/-- The unwinding path releases what was taken, whichever copy failed. -/
theorem deepCopy_cases (o : NsOutcomes) (held : List NsObject) :
    (o.Succeed ∧ ∃ newNs copy, lxcUioNsproxyDeepCopy o held = (some newNs, copy ++ held) ∧
      o.Copied newNs copy) ∨
    (¬ o.Succeed ∧ lxcUioNsproxyDeepCopy o held = (none, held)) := by
  obtain ⟨createNsproxy, mntNs, utsNs, ipcNs, pidNs, cgroupNs, netNs⟩ := o
  cases createNsproxy with
  | none => exact Or.inr ⟨by simp [NsOutcomes.Succeed], rfl⟩
  | some nsp =>
  cases mntNs with
  | error err =>
      exact Or.inr ⟨by simp [NsOutcomes.Succeed, Except.isOk, Except.toBool],
        by simp [lxcUioNsproxyDeepCopy, lxcUioCreateNewNamespaces, outNs]⟩
  | ok mnt =>
  cases utsNs with
  | error err =>
      exact Or.inr ⟨by simp [NsOutcomes.Succeed, Except.isOk, Except.toBool],
        by simp [lxcUioNsproxyDeepCopy, lxcUioCreateNewNamespaces, outUts, outNs]⟩
  | ok uts =>
  cases ipcNs with
  | error err =>
      exact Or.inr ⟨by simp [NsOutcomes.Succeed, Except.isOk, Except.toBool],
        by simp [lxcUioNsproxyDeepCopy, lxcUioCreateNewNamespaces, outIpc, outUts, outNs]⟩
  | ok ipc =>
  cases pidNs with
  | error err =>
      exact Or.inr ⟨by simp [NsOutcomes.Succeed, Except.isOk, Except.toBool],
        by simp [lxcUioNsproxyDeepCopy, lxcUioCreateNewNamespaces, outPid, outIpc, outUts,
          outNs]⟩
  | ok pid =>
  cases cgroupNs with
  | error err =>
      exact Or.inr ⟨by simp [NsOutcomes.Succeed, Except.isOk, Except.toBool],
        by simp [lxcUioNsproxyDeepCopy, lxcUioCreateNewNamespaces, outCgroup, outPid,
          outIpc, outUts, outNs]⟩
  | ok cgroup =>
  cases netNs with
  | error err =>
      exact Or.inr ⟨by simp [NsOutcomes.Succeed, Except.isOk, Except.toBool],
        by simp [lxcUioNsproxyDeepCopy, lxcUioCreateNewNamespaces, outNet, outCgroup,
          outPid, outIpc, outUts, outNs]⟩
  | ok net =>
      refine Or.inl ⟨by simp [NsOutcomes.Succeed, Except.isOk, Except.toBool], nsp,
        [.netNs net, .cgroupNs cgroup, .pidNs pid, .ipcNs ipc, .utsNs uts, .mntNs mnt,
          .nsproxy nsp], rfl, ⟨rfl, by simp⟩, ?_, ?_, ?_, ?_, ?_, ?_⟩
      all_goals exact ⟨_, rfl, by simp⟩

/-! ## The tap -/

/-- `enum module_state`. -/
inductive ModuleState where
  | live
  | coming
  | going
  | unformed
deriving DecidableEq

/-- `lxc_uio_finished_loading`, on what `find_module_all` returned. -/
def lxcUioFinishedLoading (mod : Option ModuleState) : Bool :=
  match mod with
  | none => false
  | some state => state = .live

/-- The proxy as the tap finds it: its module, the exported function pointer, the
registered server and its table. -/
structure ProxyState where
  proxyModule : Option ModuleState
  putModulePointerSet : Bool
  ks : Option KvmHostServer
  table : ModuleTable
  sound : table.Sound

/-- What the environment answers during one call of the tap. An `fp` on which
`eventfd_ctx_fileget` faults is answered with an error pointer. -/
structure TapOutcomes where
  uuid : Uuid
  namespaces : NsOutcomes
  krealloc : Option (ℤ → ModuleTableStruct)
  eventfdCtxFileget : FilePtr → Option EventfdCtx

/-- The tap: the value `load_module` returns, if it returns, the proxy's table and the
namespace objects held. -/
def loadModuleLxc (err : ℤ) (s : ProxyState) (mod : KModule) (o : TapOutcomes)
    (held : List NsObject) : OrOops ℤ × ModuleTable × List NsObject :=
  if lxcUioFinishedLoading s.proxyModule = true ∧ s.putModulePointerSet = true then
    match lxcUioNsproxyDeepCopy o.namespaces held with
    -- goto sysfs_cleanup
    | (none, held') => (some err, s.table, held')
    | (some nsproxy, held') =>
        let put := lxcUioProxyPutModule1 s.ks s.table o.uuid nsproxy mod o.krealloc
          o.eventfdCtxFileget
        if put.2.2.any EventfdCtx.faults = true then (none, put.2.1, held')
        -- goto sysfs_cleanup
        else if put.1 < 0 then (some err, put.2.1, held')
        else (some 0, put.2.1, held')
  -- goto sysfs_cleanup
  else (some err, s.table, held)

/-- Exactly one entry, with this uuid, this module and a copy of the namespaces
that is alive as a whole, stands behind the old ones in a usable table. -/
def OneEntryAppended (t t' : ModuleTable) (o : TapOutcomes) (mod : KModule)
    (held held' : List NsObject) : Prop :=
  t'.Sound ∧ ∃ nsproxy copy, held' = copy ++ held ∧ o.namespaces.Copied nsproxy copy ∧
    Appended t t' ⟨o.uuid, nsproxy, mod⟩

/-- **The verdict of insmod**: 0 is returned when an entry was appended, and then only; otherwise
an error is returned, the earlier entries are in place and no namespace copy is kept. -/
structure Verdict (t : ModuleTable) (o : TapOutcomes) (mod : KModule)
    (held : List NsObject) (r : OrOops ℤ × ModuleTable × List NsObject) : Prop where
  zero_iff : r.1 = some 0 ↔ OneEntryAppended t r.2.1 o mod held r.2.2
  refused : ¬ OneEntryAppended t r.2.1 o mod held r.2.2 →
    (∃ ret, r.1 = some ret ∧ ret < 0) ∧ r.2.2 = held ∧
      r.2.1.moduleTable.isNull = t.moduleTable.isNull ∧
      r.2.1.tableNumEntries = t.tableNumEntries ∧
      ∀ i, 0 ≤ i → i < t.tableNumEntries →
        r.2.1.moduleTable.cells i = t.moduleTable.cells i

/-- The proxy is live and has set the pointer, the namespaces can be copied, the table is
allocated and has room or can grow, and the server's file, if one is registered, gives no error
pointer. -/
structure TapSucceeds (s : ProxyState) (o : TapOutcomes) : Prop where
  live : s.proxyModule = some .live
  pointer : s.putModulePointerSet = true
  copied : o.namespaces.Succeed
  allocated : s.table.moduleTable.isNull = false
  room : s.table.tableNumEntries < s.table.tableSize ∨ o.krealloc.isSome = true
  announced : ∀ server ctx, s.ks = some server →
    o.eventfdCtxFileget server.fp = some ctx → ctx.faults = false

theorem finishedLoading_iff (mod : Option ModuleState) :
    lxcUioFinishedLoading mod = true ↔ mod = some .live := by
  cases mod with
  | none => simp [lxcUioFinishedLoading]
  | some state => simp [lxcUioFinishedLoading]

section PutModule

variable (ks : Option KvmHostServer) (t : ModuleTable) (uuid : Uuid) (nsproxy : ℕ)
  (mod : KModule) (krealloc : Option (ℤ → ModuleTableStruct))
  (fileget : FilePtr → Option EventfdCtx)

theorem putModule1_fst :
    (lxcUioProxyPutModule1 ks t uuid nsproxy mod krealloc fileget).1 =
      (tablePut t ⟨uuid, nsproxy, mod⟩ krealloc).1 := by
  simp only [lxcUioProxyPutModule1]
  split <;> rfl

theorem putModule1_table :
    (lxcUioProxyPutModule1 ks t uuid nsproxy mod krealloc fileget).2.1 =
      (tablePut t ⟨uuid, nsproxy, mod⟩ krealloc).2 := by
  simp only [lxcUioProxyPutModule1]
  split <;> rfl

/-- A put that failed announces nothing. -/
theorem putModule1_silent (hneg : (tablePut t ⟨uuid, nsproxy, mod⟩ krealloc).1 < 0) :
    (lxcUioProxyPutModule1 ks t uuid nsproxy mod krealloc fileget).2.2 = none := by
  simp only [lxcUioProxyPutModule1, if_neg (ne_of_lt hneg)]

/-- The entry just put is pending, so the file of a registered server is asked for. -/
theorem putModule1_announces (ht : t.Sound)
    (hret : (tablePut t ⟨uuid, nsproxy, mod⟩ krealloc).1 = 0)
    (happ : Appended t (tablePut t ⟨uuid, nsproxy, mod⟩ krealloc).2 ⟨uuid, nsproxy, mod⟩) :
    (lxcUioProxyPutModule1 ks t uuid nsproxy mod krealloc fileget).2.2 =
      ks.bind fun server => fileget server.fp := by
  have hpeek : ∃ i, tablePeek (tablePut t ⟨uuid, nsproxy, mod⟩ krealloc).2 = some i := by
    have hlt := ht.index_lt
    have hpending : (tablePut t ⟨uuid, nsproxy, mod⟩ krealloc).2.Pending := by
      unfold ModuleTable.Pending
      rw [happ.num, happ.index]
      omega
    refine ⟨_, (if_pos hpending).trans (if_neg ?_)⟩
    rw [happ.allocated]
    rintro ⟨hnull, -⟩
    cases hnull
  obtain ⟨i, hpeek⟩ := hpeek
  simp only [lxcUioProxyPutModule1, if_pos hret]
  cases ks with
  | none => rfl
  | some server =>
      simp only [sendEvent, hpeek, Option.bind_some]
      cases fileget server.fp with
      | none => rfl
      | some ctx => rfl

end PutModule

/-- A table with as many entries as before got no entry. -/
theorem not_appended_of_num {t t' : ModuleTable} {o : TapOutcomes} {mod : KModule}
    {held held' : List NsObject} (h : t'.tableNumEntries = t.tableNumEntries) :
    ¬ OneEntryAppended t t' o mod held held' := by
  rintro ⟨-, nsproxy, copy, -, -, happ⟩
  have := happ.num
  omega

/-- The file of the server answers with an error pointer. -/
theorem announced_iff (ks : Option KvmHostServer) (fileget : FilePtr → Option EventfdCtx) :
    (ks.bind fun server => fileget server.fp).any EventfdCtx.faults = false ↔
      ∀ server ctx, ks = some server → fileget server.fp = some ctx → ctx.faults = false := by
  cases ks with
  | none => exact iff_of_true rfl fun server ctx h => by cases h
  | some server =>
      constructor
      · rintro h _ ctx ⟨⟩ hctx
        rw [Option.bind_some, hctx] at h
        exact h
      · intro h
        rw [Option.bind_some]
        cases hctx : fileget server.fp with
        | none => rfl
        | some ctx => exact h server ctx rfl hctx

/-- What the tap does: it appends and returns 0, or it appends and does not return, or it
appends nothing and returns `err`. -/
theorem loadModuleLxc_cases (err : ℤ) (s : ProxyState) (mod : KModule)
    (o : TapOutcomes) (held : List NsObject) :
    (TapSucceeds s o ∧ (loadModuleLxc err s mod o held).1 = some 0 ∧
      OneEntryAppended s.table (loadModuleLxc err s mod o held).2.1 o mod held
        (loadModuleLxc err s mod o held).2.2) ∨
    (¬ TapSucceeds s o ∧ (loadModuleLxc err s mod o held).1 = none ∧
      OneEntryAppended s.table (loadModuleLxc err s mod o held).2.1 o mod held
        (loadModuleLxc err s mod o held).2.2) ∨
    (¬ TapSucceeds s o ∧ (loadModuleLxc err s mod o held).1 = some err ∧
      (loadModuleLxc err s mod o held).2.1.tableNumEntries = s.table.tableNumEntries) := by
  by_cases hgate : lxcUioFinishedLoading s.proxyModule = true ∧
      s.putModulePointerSet = true
  · have hlive := (finishedLoading_iff _).mp hgate.1
    rcases deepCopy_cases o.namespaces held with
      ⟨hok, nsproxy, copy, hcopy, hwhole⟩ | ⟨hfail, hcopy⟩
    · rcases tablePut_cases s.sound ⟨o.uuid, nsproxy, mod⟩ o.krealloc with
        ⟨hret, happ, hnull, hroom⟩ | ⟨hneg, hnull, hsame⟩ | ⟨hneg, hfull, hnone, hlost⟩
      · have hctx := putModule1_announces s.ks s.table o.uuid nsproxy mod o.krealloc
          o.eventfdCtxFileget s.sound hret happ
        have hone : OneEntryAppended s.table
            (tablePut s.table ⟨o.uuid, nsproxy, mod⟩ o.krealloc).2 o mod held (copy ++ held) :=
          ⟨tablePut_sound s.sound _ _, nsproxy, copy, rfl, hwhole, happ⟩
        cases hfaults : (s.ks.bind fun server => o.eventfdCtxFileget server.fp).any
            EventfdCtx.faults with
        | false =>
            left
            have hrun : loadModuleLxc err s mod o held =
                (some 0, (tablePut s.table ⟨o.uuid, nsproxy, mod⟩ o.krealloc).2,
                  copy ++ held) := by
              simp only [loadModuleLxc, hgate, and_self, if_true, hcopy, putModule1_fst,
                putModule1_table, hctx, hfaults, hret, lt_irrefl, if_false, Bool.false_eq_true]
            rw [hrun]
            exact ⟨⟨hlive, hgate.2, hok, hnull, hroom, (announced_iff _ _).mp hfaults⟩, rfl, hone⟩
        | true =>
            right; left
            have hrun : loadModuleLxc err s mod o held =
                (none, (tablePut s.table ⟨o.uuid, nsproxy, mod⟩ o.krealloc).2,
                  copy ++ held) := by
              simp only [loadModuleLxc, hgate, and_self, if_true, hcopy, putModule1_table, hctx,
                hfaults]
            rw [hrun]
            refine ⟨fun h => ?_, rfl, hone⟩
            have hsilent := (announced_iff _ _).mpr h.announced
            exact Bool.false_ne_true (hsilent.symm.trans hfaults)
      all_goals
        right; right
        have hrun : loadModuleLxc err s mod o held =
            (some err, (tablePut s.table ⟨o.uuid, nsproxy, mod⟩ o.krealloc).2,
              copy ++ held) := by
          simp only [loadModuleLxc, hgate, and_self, if_true, hcopy, putModule1_fst,
            putModule1_table, putModule1_silent _ _ _ _ _ _ _ hneg, Option.any_none,
            Bool.false_eq_true, if_false, hneg]
        rw [hrun]
      · refine ⟨fun h => ?_, rfl, by rw [hsame]⟩
        rw [h.allocated] at hnull
        cases hnull
      · refine ⟨fun h => ?_, rfl, by rw [hlost]; rfl⟩
        rcases h.room with hlt | hsome
        · omega
        · rw [hnone] at hsome
          cases hsome
    · right; right
      have hrun : loadModuleLxc err s mod o held = (some err, s.table, held) := by
        simp only [loadModuleLxc, hgate, and_self, if_true, hcopy]
      rw [hrun]
      exact ⟨fun h => hfail h.copied, rfl, rfl⟩
  · right; right
    have hrun : loadModuleLxc err s mod o held = (some err, s.table, held) := by
      simp only [loadModuleLxc, hgate, if_false]
    rw [hrun]
    refine ⟨fun h => hgate ⟨(finishedLoading_iff _).mpr h.live, h.pointer⟩, rfl, rfl⟩

/-- **When insmod's result agrees with the proxy's table**: exactly when the tap
succeeds. Every branch that appends nothing leaves through `sysfs_cleanup` with `err` still 0,
and on an error pointer nothing is returned. -/
theorem verdict_iff_tapSucceeds (s : ProxyState) (mod : KModule) (o : TapOutcomes)
    (held : List NsObject) :
    Verdict s.table o mod held (loadModuleLxc 0 s mod o held) ↔ TapSucceeds s o := by
  rcases loadModuleLxc_cases 0 s mod o held with
    ⟨hsucc, hret, happ⟩ | ⟨hfail, hret, happ⟩ | ⟨hfail, hret, hnum⟩
  · exact ⟨fun _ => hsucc, fun _ => ⟨iff_of_true hret happ, fun h => absurd happ h⟩⟩
  · refine ⟨fun hv => ?_, fun h => absurd h hfail⟩
    have hzero := hv.zero_iff.mpr happ
    rw [hret] at hzero
    cases hzero
  · refine ⟨fun hv => ?_, fun h => absurd h hfail⟩
    exact absurd (hv.zero_iff.mp hret) (not_appended_of_num hnum)

/-- With the proxy not loaded, insmod reports success and nothing was stored. -/
theorem insmod_succeeds_without_proxy :
    ¬ ∀ (s : ProxyState) (mod : KModule) (o : TapOutcomes) (held : List NsObject),
      Verdict s.table o mod held (loadModuleLxc 0 s mod o held) := by
  intro hall
  let fresh := UsableTable.fresh (fun _ => default) fun _ => default
  have hv := hall ⟨none, false, none, fresh.table, fresh.sound⟩ default
    ⟨0, ⟨none, .ok 0, .ok 0, .ok 0, .ok 0, .ok 0, .ok 0⟩, none, fun _ => none⟩ []
  obtain ⟨-, nsproxy, copy, -, -, happ⟩ := hv.zero_iff.mp rfl
  exact absurd happ.num (by decide)

end LxcUio.Tap
