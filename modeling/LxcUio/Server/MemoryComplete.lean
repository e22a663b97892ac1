import LxcUio.Server.GuestMemory

/-!
# What `initialize_memory_uuid` reports

`uuid-table.h`. The comment of the function promises 0 for success and a negative
value for an error, and `process_entry` looks at the sign only.

- `MemoryComplete` : what success means.
- `MemoryEnv.MissesLayout` : the set-up reaches a `get_uuid_layout` that fails.
- `addRegion_outcome`, `initializeEntry_outcome` : every way out, with the count of
  regions that the entry is left with.

The branches for a NULL layout go to `out_unlock` without a store to `ret_val`, which
then is what the last successful ioctl returned.
-/

namespace LxcUio.Server

open LxcUio.Foundation

/-- `uuid_table[i].memory.num_regions`. -/
def regionCount (s : ProcState) (i : ℤ) : ℤ := (s.table.entry i).memory.numRegions

/-- Both calls for region `k` succeed. -/
def MemoryEnv.Accepts (env : MemoryEnv) : RegionKind → Prop
  | .idt => env.mmapIDT.isSome = true ∧ 0 ≤ env.setIDT
  | .init => env.mmapInit.isSome = true ∧ 0 ≤ env.setInit
  | .core => env.mmapCore.isSome = true ∧ 0 ≤ env.setCore

/-- All calls succeed. -/
structure MemoryEnv.Completes (env : MemoryEnv) : Prop where
  accepts : ∀ k, env.Accepts k
  initDelivers : env.layoutInit.delivers = true
  coreDelivers : env.layoutCore.delivers = true

/-- A call of `get_uuid_layout` is reached, and delivers none. -/
inductive MemoryEnv.MissesLayout (env : MemoryEnv) : Prop where
  | init (hidt : env.Accepts .idt) (hmiss : env.layoutInit.delivers = false)
  | core (hidt : env.Accepts .idt) (hdelivers : env.layoutInit.delivers = true)
      (hinit : env.Accepts .init) (hmiss : env.layoutCore.delivers = false)

theorem MemoryEnv.MissesLayout.acceptsIdt {env : MemoryEnv} (h : env.MissesLayout) :
    env.Accepts .idt := by
  cases h with
  | init hidt _ => exact hidt
  | core hidt _ _ _ => exact hidt

theorem MemoryEnv.MissesLayout.not_completes {env : MemoryEnv} (h : env.MissesLayout) :
    ¬ env.Completes := by
  intro hall
  cases h with
  | init _ hmiss => exact Bool.false_ne_true (hmiss.symm.trans hall.initDelivers)
  | core _ _ _ hmiss => exact Bool.false_ne_true (hmiss.symm.trans hall.coreDelivers)

/-! ## One entry -/

/-- A region is added and counted, or the function leaves with an error and the
count as it was. -/
theorem addRegion_counts {i n : ℤ} {u : ProcState} (hn : regionCount u i = n) (vmfd : ℤ)
    (mmap : Option UInt64) (size : UInt32) {fill : UInt64 → UuidTableEntry → UuidTableEntry}
    (hfill : ∀ mem e, (fill mem e).memory.numRegions = e.memory.numRegions)
    (region : VmMemory → KvmUserspaceMemoryRegion) (ret : ℤ) :
    (addRegion vmfd i mmap size fill region ret).wp (fun _ => True)
      (fun _ v => regionCount v i = n + 1 ∧ mmap.isSome = true ∧ 0 ≤ ret)
      (fun _ v => regionCount v i = n ∧ ¬ (mmap.isSome = true ∧ 0 ≤ ret)) u := by
  cases mmap with
  | none => exact wp_addRegion_none.mpr ⟨hn, fun h => Bool.false_ne_true h.1⟩
  | some mem =>
      have hstored : regionCount (u.modify i (fill mem)) i = n := by
        unfold regionCount
        rw [procModify_table, modify_entry_same, hfill]
        exact hn
      have hcounted : regionCount ((u.modify i (fill mem)).modify i countRegion) i = n + 1 := by
        unfold regionCount
        rw [procModify_table, modify_entry_same]
        show regionCount (u.modify i (fill mem)) i + 1 = n + 1
        rw [hstored]
      refine wp_addRegion_some.mpr ⟨trivial, trivial, trivial, fun hneg => ⟨hstored, fun h => ?_⟩,
        fun hpos => ⟨trivial, hcounted, rfl, not_lt.mp hpos⟩⟩
      exact absurd hneg (not_lt.mpr h.2)

/-- How the set-up of one region ends. -/
theorem addRegion_outcome {env : MemoryEnv} {vmfd i n : ℤ} {K : List RegionKind}
    {s u : ProcState} (h : Ready env vmfd i K s u) {k : RegionKind} (hk : k ∉ K)
    (hn : regionCount u i = n) {mmap : Option UInt64}
    {fill : UInt64 → UuidTableEntry → UuidTableEntry} (hfill : Fills env k mmap fill)
    (hcount : ∀ mem e, (fill mem e).memory.numRegions = e.memory.numRegions) (ret : ℤ) :
    (addRegion vmfd i mmap (env.regionSize k) fill (fun m => region m k) ret).wp
      (fun _ => True)
      (fun _ v => Ready env vmfd i (k :: K) s v ∧ regionCount v i = n + 1 ∧
        mmap.isSome = true ∧ 0 ≤ ret)
      (fun r v => r < 0 ∧ SetsUp i s v ∧ regionCount v i = n ∧
        ¬ (mmap.isSome = true ∧ 0 ≤ ret)) u := by
  have hready := addRegion_ready h hk hfill ret
  have hcounts := addRegion_counts hn vmfd mmap (env.regionSize k) hcount
    (fun m => region m k) ret
  exact Program.wp_weaken (Program.wp_and hready hcounts) (fun _ _ => trivial)
    (fun _ _ hend => hend) fun _ _ hexit => ⟨hexit.1.2, hexit.1.1, hexit.2⟩

/-- The early exits for an entry that had no region: an error, or a layout that was
missed behind a successful ioctl. -/
structure EarlyExit (env : MemoryEnv) (i : ℤ) (s : ProcState) (r : ℤ) (v : ProcState) :
    Prop where
  setsUp : SetsUp i s v
  count : regionCount v i < 3
  incomplete : ¬ env.Completes
  sign : env.MissesLayout ∧ 0 ≤ r ∨ ¬ env.MissesLayout ∧ r < 0

/-- All three regions are counted and accepted. -/
def AllCounted (env : MemoryEnv) (vmfd i : ℤ) (s v : ProcState) : Prop :=
  Ready env vmfd i allRegions s v ∧ regionCount v i = 3 ∧ env.Completes

/-- The core region, behind the two others. -/
theorem coreRegion_outcome {env : MemoryEnv} {vmfd i : ℤ} {s u : ProcState}
    (hready : Ready env vmfd i [.init, .idt] s u) (hcount : regionCount u i = 2)
    (hidt : env.Accepts .idt) (hdelivers : env.layoutInit.delivers = true)
    (hinit : env.Accepts .init) :
    (coreRegion env vmfd i).wp (fun _ => True) (fun _ v => AllCounted env vmfd i s v)
      (EarlyExit env i s) u := by
  refine wp_coreRegion.mpr ⟨fun hcore => ?_, fun hcore => ?_⟩
  · refine Program.wp_mono (addRegion_outcome hready (by decide) hcount
      (setRegionCore_fills env) (fun _ _ => rfl) env.setCore) (fun _ v hall => ?_)
      (fun r v hexit => ?_)
    · obtain ⟨hready', hcount', haccepted⟩ := hall
      refine ⟨hready', hcount', ?_, hdelivers, hcore⟩
      rintro (_ | _ | _)
      · exact hidt
      · exact hinit
      · exact haccepted
    · obtain ⟨hneg, hsets, hcount', hrefused⟩ := hexit
      refine ⟨hsets, by omega, fun hall => hrefused (hall.accepts .core), Or.inr ⟨?_, hneg⟩⟩
      -- both layouts were delivered
      rintro (⟨-, hmiss⟩ | ⟨-, -, -, hmiss⟩)
      · exact Bool.false_ne_true (hmiss.symm.trans hdelivers)
      · exact Bool.false_ne_true (hmiss.symm.trans hcore)
  · -- NULL: the value of the second ioctl is returned
    exact ⟨hready.1, by omega, fun hall => hcore hall.coreDelivers,
      Or.inl ⟨.core hidt hdelivers hinit (Bool.eq_false_iff.mpr hcore), hinit.2⟩⟩

/-- The init region and what follows, behind the region of the IDT. -/
theorem initRegion_outcome {env : MemoryEnv} {vmfd i : ℤ} {s u : ProcState}
    (hready : Ready env vmfd i [.idt] s u) (hcount : regionCount u i = 1)
    (hidt : env.Accepts .idt) :
    (initRegion env vmfd i).wp (fun _ => True) (fun _ v => AllCounted env vmfd i s v)
      (EarlyExit env i s) u := by
  refine wp_initRegion.mpr ⟨fun hdelivers => ?_, fun hdelivers => ?_⟩
  · rw [Program.wp_bind]
    refine Program.wp_mono (addRegion_outcome hready (by decide) hcount
      (setRegionInit_fills env) (fun _ _ => rfl) env.setInit) (fun _ v hboth => ?_)
      (fun r v hexit => ?_)
    · obtain ⟨hready', hcount', haccepted⟩ := hboth
      exact coreRegion_outcome hready' hcount' hidt hdelivers haccepted
    · obtain ⟨hneg, hsets, hcount', hrefused⟩ := hexit
      refine ⟨hsets, by omega, fun hall => hrefused (hall.accepts .init), Or.inr ⟨?_, hneg⟩⟩
      rintro (⟨-, hmiss⟩ | ⟨-, -, haccepted, -⟩)
      · exact Bool.false_ne_true (hmiss.symm.trans hdelivers)
      · exact hrefused haccepted
  · -- NULL: the value of the first ioctl is returned
    exact ⟨hready.1, by omega, fun hall => hdelivers hall.initDelivers,
      Or.inl ⟨.init hidt (Bool.eq_false_iff.mpr hdelivers), hidt.2⟩⟩

/-- Every way out for an entry that had no region. -/
theorem initializeEntry_outcome (env : MemoryEnv) (vmfd i : ℤ) {s : ProcState}
    (hzero : regionCount s i = 0) :
    (initializeEntry env vmfd i).wp (fun _ => True)
      (fun _ v => AllCounted env vmfd i s v) (EarlyExit env i s) s := by
  have hstart : Ready env vmfd i [] s s := ⟨SetsUp.refl i s, fun k hk => by cases hk⟩
  refine wp_initializeEntry.mpr ⟨fun _ => ?_, fun hne => absurd hzero hne⟩
  rw [Program.wp_bind]
  refine Program.wp_mono (addRegion_outcome hstart (by decide) hzero (setRegionIDT_fills env)
    (fun _ _ => rfl) env.setIDT) (fun _ u hidt => ?_) (fun r u hexit => ?_)
  · obtain ⟨hready, hcount, haccepted⟩ := hidt
    exact initRegion_outcome hready hcount haccepted
  · obtain ⟨hneg, hsets, hcount, hrefused⟩ := hexit
    exact ⟨hsets, by omega, fun hall => hrefused (hall.accepts .idt),
      Or.inr ⟨fun hmiss => hrefused hmiss.acceptsIdt, hneg⟩⟩

/-- An entry that has regions, or a count below 0, is refused as it is. -/
theorem initializeEntry_refuses (env : MemoryEnv) (vmfd i : ℤ) {s : ProcState}
    (hne : regionCount s i ≠ 0) :
    (initializeEntry env vmfd i).wp (fun _ => True) (fun _ _ => False)
      (fun r v => r = -1 ∧ v = s) s :=
  wp_initializeEntry.mpr ⟨fun hzero => absurd hzero hne, fun _ => ⟨rfl, rfl⟩⟩

/-- The set-up of an entry with `n` regions comes back without an error. -/
def MemoryEnv.NoError (env : MemoryEnv) (n : ℤ) : Prop :=
  n = 0 ∧ (env.Completes ∨ env.MissesLayout)

/-- The sign of what the set-up of entry `i` returns. -/
theorem initializeEntry_sign (env : MemoryEnv) (vmfd i : ℤ) (s : ProcState) :
    (initializeEntry env vmfd i).wp (fun _ => True)
      (fun _ _ => env.NoError (regionCount s i))
      (fun r _ => 0 ≤ r ↔ env.NoError (regionCount s i)) s := by
  by_cases hzero : regionCount s i = 0
  · refine Program.wp_mono (initializeEntry_outcome env vmfd i hzero)
      (fun _ v hend => ⟨hzero, Or.inl hend.2.2⟩) (fun r v hexit => ?_)
    rcases hexit.sign with ⟨hmiss, hpos⟩ | ⟨hmiss, hneg⟩
    · exact iff_of_true hpos ⟨hzero, Or.inr hmiss⟩
    · exact iff_of_false (not_le.mpr hneg) fun h => h.2.elim hexit.incomplete hmiss
  · apply Program.wp_mono (initializeEntry_refuses env vmfd i hzero) (fun _ _ h => h.elim)
    rintro r v ⟨rfl, -⟩
    exact iff_of_false (by decide) fun h => hzero h.1

/-! ## The call -/

/-- Entry `i` is in the table, has the uuid and has no region. -/
structure Initializable (uuid : Uuid) (t : UuidTable) (i : ℤ) : Prop where
  nonneg : 0 ≤ i
  lt : i < t.tableNumEntries
  uuid : (t.entry i).uuid = uuid
  zero : (t.entry i).memory.numRegions = 0

/-- The guest memory for the uuid was set up by a call that started on the table `t`
and ended in `v`: the entry had no region and has three, and the calls made include
one for each region that KVM accepted for `vmfd`. -/
def MemoryComplete (uuid : Uuid) (vmfd : ℤ) (t : UuidTable) (v : ProcState) : Prop :=
  ∃ i, Initializable uuid t i ∧ regionCount v i = 3 ∧ ∀ k, ∃ ret, 0 ≤ ret ∧
    Event.setUserMemoryRegion vmfd (region (v.table.entry i).memory k) ret ∈ v.events

/-- 0 is returned exactly for a complete memory, and else an error. -/
structure Reports (uuid : Uuid) (vmfd : ℤ) (t : UuidTable) (r : ℤ) (v : ProcState) :
    Prop where
  zero : r = 0 ↔ MemoryComplete uuid vmfd t v
  error : r ≠ 0 → r < 0

/-- The call reaches a `get_uuid_layout` that fails. -/
def LayoutMissed (env : MemoryEnv) (uuid : Uuid) (t : UuidTable) : Prop :=
  (∃ i, Initializable uuid t i) ∧ env.MissesLayout

theorem Initializable.unique {uuid : Uuid} {t : UuidTable} {i j : ℤ} (hdistinct : t.Distinct)
    (h : Initializable uuid t i) (h0 : 0 ≤ j) (hj : j < t.tableNumEntries)
    (huuid : (t.entry j).uuid = uuid) : i = j :=
  hdistinct i j h.nonneg h.lt h0 hj (h.uuid.trans huuid.symm)

/-- An error is right for a call that leaves the memory incomplete. -/
theorem Reports.of_error {uuid : Uuid} {vmfd r : ℤ} {t : UuidTable} {v : ProcState}
    (hneg : r < 0) (hnot : ¬ MemoryComplete uuid vmfd t v) : Reports uuid vmfd t r v :=
  ⟨⟨fun hzero => absurd hzero (ne_of_lt hneg), fun h => absurd h hnot⟩, fun _ => hneg⟩

/-- Whatever else was returned for it is wrong. -/
theorem not_reports {uuid : Uuid} {vmfd r : ℤ} {t : UuidTable} {v : ProcState}
    (hpos : 0 ≤ r) (hnot : ¬ MemoryComplete uuid vmfd t v) : ¬ Reports uuid vmfd t r v := by
  intro h
  by_cases hzero : r = 0
  · exact hnot (h.zero.mp hzero)
  · exact absurd (h.error hzero) (not_lt.mpr hpos)

/-- What the call ends with on an entry that it can initialize. -/
theorem initializable_reports (debugOn : Bool) (env : MemoryEnv) {uuid : Uuid} (vmfd : ℤ)
    {t : UuidTable} {i : ℤ} (hdistinct : t.Distinct) (hi : Initializable uuid t i) :
    (initializeMemoryUuid debugOn env uuid vmfd).wp (fun _ => True)
      (fun r v => Reports uuid vmfd t r v ↔ ¬ env.MissesLayout)
      (fun r v => Reports uuid vmfd t r v ↔ ¬ env.MissesLayout) ⟨t, []⟩ := by
  obtain ⟨h0, hlt, rfl, hzero⟩ := hi
  apply wp_initializeMemoryUuid (s := ⟨t, []⟩) debugOn hdistinct h0 hlt
  refine Program.wp_mono (initializeEntry_outcome env vmfd i (s := ⟨t, []⟩) hzero)
    (fun _ v hend => ?_) (fun r v hexit => ?_)
  · obtain ⟨hready, hcount, hall⟩ := hend
    refine ⟨hready.1.uuid, iff_of_true ⟨iff_of_true rfl ?_, fun hne => absurd rfl hne⟩
      fun hmiss => hmiss.not_completes hall⟩
    refine ⟨i, ⟨h0, hlt, rfl, hzero⟩, hcount, fun k => ?_⟩
    have hk : k ∈ allRegions := by
      cases k <;> decide
    exact (hready.2 k hk).accepted
  · have hnot : ¬ MemoryComplete (t.entry i).uuid vmfd t v := by
      rintro ⟨j, hj, hthree, -⟩
      -- no other entry has the uuid, and this one has fewer than three
      obtain rfl := hj.unique hdistinct h0 hlt rfl
      exact absurd hexit.count (by rw [hthree]; exact lt_irrefl 3)
    rcases hexit.sign with ⟨hmiss, hpos⟩ | ⟨hmiss, hneg⟩
    · exact iff_of_false (not_reports hpos hnot) (not_not.mpr hmiss)
    · exact iff_of_true (.of_error hneg hnot) hmiss

/-- A call that cannot initialize any entry returns -1. -/
theorem refused_reports (debugOn : Bool) (env : MemoryEnv) {uuid : Uuid} (vmfd : ℤ)
    {t : UuidTable} (hdistinct : t.Distinct) (hnone : ¬ ∃ i, Initializable uuid t i) :
    (initializeMemoryUuid debugOn env uuid vmfd).wp (fun _ => True)
      (fun r v => Reports uuid vmfd t r v) (fun r v => Reports uuid vmfd t r v) ⟨t, []⟩ := by
  have hminus : ∀ v, Reports uuid vmfd t (-1) v := fun v =>
    .of_error (by decide) fun h => hnone (h.imp fun _ hi => hi.1)
  by_cases hfound : ∃ i, 0 ≤ i ∧ i < t.tableNumEntries ∧ (t.entry i).uuid = uuid
  · obtain ⟨i, h0, hlt, rfl⟩ := hfound
    have hne : regionCount ⟨t, []⟩ i ≠ 0 := fun hzero => hnone ⟨i, h0, hlt, rfl, hzero⟩
    apply wp_initializeMemoryUuid (s := ⟨t, []⟩) debugOn hdistinct h0 hlt
    apply Program.wp_mono (initializeEntry_refuses env vmfd i hne) (fun _ _ h => h.elim)
    rintro r v ⟨rfl, -⟩
    exact hminus v
  · refine wp_initializeMemoryUuid_absent debugOn env vmfd (fun j h0 hlt huuid => ?_) (hminus _)
    exact hfound ⟨j, h0, hlt, huuid⟩

/-- **The value that `initialize_memory_uuid` returns** says whether the memory is
complete exactly when no `get_uuid_layout` that it reaches fails. -/
theorem initializeMemoryUuid_reports_iff (debugOn : Bool) (env : MemoryEnv) (uuid : Uuid)
    (vmfd : ℤ) (t : UuidTable) (hdistinct : t.Distinct) :
    Reports uuid vmfd t (initializeMemoryUuid debugOn env uuid vmfd ⟨t, []⟩).value
        ((initializeMemoryUuid debugOn env uuid vmfd ⟨t, []⟩).final ⟨t, []⟩) ↔
      ¬ LayoutMissed env uuid t := by
  by_cases hfound : ∃ i, Initializable uuid t i
  · obtain ⟨i, hi⟩ := hfound
    have hcall := (Program.wp_value_iff _).mp
      (initializable_reports debugOn env vmfd hdistinct hi)
    rw [hcall.2]
    exact not_congr ⟨fun hmiss => ⟨⟨i, hi⟩, hmiss⟩, fun h => h.2⟩
  · have hcall := (Program.wp_value_iff _).mp
      (refused_reports debugOn env vmfd hdistinct hfound)
    exact iff_of_true hcall.2 fun h => hfound h.1

/-- A table with one entry, of a module that has no region yet. -/
def oneEntryTable : UuidTable :=
  { UuidTable.fresh (fun _ => default) (fun _ => default) with tableNumEntries := 1 }

theorem oneEntryTable_distinct : oneEntryTable.Distinct := by
  intro i j hi0 hi hj0 hj _
  have hi' : i < 1 := hi
  have hj' : j < 1 := hj
  omega

/-- Everything succeeds but the first `get_uuid_layout`, whose ioctl answers `ret`. -/
def initLayoutEnv (ret : ℤ) : MemoryEnv :=
  ⟨4096, some 0x10000, 0, ⟨true, ret, default⟩, some 0x20000, 0, ⟨true, 0, default⟩,
    some 0x30000, 0⟩

/-- Both layouts are delivered. -/
theorem initializeMemoryUuid_reports_success :
    Reports 0 7 oneEntryTable
      (initializeMemoryUuid true (initLayoutEnv 0) 0 7 ⟨oneEntryTable, []⟩).value
      ((initializeMemoryUuid true (initLayoutEnv 0) 0 7 ⟨oneEntryTable, []⟩).final
        ⟨oneEntryTable, []⟩) := by
  refine (initializeMemoryUuid_reports_iff true (initLayoutEnv 0) 0 7 oneEntryTable
    oneEntryTable_distinct).mpr ?_
  rintro ⟨-, ⟨-, hmiss⟩ | ⟨-, -, -, hmiss⟩⟩
  · exact absurd hmiss (by decide)
  · exact absurd hmiss (by decide)

/-- The first `get_uuid_layout` fails, and 0 is returned with one region of three. -/
theorem missing_layout_reports_success : ¬ ∀ (debugOn : Bool) (env : MemoryEnv) (uuid : Uuid)
    (vmfd : ℤ) (t : UuidTable), t.Distinct →
    Reports uuid vmfd t (initializeMemoryUuid debugOn env uuid vmfd ⟨t, []⟩).value
      ((initializeMemoryUuid debugOn env uuid vmfd ⟨t, []⟩).final ⟨t, []⟩) := by
  intro h
  have hentry : Initializable 0 oneEntryTable 0 := ⟨le_refl 0, zero_lt_one, rfl, rfl⟩
  have hmiss : (initLayoutEnv (-1)).MissesLayout :=
    .init ⟨rfl, le_refl 0⟩ (by decide)
  have hcall := (Program.wp_value_iff _).mp
    (initializable_reports true (initLayoutEnv (-1)) 7 oneEntryTable_distinct hentry)
  exact hcall.2.mp (h true (initLayoutEnv (-1)) 0 7 oneEntryTable oneEntryTable_distinct) hmiss

end LxcUio.Server
