import LxcUio.Server.MemoryComplete

/-!
# `initialize_memory_uuid` works on one entry

`uuid-table.h`, for every table, with duplicate uuids or without, in both builds.

- `OnlyMemory` : the table is the old one but for the memory record of one entry.
- `SetUpSoFar` : the regions that KVM has accepted, in order, and their count.
- `SetsUpFirst` : what a call has done when it returns, in either build.
-/

namespace LxcUio.Server

open LxcUio.Foundation

/-! ## The frame -/

def withMemory (m : VmMemory) (e : UuidTableEntry) : UuidTableEntry := { e with memory := m }

/-- `u` is `t` but for the memory record of entry `i`. -/
def OnlyMemory (i : ℤ) (t u : UuidTable) : Prop := ∃ m, u = t.modify i (withMemory m)

theorem OnlyMemory.refl (i : ℤ) (t : UuidTable) : OnlyMemory i t t := by
  refine ⟨(t.entry i).memory, ?_⟩
  have hsame : withMemory (t.entry i).memory (t.entry i) = t.uuidTable.cells i := rfl
  rw [UuidTable.modify, hsame, HeapArray.set_self]

/-- A store into the memory record of the entry. -/
theorem OnlyMemory.modify {i : ℤ} {t u : UuidTable} (h : OnlyMemory i t u)
    {f : UuidTableEntry → UuidTableEntry} (hf : ∀ e, f e = withMemory (f e).memory e) :
    OnlyMemory i t (u.modify i f) := by
  obtain ⟨m, rfl⟩ := h
  refine ⟨(f (withMemory m (t.entry i))).memory, ?_⟩
  have hentry : f ((t.modify i (withMemory m)).entry i) =
      withMemory (f (withMemory m (t.entry i))).memory (t.entry i) := by
    rw [modify_entry_same, hf]
    rfl
  rw [UuidTable.modify, hentry]
  simp only [UuidTable.modify, HeapArray.set_set]

theorem OnlyMemory.uuid {i : ℤ} {t u : UuidTable} (h : OnlyMemory i t u) (j : ℤ) :
    (u.entry j).uuid = (t.entry j).uuid := by
  obtain ⟨m, rfl⟩ := h
  rw [modify_entry]
  split <;> rfl

/-! ## The regions accepted -/

/-- The regions that KVM accepted, in the order of the calls. -/
def acceptedRegions (events : List Event) : List KvmUserspaceMemoryRegion :=
  events.filterMap fun
    | .setUserMemoryRegion _ region ret => if 0 ≤ ret then some region else none
    | _ => none

theorem acceptedRegions_append (events more : List Event) :
    acceptedRegions (events ++ more) = acceptedRegions events ++ acceptedRegions more :=
  List.filterMap_append

/-- The order of the set-up. -/
def setUpOrder : List RegionKind := [.idt, .init, .core]

/-- The regions `K` of entry `i` have been accepted and counted, and nothing else of the
table was touched. -/
structure SetUpSoFar (t : UuidTable) (i : ℤ) (K : List RegionKind) (u : ProcState) : Prop where
  only : OnlyMemory i t u.table
  count : regionCount u i = K.length
  accepted : acceptedRegions u.events = K.map (region (u.table.entry i).memory)

section Stages

variable {env : MemoryEnv} {t : UuidTable} {i : ℤ} {K : List RegionKind} {u : ProcState}
  {k : RegionKind} {mmap : Option UInt64} {fill : UInt64 → UuidTableEntry → UuidTableEntry}

/-- A region that is mapped and filled in, whatever KVM makes of it. -/
theorem SetUpSoFar.passRegion (h : SetUpSoFar t i K u) (hk : k ∉ K)
    (hfill : Fills env k mmap fill)
    (hmemory : ∀ mem e, fill mem e = withMemory (fill mem e).memory e)
    (hcount : ∀ mem e, (fill mem e).memory.numRegions = e.memory.numRegions)
    (vmfd : ℤ) (mem : UInt64) (ret : ℤ) :
    let v := u.passRegion vmfd i mem (env.regionSize k) fill (fun m => region m k) ret
    OnlyMemory i t v.table ∧ regionCount v i = K.length ∧
      acceptedRegions v.events = (if 0 ≤ ret then K ++ [k] else K).map
        (region (v.table.entry i).memory) := by
  intro v
  have hentry : v.table.entry i = fill mem (u.table.entry i) := modify_entry_same _ _ _
  refine ⟨h.only.modify (hmemory mem), ?_, ?_⟩
  · rw [regionCount, hentry, hcount]
    exact h.count
  · -- the records of the regions before are as they were
    have hkept : K.map (region (fill mem (u.table.entry i)).memory) =
        K.map (region (u.table.entry i).memory) :=
      List.map_congr_left fun k' hk' => hfill.others mem _ k' fun heq => hk (heq ▸ hk')
    have hevents : acceptedRegions v.events = acceptedRegions u.events ++
        acceptedRegions [.setUserMemoryRegion vmfd
          (region (fill mem (u.table.entry i)).memory k) ret] := by
      show acceptedRegions ((u.events ++ [_]) ++ [_]) = _
      rw [acceptedRegions_append, acceptedRegions_append]
      exact congrArg (· ++ _) (List.append_nil _)
    rw [hevents, h.accepted, hentry]
    by_cases hret : 0 ≤ ret
    · simp only [acceptedRegions, List.filterMap_cons, hret, if_true, List.filterMap_nil,
        List.map_append, List.map_cons, List.map_nil, hkept]
    · simp only [acceptedRegions, List.filterMap_cons, hret, if_false, List.filterMap_nil,
        List.append_nil, hkept]

/-- How the set-up of one region ends: with one more region, or with those before. -/
theorem addRegion_soFar (h : SetUpSoFar t i K u) (hk : k ∉ K) (hfill : Fills env k mmap fill)
    (hmemory : ∀ mem e, fill mem e = withMemory (fill mem e).memory e)
    (hcount : ∀ mem e, (fill mem e).memory.numRegions = e.memory.numRegions)
    (vmfd ret : ℤ) :
    (addRegion vmfd i mmap (env.regionSize k) fill (fun m => region m k) ret).wp
      (fun _ => True) (fun _ v => SetUpSoFar t i (K ++ [k]) v)
      (fun _ v => SetUpSoFar t i K v) u := by
  cases mmap with
  | none => exact wp_addRegion_none.mpr h
  | some mem =>
      obtain ⟨honly, hnum, haccepted⟩ := h.passRegion hk hfill hmemory hcount vmfd mem ret
      refine wp_addRegion_some.mpr ⟨trivial, trivial, trivial, fun hneg => ?_, fun hpos =>
        ⟨trivial, ?_⟩⟩
      · rw [if_neg (not_le.mpr hneg)] at haccepted
        exact ⟨honly, hnum, haccepted⟩
      · rw [if_pos (not_lt.mp hpos)] at haccepted
        refine ⟨honly.modify fun _ => rfl, ?_, ?_⟩
        · rw [List.length_append, List.length_singleton, Nat.cast_add, ← hnum]
          unfold regionCount
          rw [procModify_table, modify_entry_same]
          rfl
        · have hregion : ∀ e k', region (countRegion e).memory k' = region e.memory k' := by
            intro e k'
            cases k' <;> rfl
          rw [procModify_events, haccepted, procModify_table, modify_entry_same]
          exact List.map_congr_left fun k' _ => (hregion _ k').symm

end Stages

/-- The set-up stops behind some of the three regions, and has counted those. -/
def StopsBehind (t : UuidTable) (i : ℤ) (u : ProcState) : Prop :=
  ∃ K, K <+: setUpOrder ∧ SetUpSoFar t i K u

theorem initializeEntry_soFar (env : MemoryEnv) (vmfd i : ℤ) {t : UuidTable}
    (hzero : (t.entry i).memory.numRegions = 0) :
    (initializeEntry env vmfd i).wp (fun _ => True) (fun _ v => StopsBehind t i v)
      (fun _ v => StopsBehind t i v) ⟨t, []⟩ := by
  have hstart : SetUpSoFar t i [] ⟨t, []⟩ := ⟨OnlyMemory.refl i t, hzero, rfl⟩
  refine wp_initializeEntry.mpr ⟨fun _ => ?_, fun hne => absurd hzero hne⟩
  have hidt := addRegion_soFar hstart (by decide) (setRegionIDT_fills env) (fun _ _ => rfl)
    (fun _ _ => rfl) vmfd env.setIDT
  refine Program.wp_seq (Program.wp_mono hidt (fun _ _ h => h)
    fun _ _ h => ⟨[], by decide, h⟩) fun _ v hone => ?_
  refine wp_initRegion.mpr ⟨fun _ => ?_, fun _ => ⟨_, by decide, hone⟩⟩
  have hinit := addRegion_soFar hone (by decide) (setRegionInit_fills env) (fun _ _ => rfl)
    (fun _ _ => rfl) vmfd env.setInit
  refine Program.wp_seq (Program.wp_mono hinit (fun _ _ h => h)
    fun _ _ h => ⟨_, by decide, h⟩) fun _ w htwo => ?_
  refine wp_coreRegion.mpr ⟨fun _ => ?_, fun _ => ⟨_, by decide, htwo⟩⟩
  have hcore := addRegion_soFar htwo (by decide) (setRegionCore_fills env) (fun _ _ => rfl)
    (fun _ _ => rfl) vmfd env.setCore
  exact Program.wp_mono hcore (fun _ _ h => ⟨_, by decide, h⟩) fun _ _ h => ⟨_, by decide, h⟩

/-! ## What a call has done -/

theorem FirstWith.unique {uuid : Uuid} {t : UuidTable} {i j : ℤ} (hi : FirstWith uuid t i)
    (hj : FirstWith uuid t j) : i = j := by
  rcases lt_trichotomy i j with hlt | heq | hgt
  · exact absurd hi.uuid_eq (hj.before i hi.nonneg hlt)
  · exact heq
  · exact absurd hj.uuid_eq (hi.before j hj.nonneg hgt)

/-- If some entry has the uuid, there is a first one. -/
theorem exists_firstWith {uuid : Uuid} {t : UuidTable} {j : ℤ} (h0 : 0 ≤ j)
    (hj : j < t.tableNumEntries) (huuid : (t.entry j).uuid = uuid) :
    ∃ i, FirstWith uuid t i ∧ i ≤ j := by
  have hex : ∃ k : ℕ, (t.entry k).uuid = uuid := ⟨j.toNat, by rwa [Int.toNat_of_nonneg h0]⟩
  have hle : (Nat.find hex : ℤ) ≤ j := by
    have hmin := Nat.find_min' hex (show (t.entry j.toNat).uuid = uuid by
      rwa [Int.toNat_of_nonneg h0])
    omega
  refine ⟨Nat.find hex, ⟨by omega, by omega, Nat.find_spec hex, fun k hk0 hk heq => ?_⟩, hle⟩
  refine Nat.find_min hex (m := k.toNat) (by omega) ?_
  rwa [Int.toNat_of_nonneg hk0]

/-- A call that started on `t` and returned `r` in `v` has changed only the memory record of
the first entry with the uuid. Where that entry had no region, its count is the number of
regions accepted, which are its own, in order; where it had some, nothing has changed. -/
structure SetsUpFirst (uuid : Uuid) (t : UuidTable) (r : ℤ) (v : ProcState) : Prop where
  frame : v.table = t ∨ ∃ i, FirstWith uuid t i ∧ OnlyMemory i t v.table
  counted : ∀ i, FirstWith uuid t i → (t.entry i).memory.numRegions = 0 →
    acceptedRegions v.events <+: setUpOrder.map (region (v.table.entry i).memory) ∧
      (v.table.entry i).memory.numRegions = (acceptedRegions v.events).length
  refused : ∀ i, FirstWith uuid t i → (t.entry i).memory.numRegions ≠ 0 → v.table = t ∧ r < 0

theorem SetsUpFirst.of_stopsBehind {uuid : Uuid} {t : UuidTable} {i : ℤ} {v : ProcState}
    (hfirst : FirstWith uuid t i) (hzero : (t.entry i).memory.numRegions = 0)
    (h : StopsBehind t i v) (r : ℤ) : SetsUpFirst uuid t r v := by
  obtain ⟨K, hK, hsofar⟩ := h
  refine ⟨Or.inr ⟨i, hfirst, hsofar.only⟩, fun j hj _ => ?_, fun j hj hne => ?_⟩
  · obtain rfl := hfirst.unique hj
    rw [hsofar.accepted, List.length_map]
    exact ⟨hK.map _, hsofar.count⟩
  · obtain rfl := hfirst.unique hj
    exact absurd hzero hne

theorem initializeMemoryUuid_setsUpFirst (debugOn : Bool) (env : MemoryEnv) (uuid : Uuid)
    (vmfd : ℤ) (t : UuidTable) :
    (initializeMemoryUuid debugOn env uuid vmfd).wp (fun _ => True) (SetsUpFirst uuid t)
      (SetsUpFirst uuid t) ⟨t, []⟩ := by
  by_cases hfound : ∃ i, FirstWith uuid t i
  · obtain ⟨i, hfirst⟩ := hfound
    apply wp_initializeMemoryUuid_first (s := ⟨t, []⟩) debugOn hfirst
    by_cases hzero : (t.entry i).memory.numRegions = 0
    · refine Program.wp_mono (initializeEntry_soFar env vmfd i hzero) (fun _ v hend => ?_)
        fun r v hexit => .of_stopsBehind hfirst hzero hexit r
      have hdone := SetsUpFirst.of_stopsBehind hfirst hzero hend
      obtain ⟨K, -, hsofar⟩ := hend
      exact ⟨hsofar.only.uuid, fun _ => hdone (-1), fun _ => hdone 0⟩
    · apply Program.wp_mono (initializeEntry_refuses env vmfd i (s := ⟨t, []⟩) hzero)
        fun _ _ h => h.elim
      rintro r v ⟨rfl, rfl⟩
      refine ⟨Or.inl rfl, fun j hj hzero' => ?_, fun j _ _ => ⟨rfl, by decide⟩⟩
      obtain rfl := hfirst.unique hj
      exact absurd hzero' hzero
  · refine wp_initializeMemoryUuid_absent debugOn env vmfd (fun j h0 hlt huuid => ?_) ?_
    · obtain ⟨i, hfirst, -⟩ := exists_firstWith h0 hlt huuid
      exact hfound ⟨i, hfirst⟩
    · exact ⟨Or.inl rfl, fun i hi => absurd ⟨i, hi⟩ hfound, fun i hi => absurd ⟨i, hi⟩ hfound⟩

/-! ## The two builds -/

/-- On a table without duplicate uuids both builds end as the set-up of the entry does. -/
theorem initializeMemoryUuid_builds (env : MemoryEnv) (uuid : Uuid) (vmfd : ℤ) {t : UuidTable}
    (hdistinct : t.Distinct) : ∃ r v, ∀ debugOn,
    (initializeMemoryUuid debugOn env uuid vmfd ⟨t, []⟩).value = r ∧
      (initializeMemoryUuid debugOn env uuid vmfd ⟨t, []⟩).final ⟨t, []⟩ = v := by
  by_cases hfound : ∃ i, FirstWith uuid t i
  · obtain ⟨i, hfirst⟩ := hfound
    let entry := initializeEntry env vmfd i ⟨t, []⟩
    -- the value that the end or the early exit of the set-up leads to
    let ret : ℤ := match entry.result with
      | .ok _ => 0
      | .error r => r
    refine ⟨ret, entry.final ⟨t, []⟩, fun debugOn => ?_⟩
    refine ((Program.wp_value_iff (I := fun _ => True)
      (Q := fun r v => r = ret ∧ v = entry.final ⟨t, []⟩) _).mp ?_).2
    apply wp_initializeMemoryUuid_first (s := ⟨t, []⟩) debugOn hfirst
    refine Program.wp_weaken (Program.wp_and (Program.wp_ran _ _)
      (initializeEntry_only env vmfd i ⟨t, []⟩)) (fun _ _ => trivial) ?_ ?_
    · rintro a v ⟨⟨hresult, rfl⟩, honly⟩
      have hret : 0 = ret := by
        show (0 : ℤ) = match (initializeEntry env vmfd i ⟨t, []⟩).result with
          | .ok _ => 0
          | .error r => r
        rw [hresult]
      exact ⟨honly.uuid, fun htwice => absurd htwice.2 (hdistinct.not_again hfirst),
        fun _ => ⟨hret, rfl⟩⟩
    · rintro r v ⟨⟨hresult, rfl⟩, -⟩
      have hret : r = ret := by
        show r = match (initializeEntry env vmfd i ⟨t, []⟩).result with
          | .ok _ => 0
          | .error r => r
        rw [hresult]
      exact ⟨hret, rfl⟩
  · refine ⟨-1, ⟨t, []⟩, fun debugOn => ?_⟩
    refine ((Program.wp_value_iff (I := fun _ => True)
      (Q := fun r v => r = -1 ∧ v = (⟨t, []⟩ : ProcState)) _).mp ?_).2
    refine wp_initializeMemoryUuid_absent debugOn env vmfd (fun j h0 hlt huuid => ?_) ⟨rfl, rfl⟩
    obtain ⟨i, hfirst, -⟩ := exists_firstWith h0 hlt huuid
    exact hfound ⟨i, hfirst⟩

/-- The uuid is in the table twice. -/
def OccursTwice (uuid : Uuid) (t : UuidTable) : Prop :=
  ∃ i j, 0 ≤ i ∧ i < j ∧ j < t.tableNumEntries ∧ (t.entry i).uuid = uuid ∧
    (t.entry j).uuid = uuid

/-- All layouts that the call asks for are delivered. It asks for none when the first entry
with the uuid has regions. -/
def DeliversLayouts (env : MemoryEnv) (uuid : Uuid) (t : UuidTable) : Prop :=
  ∀ i, FirstWith uuid t i → (t.entry i).memory.numRegions = 0 → ¬ env.MissesLayout

/-- A duplicate is found behind an entry that was set up. -/
theorem debug_finds_duplicate (env : MemoryEnv) {uuid : Uuid} (vmfd : ℤ) {t : UuidTable}
    (htwice : OccursTwice uuid t) (hdelivers : DeliversLayouts env uuid t) :
    (initializeMemoryUuid true env uuid vmfd).wp (fun _ => True) (fun r _ => r < 0)
      (fun r _ => r < 0) ⟨t, []⟩ := by
  obtain ⟨k, j, hk0, hkj, hj, hk, huuid⟩ := htwice
  obtain ⟨i, hfirst, hik⟩ := exists_firstWith hk0 (hkj.trans hj) hk
  have hagain : Again uuid t i := ⟨j, lt_of_le_of_lt hik hkj, hj, huuid⟩
  apply wp_initializeMemoryUuid_first (s := ⟨t, []⟩) true hfirst
  by_cases hzero : (t.entry i).memory.numRegions = 0
  · refine Program.wp_mono (initializeEntry_outcome env vmfd i (s := ⟨t, []⟩) hzero)
      (fun _ v hend => ?_) fun r v hexit => ?_
    · exact ⟨hend.1.1.uuid, fun _ => by decide, fun hnot => absurd ⟨rfl, hagain⟩ hnot⟩
    · rcases hexit.sign with ⟨hmiss, -⟩ | ⟨-, hneg⟩
      · exact absurd hmiss (hdelivers i hfirst hzero)
      · exact hneg
  · apply Program.wp_mono (initializeEntry_refuses env vmfd i (s := ⟨t, []⟩) hzero)
      fun _ _ h => h.elim
    rintro r v ⟨rfl, -⟩
    decide

/-- The value returned and the last state of a call on the table `t`. -/
def initializeMemoryEnds (debugOn : Bool) (env : MemoryEnv) (uuid : Uuid) (vmfd : ℤ)
    (t : UuidTable) : ℤ × ProcState :=
  ((initializeMemoryUuid debugOn env uuid vmfd ⟨t, []⟩).value,
    (initializeMemoryUuid debugOn env uuid vmfd ⟨t, []⟩).final ⟨t, []⟩)

/-- **The memory set-up touches one entry and counts what it did**, in both builds, on every
table and whatever its calls answer. The builds differ only in what they make of a
duplicate uuid. -/
theorem initializeMemoryUuid_oneEntry (env : MemoryEnv) (uuid : Uuid) (vmfd : ℤ)
    (t : UuidTable) :
    (∀ debugOn, SetsUpFirst uuid t (initializeMemoryEnds debugOn env uuid vmfd t).1
      (initializeMemoryEnds debugOn env uuid vmfd t).2) ∧
    (t.Distinct → initializeMemoryEnds true env uuid vmfd t =
      initializeMemoryEnds false env uuid vmfd t) ∧
    (OccursTwice uuid t → DeliversLayouts env uuid t →
      (initializeMemoryEnds true env uuid vmfd t).1 < 0) := by
  refine ⟨fun debugOn => ?_, fun hdistinct => ?_, fun htwice hdelivers => ?_⟩
  · exact ((Program.wp_value_iff _).mp
      (initializeMemoryUuid_setsUpFirst debugOn env uuid vmfd t)).2
  · obtain ⟨r, v, hbuilds⟩ := initializeMemoryUuid_builds env uuid vmfd hdistinct
    exact Prod.ext ((hbuilds true).1.trans (hbuilds false).1.symm)
      ((hbuilds true).2.trans (hbuilds false).2.symm)
  · exact ((Program.wp_value_iff _).mp
      (debug_finds_duplicate env vmfd htwice hdelivers)).2

/-- A table with two entries of one uuid, neither of which has a region yet. -/
def duplicateTable : UuidTable :=
  { UuidTable.fresh (fun _ => default) (fun _ => default) with tableNumEntries := 2 }

theorem duplicate_uuid_is_caught :
    (initializeMemoryEnds true (initLayoutEnv 0) 0 7 duplicateTable).1 < 0 := by
  have htwice : OccursTwice 0 duplicateTable :=
    ⟨0, 1, le_refl 0, zero_lt_one, one_lt_two, rfl, rfl⟩
  refine (initializeMemoryUuid_oneEntry (initLayoutEnv 0) 0 7 duplicateTable).2.2 htwice ?_
  rintro i - - (⟨-, hmiss⟩ | ⟨-, -, -, hmiss⟩)
  · exact absurd hmiss (by decide)
  · exact absurd hmiss (by decide)

end LxcUio.Server
