import LxcUio.Server.Registration

/-!
# The memory of the guest

What holds when `initialize_memory_uuid` comes back without an error and both layouts
were delivered: each of the three regions of the entry is mapped, filled in and accepted
by KVM for the VM.
-/

namespace LxcUio.Server

open LxcUio.Foundation

/-- The length of the mapping behind a region. -/
def MemoryEnv.regionSize (env : MemoryEnv) : RegionKind → UInt32
  | .idt => env.pageSize
  | .init => env.layoutInit.layout.size
  | .core => env.layoutCore.layout.size

/-- Region `k` of entry `i` is set up for the VM `vmfd`. -/
structure RegionReady (env : MemoryEnv) (vmfd i : ℤ) (s : ProcState) (k : RegionKind) :
    Prop where
  filled : region (s.table.entry i).memory k = env.registered (flagsOf s.table i k) k
  mapped : Event.mmap (region (s.table.entry i).memory k).userspaceAddr (env.regionSize k) ∈
    s.events
  accepted : ∃ ret, 0 ≤ ret ∧
    Event.setUserMemoryRegion vmfd (region (s.table.entry i).memory k) ret ∈ s.events

theorem RegionReady.emit {env : MemoryEnv} {vmfd i : ℤ} {s : ProcState} {k : RegionKind}
    (h : RegionReady env vmfd i s k) (e : Event) : RegionReady env vmfd i (s.emit e) k where
  filled := h.filled
  mapped := List.mem_append_left _ h.mapped
  accepted := by
    obtain ⟨ret, hret, hmem⟩ := h.accepted
    exact ⟨ret, hret, List.mem_append_left _ hmem⟩

/-- A store that leaves the record of the region alone. -/
theorem RegionReady.modify {env : MemoryEnv} {vmfd i : ℤ} {s : ProcState} {k : RegionKind}
    (h : RegionReady env vmfd i s k) {f : UuidTableEntry → UuidTableEntry}
    (hf : ∀ e, region (f e).memory k = region e.memory k) :
    RegionReady env vmfd i (s.modify i f) k := by
  have hregion : region ((s.modify i f).table.entry i).memory k =
      region (s.table.entry i).memory k := by
    rw [procModify_table, modify_entry_same, hf]
  have hflags : flagsOf (s.modify i f).table i k = flagsOf s.table i k := by
    unfold flagsOf
    rw [hregion]
  refine ⟨?_, ?_, ?_⟩
  · rw [hregion, hflags]
    exact h.filled
  · rw [hregion]
    exact h.mapped
  · rw [hregion]
    exact h.accepted

/-! ## What the set-up leaves alone -/

def Event.SetsUpMemory : Event → Prop
  | .mmap _ _ => True
  | .setUserMemoryRegion _ _ _ => True
  | _ => False

/-- From `s` on only memory of entry `i` was set up. -/
structure SetsUp (i : ℤ) (s u : ProcState) : Prop where
  num : u.table.tableNumEntries = s.table.tableNumEntries
  uuid : ∀ j, (u.table.entry j).uuid = (s.table.entry j).uuid
  vmfd : ∀ j, (u.table.entry j).vmfd = (s.table.entry j).vmfd
  events : ∃ more, u.events = s.events ++ more ∧ ∀ e ∈ more, e.SetsUpMemory

theorem SetsUp.refl (i : ℤ) (s : ProcState) : SetsUp i s s :=
  ⟨rfl, fun _ => rfl, fun _ => rfl, [], (List.append_nil _).symm, fun _ h => by cases h⟩

theorem SetsUp.emit {i : ℤ} {s u : ProcState} (h : SetsUp i s u) {e : Event}
    (he : e.SetsUpMemory) : SetsUp i s (u.emit e) where
  num := h.num
  uuid := h.uuid
  vmfd := h.vmfd
  events := by
    obtain ⟨more, hmore, hall⟩ := h.events
    refine ⟨more ++ [e], ?_, fun e' he' => ?_⟩
    · rw [emit_events, hmore, List.append_assoc]
    · rcases List.mem_append.mp he' with hold | hnew
      · exact hall e' hold
      · obtain rfl := List.mem_singleton.mp hnew
        exact he

theorem SetsUp.modify {i : ℤ} {s u : ProcState} (h : SetsUp i s u)
    {f : UuidTableEntry → UuidTableEntry} (huuid : ∀ e, (f e).uuid = e.uuid)
    (hvmfd : ∀ e, (f e).vmfd = e.vmfd) : SetsUp i s (u.modify i f) where
  num := h.num
  uuid := by
    intro j
    rw [procModify_table, modify_entry]
    split
    · rw [huuid, h.uuid]
    · exact h.uuid j
  vmfd := by
    intro j
    rw [procModify_table, modify_entry]
    split
    · rw [hvmfd, h.vmfd]
    · exact h.vmfd j
  events := h.events

/-- What was reported stays reported. -/
theorem SetsUp.mem {i : ℤ} {s u : ProcState} (h : SetsUp i s u) {e : Event}
    (he : e ∈ s.events) : e ∈ u.events := by
  obtain ⟨more, hmore, -⟩ := h.events
  rw [hmore]
  exact List.mem_append_left _ he

/-- An event of another kind is an old one. -/
theorem SetsUp.mem_of_not {i : ℤ} {s u : ProcState} (h : SetsUp i s u) {e : Event}
    (he : e ∈ u.events) (hnot : ¬ e.SetsUpMemory) : e ∈ s.events := by
  obtain ⟨more, hmore, hall⟩ := h.events
  rw [hmore] at he
  rcases List.mem_append.mp he with hold | hnew
  · exact hold
  · exact absurd (hall e hnew) hnot

/-! ## One region after another -/

/-- The regions in `K` are ready. -/
def Ready (env : MemoryEnv) (vmfd i : ℤ) (K : List RegionKind) (s u : ProcState) : Prop :=
  SetsUp i s u ∧ ∀ k ∈ K, RegionReady env vmfd i u k

/-- The stores for region `k`, which get the address of its mapping. -/
structure Fills (env : MemoryEnv) (k : RegionKind) (mmap : Option UInt64)
    (fill : UInt64 → UuidTableEntry → UuidTableEntry) : Prop where
  region : ∀ mem, mmap = some mem → ∀ e,
    region (fill mem e).memory k = env.registered (region e.memory k).flags k
  addr : ∀ mem, mmap = some mem → ∀ flags, (env.registered flags k).userspaceAddr = mem
  others : ∀ mem e k', k' ≠ k → Server.region (fill mem e).memory k' = Server.region e.memory k'
  uuid : ∀ mem e, (fill mem e).uuid = e.uuid
  vmfd : ∀ mem e, (fill mem e).vmfd = e.vmfd

/-- The region that KVM has just accepted. -/
theorem passRegion_ready {env : MemoryEnv} {k : RegionKind} {mmap : Option UInt64}
    {fill : UInt64 → UuidTableEntry → UuidTableEntry} (hfill : Fills env k mmap fill)
    {mem : UInt64} (hmem : mmap = some mem) {ret : ℤ} (hret : 0 ≤ ret) (vmfd i : ℤ)
    (u : ProcState) :
    RegionReady env vmfd i
      (u.passRegion vmfd i mem (env.regionSize k) fill (fun m => region m k) ret) k := by
  have hentry : (u.table.modify i (fill mem)).entry i = fill mem (u.table.entry i) :=
    modify_entry_same u.table i (fill mem)
  have hnew : region (fill mem (u.table.entry i)).memory k =
      env.registered (flagsOf u.table i k) k := hfill.region mem hmem (u.table.entry i)
  refine ⟨?_, ?_, ret, hret, ?_⟩
  · show region ((u.table.modify i (fill mem)).entry i).memory k =
      env.registered (region ((u.table.modify i (fill mem)).entry i).memory k).flags k
    rw [hentry, hnew, registered_flags]
  · apply List.mem_append_left _
    show Event.mmap (region ((u.table.modify i (fill mem)).entry i).memory k).userspaceAddr
      (env.regionSize k) ∈ u.events ++ [.mmap mem (env.regionSize k)]
    rw [hentry, hnew, hfill.addr mem hmem]
    exact List.mem_append_right _ (List.mem_singleton.mpr rfl)
  · apply List.mem_append_right _
    show Event.setUserMemoryRegion vmfd
      (region ((u.table.modify i (fill mem)).entry i).memory k) ret ∈ [_]
    rw [hentry]
    exact List.mem_singleton.mpr rfl

theorem addRegion_ready {env : MemoryEnv} {vmfd i : ℤ} {K : List RegionKind}
    {s u : ProcState} (h : Ready env vmfd i K s u) {k : RegionKind} (hk : k ∉ K)
    {mmap : Option UInt64} {fill : UInt64 → UuidTableEntry → UuidTableEntry}
    (hfill : Fills env k mmap fill) (ret : ℤ) :
    (addRegion vmfd i mmap (env.regionSize k) fill (fun m => region m k) ret).wp
      (fun v => SetsUp i s v) (fun _ v => Ready env vmfd i (k :: K) s v)
      (fun r v => SetsUp i s v ∧ r < 0) u := by
  cases mmap with
  | none => exact wp_addRegion_none.mpr ⟨h.1, by decide⟩
  | some mem =>
      have hmapped : SetsUp i s (u.emit (.mmap mem (env.regionSize k))) := h.1.emit trivial
      have hstored := hmapped.modify (hfill.uuid mem) (hfill.vmfd mem)
      have htold := hstored.emit (e := .setUserMemoryRegion vmfd
        (region (fill mem (u.table.entry i)).memory k) ret) trivial
      have hcounted := htold.modify (f := countRegion) (fun _ => rfl) fun _ => rfl
      refine wp_addRegion_some.mpr ⟨hmapped, hstored, htold, fun hneg => ⟨htold, hneg⟩, fun hpos =>
        ⟨hcounted, hcounted, fun k' hk' => ?_⟩⟩
      have hcount : ∀ e, region (countRegion e).memory k' = region e.memory k' := by
        intro e
        cases k' <;> rfl
      apply RegionReady.modify _ hcount
      rcases List.mem_cons.mp hk' with rfl | hold
      · exact passRegion_ready hfill rfl (not_lt.mp hpos) vmfd i u
      · have hne : k' ≠ k := fun heq => hk (heq ▸ hold)
        exact (((h.2 k' hold).emit _).modify fun e => hfill.others mem e k' hne).emit _

theorem setRegionIDT_fills (env : MemoryEnv) :
    Fills env .idt env.mmapIDT (setRegionIDT env.pageSize) where
  region := by
    intro mem hmem e
    simp only [Server.region, setRegionIDT, MemoryEnv.registered, hmem, Option.getD_some]
  addr := by
    intro mem hmem flags
    simp only [MemoryEnv.registered, hmem, Option.getD_some]
  others := by
    rintro mem e (_ | _ | _) hne
    · exact absurd rfl hne
    · rfl
    · rfl
  uuid := fun _ _ => rfl
  vmfd := fun _ _ => rfl

theorem setRegionInit_fills (env : MemoryEnv) :
    Fills env .init env.mmapInit (setRegionInit env.layoutInit.layout) where
  region := by
    intro mem hmem e
    simp only [Server.region, setRegionInit, MemoryEnv.registered, hmem, Option.getD_some]
  addr := by
    intro mem hmem flags
    simp only [MemoryEnv.registered, hmem, Option.getD_some]
  others := by
    rintro mem e (_ | _ | _) hne
    · rfl
    · exact absurd rfl hne
    · rfl
  uuid := fun _ _ => rfl
  vmfd := fun _ _ => rfl

theorem setRegionCore_fills (env : MemoryEnv) :
    Fills env .core env.mmapCore (setRegionCore env.layoutCore.layout) where
  region := by
    intro mem hmem e
    simp only [Server.region, setRegionCore, MemoryEnv.registered, hmem, Option.getD_some]
  addr := by
    intro mem hmem flags
    simp only [MemoryEnv.registered, hmem, Option.getD_some]
  others := by
    rintro mem e (_ | _ | _) hne
    · rfl
    · rfl
    · exact absurd rfl hne
  uuid := fun _ _ => rfl
  vmfd := fun _ _ => rfl

/-- All three regions. -/
def allRegions : List RegionKind := [.core, .init, .idt]

/-- When both layouts are delivered, an entry comes out with its three regions ready, or
an error is returned. -/
theorem initializeEntry_ready {env : MemoryEnv} (hinit : env.layoutInit.delivers = true)
    (hcore : env.layoutCore.delivers = true) (vmfd i : ℤ) (s : ProcState) :
    (initializeEntry env vmfd i).wp (fun v => SetsUp i s v)
      (fun _ v => Ready env vmfd i allRegions s v) (fun r v => SetsUp i s v ∧ r < 0) s := by
  have hrefl := SetsUp.refl i s
  have hstart : Ready env vmfd i [] s s := ⟨hrefl, fun k hk => by cases hk⟩
  refine wp_initializeEntry.mpr ⟨fun _ => ?_, fun _ => ⟨hrefl, by decide⟩⟩
  refine Program.wp_seq (addRegion_ready hstart (by decide) (setRegionIDT_fills env) env.setIDT)
    fun _ u hidt => wp_initRegion.mpr ⟨fun _ => ?_, fun hnot => absurd hinit hnot⟩
  refine Program.wp_seq (addRegion_ready hidt (by decide) (setRegionInit_fills env) env.setInit)
    fun _ v hboth => wp_coreRegion.mpr ⟨fun _ => ?_, fun hnot => absurd hcore hnot⟩
  exact addRegion_ready hboth (by decide) (setRegionCore_fills env) env.setCore

/-! ## The scan for a uuid that occurs once -/

/-- Entries with other uuids are passed over. -/
theorem wp_scanUuid_skip {I : ProcState → Prop} {Q : Bool → ProcState → Prop}
    {E : ℤ → ProcState → Prop} (debugOn : Bool) (env : MemoryEnv) (uuid : Uuid) (vmfd : ℤ)
    (found : Bool) {s : ProcState} (rest : List ℤ) : ∀ is : List ℤ,
    (∀ j ∈ is, (s.table.entry j).uuid ≠ uuid) →
    ((scanUuid debugOn env uuid vmfd (is ++ rest) found).wp I Q E s ↔
      (scanUuid debugOn env uuid vmfd rest found).wp I Q E s) := by
  intro is
  induction is with
  | nil => exact fun _ => Iff.rfl
  | cons j is ih =>
      intro hother
      have hj := hother j List.mem_cons_self
      rw [List.cons_append, scanUuid, Program.wp_bind, Program.wp_read, if_neg hj]
      exact ih fun k hk => hother k (List.mem_cons_of_mem j hk)

/-- The uuids in the table are distinct. -/
def UuidTable.Distinct (t : UuidTable) : Prop :=
  ∀ i j, 0 ≤ i → i < t.tableNumEntries → 0 ≤ j → j < t.tableNumEntries →
    (t.entry i).uuid = (t.entry j).uuid → i = j

/-- The first entry with the uuid. -/
structure FirstWith (uuid : Uuid) (t : UuidTable) (i : ℤ) : Prop where
  nonneg : 0 ≤ i
  lt : i < t.tableNumEntries
  uuid_eq : (t.entry i).uuid = uuid
  before : ∀ j, 0 ≤ j → j < i → (t.entry j).uuid ≠ uuid

/-- Another entry behind `i` has the uuid. -/
def Again (uuid : Uuid) (t : UuidTable) (i : ℤ) : Prop :=
  ∃ j, i < j ∧ j < t.tableNumEntries ∧ (t.entry j).uuid = uuid

theorem UuidTable.Distinct.firstWith {t : UuidTable} (h : t.Distinct) {i : ℤ} (h0 : 0 ≤ i)
    (hi : i < t.tableNumEntries) : FirstWith (t.entry i).uuid t i where
  nonneg := h0
  lt := hi
  uuid_eq := rfl
  before := fun j hj0 hj heq => by
    have hsame := h j i hj0 (hj.trans hi) h0 hi heq
    omega

theorem UuidTable.Distinct.not_again {t : UuidTable} (h : t.Distinct) {uuid : Uuid} {i : ℤ}
    (hi : FirstWith uuid t i) : ¬ Again uuid t i := by
  rintro ⟨j, hij, hj, huuid⟩
  have hj0 : 0 ≤ j := hi.nonneg.trans hij.le
  have hsame := h j i hj0 hj hi.nonneg hi.lt (huuid.trans hi.uuid_eq.symm)
  omega

/-- The indices of a table, split at one of them. -/
theorem entryIndices_split {n i : ℤ} (h0 : 0 ≤ i) (hi : i < n) :
    ∃ behind, entryIndices n = entryIndices i ++ i :: behind ∧
      ∀ j, j ∈ behind ↔ i < j ∧ j < n := by
  obtain ⟨k, rfl⟩ := Int.le.dest (Int.add_one_le_of_lt hi)
  obtain ⟨m, rfl⟩ := Int.eq_ofNat_of_zero_le h0
  have hn : ((m : ℤ) + 1 + k).toNat = m + (k + 1) := by omega
  refine ⟨(List.range k).map fun j : ℕ => (m : ℤ) + 1 + j, ?_, fun j => ?_⟩
  · simp only [entryIndices, hn, Int.toNat_natCast, List.range_add, List.map_append,
      List.range_succ_eq_map, List.map_cons, List.map_map]
    congr 2
    apply List.map_congr_left
    intro j _
    simp only [Function.comp_apply]
    omega
  · simp only [List.mem_map, List.mem_range]
    constructor
    · rintro ⟨l, hl, rfl⟩
      omega
    · rintro ⟨hlo, hhi⟩
      exact ⟨(j - m - 1).toNat, by omega, by omega⟩

/-- Where no entry has the uuid, -1 is returned and nothing is done. -/
theorem wp_initializeMemoryUuid_absent {I : ProcState → Prop} {Q E : ℤ → ProcState → Prop}
    (debugOn : Bool) (env : MemoryEnv) {uuid : Uuid} (vmfd : ℤ) {s : ProcState}
    (hnone : ∀ j, 0 ≤ j → j < s.table.tableNumEntries → (s.table.entry j).uuid ≠ uuid)
    (h : Q (-1) s) : (initializeMemoryUuid debugOn env uuid vmfd).wp I Q E s := by
  have hskip : ∀ j ∈ entryIndices s.table.tableNumEntries, (s.table.entry j).uuid ≠ uuid :=
    fun j hj => hnone j (mem_entryIndices.mp hj).1 (mem_entryIndices.mp hj).2
  rw [initializeMemoryUuid, Program.wp_bind, Program.wp_read, Program.wp_bind,
    ← List.append_nil (entryIndices _), wp_scanUuid_skip _ _ _ _ _ _ _ hskip, scanUuid,
    Program.wp_pure, if_neg Bool.false_ne_true, Program.wp_pure]
  exact h

/-- Behind a match the build with `debug_on` looks for a second one. -/
theorem wp_scanUuid_again {I : ProcState → Prop} {Q : Bool → ProcState → Prop}
    {E : ℤ → ProcState → Prop} {env : MemoryEnv} {uuid : Uuid} {vmfd : ℤ} {s : ProcState} :
    ∀ is : List ℤ, ((∃ j ∈ is, (s.table.entry j).uuid = uuid) → E (-1) s) →
      ((∀ j ∈ is, (s.table.entry j).uuid ≠ uuid) → Q true s) →
      (scanUuid true env uuid vmfd is true).wp I Q E s := by
  intro is
  induction is with
  | nil =>
      intro _ hnone
      rw [scanUuid, Program.wp_pure]
      exact hnone (List.forall_mem_nil _)
  | cons i is ih =>
      intro hmatch hnone
      rw [scanUuid, Program.wp_bind, Program.wp_read, Program.wp_ite]
      refine ⟨fun hi => ?_, fun hi => ih (fun hrest => ?_) fun hrest => ?_⟩
      · rw [Program.wp_bind, Program.wp_onlyIf, Program.wp_exit]
        exact ⟨fun _ => hmatch ⟨i, List.mem_cons_self, hi⟩, fun hnot => absurd ⟨rfl, rfl⟩ hnot⟩
      · obtain ⟨j, hj, huuid⟩ := hrest
        exact hmatch ⟨j, List.mem_cons_of_mem i hj, huuid⟩
      · refine hnone fun j hj => ?_
        rcases List.mem_cons.mp hj with rfl | hold
        · exact hi
        · exact hrest j hold

/-- The function does what the set-up of the first entry with the uuid does. Its early exit
is returned; its end is a return of 0, but for a second match with `debug_on`. -/
theorem wp_initializeMemoryUuid_first {I : ProcState → Prop} {Q : ℤ → ProcState → Prop}
    (debugOn : Bool) {env : MemoryEnv} {uuid : Uuid} {vmfd i : ℤ} {s : ProcState}
    (hfirst : FirstWith uuid s.table i)
    (h : (initializeEntry env vmfd i).wp I
      (fun _ v => (∀ j, (v.table.entry j).uuid = (s.table.entry j).uuid) ∧
        (debugOn = true ∧ Again uuid s.table i → Q (-1) v) ∧
        (¬ (debugOn = true ∧ Again uuid s.table i) → Q 0 v)) Q s) :
    (initializeMemoryUuid debugOn env uuid vmfd).wp I Q Q s := by
  obtain ⟨behind, hsplit, hbehind⟩ := entryIndices_split hfirst.nonneg hfirst.lt
  rw [initializeMemoryUuid, Program.wp_bind, Program.wp_read, Program.wp_bind, hsplit,
    wp_scanUuid_skip _ _ _ _ _ _ _ fun j hj =>
      hfirst.before j (mem_entryIndices.mp hj).1 (mem_entryIndices.mp hj).2]
  rw [scanUuid, Program.wp_bind, Program.wp_read, if_pos hfirst.uuid_eq, Program.wp_bind,
    Program.wp_onlyIf]
  refine ⟨fun hfound => absurd hfound.2 Bool.false_ne_true, fun _ => ?_⟩
  rw [Program.wp_bind]
  refine Program.wp_mono h (fun _ u hend => ?_) fun _ _ hexit => hexit
  obtain ⟨huuid, htwice, honce⟩ := hend
  cases debugOn with
  | false =>
      rw [if_neg Bool.false_ne_true, Program.wp_pure, if_pos rfl, Program.wp_pure]
      exact honce fun hdebug => Bool.false_ne_true hdebug.1
  | true =>
      rw [if_pos rfl]
      refine wp_scanUuid_again behind (fun hmatch => ?_) fun hnone => ?_
      · obtain ⟨j, hj, heq⟩ := hmatch
        rw [huuid] at heq
        exact htwice ⟨rfl, j, ((hbehind j).mp hj).1, ((hbehind j).mp hj).2, heq⟩
      · rw [if_pos rfl, Program.wp_pure]
        refine honce ?_
        rintro ⟨-, j, hij, hj, heq⟩
        refine hnone j ((hbehind j).mpr ⟨hij, hj⟩) ?_
        rw [huuid, heq]

/-- Where no other entry has the uuid, the end is a return of 0. -/
theorem wp_initializeMemoryUuid {I : ProcState → Prop} {Q : ℤ → ProcState → Prop}
    (debugOn : Bool) {env : MemoryEnv} {vmfd i : ℤ} {s : ProcState}
    (hdistinct : s.table.Distinct) (h0 : 0 ≤ i) (hi : i < s.table.tableNumEntries)
    (h : (initializeEntry env vmfd i).wp I
      (fun _ v => (∀ j, (v.table.entry j).uuid = (s.table.entry j).uuid) ∧ Q 0 v) Q s) :
    (initializeMemoryUuid debugOn env (s.table.entry i).uuid vmfd).wp I Q Q s := by
  have hfirst := hdistinct.firstWith h0 hi
  refine wp_initializeMemoryUuid_first debugOn hfirst (Program.wp_mono h (fun _ v hend => ?_)
    fun _ _ hexit => hexit)
  exact ⟨hend.1, fun htwice => absurd htwice.2 (hdistinct.not_again hfirst), fun _ => hend.2⟩

/-- **No error means that the memory is complete**: the three regions of the one entry
with the uuid are ready. -/
theorem initializeMemoryUuid_ready (debugOn : Bool) {env : MemoryEnv}
    (hinit : env.layoutInit.delivers = true) (hcore : env.layoutCore.delivers = true)
    (vmfd : ℤ) {i : ℤ} {s : ProcState} (hdistinct : s.table.Distinct) (h0 : 0 ≤ i)
    (hi : i < s.table.tableNumEntries) :
    (initializeMemoryUuid debugOn env (s.table.entry i).uuid vmfd).wp (fun v => SetsUp i s v)
      (fun r v => SetsUp i s v ∧ (r < 0 ∨ Ready env vmfd i allRegions s v))
      (fun r v => SetsUp i s v ∧ (r < 0 ∨ Ready env vmfd i allRegions s v)) s := by
  apply wp_initializeMemoryUuid debugOn hdistinct h0 hi
  exact Program.wp_mono (initializeEntry_ready hinit hcore vmfd i s)
    (fun _ _ hready => ⟨hready.1.uuid, hready.1, Or.inr hready⟩)
    fun _ _ hneg => ⟨hneg.1, Or.inl hneg.2⟩

end LxcUio.Server
