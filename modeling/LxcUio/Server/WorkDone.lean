import LxcUio.Server.Main

/-!
# The server waits only when its work is done

The invariant `MainInv` of `main`: through the drain, the first processing loop and
the event loop, the entries before some index are processed, those behind it have
neither flag set, and `process_entry` works on the first of them. It is kept while
allocations succeed and `realloc` enlarges the table in place.
-/

namespace LxcUio.Server

open LxcUio.Foundation

/-! ## What the runs are -/

/-- `malloc` never fails in a call of `process_entry`. -/
structure ProcessEnv.MallocSucceeds (env : ProcessEnv) : Prop where
  scan : ∀ i, env.mallocScan i = true
  packet : env.mallocPacket = true
  reload : env.mallocReload = true
  regs : env.mallocRegs = true
  layoutInit : env.memory.layoutInit.malloc = true
  layoutCore : env.memory.layoutCore.malloc = true

/-- The memory allocations of the server succeed. -/
def AllocationsSucceed (s : MainState) : MainLabel → Prop
  | .initTable malloc => malloc.isOk = true
  | .gotEntry _ _ env => env.malloc.isSome = true ∧ GrowthGranted s.table env.realloc
  | .callProcess env => env.MallocSucceeds
  | _ => True

/-- Fewer than 2^22 modules are received. -/
def FewModules (s : MainState) : MainLabel → Prop
  | .gotEntry ioctlRet _ _ => ioctlRet = 1 → s.popped.length + 1 < 2 ^ 22
  | _ => True

/-- `realloc` enlarges the table in place. -/
def InPlace (s : MainState) : MainLabel → Prop
  | .gotEntry _ _ env => GrowsInPlace s.table env.realloc
  | _ => True

/-- The runs of a server whose allocations succeed. -/
def ServerRuns (s : MainState) (l : MainLabel) : Prop :=
  AllocationsSucceed s l ∧ FewModules s l

/-- Those of them in which the table is enlarged in place. -/
def InPlaceRuns (s : MainState) (l : MainLabel) : Prop := ServerRuns s l ∧ InPlace s l

/-! ## The table between two steps -/

/-- The table holds the uuids received, in order, with 0 to 3 regions each. -/
structure Holds (popped : List Uuid) (t : UuidTable) : Prop where
  exact_table : t.Exact
  uuids : (t.uuidTable.slice 0 t.tableNumEntries).map UuidTableEntry.uuid = popped
  few : popped.length < 2 ^ 22
  regions : ∀ j, 0 ≤ j → j < t.tableNumEntries →
    0 ≤ (t.entry j).memory.numRegions ∧ (t.entry j).memory.numRegions ≤ 3

theorem Holds.num_eq {popped : List Uuid} {t : UuidTable} (h : Holds popped t) :
    t.tableNumEntries = popped.length := by
  have hlen := congrArg List.length h.uuids
  have hnonneg := h.exact_table.num_nonneg
  rw [List.length_map, HeapArray.length_slice] at hlen
  omega

theorem Holds.countFits {popped : List Uuid} {t : UuidTable} (h : Holds popped t) :
    CountFits t := by
  have hnum := h.num_eq
  have hfew := h.few
  exact ⟨h.exact_table.num_nonneg, by omega⟩

theorem Frame.exact_table {t u : UuidTable} (h : Frame t u) (ht : t.Exact) : u.Exact where
  size_pos := h.size ▸ ht.size_pos
  num_nonneg := h.num ▸ ht.num_nonneg
  num_le := by
    rw [h.num, h.size]
    exact ht.num_le
  allocated := h.isNull.trans ht.allocated
  live := h.live.trans ht.live
  room := by rw [h.room, ht.room, h.size]
  pow := h.size ▸ ht.pow

theorem Frame.holds {popped : List Uuid} {t u : UuidTable} (h : Frame t u)
    (ht : Holds popped t) : Holds popped u where
  exact_table := h.exact_table ht.exact_table
  uuids := by
    rw [← ht.uuids, h.num]
    exact HeapArray.slice_map_congr _ fun i _ _ => h.uuid i
  few := ht.few
  regions := by
    intro j h0 hj
    rcases h.regions j with hsame | ⟨-, hlo, hhi⟩
    · rw [hsame]
      exact ht.regions j h0 (h.num ▸ hj)
    · exact ⟨hlo, hhi⟩

/-- The entries before `m` are processed, those from `m` on have neither flag set. -/
structure Progress (m : ℤ) (t : UuidTable) : Prop where
  nonneg : 0 ≤ m
  le_num : m ≤ t.tableNumEntries
  done : ∀ j, 0 ≤ j → j < m →
    (t.entry j).processed = true ∧ (t.entry j).couldNotProcess = false
  todo : ∀ j, m ≤ j → j < t.tableNumEntries →
    (t.entry j).processed = false ∧ (t.entry j).couldNotProcess = false

/-- As `Progress`, but entry `m` itself is being worked on, or was when the server
left the call. -/
structure ProgressAround (m : ℤ) (t : UuidTable) : Prop where
  nonneg : 0 ≤ m
  le_num : m ≤ t.tableNumEntries
  done : ∀ j, 0 ≤ j → j < m →
    (t.entry j).processed = true ∧ (t.entry j).couldNotProcess = false
  one : ∀ j, 0 ≤ j → j < t.tableNumEntries →
    ¬ ((t.entry j).processed = true ∧ (t.entry j).couldNotProcess = true)
  todo : ∀ j, m < j → j < t.tableNumEntries →
    (t.entry j).processed = false ∧ (t.entry j).couldNotProcess = false

theorem Progress.around {m : ℤ} {t : UuidTable} (h : Progress m t) :
    ProgressAround m t where
  nonneg := h.nonneg
  le_num := h.le_num
  done := h.done
  one := by
    rintro j h0 hj ⟨hp, hc⟩
    by_cases hlt : j < m
    · rw [(h.done j h0 hlt).2] at hc
      cases hc
    · rw [(h.todo j (by omega) hj).1] at hp
      cases hp
  todo := fun j hm hj => h.todo j (by omega) hj

/-- The first unsettled entry is the one the progress stands at. -/
theorem Progress.eq_of_firstUnsettled {m i : ℤ} {t : UuidTable} (h : Progress m t)
    (hi : FirstUnsettled t i) : i = m := by
  rcases lt_trichotomy i m with hlt | heq | hgt
  · have hdone := (h.done i hi.nonneg hlt).1
    rw [hi.unprocessed] at hdone
    cases hdone
  · exact heq
  · have hclear := h.todo m (le_refl m) (by have := hi.inRange; omega)
    rcases hi.before m h.nonneg hgt with hp | hc
    · rw [hclear.1] at hp
      cases hp
    · rw [hclear.2] at hc
      cases hc

theorem Touches.progressAround {m : ℤ} {t u : UuidTable} (h : Progress m t)
    (hu : Touches m t u) : ProgressAround m u where
  nonneg := h.nonneg
  le_num := hu.num ▸ h.le_num
  done := by
    intro j h0 hj
    rw [hu.processed j (by omega), hu.couldNotProcess j (by omega)]
    exact h.done j h0 hj
  one := by
    intro j h0 hj
    by_cases hjm : j = m
    · rw [hjm]
      exact hu.one
    · rw [hu.processed j hjm, hu.couldNotProcess j hjm]
      exact h.around.one j h0 (hu.num ▸ hj)
  todo := by
    intro j hm hj
    rw [hu.processed j (by omega), hu.couldNotProcess j (by omega)]
    exact h.todo j (by omega) (hu.num ▸ hj)

theorem During.frame {t u : UuidTable} (h : During t u) : Frame t u := by
  rcases h with rfl | ⟨i, -, hi⟩
  · exact Frame.refl _
  · exact hi.toFrame

theorem During.progressAround {m : ℤ} {t u : UuidTable} (h : Progress m t)
    (hu : During t u) : ProgressAround m u := by
  rcases hu with rfl | ⟨i, hfirst, hi⟩
  · exact h.around
  · obtain rfl := h.eq_of_firstUnsettled hfirst
    exact hi.progressAround h

/-- With `malloc` succeeding and no entry with both flags, no bug check is reported. -/
theorem no_bug {env : ProcessEnv} {t : UuidTable} {popped : List Uuid} {m : ℤ}
    (henv : env.MallocSucceeds) (ht : Holds popped t) (hm : Progress m t) (b : BugCheck) :
    ¬ BugCause env t b := by
  cases b with
  | negativeEntries =>
      intro hneg
      have hint : getTableNumEntries t = t.tableNumEntries :=
        toInt_of_bounds (by have := ht.countFits.1; omega) ht.countFits.2
      have := ht.exact_table.num_nonneg
      unfold BugCause at hneg
      omega
  | returnedNull =>
      rintro ⟨i, hi⟩
      rw [henv.scan i] at hi
      cases hi
  | contradiction =>
      rintro ⟨i, h0, hi, hboth⟩
      exact hm.around.one i h0 hi hboth

/-! ## `get_new_entry` -/

/-- Receiving a uuid extends the table by an entry without flags and regions. -/
theorem getNewEntry_receives {popped : List Uuid} {t : UuidTable} (h : Holds popped t)
    (uuid : Uuid) {env : NewEntryEnv} (hmalloc : env.malloc.isSome = true)
    (hfew : popped.length + 1 < 2 ^ 22) (hin : GrowsInPlace t env.realloc) :
    ∃ memory, memory.numRegions = 0 ∧ (getNewEntry t 1 uuid env).1 = 1 ∧
      Appended t (getNewEntry t 1 uuid env).2 (newEntry uuid memory) ∧
      Holds (popped ++ [uuid]) (getNewEntry t 1 uuid env).2 := by
  obtain ⟨stale, hstale⟩ := Option.isSome_iff_exists.mp hmalloc
  let memory : VmMemory := { stale with numRegions := 0, baseIDT := 0, sizeIDT := 0 }
  have hget : getNewEntry t 1 uuid env =
      (1, (tablePut t (newEntry uuid memory) env.realloc).2) := by
    simp [getNewEntry, newMemory, hstale, memory]
  have hnum := h.num_eq
  obtain ⟨-, happ, hexact⟩ := tablePut_inPlace h.exact_table (by omega)
    (newEntry uuid memory) hin
  refine ⟨memory, rfl, by rw [hget], by rw [hget]; exact happ, ?_⟩
  rw [hget]
  refine ⟨hexact, ?_, by rw [List.length_append]; exact hfew, fun j h0 hj => ?_⟩
  · have hnonneg := h.exact_table.num_nonneg
    rw [happ.num, HeapArray.slice_succ _ hnonneg, List.map_append, ← h.uuids]
    congr 1
    · exact HeapArray.slice_map_congr _ fun i h0 hi => congrArg _ (happ.kept i h0 hi)
    · show [((tablePut t (newEntry uuid memory) env.realloc).2.entry
        t.tableNumEntries).uuid] = [uuid]
      rw [happ.last]
      rfl
  · rw [happ.num] at hj
    by_cases hlast : j = t.tableNumEntries
    · rw [hlast, happ.last]
      exact ⟨le_refl 0, show (0 : ℤ) ≤ 3 by decide⟩
    · rw [happ.kept j h0 (by omega)]
      exact h.regions j h0 (by omega)

/-- The new entry stands behind the progress made so far. -/
theorem Progress.appended {m : ℤ} {t u : UuidTable} {uuid : Uuid} {memory : VmMemory}
    (h : Progress m t) (hu : Appended t u (newEntry uuid memory)) : Progress m u where
  nonneg := h.nonneg
  le_num := by
    have := h.le_num
    rw [hu.num]
    omega
  done := by
    intro j h0 hj
    have := h.le_num
    rw [hu.kept j h0 (by omega)]
    exact h.done j h0 hj
  todo := by
    intro j hm hj
    have := h.nonneg
    rw [hu.num] at hj
    by_cases hlast : j = t.tableNumEntries
    · rw [hlast, hu.last]
      exact ⟨rfl, rfl⟩
    · rw [hu.kept j (by omega) (by omega)]
      exact h.todo j hm (by omega)

/-! ## The invariant of `main` -/

/-- Everything before `table_init` returned. -/
def Pc.beforeTable : Pc → Bool
  | .getMajorNumber => true
  | .openKvm => true
  | .checkExtension => true
  | .eventfd => true
  | .openCdev => true
  | .registerServer => true
  | .tableInit => true
  | _ => false

/-- From the drain up to `out_table`. -/
def Pc.usesTable : Pc → Bool
  | .drain => true
  | .process _ => true
  | .inProcess _ _ _ => true
  | .select => true
  | .getNew => true
  | .readEventfd => true
  | .outTable => true
  | _ => false

/-- The branches that should be dead. -/
def Stop.Unexpected (stop : Stop) : Prop :=
  stop = .processUnexpected ∨ stop = .zeroEvents ∨ stop = .eventProcessUnexpected

instance (stop : Stop) : Decidable stop.Unexpected :=
  inferInstanceAs (Decidable (_ ∨ _ ∨ _))

/-- Where the progress stands when `process_entry` is called: in the event loop
exactly the entry just received is left. -/
def Site.Progress (site : Site) (t : UuidTable) : Prop :=
  match site with
  | .first => ∃ m, Server.Progress m t
  | .event => 1 ≤ t.tableNumEntries ∧ Server.Progress (t.tableNumEntries - 1) t

/-- What holds at each value of the program counter. -/
def AtPc (popped : List Uuid) (t : UuidTable) : Pc → Prop
  | .drain => Holds popped t ∧ Progress 0 t
  | .process site => Holds popped t ∧ site.Progress t
  | .inProcess site todo result => ∃ env t0, env.MallocSucceeds ∧ Holds popped t0 ∧
      site.Progress t0 ∧ During t0 t ∧ (∀ u ∈ todo, During t0 u) ∧
      CallDoes env t0 result (todo.getLastD t)
  | .select => Holds popped t ∧ Progress t.tableNumEntries t
  | .getNew => Holds popped t ∧ Progress t.tableNumEntries t
  | .readEventfd => Holds popped t ∧ Site.event.Progress t
  | .outTable => Holds popped t ∧ ∃ m, ProgressAround m t
  | _ => True

structure MainInv (s : MainState) : Prop where
  before : s.pc.beforeTable = true → s.table.uuidTable.isNull = true ∧
    s.table.uuidTableSize = 256 ∧ s.popped = []
  atPc : AtPc s.popped s.table s.pc
  noBugs : s.bugs = []
  stop : ∀ stop, s.stop = some stop → ¬ stop.Unexpected

theorem Site.Progress.around {site : Site} {t u : UuidTable} (h : site.Progress t)
    (hu : During t u) : ∃ m, ProgressAround m u := by
  cases site with
  | first =>
      obtain ⟨m, hm⟩ := h
      exact ⟨m, hu.progressAround hm⟩
  | event => exact ⟨_, hu.progressAround h.2⟩

theorem Site.Progress.some {site : Site} {t : UuidTable} (h : site.Progress t) :
    ∃ m, Server.Progress m t := by
  cases site with
  | first => exact h
  | event => exact ⟨_, h.2⟩

/-- A call that returns 1 has moved the progress on by one entry. -/
theorem Ended.progress {m : ℤ} {t u : UuidTable} (h : Progress m t)
    (hfirst : FirstUnsettled t m) (hu : Touches m t u)
    (hp : (u.entry m).processed = true) (hc : (u.entry m).couldNotProcess = false) :
    Progress (m + 1) u where
  nonneg := by
    have := h.nonneg
    omega
  le_num := by
    have := hfirst.inRange
    rw [hu.num]
    omega
  done := by
    intro j h0 hj
    by_cases hjm : j = m
    · rw [hjm]
      exact ⟨hp, hc⟩
    · rw [hu.processed j hjm, hu.couldNotProcess j hjm]
      exact h.done j h0 (by omega)
  todo := by
    intro j hm hj
    rw [hu.processed j (by omega), hu.couldNotProcess j (by omega)]
    exact h.todo j (by omega) (hu.num ▸ hj)

/-- A call that returns 0 finds nothing left to do. -/
theorem Progress.all_of_settled {m : ℤ} {t : UuidTable} (h : Progress m t)
    (hall : ∀ j, 0 ≤ j → j < t.tableNumEntries → Settled (t.entry j)) :
    m = t.tableNumEntries := by
  by_contra hne
  have hlt : m < t.tableNumEntries := lt_of_le_of_ne h.le_num hne
  have hclear := h.todo m (le_refl m) hlt
  rcases hall m h.nonneg hlt with hp | hc
  · rw [hclear.1] at hp
    cases hp
  · rw [hclear.2] at hc
    cases hc

/-- A call in the middle has become a call that returned. -/
theorem CallDoes.returned_cases {env : ProcessEnv} {t0 t : UuidTable} {ret : ℤ}
    (h : CallDoes env t0 (.returned ret) t) :
    (ret = 0 ∧ t = t0 ∧ ∀ j, 0 ≤ j → j < t0.tableNumEntries → Settled (t0.entry j)) ∨
    (ret = 1 ∧ ∃ i, FirstUnsettled t0 i ∧ Touches i t0 t ∧
      (t.entry i).processed = true ∧ (t.entry i).couldNotProcess = false) ∨
    ret < 0 := by
  rcases h with ⟨hr, ht, hall⟩ | ⟨i, hfirst, htouch, hend⟩ | ⟨b, hr, -⟩
  · injection hr with hr
    exact Or.inl ⟨hr, ht, hall⟩
  · rcases hend with ⟨hr, hp, hc⟩ | ⟨v, hv, hr⟩ | hr | hr
    · injection hr with hr
      exact Or.inr (Or.inl ⟨hr, i, hfirst, htouch, hp, hc⟩)
    · injection hr with hr
      exact Or.inr (Or.inr (hr ▸ hv))
    · cases hr
    · cases hr
  · cases hr

theorem MainInv.goto {s : MainState} (h : MainInv s) (pc : Pc) (retVal : ℤ)
    (hbefore : pc.beforeTable = true → s.pc.beforeTable = true)
    (hat : AtPc s.popped s.table pc) : MainInv { s with pc := pc, retVal := retVal } :=
  ⟨fun hb => h.before (hbefore hb), hat, h.noBugs, h.stop⟩

theorem MainInv.leave {s : MainState} (h : MainInv s) (stop : Stop) (retVal : ℤ)
    (hstop : ¬ stop.Unexpected) (hat : AtPc s.popped s.table .outTable) :
    MainInv { s.leave stop with retVal := retVal } := by
  refine ⟨(fun hb => by cases hb), hat, h.noBugs, ?_⟩
  rintro _ hst
  obtain rfl := Option.some.inj hst
  exact hstop

theorem Progress.atOutTable {popped : List Uuid} {t : UuidTable} {m : ℤ}
    (ht : Holds popped t) (hm : Progress m t) : AtPc popped t .outTable :=
  ⟨ht, m, hm.around⟩

/-- The return of `process_entry` to `main`. -/
theorem processed_inv {s : MainState} {site : Site} {ret : ℤ} {env : ProcessEnv}
    {t0 : UuidTable} (h : MainInv s) (ht0 : Holds s.popped t0)
    (hsite : site.Progress t0) (hduring : During t0 s.table)
    (hdoes : CallDoes env t0 (.returned ret) s.table) :
    MainInv (s.processed site ret) := by
  have hout : AtPc s.popped s.table .outTable :=
    ⟨hduring.frame.holds ht0, hsite.around hduring⟩
  have hholds := hduring.frame.holds ht0
  rcases hdoes.returned_cases with ⟨rfl, heq, hall⟩ | ⟨rfl, i, hfirst, htouch, hp, hc⟩ | hneg
  · cases site with
    | first =>
        obtain ⟨m, hm⟩ := hsite
        obtain rfl := hm.all_of_settled hall
        exact h.goto .select 0 (fun hb => by cases hb) ⟨hholds, heq ▸ hm⟩
    | event =>
        have hm := hsite.2.all_of_settled hall
        omega
  · cases site with
    | first =>
        obtain ⟨m, hm⟩ := hsite
        obtain rfl := hm.eq_of_firstUnsettled hfirst
        exact h.goto (.process .first) 1 (fun hb => by cases hb)
          ⟨hholds, i + 1, Ended.progress hm hfirst htouch hp hc⟩
    | event =>
        have hi := hsite.2.eq_of_firstUnsettled hfirst
        subst hi
        have hnext := Ended.progress hsite.2 hfirst htouch hp hc
        rw [sub_add_cancel, ← htouch.num] at hnext
        exact h.goto .select s.retVal (fun hb => by cases hb) ⟨hholds, hnext⟩
  · cases site with
    | first =>
        have h1 : ¬ ret > 0 := by omega
        have h2 : ¬ ret = 0 := by omega
        simp only [MainState.processed, if_neg h1, if_neg h2, if_pos hneg]
        exact h.leave .processError ret (by decide) hout
    | event =>
        have h1 : ¬ ret = 1 := by omega
        have h2 : ¬ ret = 0 := by omega
        simp only [MainState.processed, if_neg h1, if_neg h2, if_pos hneg]
        exact h.leave .eventProcessError s.retVal (by decide) hout

/-- Nothing was received: only the value returned is new. -/
theorem received_of_ne_one (s : MainState) {ioctlRet : ℤ} (hret : ioctlRet ≠ 1) (uuid : Uuid)
    (env : NewEntryEnv) :
    s.received ioctlRet uuid env = { s with retVal := ioctlRet } := by
  have hget : getNewEntry s.table ioctlRet uuid env = (ioctlRet, s.table) := by
    unfold getNewEntry
    split
    · rfl
    · split
      · rename_i hzero
        rw [hzero]
      · rfl
  simp only [MainState.received, hget, if_neg hret]

/-- Another owner of the heap cannot reach the table's entries. -/
theorem Holds.disturb {popped : List Uuid} {t : UuidTable} (h : Holds popped t)
    (mem : ℤ → UuidTableEntry) :
    Holds popped { t with uuidTable := t.uuidTable.disturb mem } where
  exact_table := h.exact_table.disturb mem
  uuids := by
    rw [← h.uuids]
    exact congrArg _ (HeapArray.slice_disturb _ _ h.exact_table.live (le_refl 0)
      (by rw [h.exact_table.room]; exact h.exact_table.num_le))
  few := h.few
  regions := fun j h0 hj => by
    rw [disturb_entry h.exact_table.toSound mem h0 hj]
    exact h.regions j h0 hj

theorem Progress.disturb {popped : List Uuid} {t : UuidTable} {m : ℤ} (ht : Holds popped t)
    (h : Progress m t) (mem : ℤ → UuidTableEntry) :
    Progress m { t with uuidTable := t.uuidTable.disturb mem } where
  nonneg := h.nonneg
  le_num := h.le_num
  done := fun j h0 hj => by
    rw [disturb_entry ht.exact_table.toSound mem h0 (lt_of_lt_of_le hj h.le_num)]
    exact h.done j h0 hj
  todo := fun j hm hj => by
    rw [disturb_entry ht.exact_table.toSound mem (le_trans h.nonneg hm) hj]
    exact h.todo j hm hj

theorem ProgressAround.disturb {popped : List Uuid} {t : UuidTable} {m : ℤ}
    (ht : Holds popped t) (h : ProgressAround m t)
    (mem : ℤ → UuidTableEntry) :
    ProgressAround m { t with uuidTable := t.uuidTable.disturb mem } where
  nonneg := h.nonneg
  le_num := h.le_num
  done := fun j h0 hj => by
    rw [disturb_entry ht.exact_table.toSound mem h0 (lt_of_lt_of_le hj h.le_num)]
    exact h.done j h0 hj
  one := fun j h0 hj => by
    rw [disturb_entry ht.exact_table.toSound mem h0 hj]
    exact h.one j h0 hj
  todo := fun j hmj hj => by
    have hnonneg := h.nonneg
    rw [disturb_entry ht.exact_table.toSound mem (by omega) hj]
    exact h.todo j hmj hj

theorem AtPc.disturb {popped : List Uuid} {t : UuidTable} {pc : Pc}
    (hpc : ∀ site todo result, pc ≠ .inProcess site todo result) (h : AtPc popped t pc)
    (mem : ℤ → UuidTableEntry) :
    AtPc popped { t with uuidTable := t.uuidTable.disturb mem } pc := by
  cases pc with
  | drain => exact ⟨h.1.disturb mem, h.2.disturb h.1 mem⟩
  | process site =>
      cases site with
      | first =>
          obtain ⟨hholds, m, hm⟩ := h
          exact ⟨hholds.disturb mem, m, hm.disturb hholds mem⟩
      | event => exact ⟨h.1.disturb mem, h.2.1, h.2.2.disturb h.1 mem⟩
  | inProcess site todo result => exact absurd rfl (hpc site todo result)
  | select => exact ⟨h.1.disturb mem, h.2.disturb h.1 mem⟩
  | getNew => exact ⟨h.1.disturb mem, h.2.disturb h.1 mem⟩
  | readEventfd => exact ⟨h.1.disturb mem, h.2.1, h.2.2.disturb h.1 mem⟩
  | outTable =>
      obtain ⟨hholds, m, hm⟩ := h
      exact ⟨hholds.disturb mem, m, hm.disturb hholds mem⟩
  | _ => trivial

/-- `table_init` gives an empty table. -/
theorem tableInit_holds {t : UuidTable} (hnull : t.uuidTable.isNull = true)
    (hsize : t.uuidTableSize = 256) {malloc : Except ℤ (ℤ → UuidTableEntry)}
    (hok : malloc.isOk = true) :
    (tableInit t malloc).1 = 0 ∧ Holds [] (tableInit t malloc).2 ∧
      Progress 0 (tableInit t malloc).2 := by
  cases malloc with
  | error errno => cases hok
  | ok mem =>
      obtain ⟨hret, hnum, hexact⟩ := tableInit_exact hnull hsize mem
      have hempty : ∀ j, 0 ≤ j → ¬ j < (tableInit t (.ok mem)).2.tableNumEntries := by
        intro j h0 hj
        omega
      refine ⟨hret, ⟨hexact, ?_, by decide, ?_⟩, ⟨le_refl 0, le_of_eq hnum.symm, ?_, ?_⟩⟩
      · rw [hnum, HeapArray.slice_eq_nil _ (le_refl 0), List.map_nil]
      · exact fun j h0 hj => absurd hj (hempty j h0)
      · exact fun j h0 hj => absurd h0 (not_le.mpr hj)
      · exact fun j h0 hj => absurd hj (hempty j h0)

/-- The drain loop and the event loop after `get_new_entry`. -/
theorem received_inv {s : MainState} {ioctlRet : ℤ} {uuid : Uuid}
    {env : NewEntryEnv} (hg : InPlaceRuns s (.gotEntry ioctlRet uuid env))
    {m : ℤ} (hholds : Holds s.popped s.table) (hm : Progress m s.table) :
    (ioctlRet = 1 ∧ (s.received ioctlRet uuid env).retVal = 1 ∧
      (s.received ioctlRet uuid env).table.tableNumEntries = s.table.tableNumEntries + 1 ∧
      Holds (s.popped ++ [uuid]) (s.received ioctlRet uuid env).table ∧
      Progress m (s.received ioctlRet uuid env).table) ∨
    (ioctlRet ≠ 1 ∧ s.received ioctlRet uuid env = { s with retVal := ioctlRet }) := by
  by_cases hret : ioctlRet = 1
  · left
    subst hret
    obtain ⟨⟨⟨hmalloc, -⟩, hfew⟩, hin⟩ := hg
    obtain ⟨memory, -, hone, happ, hnew⟩ :=
      getNewEntry_receives hholds uuid hmalloc (hfew rfl) hin
    exact ⟨rfl, hone, happ.num, hnew, hm.appended happ⟩
  · exact Or.inr ⟨hret, received_of_ne_one s hret uuid env⟩

theorem mainInv_step (debugOn : Bool) (s : MainState) (l : MainLabel) (t : MainState)
    (h : MainInv s) (hg : InPlaceRuns s l) (hs : mainStep debugOn s l = some t) :
    MainInv t := by
  have hat := h.atPc
  cases mainStep_move hs with
  | noMajorNumber hpc hret => exact h.goto .returned (-1) (fun hb => by cases hb) trivial
  | majorNumber hpc hret => exact h.goto .openKvm s.retVal (fun _ => by rw [hpc]; rfl) trivial
  | noKvm hpc hfd => exact h.goto .returned s.retVal (fun hb => by cases hb) trivial
  | kvm hpc hfd => exact h.goto .checkExtension s.retVal (fun _ => by rw [hpc]; rfl) trivial
  | @extensionError ret hpc hret => exact h.goto .returned ret (fun hb => by cases hb) trivial
  | noExtension hpc => exact h.goto .returned 0 (fun hb => by cases hb) trivial
  | @extension ret hpc hret => exact h.goto .eventfd ret (fun _ => by rw [hpc]; rfl) trivial
  | noEventfd hpc hfd => exact h.goto .returned (-1) (fun hb => by cases hb) trivial
  | eventfd hpc hfd => exact h.goto .openCdev s.retVal (fun _ => by rw [hpc]; rfl) trivial
  | noCdev hpc hfd => exact h.goto .outEfd (-1) (fun hb => by cases hb) trivial
  | cdev hpc hfd => exact h.goto .registerServer s.retVal (fun _ => by rw [hpc]; rfl) trivial
  | @notRegistered ret hpc hret => exact h.goto .outEfd ret (fun hb => by cases hb) trivial
  | @registered ret hpc hret => exact h.goto .tableInit ret (fun _ => by rw [hpc]; rfl) trivial
  | noTable hpc hneg =>
      obtain ⟨hnull, hsize, -⟩ := h.before (by rw [hpc]; rfl)
      obtain ⟨hret, -, -⟩ := tableInit_holds hnull hsize hg.1.1
      omega
  | tableInit hpc hnonneg =>
      obtain ⟨hnull, hsize, hpopped⟩ := h.before (by rw [hpc]; rfl)
      obtain ⟨-, hholds, hm⟩ := tableInit_holds hnull hsize hg.1.1
      refine ⟨(fun hb => by cases hb), ⟨?_, hm⟩, h.noBugs, h.stop⟩
      rw [hpopped]
      exact hholds
  | @drained ioctlRet uuid env hpc =>
      rw [hpc] at hat
      rcases received_inv hg hat.1 hat.2 with ⟨rfl, hret, -, hholds, hm⟩ | ⟨hne, hsame⟩
      · -- an entry was put: once more around the loop
        have hpos : (s.received 1 uuid env).retVal > 0 := by omega
        rw [MainState.drained, if_pos hpos]
        refine ⟨fun hb => ?_, ?_, h.noBugs, h.stop⟩
        · change s.pc.beforeTable = true at hb
          rw [hpc] at hb
          cases hb
        · show AtPc (s.popped ++ [uuid]) (s.received 1 uuid env).table s.pc
          rw [hpc]
          exact ⟨hholds, hm⟩
      · rw [hsame, MainState.drained]
        split
        · exact h.goto s.pc ioctlRet id (hpc ▸ hat)
        · split
          · exact h.goto (.process .first) ioctlRet (fun hb => by cases hb) ⟨hat.1, 0, hat.2⟩
          · exact h.leave .drainError ioctlRet (by decide) (hat.2.atOutTable hat.1)
  | @callProcess site env hpc =>
      -- all states of the call are prepared here, and shown one by one
      rw [hpc] at hat
      obtain ⟨hduring, hdoes⟩ := runProcessEntry_does debugOn env hat.1.countFits
      exact ⟨(fun hb => by cases hb),
        ⟨env, s.table, hg.1.1, hat.1, hat.2, Or.inl rfl, hduring, hdoes⟩, h.noBugs, h.stop⟩
  | @processStep site u todo result hpc =>
      rw [hpc] at hat
      obtain ⟨env, t0, henv, ht0, hsite, -, htodo, hdoes⟩ := hat
      refine ⟨(fun hb => by cases hb),
        ⟨env, t0, henv, ht0, hsite, htodo u List.mem_cons_self, ?_, ?_⟩, h.noBugs, h.stop⟩
      · exact fun v hv => htodo v (List.mem_cons_of_mem u hv)
      · rwa [List.getLastD_cons] at hdoes
  | processReturn hpc =>
      rw [hpc] at hat
      obtain ⟨env, t0, -, ht0, hsite, hduring, -, hdoes⟩ := hat
      exact processed_inv h ht0 hsite hduring hdoes
  | @bug site b hpc =>
      rw [hpc] at hat
      obtain ⟨env, t0, henv, ht0, hsite, -, -, hdoes⟩ := hat
      obtain ⟨m, hm⟩ := hsite.some
      -- the invariant rules out every cause of a bug check
      rcases hdoes with ⟨hr, -⟩ | ⟨i, -, -, hr | ⟨v, -, hr⟩ | hr | hr⟩ | ⟨b', -, -, hcause⟩
      · cases hr
      · cases hr.1
      · cases hr
      · cases hr
      · cases hr
      · exact absurd hcause (no_bug henv ht0 hm b')
  | crashed hpc => exact h.goto .killed s.retVal (fun hb => by cases hb) trivial
  | @selectError ret readable hpc hret =>
      rw [hpc] at hat
      exact h.leave .selectError ret (by decide) (hat.2.atOutTable hat.1)
  | @readable ret hpc hret =>
      rw [hpc] at hat
      exact h.goto .getNew ret (fun hb => by cases hb) hat
  | @notReadable ret hpc hret => exact h.goto s.pc ret id hat
  | @woken ioctlRet uuid env hpc =>
      rw [hpc] at hat
      rcases received_inv hg hat.1 hat.2 with ⟨rfl, hret, hnum, hholds, hm⟩ | ⟨hne, hsame⟩
      · have hzero : ¬ (s.received 1 uuid env).retVal = 0 := by omega
        have hnonneg := hm.nonneg
        rw [MainState.woken, if_neg hzero, if_pos hret]
        refine ⟨(fun hb => by cases hb), ⟨hholds, ?_, ?_⟩, h.noBugs, h.stop⟩
        · show 1 ≤ (s.received 1 uuid env).table.tableNumEntries
          omega
        · show Progress ((s.received 1 uuid env).table.tableNumEntries - 1) _
          rw [hnum, add_sub_cancel_right]
          exact hm
      · rw [hsame, MainState.woken]
        have hout := hat.2.atOutTable hat.1
        split
        · exact h.leave .noNewEntry (-1) (by decide) hout
        · split
          · exact h.leave .newEntryError ioctlRet (by decide) hout
          · exact h.leave .newEntryUnexpected ioctlRet (by decide) hout
  | eventfdRead hpc =>
      rw [hpc] at hat
      exact h.goto (.process .event) s.retVal (fun hb => by cases hb) hat
  | readError hpc hret =>
      rw [hpc] at hat
      exact h.leave .readError s.retVal (by decide) (hat.2.2.atOutTable hat.1)
  | deleteTable hpc => exact ⟨(fun hb => by cases hb), trivial, h.noBugs, h.stop⟩
  | @deregistered ret hpc => exact h.goto .outEfd ret (fun hb => by cases hb) trivial
  | closed hpc => exact h.goto .returned s.retVal (fun hb => by cases hb) trivial
  | @scribble mem hpc =>
      -- a write of another owner does not reach a block that is owned
      refine ⟨fun hb => h.before hb, ?_, h.noBugs, h.stop⟩
      exact hat.disturb hpc mem

theorem init_mainInv (mem : ℤ → UuidTableEntry) : MainInv (MainState.init mem) :=
  ⟨fun _ => ⟨rfl, rfl, rfl⟩, trivial, rfl, fun _ h => by cases h⟩

theorem mainInv_of_inPlace {debugOn : Bool} {mem : ℤ → UuidTableEntry} {s : MainState}
    (h : Via (mainStep debugOn) InPlaceRuns (MainState.init mem) s) : MainInv s :=
  h.invariant MainInv (init_mainInv mem) (mainInv_step debugOn)

/-! ## Runs -/

/-- `get_new_entry` gets its memory, and `realloc` would grow the table in place. -/
def entryEnv : NewEntryEnv := ⟨some default, fun _ => .inPlace fun _ => default⟩

/-- `realloc` moves the block. -/
def movedEnv : NewEntryEnv := ⟨some default, fun _ => .moved fun _ => default⟩

/-- An environment in which `KVM_CREATE_VM` fails. -/
def noVmEnv : ProcessEnv where
  mallocScan := fun _ => true
  createVm := -1
  memory := ⟨4096, none, 0, ⟨true, 0, default⟩, none, 0, ⟨true, 0, default⟩, none, 0⟩
  mallocPacket := true
  bytesWritten := 304
  mallocReload := true
  createVcpu := 8
  vcpuMmapSize := 4096
  sizeofKvmRun := 2352
  mmapRun := .mapped
  getSregs := 0
  setSregs := 0
  mallocRegs := true
  setRegs := 0
  exits := []

/-- An environment in which everything succeeds, and the guest halts at once. -/
def okEnv : ProcessEnv where
  mallocScan := fun _ => true
  createVm := 7
  memory := ⟨4096, some 0x10000, 0, ⟨true, 0, default⟩, some 0x20000, 0,
    ⟨true, 0, default⟩, some 0x30000, 0⟩
  mallocPacket := true
  bytesWritten := 304
  mallocReload := true
  createVcpu := 8
  vcpuMmapSize := 4096
  sizeofKvmRun := 2352
  mmapRun := .mapped
  getSregs := 0
  setSregs := 0
  mallocRegs := true
  setRegs := 0
  exits := [⟨0, .hlt⟩]

theorem okEnv_mallocSucceeds : okEnv.MallocSucceeds :=
  ⟨fun _ => rfl, rfl, rfl, rfl, rfl, rfl⟩

/-- With nothing in the way a new entry is processed. -/
theorem okEnv_returns_one (debugOn : Bool) {t : UuidTable} (hnum : t.tableNumEntries = 1)
    (hregions : (t.entry 0).memory.numRegions = 0) (hp : (t.entry 0).processed = false)
    (hc : (t.entry 0).couldNotProcess = false) :
    (runProcessEntry debugOn okEnv t).value = .returned 1 := by
  have hint : toInt 1 = 1 := rfl
  have hsend : sendPacket 304 = 0 := rfl
  have h : (processEntry debugOn okEnv).wp (fun _ => True) (fun r _ => r = .returned 1)
      (fun r _ => r = .returned 1) ⟨t, []⟩ := by
    cases debugOn <;> simp [processEntry, getTableNumEntries, hnum, hint, entryIndices,
      List.range_succ, scanEntries, tableEntryAtIndexCopy, hp, hc, processPicked, okEnv,
      setXxx, modifyEntry, ProcState.modify, ProcState.emit, initializeMemoryUuid, scanUuid,
      setVmfd, initializeEntry, addRegion, hregions, getUuidLayout, emit, reload, hsend,
      startVcpu, runVcpu]
  exact ((Program.wp_value_iff _).mp h).2

/-- When the only entry is processed, the next call finds nothing to do. -/
theorem returns_zero_of_processed (debugOn : Bool) {t : UuidTable}
    (hnum : t.tableNumEntries = 1) (hp : (t.entry 0).processed = true)
    (hc : (t.entry 0).couldNotProcess = false) :
    (runProcessEntry debugOn okEnv t).value = .returned 0 := by
  have hint : toInt 1 = 1 := rfl
  have h : (processEntry debugOn okEnv).wp (fun _ => True) (fun r _ => r = .returned 0)
      (fun r _ => r = .returned 0) ⟨t, []⟩ := by
    simp [processEntry, getTableNumEntries, hnum, hint, entryIndices, List.range_succ,
      scanEntries, tableEntryAtIndexCopy, hp, hc, okEnv]
  exact ((Program.wp_value_iff _).mp h).2

/-- Everything up to the drain succeeds. -/
def bootRun : List MainLabel :=
  [.majorNumber 240, .kvmOpened 3, .extension 1, .eventfdCreated 4, .cdevOpened 5,
    .registered 0, .initTable (.ok fun _ => default)]

def drainStart : MainState where
  pc := .drain
  table := UuidTable.fresh (fun _ => default) fun _ => default
  retVal := 0
  popped := []
  stop := none
  bugs := []

/-- A call of `process_entry` that shows `n` states and returns. -/
def callRun (env : ProcessEnv) (n : ℕ) : List MainLabel :=
  .callProcess env :: List.replicate n .processStep ++ [.processReturn]

/-- Two modules are drained. -/
def drainRun : List MainLabel :=
  [.gotEntry 1 1 entryEnv, .gotEntry 1 2 entryEnv, .gotEntry 0 0 entryEnv]

/-- Two modules are drained; no VM can be created for the first of them. -/
def failedRun : List MainLabel :=
  [.gotEntry 1 1 entryEnv, .gotEntry 1 2 entryEnv, .gotEntry 0 0 entryEnv,
    .callProcess noVmEnv, .processStep, .processStep, .processReturn]

/-- Two modules are drained and served; the third call finds nothing to do. -/
def servedRun : List MainLabel :=
  drainRun ++ (callRun okEnv 21 ++ callRun okEnv 21 ++ callRun okEnv 0)

theorem entryEnv_inPlace (s : MainState) (uuid : Uuid) (ret : ℤ)
    (hfew : s.popped.length + 1 < 2 ^ 22) : InPlaceRuns s (.gotEntry ret uuid entryEnv) :=
  ⟨⟨⟨rfl, fun _ _ h => by cases h⟩, fun _ => hfew⟩, fun _ => ⟨_, rfl⟩⟩

theorem bootRun_exec (debugOn : Bool) :
    exec (mainStep debugOn) (MainState.init fun _ => default) bootRun = some drainStart := rfl

theorem bootRun_inPlace (debugOn : Bool) :
    StepsMeet (mainStep debugOn) InPlaceRuns (MainState.init fun _ => default) bootRun := by
  apply stepsMeet_of_forall
  intro l hl s
  simp only [bootRun, List.mem_cons, List.not_mem_nil, or_false] at hl
  rcases hl with rfl | rfl | rfl | rfl | rfl | rfl | rfl
  all_goals exact ⟨⟨by trivial, trivial⟩, trivial⟩

theorem boot_reaches_drain (debugOn : Bool) :
    Via (mainStep debugOn) InPlaceRuns (MainState.init fun _ => default) drainStart :=
  via_of_stepsMeet (bootRun_exec debugOn) (bootRun_inPlace debugOn)

theorem failedRun_inPlace :
    StepsMeet (mainStep true) InPlaceRuns drainStart failedRun := by
  iterate 3
    refine fun _ h => ⟨entryEnv_inPlace _ _ _ (by decide), ?_⟩
    obtain rfl := Option.some.inj h
  refine fun _ h => ⟨⟨⟨⟨fun _ => rfl, rfl, rfl, rfl, rfl, rfl⟩, trivial⟩, trivial⟩, ?_⟩
  obtain rfl := Option.some.inj h
  iterate 3
    refine fun _ h => ⟨⟨⟨trivial, trivial⟩, trivial⟩, ?_⟩
    obtain rfl := Option.some.inj h
  trivial

theorem drainRun_inPlace : StepsMeet (mainStep true) InPlaceRuns drainStart drainRun := by
  iterate 3
    refine fun _ h => ⟨entryEnv_inPlace _ _ _ (by decide), ?_⟩
    obtain rfl := Option.some.inj h
  trivial

theorem callRun_inPlace {s : MainState} {l : MainLabel} {n : ℕ} (hl : l ∈ callRun okEnv n) :
    InPlaceRuns s l := by
  rcases List.mem_append.mp hl with hcall | hreturn
  · rcases List.mem_cons.mp hcall with rfl | hstep
    · exact ⟨⟨okEnv_mallocSucceeds, trivial⟩, trivial⟩
    · obtain rfl := List.eq_of_mem_replicate hstep
      exact ⟨⟨trivial, trivial⟩, trivial⟩
  · obtain rfl := List.mem_singleton.mp hreturn
    exact ⟨⟨trivial, trivial⟩, trivial⟩

theorem servedRun_inPlace : StepsMeet (mainStep true) InPlaceRuns drainStart servedRun := by
  refine drainRun_inPlace.append rfl (stepsMeet_of_forall fun l hl s => ?_)
  rcases List.mem_append.mp hl with hserved | hlast
  · rcases List.mem_append.mp hserved with hfirst | hsecond
    · exact callRun_inPlace hfirst
    · exact callRun_inPlace hsecond
  · exact callRun_inPlace hlast

/-- `main` waits, and there are `n` entries. -/
def waitsWith (n : ℤ) (s : MainState) : Bool :=
  match s.pc with
  | .select => decide (s.table.tableNumEntries = n)
  | _ => false

theorem of_waitsWith {n : ℤ} {s : MainState} (h : waitsWith n s = true) :
    s.pc = .select ∧ s.table.tableNumEntries = n := by
  unfold waitsWith at h
  split at h
  · exact ⟨‹_›, of_decide_eq_true h⟩
  · cases h

theorem servedRun_waits : ∃ s, exec (mainStep true) drainStart servedRun = some s ∧
    s.pc = .select ∧ s.table.tableNumEntries = 2 := by
  have hwaits : (exec (mainStep true) drainStart servedRun).any (waitsWith 2) = true := by
    decide +kernel
  obtain ⟨s, hrun, hs⟩ := (Option.any_eq_true _ _).mp hwaits
  exact ⟨s, hrun, of_waitsWith hs⟩

/-! ## The server waits only when its work is done -/

/-- What is said of every state: all entries are processed while `main` waits in
`select`; no entry has both flags set, or a count of regions outside 0..3; and
none of the branches for the unexpected was taken. -/
structure WorkDone (s : MainState) : Prop where
  waiting : s.pc = .select → ∀ j, 0 ≤ j → j < s.table.tableNumEntries →
    (s.table.entry j).processed = true ∧ (s.table.entry j).couldNotProcess = false
  oneFlag : s.pc.usesTable = true → ∀ j, 0 ≤ j → j < s.table.tableNumEntries →
    ¬ ((s.table.entry j).processed = true ∧ (s.table.entry j).couldNotProcess = true)
  regions : s.pc.usesTable = true → ∀ j, 0 ≤ j → j < s.table.tableNumEntries →
    0 ≤ (s.table.entry j).memory.numRegions ∧ (s.table.entry j).memory.numRegions ≤ 3
  noBugs : s.bugs = []
  expected : ∀ stop, s.stop = some stop → ¬ stop.Unexpected

/-- While the table is in use, it holds what was received, and the progress stands
somewhere. -/
theorem AtPc.holds_around {popped : List Uuid} {t : UuidTable} {pc : Pc}
    (h : AtPc popped t pc) (hpc : pc.usesTable = true) :
    Holds popped t ∧ ∃ m, ProgressAround m t := by
  cases pc with
  | drain => exact ⟨h.1, 0, h.2.around⟩
  | process site => exact ⟨h.1, h.2.around (Or.inl rfl)⟩
  | inProcess site todo result =>
      obtain ⟨env, t0, -, ht0, hsite, hduring, -⟩ := h
      exact ⟨hduring.frame.holds ht0, hsite.around hduring⟩
  | select => exact ⟨h.1, _, h.2.around⟩
  | getNew => exact ⟨h.1, _, h.2.around⟩
  | readEventfd => exact ⟨h.1, h.2.around (Or.inl rfl)⟩
  | outTable => exact h
  | _ => cases hpc

/-- **The server waits only when its work is done**, in both builds, in every run in
which its allocations succeed, it receives fewer than 2^22 modules and every growth
of `uuid_table` stays in place. -/
theorem workDone_of_inPlace (debugOn : Bool) (mem : ℤ → UuidTableEntry) (s : MainState)
    (h : Via (mainStep debugOn) InPlaceRuns (MainState.init mem) s) : WorkDone s := by
  have hinv := mainInv_of_inPlace h
  have hat := hinv.atPc
  refine ⟨fun hpc => ?_, fun hpc => ?_, fun hpc => ?_, hinv.noBugs, hinv.stop⟩
  · rw [hpc] at hat
    exact hat.2.done
  · obtain ⟨-, m, hm⟩ := hat.holds_around hpc
    exact hm.one
  · exact (hat.holds_around hpc).1.regions

/-- The server that has served two modules waits, and both are processed; the one that could
not serve the first of them leaves. -/
theorem workDone_served_and_failed :
    (∃ s, exec (mainStep true) drainStart servedRun = some s ∧ s.pc = .select ∧
      s.table.tableNumEntries = 2 ∧ (s.table.entry 0).processed = true ∧
      (s.table.entry 1).processed = true ∧ WorkDone s) ∧
    ∃ s, exec (mainStep true) drainStart failedRun = some s ∧ s.popped = [1, 2] ∧
      WorkDone s := by
  constructor
  · obtain ⟨s, hrun, hpc, hnum⟩ := servedRun_waits
    have hdone := workDone_of_inPlace true (fun _ => default) s
      ((boot_reaches_drain true).trans (via_of_stepsMeet hrun servedRun_inPlace))
    have hprocessed := hdone.waiting hpc
    rw [hnum] at hprocessed
    exact ⟨s, hrun, hpc, hnum, (hprocessed 0 (by decide) (by decide)).1,
      (hprocessed 1 (by decide) (by decide)).1, hdone⟩
  · have hrun : exec (mainStep true) drainStart failedRun = some _ := rfl
    exact ⟨_, hrun, rfl, workDone_of_inPlace true (fun _ => default) _
      ((boot_reaches_drain true).trans (via_of_stepsMeet hrun failedRun_inPlace))⟩

/-- What `new_memory` makes of the block that `entryEnv` and `movedEnv` deliver. -/
def clearedMemory : VmMemory :=
  { (default : VmMemory) with numRegions := 0, baseIDT := 0, sizeIDT := 0 }

theorem getNewEntry_room {t : UuidTable} (hnull : t.uuidTable.isNull = false)
    (hroom : t.tableNumEntries < t.uuidTableSize) (uuid : Uuid) :
    getNewEntry t 1 uuid entryEnv = (1, t.store (newEntry uuid clearedMemory)) := by
  show (1, (tablePut t _ _).2) = _
  rw [tablePut_of_room hnull hroom]
  rfl

/-- The full table, when `realloc` moves the block. -/
theorem getNewEntry_moved {t : UuidTable} (hnull : t.uuidTable.isNull = false)
    (hfull : t.tableNumEntries = t.uuidTableSize) (uuid : Uuid) :
    getNewEntry t 1 uuid movedEnv =
      (1, (t.regrown (.moved fun _ => default)).store (newEntry uuid clearedMemory)) := by
  have hmoved : movedEnv.realloc t.newSizeBytes = .moved fun _ => default := rfl
  show (1, (tablePut t _ _).2) = _
  rw [tablePut_of_moved hnull hfull hmoved]
  rfl

/-- Up to 256 modules are received without growing the table. -/
theorem drain_fills_table (debugOn : Bool) (n : ℕ) (hn : n ≤ 256) :
    ∃ s, Via (mainStep debugOn) InPlaceRuns (MainState.init fun _ => default) s ∧
      s.pc = .drain ∧ s.popped.length = n ∧ s.table.uuidTableSize = 256 := by
  induction n with
  | zero => exact ⟨drainStart, boot_reaches_drain debugOn, rfl, rfl, rfl⟩
  | succ n ih =>
      obtain ⟨s, hvia, hpc, hpopped, hsize⟩ := ih (by omega)
      have hat := (mainInv_of_inPlace hvia).atPc
      rw [hpc] at hat
      have hnum := hat.1.num_eq
      have hget := getNewEntry_room hat.1.exact_table.allocated (by omega) 0
      have hstep : mainStep debugOn s (.gotEntry 1 0 entryEnv) =
          some (s.received 1 0 entryEnv) := by
        have hret : (s.received 1 0 entryEnv).retVal = 1 := congrArg Prod.fst hget
        have hpos : (s.received 1 0 entryEnv).retVal > 0 := by omega
        unfold mainStep
        rw [hpc]
        simp only [MainState.drained, if_pos hpos]
      refine ⟨_, hvia.snoc (entryEnv_inPlace s 0 1 (by omega)) hstep, hpc, ?_, ?_⟩
      · show (s.popped ++ [0]).length = n + 1
        rw [List.length_append, hpopped]
        rfl
      · show (getNewEntry s.table 1 0 entryEnv).2.uuidTableSize = 256
        rw [hget]
        exact hsize

theorem mainStep_scribble (debugOn : Bool) {s : MainState} (hpc : s.pc = .drain)
    (mem : ℤ → UuidTableEntry) :
    mainStep debugOn s (.scribble mem) = some { s with
      table := { s.table with uuidTable := s.table.uuidTable.disturb mem } } := by
  obtain ⟨pc, table, retVal, popped, stop, bugs⟩ := s
  obtain rfl : pc = .drain := hpc
  rfl

/-- The 257th module: `realloc` moves the block and frees the one that `uuid_table`
still points to. -/
theorem growth_frees_table : ∃ s,
    Via (mainStep true) ServerRuns (MainState.init fun _ => default) s ∧ s.pc = .drain ∧
      s.table.tableNumEntries = 257 ∧ s.table.uuidTable.live = false := by
  obtain ⟨s, hvia, hpc, hpopped, hsize⟩ := drain_fills_table true 256 (le_refl 256)
  have hat := (mainInv_of_inPlace hvia).atPc
  rw [hpc] at hat
  have hnum := hat.1.num_eq
  have hfull : s.table.tableNumEntries = s.table.uuidTableSize := by omega
  have hget := getNewEntry_moved hat.1.exact_table.allocated hfull 0
  have hstep : mainStep true s (.gotEntry 1 0 movedEnv) = some (s.received 1 0 movedEnv) := by
    have hret : (s.received 1 0 movedEnv).retVal = 1 := congrArg Prod.fst hget
    have hpos : (s.received 1 0 movedEnv).retVal > 0 := by omega
    unfold mainStep
    rw [hpc]
    simp only [MainState.drained, if_pos hpos]
  have htable : (s.received 1 0 movedEnv).table =
      (s.table.regrown (.moved fun _ => default)).store (newEntry 0 clearedMemory) :=
    congrArg Prod.snd hget
  refine ⟨_, (hvia.mono fun _ _ hg => hg.1).snoc
    (show ServerRuns s (.gotEntry 1 0 movedEnv) from
      ⟨⟨rfl, fun _ _ h => by cases h⟩, fun _ => by omega⟩) hstep, hpc, ?_, ?_⟩
  · rw [htable]
    show s.table.tableNumEntries + 1 = 257
    omega
  · rw [htable]
    rfl

/-- **What the freed block can hold**: another owner of that memory writes what reads
as an entry with both flags. -/
theorem moved_table_breaks_workDone :
    ¬ ∀ (debugOn : Bool) (mem : ℤ → UuidTableEntry) (s : MainState),
      Via (mainStep debugOn) ServerRuns (MainState.init mem) s → WorkDone s := by
  intro hall
  obtain ⟨s, hvia, hpc, hnum, hfreed⟩ := growth_frees_table
  let bothFlags : UuidTableEntry := ⟨0, 0, 0, default, true, true⟩
  have hdone := hall true _ _ (hvia.snoc
    (show ServerRuns s (.scribble fun _ => bothFlags) from ⟨trivial, trivial⟩)
    (mainStep_scribble true hpc _))
  have hentry : ({ s.table with
      uuidTable := s.table.uuidTable.disturb fun _ => bothFlags } : UuidTable).entry 0 =
        bothFlags :=
    HeapArray.disturb_cells_freed _ _ 0 hfreed
  refine hdone.oneFlag ?_ 0 (le_refl 0) ?_ ?_
  · show s.pc.usesTable = true
    rw [hpc]
    rfl
  · show 0 < s.table.tableNumEntries
    omega
  · rw [hentry]
    exact ⟨rfl, rfl⟩

end LxcUio.Server
