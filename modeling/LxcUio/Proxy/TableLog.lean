import LxcUio.Foundation.CursorLog
import LxcUio.Foundation.LabelledRun
import LxcUio.Proxy.Cdev

/-!
# The proxy's table as a log

What any sequence of calls does to `module_table`. An allocated table is a log with a
cursor (`UsableTable.log`), and the functions are the operations of that log; the two
functions that answer a failure, `table_pop_reverse` after a failed copy and `table_put`
with a failed `krealloc`, are looked at one by one.

- `Reached` : the tables that calls lead to, whatever the allocations answer.
- `FifoLog` : what every state of a run of calls satisfies while allocations succeed.
- `Undone`, `PutIntact` : what a failure should leave behind.
-/

namespace LxcUio.Proxy

open LxcUio.Foundation

/-! ## Calls and answers -/

inductive TableCall where
  | put (mt : ModuleTableStruct) (krealloc : Option (ℤ → ModuleTableStruct))
  | pop
  | popReverse
  | peek
  | getCopy (uuid : Uuid) (kmalloc : Option CopyBlock)

/-- What the caller gets. A pointer into the table is read at once: `none` is NULL, and a
pointer other than NULL into a NULL table faults. -/
inductive TableAnswer where
  | retval (ret : ℤ)
  | pointer (entry : Option (OrOops ModuleTableStruct))
  | copy (entry : OrOops (Option CopyBlock))

def TableCall.run (t : ModuleTable) : TableCall → TableAnswer × ModuleTable
  | .put mt krealloc => (.retval (tablePut t mt krealloc).1, (tablePut t mt krealloc).2)
  | .pop => (.pointer ((tablePop t).1.map (tablePop t).2.deref), (tablePop t).2)
  | .popReverse => (.retval (tablePopReverse t).1, (tablePopReverse t).2)
  | .peek => (.pointer ((tablePeek t).map t.deref), t)
  | .getCopy uuid kmalloc => (.copy (tableGetCopy t uuid kmalloc), t)

/-- The table behind a sequence of calls. -/
def runCalls (t : ModuleTable) (cs : List TableCall) : ModuleTable :=
  cs.foldl (fun t c => (c.run t).2) t

/-- The answers to a sequence of calls. -/
def answers : ModuleTable → List TableCall → List TableAnswer
  | _, [] => []
  | t, c :: cs => (c.run t).1 :: answers (c.run t).2 cs

/-- The table can be reached from a successful `table_init`. -/
def Reached (t : ModuleTable) : Prop :=
  ∃ mem kmem cs, t = runCalls (UsableTable.fresh mem kmem).table cs

theorem TableCall.run_sound {t : ModuleTable} (h : t.Sound) (c : TableCall) :
    (c.run t).2.Sound := by
  cases c with
  | put mt krealloc => exact tablePut_sound h mt krealloc
  | pop => exact tablePop_sound h
  | popReverse => exact tablePopReverse_sound h
  | peek => exact h
  | getCopy uuid kmalloc => exact h

theorem runCalls_sound : ∀ (cs : List TableCall) {t : ModuleTable}, t.Sound →
    (runCalls t cs).Sound := by
  intro cs
  induction cs with
  | nil => exact fun h => h
  | cons c cs ih => exact fun h => ih (c.run_sound h)

theorem Reached.sound {t : ModuleTable} (h : Reached t) : t.Sound := by
  obtain ⟨mem, kmem, cs, rfl⟩ := h
  exact runCalls_sound cs (UsableTable.fresh mem kmem).sound

/-! ## A failed delivery -/

/-- The ioctl whose copy fails is undone: an error is returned, the table is as it was,
and the next ioctl delivers the same entry. -/
structure Undone (t : ModuleTable) (notCopied : ℕ) : Prop where
  restored : ∃ ret, kvmHostServerGetPendingModule t notCopied = some (ret, none, t) ∧ ret < 0
  unpopped : (tablePop t).1.isSome = true ∧ tablePopReverse (tablePop t).2 = (0, t)
  again : ∀ ret uuid t', kvmHostServerGetPendingModule t notCopied = some (ret, uuid, t') →
    kvmHostServerGetPendingModule t' 0 =
      some (1, some (t.moduleTable.cells (t.tableIndex + 1)).uuid,
        { t with tableIndex := t.tableIndex + 1 })

/-- `table_pop_reverse` moves the cursor back, but not to -1. -/
theorem popReverse_of_moved {t : ModuleTable} (h : 0 ≤ t.tableIndex) :
    tablePopReverse { t with tableIndex := t.tableIndex + 1 } = (0, t) := by
  have hpos : ¬ t.tableIndex + 1 ≤ 0 := by omega
  simp only [tablePopReverse, hpos, if_false, Int.add_sub_cancel]

theorem popReverse_of_start {t : ModuleTable} (h : t.tableIndex = -1) :
    tablePopReverse { t with tableIndex := t.tableIndex + 1 } =
      (-1, { t with tableIndex := t.tableIndex + 1 }) := by
  have hle : t.tableIndex + 1 ≤ 0 := by omega
  simp only [tablePopReverse, hle, if_true]

theorem getPendingModule_of_pending {t : ModuleTable} (hp : t.Pending)
    (hnull : t.moduleTable.isNull = false) (notCopied : ℕ) :
    kvmHostServerGetPendingModule t notCopied =
      if notCopied = 0 then
        some (1, some (t.moduleTable.cells (t.tableIndex + 1)).uuid,
          { t with tableIndex := t.tableIndex + 1 })
      else
        some (-(notCopied : ℤ), none,
          (tablePopReverse { t with tableIndex := t.tableIndex + 1 }).2) := by
  unfold kvmHostServerGetPendingModule
  rw [popEntry_pending hp hnull]
  by_cases hn : notCopied = 0
  · simp [hn, copiedRetval]
  · simp [hn, copiedRetval]

/-- On a NULL table the ioctl does not return an error. -/
theorem getPendingModule_of_null {t : ModuleTable} (hp : t.Pending)
    (hnull : t.moduleTable.isNull = true) (notCopied : ℕ) (ret : ℤ) (uuid : Option Uuid)
    (t' : ModuleTable) (h : kvmHostServerGetPendingModule t notCopied = some (ret, uuid, t')) :
    ret = 0 := by
  unfold kvmHostServerGetPendingModule at h
  rcases hpop : popEntry t with ⟨p, u⟩
  rcases (popEntry_null hp hnull).2 with hret | hret
  all_goals
    rw [hpop] at hret
    obtain rfl : p = _ := hret
    rw [hpop] at h
  · exact (Prod.mk.inj (Option.some.inj h)).1.symm
  · cases h

/-- **When a failed delivery is undone**: not for the first entry, whose pop left the
cursor on 0. -/
theorem undone_iff {t : ModuleTable} (h : Reached t) (hp : t.Pending) {notCopied : ℕ}
    (hn : 0 < notCopied) :
    Undone t notCopied ↔ t.moduleTable.isNull = false ∧ 0 ≤ t.tableIndex := by
  have hn0 : notCopied ≠ 0 := Nat.pos_iff_ne_zero.mp hn
  constructor
  · intro hundone
    obtain ⟨ret, hret, hneg⟩ := hundone.restored
    cases hnull : t.moduleTable.isNull with
    | true =>
        have hzero := getPendingModule_of_null hp hnull notCopied ret none t hret
        omega
    | false =>
        refine ⟨rfl, ?_⟩
        by_contra hstart
        have hge := h.sound.index_ge
        have hpop : (tablePop t).2 = { t with tableIndex := t.tableIndex + 1 } := by
          rw [tablePop_of_pending hp]
        have hrev := hundone.unpopped.2
        rw [hpop, popReverse_of_start (by omega)] at hrev
        exact absurd (Prod.mk.inj hrev).1 (by decide)
  · rintro ⟨hnull, hindex⟩
    have hrestored : kvmHostServerGetPendingModule t notCopied =
        some (-(notCopied : ℤ), none, t) := by
      rw [getPendingModule_of_pending hp hnull, if_neg hn0, popReverse_of_moved hindex]
    refine ⟨⟨_, hrestored, by omega⟩, ⟨?_, ?_⟩, fun ret uuid t' hrun => ?_⟩
    · rw [tablePop_of_pending hp, address_of_allocated hnull]
      rfl
    · rw [tablePop_of_pending hp]
      exact popReverse_of_moved hindex
    · rw [hrestored] at hrun
      obtain ⟨-, -, rfl⟩ : _ ∧ _ ∧ t = t' := by simpa using hrun
      rw [getPendingModule_of_pending hp hnull, if_pos rfl]

/-- The calls `cs` on a freshly initialised table. -/
def afterCalls (cs : List TableCall) : ModuleTable :=
  runCalls (UsableTable.fresh (fun _ => default) fun _ => default).table cs

theorem reached_afterCalls (cs : List TableCall) : Reached (afterCalls cs) := ⟨_, _, cs, rfl⟩

/-- Behind the first entry a failed copy is undone. -/
theorem second_delivery_undone :
    Undone (afterCalls [.put default none, .put default none, .pop]) 16 :=
  (undone_iff (reached_afterCalls _) (by decide) (by decide)).mpr ⟨rfl, by decide⟩

/-- The first entry of all is lost when its copy fails. -/
theorem first_delivery_not_undone : ¬ ∀ t, Reached t → t.Pending → ∀ notCopied, 0 < notCopied →
    Undone t notCopied := by
  intro hall
  have hrev := (hall _ (reached_afterCalls [.put default none]) (by decide) 16
    (by decide)).unpopped.2
  exact absurd (congrArg Prod.fst hrev) (by decide)

/-! ## A failed put -/

/-- A put that is refused changes nothing, for no later call; one that returns 0 has
appended the entry. -/
structure PutIntact (t : ModuleTable) (mt : ModuleTableStruct)
    (krealloc : Option (ℤ → ModuleTableStruct)) : Prop where
  refused : (tablePut t mt krealloc).1 < 0 → (tablePut t mt krealloc).2 = t
  later : (tablePut t mt krealloc).1 < 0 →
    ∀ cs, answers (tablePut t mt krealloc).2 cs = answers t cs
  accepted : (tablePut t mt krealloc).1 = 0 → Appended t (tablePut t mt krealloc).2 mt

/-- **When a failed put leaves the table intact**: unless it is `krealloc` that fails, on a
full table. -/
theorem putIntact_iff {t : ModuleTable} (h : Reached t) (mt : ModuleTableStruct)
    (krealloc : Option (ℤ → ModuleTableStruct)) :
    PutIntact t mt krealloc ↔ (t.moduleTable.isNull = false → t.tableNumEntries = t.tableSize →
      krealloc.isSome = true) := by
  rcases tablePut_cases h.sound mt krealloc with
    ⟨hret, happ, hnull, hroom⟩ | ⟨hneg, hnull, hsame⟩ | ⟨hneg, hfull, hnone, hlost⟩
  · refine iff_of_true ⟨fun hneg => ?_, fun hneg => ?_, fun _ => happ⟩ fun _ hfull => ?_
    · omega
    · omega
    · rcases hroom with hlt | hsome
      · omega
      · exact hsome
  · refine iff_of_true ⟨fun _ => hsame, fun _ cs => by rw [hsame], fun hret => ?_⟩ fun hnot => ?_
    · omega
    · rw [hnull] at hnot
      cases hnot
  · constructor
    · intro hintact hnull
      -- NULL has been assigned to module_table
      have hsame := congrArg (fun u => u.moduleTable.isNull) (hintact.refused hneg)
      rw [hlost, hnull] at hsame
      cases hsame
    · intro hcond
      cases hnull : t.moduleTable.isNull with
      | false =>
          have hsome := hcond hnull hfull
          rw [hnone] at hsome
          cases hsome
      | true =>
          have hsame : (tablePut t mt krealloc).2 = t := by
            simp only [tablePut, hnull, if_true]
          exact ⟨fun _ => hsame, fun _ cs => by rw [hsame], fun hret => by omega⟩

/-- `n` puts on the fresh table, while there is room. -/
theorem afterPuts : ∀ n : ℕ, n ≤ 256 →
    (afterCalls (List.replicate n (.put default none))).tableNumEntries = n ∧
      (afterCalls (List.replicate n (.put default none))).tableSize = 256 ∧
      (afterCalls (List.replicate n (.put default none))).moduleTable.isNull = false := by
  intro n
  induction n with
  | zero => exact fun _ => ⟨rfl, rfl, rfl⟩
  | succ n ih =>
      intro hn
      obtain ⟨hnum, hsize, hnull⟩ := ih (by omega)
      have hnext : afterCalls (List.replicate (n + 1) (.put default none)) =
          (tablePut (afterCalls (List.replicate n (.put default none))) default none).2 := by
        rw [List.replicate_succ', afterCalls, runCalls, List.foldl_append]
        rfl
      have hput : (tablePut (afterCalls (List.replicate n (.put default none))) default none).2 =
          (afterCalls (List.replicate n (.put default none))).store default := by
        rw [tablePut_of_room hnull (by omega)]
      rw [hnext, hput]
      refine ⟨?_, hsize, hnull⟩
      show (afterCalls (List.replicate n (.put default none))).tableNumEntries + 1 = (n : ℤ) + 1
      rw [hnum]

/-- The 257th put, with a `krealloc` that succeeds, leaves the table intact. -/
theorem growing_put_intact :
    (afterCalls (List.replicate 256 (.put default none))).tableNumEntries = 256 ∧
      (afterCalls (List.replicate 256 (.put default none))).tableSize = 256 ∧
      PutIntact (afterCalls (List.replicate 256 (.put default none))) default
        (some fun _ => default) := by
  obtain ⟨hnum, hsize, -⟩ := afterPuts 256 (le_refl 256)
  refine ⟨hnum, hsize, ?_⟩
  exact (putIntact_iff (reached_afterCalls _) default (some fun _ => default)).mpr fun _ _ => rfl

/-- The 257th put with a failing `krealloc` loses the table. -/
theorem failed_put_loses_table : ¬ ∀ t, Reached t → ∀ mt krealloc, PutIntact t mt krealloc := by
  intro hall
  have hreached := reached_afterCalls (List.replicate 256 (.put default none))
  obtain ⟨hnum, hsize, hnull⟩ := afterPuts 256 (le_refl 256)
  have hintact := hall _ hreached default none
  rcases tablePut_cases hreached.sound default none with
    ⟨-, -, -, hroom⟩ | ⟨-, hlost, -⟩ | ⟨hneg, -, -, hlost⟩
  · rw [hnum, hsize] at hroom
    exact absurd hroom (by decide)
  · rw [hnull] at hlost
    cases hlost
  · have hsame := congrArg (fun u => u.moduleTable.isNull) (hintact.refused hneg)
    rw [hlost, hnull] at hsame
    cases hsame

/-! ## The table as a log -/

/-- The log that an allocated table stands for. -/
def UsableTable.log (u : UsableTable) : CursorLog ModuleTableStruct where
  entries := u.table.moduleTable.slice 0 u.table.tableNumEntries
  taken := (u.table.tableIndex + 1).toNat
  taken_le := by
    have := u.sound.index_lt
    rw [HeapArray.length_slice]
    omega

/-- The table after a put whose `krealloc`, if it is called, succeeds. -/
def UsableTable.put (u : UsableTable) (mt : ModuleTableStruct) (mem : ℤ → ModuleTableStruct) :
    UsableTable where
  table := (tablePut u.table mt (some mem)).2
  sound := tablePut_sound u.sound mt (some mem)
  allocated := (tablePut_succeeds u.sound u.allocated mt fun _ => rfl).2.allocated

theorem tablePop_moduleTable (t : ModuleTable) :
    (tablePop t).2.moduleTable = t.moduleTable := by
  unfold tablePop
  split <;> rfl

def UsableTable.pop (u : UsableTable) : UsableTable where
  table := (tablePop u.table).2
  sound := tablePop_sound u.sound
  allocated := by
    rw [tablePop_moduleTable]
    exact u.allocated

theorem log_fresh (mem kmem : ℤ → ModuleTableStruct) :
    (UsableTable.fresh mem kmem).log = .empty :=
  rfl

theorem log_put (u : UsableTable) (mt : ModuleTableStruct) (mem : ℤ → ModuleTableStruct) :
    (u.put mt mem).log = u.log.put mt := by
  have happ : Appended u.table (tablePut u.table mt (some mem)).2 mt :=
    (tablePut_succeeds u.sound u.allocated mt fun _ => rfl).2
  ext1
  · show (u.put mt mem).table.moduleTable.slice 0 (u.put mt mem).table.tableNumEntries =
      u.table.moduleTable.slice 0 u.table.tableNumEntries ++ [mt]
    have hnum : (u.put mt mem).table.tableNumEntries = u.table.tableNumEntries + 1 := happ.num
    have hlast : (u.put mt mem).table.moduleTable.cells u.table.tableNumEntries = mt := happ.last
    rw [hnum]
    exact HeapArray.slice_snoc u.sound.num_nonneg happ.kept hlast
  · show ((u.put mt mem).table.tableIndex + 1).toNat = (u.table.tableIndex + 1).toNat
    rw [show (u.put mt mem).table.tableIndex = u.table.tableIndex from happ.index]

/-- The entry at the cursor of the log is the one behind the table's cursor. -/
theorem peek_log (u : UsableTable) :
    u.log.peek = if u.table.Pending then
      some (u.table.moduleTable.cells (u.table.tableIndex + 1)) else none := by
  have hge := u.sound.index_ge
  have hcursor : ((u.table.tableIndex + 1).toNat : ℤ) = u.table.tableIndex + 1 := by omega
  show (u.table.moduleTable.slice 0 u.table.tableNumEntries)[(u.table.tableIndex + 1).toNat]? = _
  by_cases hp : u.table.Pending
  · have hlt : 0 + ((u.table.tableIndex + 1).toNat : ℤ) < u.table.tableNumEntries := by
      unfold ModuleTable.Pending at hp
      omega
    rw [if_pos hp, HeapArray.getElem?_slice _ hlt, zero_add, hcursor]
  · rw [if_neg hp, List.getElem?_eq_none_iff, HeapArray.length_slice]
    unfold ModuleTable.Pending at hp
    omega

theorem log_pop (u : UsableTable) : u.pop.log = u.log.pop := by
  have hge := u.sound.index_ge
  by_cases hp : u.table.Pending
  · have hpop : (tablePop u.table).2 = { u.table with tableIndex := u.table.tableIndex + 1 } := by
      rw [tablePop_of_pending hp]
    have hpeek : u.log.peek = some (u.table.moduleTable.cells (u.table.tableIndex + 1)) := by
      rw [peek_log, if_pos hp]
    rw [CursorLog.pop, dif_pos (CursorLog.taken_lt_of_peek hpeek)]
    ext1
    · show (tablePop u.table).2.moduleTable.slice 0 (tablePop u.table).2.tableNumEntries = _
      rw [hpop]
      rfl
    · show ((tablePop u.table).2.tableIndex + 1).toNat = (u.table.tableIndex + 1).toNat + 1
      rw [hpop]
      show (u.table.tableIndex + 1 + 1).toNat = (u.table.tableIndex + 1).toNat + 1
      omega
  · have hpop : u.pop = u := by
      have htable : (tablePop u.table).2 = u.table := by
        rw [tablePop_of_not_pending hp]
      cases u
      simp only [UsableTable.pop] at htable ⊢
      congr
    rw [hpop, CursorLog.pop_of_peek_none]
    rw [peek_log, if_neg hp]

/-- What `table_pop` and `table_peek` point to is the entry at the cursor. -/
theorem pop_answer (u : UsableTable) :
    (TableCall.pop.run u.table).1 = .pointer (u.log.peek.map some) := by
  rw [peek_log]
  show TableAnswer.pointer ((tablePop u.table).1.map (tablePop u.table).2.deref) = _
  by_cases hp : u.table.Pending
  · rw [if_pos hp, tablePop_of_pending hp, address_of_allocated u.allocated, Option.map_some,
      deref_of_allocated (t := { u.table with tableIndex := u.table.tableIndex + 1 }) u.allocated]
    rfl
  · rw [if_neg hp, tablePop_of_not_pending hp]
    rfl

theorem peek_answer (u : UsableTable) :
    TableCall.peek.run u.table = (.pointer (u.log.peek.map some), u.table) := by
  rw [peek_log]
  show (TableAnswer.pointer ((tablePeek u.table).map u.table.deref), u.table) = _
  by_cases hp : u.table.Pending
  · rw [if_pos hp, tablePeek_of_pending hp u.allocated, Option.map_some,
      deref_of_allocated u.allocated]
    rfl
  · rw [if_neg hp, tablePeek, if_neg hp]
    rfl

theorem getCopy_of_find (u : UsableTable) {uuid : Uuid} {mt : ModuleTableStruct}
    (h : u.log.entries.find? (fun mt => mt.uuid = uuid) = some mt) (stale : CopyBlock) :
    tableGetCopy u.table uuid (some stale) = some (some (some mt)) := by
  have hfind : (u.table.moduleTable.slice 0 u.table.tableNumEntries).find?
      (fun mt => mt.uuid = uuid) = some mt := h
  simp only [tableGetCopy, u.allocated, Bool.false_eq_true, false_and, if_false, hfind,
    Option.map_some, Option.getD_some]

/-! ## Runs while allocations succeed -/

/-- A call whose allocation, if it makes one, succeeds. -/
inductive LogCall where
  | put (mt : ModuleTableStruct) (mem : ℤ → ModuleTableStruct)
  | pop
  | peek
  | getCopy (uuid : Uuid) (stale : CopyBlock)

def LogCall.call : LogCall → TableCall
  | .put mt mem => .put mt (some mem)
  | .pop => .pop
  | .peek => .peek
  | .getCopy uuid stale => .getCopy uuid (some stale)

/-- The table, the entries that were put, and those that `table_pop` returned. -/
structure LogState where
  table : ModuleTable
  puts : List ModuleTableStruct
  pops : List ModuleTableStruct

/-- After a successful `table_init`. -/
def LogState.init (mem kmem : ℤ → ModuleTableStruct) : LogState :=
  ⟨(tableInit (ModuleTable.atLoad mem) (some kmem)).2, [], []⟩

def LogState.recordPut (s : LogState) : LogCall → List ModuleTableStruct
  | .put mt _ => s.puts ++ [mt]
  | _ => s.puts

def LogState.recordPop (s : LogState) : LogCall → TableAnswer → List ModuleTableStruct
  | .pop, .pointer (some (some mt)) => s.pops ++ [mt]
  | _, _ => s.pops

def logStep (s : LogState) (c : LogCall) : Option LogState :=
  some ⟨(c.call.run s.table).2, s.recordPut c, s.recordPop c (c.call.run s.table).1⟩

/-- **A FIFO log with a cursor.** The counters stay in their bounds and the block is as long
as they say; what was popped is a prefix of what was put; the next pop and a peek return
the entry behind it, or NULL when there is none; and a lookup finds the first entry that was
put with the uuid, whether it was popped or not. -/
structure FifoLog (s : LogState) : Prop where
  bounds : -1 ≤ s.table.tableIndex ∧ s.table.tableIndex < s.table.tableNumEntries ∧
    s.table.tableNumEntries ≤ s.table.tableSize
  room : s.table.moduleTable.isNull = false ∧ s.table.moduleTable.live = true ∧
    s.table.moduleTable.room = s.table.tableSize
  order : s.pops <+: s.puts
  next : (TableCall.pop.run s.table).1 = .pointer (s.puts[s.pops.length]?.map some)
  exhausted : (tablePop s.table).1 = none ↔ s.pops = s.puts
  peek : TableCall.peek.run s.table = ((TableCall.pop.run s.table).1, s.table)
  getCopy : ∀ uuid stale mt, s.puts.find? (fun mt => mt.uuid = uuid) = some mt →
    (TableCall.getCopy uuid (some stale)).run s.table = (.copy (some (some (some mt))), s.table)

/-- The table stands for the log of what was put and popped. -/
structure Follows (u : UsableTable) (s : LogState) : Prop where
  table : s.table = u.table
  puts : s.puts = u.log.entries
  pops : s.pops = u.log.delivered

theorem Follows.fifo {u : UsableTable} {s : LogState} (h : Follows u s) : FifoLog s := by
  obtain ⟨table, puts, pops⟩ := s
  obtain ⟨rfl, rfl, rfl⟩ := h
  have hnext : u.log.entries[u.log.delivered.length]? = u.log.peek := by
    rw [CursorLog.length_delivered]
    rfl
  refine ⟨⟨u.sound.index_ge, u.sound.index_lt, u.sound.num_le⟩,
    ⟨u.allocated, u.sound.block u.allocated⟩, u.log.delivered_prefix, ?_, ?_, ?_, ?_⟩
  · rw [hnext]
    exact pop_answer u
  · show (tablePop u.table).1 = none ↔ u.log.delivered = u.log.entries
    rw [← CursorLog.peek_eq_none, peek_log]
    by_cases hp : u.table.Pending
    · rw [tablePop_of_pending hp, address_of_allocated u.allocated, if_pos hp]
      exact iff_of_false (by rintro ⟨⟩) (by rintro ⟨⟩)
    · rw [tablePop_of_not_pending hp, if_neg hp]
      exact iff_of_true rfl rfl
  · show TableCall.peek.run u.table = ((TableCall.pop.run u.table).1, u.table)
    rw [pop_answer, peek_answer]
  · intro uuid stale mt hfind
    show (TableAnswer.copy (tableGetCopy u.table uuid (some stale)), u.table) = _
    rw [getCopy_of_find u hfind]

/-- One call of the table is one operation of the log. -/
theorem Follows.step {u : UsableTable} {s : LogState} (h : Follows u s) {c : LogCall}
    {t : LogState} (hstep : logStep s c = some t) : ∃ u', Follows u' t := by
  obtain ⟨table, puts, pops⟩ := s
  obtain ⟨rfl, rfl, rfl⟩ := h
  obtain rfl := Option.some.inj hstep
  cases c with
  | put mt mem =>
      refine ⟨u.put mt mem, rfl, ?_, ?_⟩
      · rw [log_put]
        rfl
      · rw [log_put, CursorLog.delivered_put]
        rfl
  | pop =>
      refine ⟨u.pop, rfl, ?_, ?_⟩
      · rw [log_pop, CursorLog.pop_entries]
        rfl
      · show LogState.recordPop _ .pop (TableCall.pop.run u.table).1 = _
        rw [log_pop, pop_answer]
        cases hpeek : u.log.peek with
        | none =>
            rw [CursorLog.pop_of_peek_none hpeek]
            rfl
        | some mt =>
            rw [CursorLog.delivered_pop hpeek]
            rfl
  | peek => exact ⟨u, rfl, rfl, rfl⟩
  | getCopy uuid stale => exact ⟨u, rfl, rfl, rfl⟩

theorem init_follows (mem kmem : ℤ → ModuleTableStruct) :
    Follows (UsableTable.fresh mem kmem) (LogState.init mem kmem) where
  table := rfl
  puts := by rw [log_fresh, CursorLog.empty_entries]; rfl
  pops := by rw [log_fresh, CursorLog.empty_delivered]; rfl

/-- **The proxy's table is a FIFO log with a cursor**, in every state of every run. -/
theorem moduleTable_fifo (mem kmem : ℤ → ModuleTableStruct) (cs : List LogCall) :
    StatesMeet logStep FifoLog (LogState.init mem kmem) cs :=
  statesMeet_of_invariant (I := fun s => ∃ u, Follows u s) (fun _ ⟨_, h⟩ => h.fifo)
    (fun _ _ _ ⟨_, h⟩ hstep => h.step hstep) cs (LogState.init mem kmem)
    ⟨UsableTable.fresh mem kmem, init_follows mem kmem⟩

end LxcUio.Proxy
