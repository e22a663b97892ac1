import LxcUio.Proxy.TableLog
import LxcUio.System.Host

/-!
# One call of `get_new_entry`, from the proxy to `uuid_table`

The pop in the kernel, the allocation of the memory record and the put into a table
that may have to grow are three steps, each of which can fail: `get_new_entry` reports
1 when it has come past the second one. The ioctl can also be refused before it
reaches the proxy.
-/

namespace LxcUio.System

open LxcUio.Foundation LxcUio.Proxy LxcUio.Server

/-- The ioctl fails in the kernel outside the proxy, or the proxy serves it and
`copy_to_user` leaves some bytes uncopied. -/
inductive IoctlOutcome where
  | refused
  | served (notCopied : ℕ)

/-- `get_new_entry` with the proxy's side of its ioctl: the value returned, `module_table`
and `uuid_table`. -/
def getNewEntryCall (t : ModuleTable) (u : UuidTable) (ioctl : IoctlOutcome)
    (env : NewEntryEnv) : OrOops (ℤ × ModuleTable × UuidTable) :=
  match ioctl with
  | .refused => some ((getNewEntry u (-1) 0 env).1, t, (getNewEntry u (-1) 0 env).2)
  | .served notCopied =>
      match kvmHostServerGetPendingModule t notCopied with
      | none => none
      | some (ret, uuid, t') =>
          let got := getNewEntry u (libcReturn ret) (uuid.getD 0) env
          some (got.1, t', got.2)

/-- The proxy popped an entry with the uuid. -/
def PoppedOne (t t' : ModuleTable) (uuid : Uuid) : Prop :=
  ∃ i, popEntry t = (.entry i uuid, t')

/-- `e` stands behind the last entry of `u`, in memory that belongs to the table, and the
entries before it are as they were. -/
structure ExtendedBy (u u' : UuidTable) (e : UuidTableEntry) : Prop where
  num : u'.tableNumEntries = u.tableNumEntries + 1
  owned : u'.uuidTable.Owns u.tableNumEntries
  last : u'.entry u.tableNumEntries = e
  kept : ∀ i, i < u.tableNumEntries → u.uuidTable.Owns i →
    u'.uuidTable.Owns i ∧ u'.entry i = u.entry i

/-- An entry nobody has worked on. -/
structure IsNew (e : UuidTableEntry) (uuid : Uuid) : Prop where
  uuid_eq : e.uuid = uuid
  numRegions : e.memory.numRegions = 0
  processed : e.processed = false
  couldNotProcess : e.couldNotProcess = false

/-- The call returns, and its result says what happened to the two tables. -/
structure Reports (t : ModuleTable) (u : UuidTable) (ioctl : IoctlOutcome)
    (env : NewEntryEnv) : Prop where
  returns : ∃ r, getNewEntryCall t u ioctl env = some r
  received : ∀ ret t' u', getNewEntryCall t u ioctl env = some (ret, t', u') →
    (ret = 1 ↔ ∃ uuid e, PoppedOne t t' uuid ∧ ExtendedBy u u' e ∧ IsNew e uuid)
  otherwise : ∀ ret t' u', getNewEntryCall t u ioctl env = some (ret, t', u') → ret ≠ 1 →
    u' = u ∧ ∀ uuid t'', PoppedOne t t'' uuid → t' = t

/-- `uuid_table` takes another entry: it has room for it, or `realloc` makes room at the
block's address. -/
def Takes (u : UuidTable) (realloc : ℤ → Realloc UuidTableEntry) : Prop :=
  u.uuidTable.isNull = false ∧
    (u.tableNumEntries < u.uuidTableSize ∧ u.uuidTable.Owns u.tableNumEntries ∨
      u.tableNumEntries = u.uuidTableSize ∧ 0 ≤ u.tableNumEntries ∧
        u.tableNumEntries < u.newSizeBytes / sizeofEntry ∧
        ∃ mem, realloc u.newSizeBytes = .inPlace mem)

/-- `table_pop` finds no entry behind the cursor, or the table is NULL and the cursor at its
start, so that the address it returns is NULL. -/
def PopsNothing (t : ModuleTable) : Prop :=
  ¬ t.Pending ∨ t.moduleTable.isNull = true ∧ t.tableIndex = -1

/-- Nothing fails, or it fails where nothing is lost. -/
def LosesNothing (t : ModuleTable) (u : UuidTable) (env : NewEntryEnv) : IoctlOutcome → Prop
  | .refused => True
  | .served notCopied =>
      PopsNothing t ∨ t.moduleTable.isNull = false ∧
        (notCopied = 0 ∧ env.malloc.isSome = true ∧ Takes u env.realloc ∨
          notCopied ≠ 0 ∧ 0 ≤ t.tableIndex)

/-! ## The put -/

/-- Growing in place keeps what the table owned, up to the entry put. -/
theorem extendedBy_of_grown {u : UuidTable} (h0 : 0 ≤ u.tableNumEntries)
    (hroom : u.tableNumEntries < u.newSizeBytes / sizeofEntry) (mem : ℤ → UuidTableEntry)
    (e : UuidTableEntry) : ExtendedBy u ((u.regrown (.inPlace mem)).store e) e where
  num := rfl
  owned := ⟨rfl, h0, hroom⟩
  last := store_entry_last _ e
  kept := by
    rintro i hi ⟨-, hi0, hiroom⟩
    refine ⟨⟨rfl, hi0, ?_⟩, ?_⟩
    · show i < u.newSizeBytes / sizeofEntry
      omega
    · rw [store_entry_ne _ e (by show i ≠ u.tableNumEntries; omega)]
      exact HeapArray.grow_cells _ _ mem hi0 hiroom

theorem extendedBy_of_room {u : UuidTable} (howns : u.uuidTable.Owns u.tableNumEntries)
    (e : UuidTableEntry) : ExtendedBy u (u.store e) e where
  num := rfl
  owned := howns
  last := store_entry_last u e
  kept := fun i hi howns' => ⟨howns', store_entry_ne u e (by omega)⟩

/-- A put extends the table exactly when the table takes the entry. Its return value is
not looked at. -/
theorem extendedBy_tablePut_iff {u : UuidTable} {e e' : UuidTableEntry}
    {realloc : ℤ → Realloc UuidTableEntry} :
    ExtendedBy u (Server.tablePut u e realloc).2 e' ↔ Takes u realloc ∧ e' = e := by
  constructor
  · intro h
    rcases Server.tablePut_cases u e realloc with
      ⟨retVal, hput⟩ | ⟨hnull, hlt, hput⟩ | ⟨hnull, hfull, answer, hok, hanswer, hput⟩
    · rw [hput] at h
      have hnum : u.tableNumEntries = u.tableNumEntries + 1 := h.num
      omega
    · rw [hput] at h
      exact ⟨⟨hnull, Or.inl ⟨hlt, h.owned⟩⟩, by rw [← h.last, store_entry_last]⟩
    · rw [hput] at h
      cases answer with
      | failed errno => exact absurd rfl (hok errno)
      | moved mem => cases h.owned.1
      | inPlace mem =>
          refine ⟨⟨hnull, Or.inr ⟨hfull, h.owned.2.1, h.owned.2.2, mem, hanswer⟩⟩, ?_⟩
          rw [← h.last]
          exact store_entry_last (u.regrown (.inPlace mem)) e
  · rintro ⟨⟨hnull, ⟨hlt, howns⟩ | ⟨hfull, h0, hroom, mem, hmem⟩⟩, rfl⟩
    · rw [Server.tablePut_of_room hnull hlt]
      exact extendedBy_of_room howns _
    · rw [Server.tablePut_of_grown hnull hfull hmem]
      exact extendedBy_of_grown h0 hroom mem _

/-! ## The two ways a call ends -/

section Ends

variable {t t' : ModuleTable} {u u' : UuidTable} {ioctl : IoctlOutcome} {env : NewEntryEnv}

/-- A call that does not report an entry has left `uuid_table` alone. -/
theorem reports_of_ne_one {ret : ℤ} (hcall : getNewEntryCall t u ioctl env = some (ret, t', u))
    (hret : ret ≠ 1) :
    Reports t u ioctl env ↔ ∀ uuid t'', PoppedOne t t'' uuid → t' = t := by
  constructor
  · intro h
    exact (h.otherwise _ _ _ hcall hret).2
  · intro hkept
    refine ⟨⟨_, hcall⟩, fun r v w hr => ?_, fun r v w hr _ => ?_⟩
    all_goals
      rw [hcall] at hr
      obtain ⟨rfl, rfl, rfl⟩ : ret = r ∧ t' = v ∧ u = w := by simpa using hr
    · refine iff_of_false hret ?_
      rintro ⟨uuid, e, -, hext, -⟩
      have hnum := hext.num
      omega
    · exact ⟨rfl, hkept⟩

theorem reports_of_one (hcall : getNewEntryCall t u ioctl env = some (1, t', u')) :
    Reports t u ioctl env ↔
      ∃ uuid e, PoppedOne t t' uuid ∧ ExtendedBy u u' e ∧ IsNew e uuid := by
  constructor
  · intro h
    exact (h.received _ _ _ hcall).mp rfl
  · intro hone
    refine ⟨⟨_, hcall⟩, fun r v w hr => ?_, fun r v w hr hne => ?_⟩
    all_goals
      rw [hcall] at hr
      obtain ⟨rfl, rfl, rfl⟩ : 1 = r ∧ t' = v ∧ u' = w := by simpa using hr
    · exact iff_of_true rfl hone
    · exact absurd rfl hne

theorem popsNothing_of_null (hnull : t.moduleTable.isNull = true) (hp : t.Pending) :
    PopsNothing t ↔ t.tableIndex = -1 := by
  constructor
  · rintro (hnot | ⟨-, hstart⟩)
    · exact absurd hp hnot
    · exact hstart
  · exact fun hstart => Or.inr ⟨hnull, hstart⟩

theorem not_popsNothing (hnull : t.moduleTable.isNull = false) (hp : t.Pending) :
    ¬ PopsNothing t := by
  rintro (hnot | ⟨hnull', -⟩)
  · exact hnot hp
  · rw [hnull] at hnull'
    cases hnull'

/-- The copy succeeded: what counts is the allocation, then the table. -/
theorem reports_of_copied (hp : t.Pending) (hnull : t.moduleTable.isNull = false) :
    Reports t u (.served 0) env ↔ env.malloc.isSome = true ∧ Takes u env.realloc := by
  have hpop := popEntry_pending hp hnull
  have hserved := getPendingModule_of_pending hp hnull 0
  rw [if_pos rfl] at hserved
  cases hmalloc : env.malloc with
  | none =>
      have hcall : getNewEntryCall t u (.served 0) env =
          some (-1, { t with tableIndex := t.tableIndex + 1 }, u) := by
        simp [getNewEntryCall, hserved, libcReturn, getNewEntry, newMemory, hmalloc]
      rw [reports_of_ne_one hcall (by decide)]
      refine iff_of_false (fun hkept => ?_) fun h => Bool.false_ne_true h.1
      have hsame := congrArg ModuleTable.tableIndex (hkept _ _ ⟨_, hpop⟩)
      exact absurd hsame (show t.tableIndex + 1 ≠ t.tableIndex by omega)
  | some stale =>
      let uuid := (t.moduleTable.cells (t.tableIndex + 1)).uuid
      let memory : VmMemory := { stale with numRegions := 0, baseIDT := 0, sizeIDT := 0 }
      have hcall : getNewEntryCall t u (.served 0) env =
          some (1, { t with tableIndex := t.tableIndex + 1 },
            (Server.tablePut u (newEntry uuid memory) env.realloc).2) := by
        simp [getNewEntryCall, hserved, libcReturn, getNewEntry, newMemory, hmalloc, uuid, memory]
      rw [reports_of_one hcall]
      constructor
      · rintro ⟨-, e, -, hext, -⟩
        exact ⟨rfl, (extendedBy_tablePut_iff.mp hext).1⟩
      · rintro ⟨-, htakes⟩
        exact ⟨uuid, newEntry uuid memory, ⟨_, hpop⟩, extendedBy_tablePut_iff.mpr ⟨htakes, rfl⟩,
          ⟨rfl, rfl, rfl, rfl⟩⟩

/-- The copy failed: what counts is the un-pop. -/
theorem reports_of_notCopied (hp : t.Pending) (hnull : t.moduleTable.isNull = false)
    {notCopied : ℕ} (hn : notCopied ≠ 0) :
    Reports t u (.served notCopied) env ↔ 0 ≤ t.tableIndex := by
  have hpop := popEntry_pending hp hnull
  have hserved := getPendingModule_of_pending hp hnull notCopied
  rw [if_neg hn] at hserved
  have hneg : libcReturn (-(notCopied : ℤ)) = -1 := if_pos (by omega)
  have hcall : getNewEntryCall t u (.served notCopied) env =
      some (-1, (tablePopReverse { t with tableIndex := t.tableIndex + 1 }).2, u) := by
    simp [getNewEntryCall, hserved, hneg, getNewEntry]
  rw [reports_of_ne_one hcall (by decide)]
  constructor
  · intro hkept
    have hsame := hkept _ _ ⟨_, hpop⟩
    by_contra hstart
    have hle : t.tableIndex + 1 ≤ 0 := by omega
    rw [tablePopReverse, if_pos hle] at hsame
    have hindex := congrArg ModuleTable.tableIndex hsame
    exact absurd hindex (show t.tableIndex + 1 ≠ t.tableIndex by omega)
  · intro hstart uuid t'' _
    rw [popReverse_of_moved hstart]

end Ends

/-- **When `get_new_entry` reports what it did.** It drops the uuid it popped when the memory
record cannot be allocated or the first entry of all cannot be copied, and it returns 1
without an entry when `table_put` has failed or put it into a freed block. -/
theorem getNewEntry_reports_iff (t : ModuleTable) (u : UuidTable) (ioctl : IoctlOutcome)
    (env : NewEntryEnv) : Reports t u ioctl env ↔ LosesNothing t u env ioctl := by
  cases ioctl with
  | refused =>
      have hcall : getNewEntryCall t u .refused env = some (-1, t, u) := rfl
      rw [reports_of_ne_one hcall (by decide)]
      exact iff_of_true (fun _ _ _ => rfl) trivial
  | served notCopied =>
      by_cases hp : t.Pending
      · cases hnull : t.moduleTable.isNull with
        | true =>
            by_cases hstart : t.tableIndex = -1
            · -- the cursor moves, but `table_pop` returns NULL
              have hpop : popEntry t = (.noEntry, { t with tableIndex := t.tableIndex + 1 }) := by
                simp [popEntry, tablePop_of_pending hp, ModuleTable.address, hnull, hstart]
              have hcall : getNewEntryCall t u (.served notCopied) env =
                  some (0, { t with tableIndex := t.tableIndex + 1 }, u) := by
                simp [getNewEntryCall, kvmHostServerGetPendingModule, hpop, libcReturn,
                  getNewEntry]
              rw [reports_of_ne_one hcall (by decide)]
              refine iff_of_true ?_ (Or.inl (Or.inr ⟨hnull, hstart⟩))
              rintro uuid t'' ⟨i, hentry⟩
              rw [hpop] at hentry
              cases (Prod.mk.inj hentry).1
            · refine iff_of_false ?_ ?_
              · rintro ⟨⟨r, hr⟩, -, -⟩
                have hne : ¬ t.tableIndex + 1 = 0 := by omega
                simp [getNewEntryCall, kvmHostServerGetPendingModule, popEntry,
                  tablePop_of_pending hp, ModuleTable.address, ModuleTable.deref, hnull, hne] at hr
              · rintro (hnothing | ⟨hnull', -⟩)
                · exact hstart ((popsNothing_of_null hnull hp).mp hnothing)
                · rw [hnull] at hnull'
                  cases hnull'
        | false =>
            have hnot := not_popsNothing hnull hp
            by_cases hn : notCopied = 0
            · subst hn
              rw [reports_of_copied hp hnull]
              simp [LosesNothing, hnot, hnull]
            · rw [reports_of_notCopied hp hnull hn]
              simp [LosesNothing, hnot, hnull, hn]
      · have hpop := popEntry_not_pending hp
        have hcall : getNewEntryCall t u (.served notCopied) env = some (0, t, u) := by
          simp [getNewEntryCall, kvmHostServerGetPendingModule, hpop, libcReturn, getNewEntry]
        rw [reports_of_ne_one hcall (by decide)]
        exact iff_of_true (fun _ _ _ => rfl) (Or.inl (Or.inl hp))

/-- The uuid of a module whose memory record cannot be allocated is dropped. -/
theorem failed_malloc_drops_uuid : ¬ ∀ t u ioctl env, Reports t u ioctl env := by
  intro hall
  have hreports := hall (afterCalls [.put default none])
    (UuidTable.fresh (fun _ => default) fun _ => default) (.served 0)
    ⟨none, fun _ => .inPlace fun _ => default⟩
  have hmalloc := ((reports_of_copied (by decide) rfl).mp hreports).1
  cases hmalloc

end LxcUio.System
