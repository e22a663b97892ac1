import LxcUio.Foundation.LabelledRun
import LxcUio.Server.UuidTable

/-!
# The life cycle of the server's table

Runs of `table_init`, `table_put`, `table_entry_at_index_copy`, `table_set_xxx` and
`table_delete` in any order, with allocations that succeed. `table_delete` frees the
block and restores neither of the globals that the other functions test: `uuid_table`
still points to the block, `table_num_entries` still counts its entries.
-/

namespace LxcUio.Server

open LxcUio.Foundation

/-- A `realloc` that does not fail. -/
structure GrantingRealloc where
  answer : ℤ → Realloc UuidTableEntry
  grants : ∀ bytes errno, answer bytes ≠ .failed errno

inductive LifeCall where
  | init (mem : ℤ → UuidTableEntry)
  | put (entry : UuidTableEntry) (realloc : GrantingRealloc)
  | copy (index : ℤ)
  | set (index : ℤ) (f : UuidTableEntry → UuidTableEntry)
  | delete

/-- The globals, and whether a `table_delete` returned 0 since the last `table_init`. -/
structure LifeState where
  table : UuidTable
  deleted : Bool

def LifeState.start (mem : ℤ → UuidTableEntry) : LifeState := ⟨UuidTable.atStart mem, false⟩

def lifeStep (s : LifeState) : LifeCall → Option LifeState
  | .init mem => some ⟨(tableInit s.table (.ok mem)).2, false⟩
  | .put entry realloc => some { s with table := (tablePut s.table entry realloc.answer).2 }
  | .copy _ => some s
  | .set index f => some { s with table := (tableSetXxx s.table index f).2 }
  | .delete =>
      some
        { table := (tableDelete s.table).2
          deleted := s.deleted || decide ((tableDelete s.table).1 = 0) }

/-- The blocks a call frees, reads or writes through `uuid_table`, each as it is then.
A growth hands the block to `realloc` and stores the entry afterwards. -/
def blocksTouched (t : UuidTable) : LifeCall → List (HeapArray UuidTableEntry)
  | .init _ => []
  | .put _ realloc =>
      if t.uuidTable.isNull = true then []
      else if t.tableNumEntries = t.uuidTableSize then
        [t.uuidTable, (t.regrown (realloc.answer t.newSizeBytes)).uuidTable]
      else if t.tableNumEntries > t.uuidTableSize then []
      else [t.uuidTable]
  | .copy index => if index ≥ t.tableNumEntries then [] else [t.uuidTable]
  | .set index _ => if index ≤ t.tableNumEntries - 1 then [t.uuidTable] else []
  | .delete => if t.uuidTable.isNull = true then [] else [t.uuidTable]

/-- What a call owes to a caller who has deleted the table. -/
def AnswersDeleted (t : UuidTable) : LifeCall → Prop
  | .init mem =>
      (tableInit t (.ok mem)).1 = 0 ∧ (tableInit t (.ok mem)).2.uuidTable.isNull = false ∧
        (tableInit t (.ok mem)).2.tableNumEntries = 0
  | .put entry realloc => (tablePut t entry realloc.answer).1 < 0
  | .copy index => tableEntryAtIndexCopy t index true = none
  | .set index f => (tableSetXxx t index f).1 = -1
  | .delete => (tableDelete t).1 < 0

structure Closed (s : LifeState) (c : LifeCall) : Prop where
  deleted : s.deleted = true → AnswersDeleted s.table c
  noUseAfterFree : ∀ b ∈ blocksTouched s.table c, b.isNull = false → b.live = true

/-- The call does not come to the freed block: after a `table_delete` there are only reads
and stores with an index out of range, and no growth moves the block. -/
def AvoidsFreed (s : LifeState) : LifeCall → Prop
  | .init _ => s.deleted = false
  | .put _ realloc =>
      s.deleted = false ∧ (s.table.uuidTable.isNull = false →
        s.table.tableNumEntries = s.table.uuidTableSize →
          ∀ mem, realloc.answer s.table.newSizeBytes ≠ .moved mem)
  | .copy index => s.deleted = true → s.table.tableNumEntries ≤ index
  | .set index _ => s.deleted = true → s.table.tableNumEntries ≤ index
  | .delete => s.deleted = false

/-- `uuid_table` points to the freed block as soon as the table is deleted. -/
structure LifeInv (s : LifeState) : Prop where
  dangles : s.deleted = true → s.table.uuidTable.isNull = false ∧ s.table.uuidTable.live = false
  live : s.deleted = false → s.table.uuidTable.isNull = false → s.table.uuidTable.live = true

theorem LifeInv.of_live {t : UuidTable}
    (h : t.uuidTable.isNull = false → t.uuidTable.live = true) : LifeInv ⟨t, false⟩ where
  dangles := fun hdel => nomatch hdel
  live := fun _ => h

theorem start_lifeInv (mem : ℤ → UuidTableEntry) : LifeInv (LifeState.start mem) :=
  LifeInv.of_live fun hnull => nomatch hnull

/-! ## After a delete -/

/-- Of the calls after a delete only those with an index out of range answer as they should. -/
theorem answersDeleted_iff {s : LifeState} (h : LifeInv s) (hdel : s.deleted = true)
    (c : LifeCall) : Closed s c ↔ AvoidsFreed s c := by
  obtain ⟨hnull, -⟩ := h.dangles hdel
  have hkept : ¬ s.deleted = false := by rw [hdel]; decide
  cases c with
  | init mem =>
      refine iff_of_false (fun hclosed => ?_) hkept
      have hinit := (hclosed.deleted hdel).1
      rw [tableInit, if_pos hnull] at hinit
      cases hinit
  | put e realloc =>
      refine iff_of_false (fun hclosed => ?_) fun havoids => hkept havoids.1
      have hneg : (tablePut s.table e realloc.answer).1 < 0 := hclosed.deleted hdel
      rw [tablePut_granted hnull e fun _ => realloc.grants _] at hneg
      exact absurd hneg (by decide)
  | copy i =>
      constructor
      · intro hclosed _
        have hnone : tableEntryAtIndexCopy s.table i true = none := hclosed.deleted hdel
        rcases copy_eq_none.mp hnone with hle | hmalloc
        · exact hle
        · cases hmalloc
      · intro havoids
        have hle : i ≥ s.table.tableNumEntries := havoids hdel
        refine ⟨fun _ => copy_eq_none.mpr (Or.inl hle), fun b hb => ?_⟩
        rw [blocksTouched, if_pos hle] at hb
        cases hb
  | set i f =>
      constructor
      · intro hclosed _
        have herrno : (tableSetXxx s.table i f).1 = -1 := hclosed.deleted hdel
        by_contra hin
        rw [tableSetXxx, if_pos (by omega)] at herrno
        cases herrno
      · intro havoids
        have hle : s.table.tableNumEntries ≤ i := havoids hdel
        have hout : ¬ i ≤ s.table.tableNumEntries - 1 := by omega
        refine ⟨fun _ => ?_, fun b hb => ?_⟩
        · show (tableSetXxx s.table i f).1 = -1
          rw [tableSetXxx, if_neg hout]
        · rw [blocksTouched, if_neg hout] at hb
          cases hb
  | delete =>
      refine iff_of_false (fun hclosed => ?_) hkept
      have hneg : (tableDelete s.table).1 < 0 := hclosed.deleted hdel
      rw [tableDelete, if_neg (by rw [hnull]; decide)] at hneg
      exact absurd hneg (lt_irrefl 0)

/-! ## While the table exists -/

/-- Only a growth touches another block than the one it found. -/
theorem touched_eq {t : UuidTable} {c : LifeCall} {b : HeapArray UuidTableEntry}
    (hb : b ∈ blocksTouched t c)
    (hgrows : ∀ e realloc, c = .put e realloc → t.uuidTable.isNull = false →
      t.tableNumEntries ≠ t.uuidTableSize) : b = t.uuidTable := by
  cases c with
  | init mem => cases hb
  | put e realloc =>
      simp only [blocksTouched] at hb
      split at hb
      · cases hb
      · rename_i hnull
        rw [if_neg (hgrows e realloc rfl (by simpa using hnull))] at hb
        split at hb
        · cases hb
        · exact List.mem_singleton.mp hb
  | copy i =>
      simp only [blocksTouched] at hb
      split at hb
      · cases hb
      · exact List.mem_singleton.mp hb
  | set i f =>
      simp only [blocksTouched] at hb
      split at hb
      · exact List.mem_singleton.mp hb
      · cases hb
  | delete =>
      simp only [blocksTouched] at hb
      split at hb
      · cases hb
      · exact List.mem_singleton.mp hb

theorem closed_of_touched {s : LifeState} (h : LifeInv s) (hdel : s.deleted = false)
    {c : LifeCall} (htouched : ∀ b ∈ blocksTouched s.table c, b = s.table.uuidTable) :
    Closed s c where
  deleted := fun hdel' => by
    rw [hdel] at hdel'
    cases hdel'
  noUseAfterFree := by
    intro b hb hnull
    obtain rfl := htouched b hb
    exact h.live hdel hnull

/-- A growth touches the freed block exactly when it moved. -/
theorem closed_put_iff {s : LifeState} (h : LifeInv s) (hdel : s.deleted = false)
    (e : UuidTableEntry) (realloc : GrantingRealloc) :
    Closed s (.put e realloc) ↔ AvoidsFreed s (.put e realloc) := by
  by_cases hgrows : s.table.uuidTable.isNull = false ∧
      s.table.tableNumEntries = s.table.uuidTableSize
  · obtain ⟨hnull, hfull⟩ := hgrows
    have htouched : blocksTouched s.table (.put e realloc) =
        [s.table.uuidTable,
          (s.table.regrown (realloc.answer s.table.newSizeBytes)).uuidTable] := by
      simp only [blocksTouched, hnull, Bool.false_eq_true, if_false, hfull, if_true]
    cases hanswer : realloc.answer s.table.newSizeBytes with
    | failed errno => exact absurd hanswer (realloc.grants _ _)
    | inPlace mem =>
        refine iff_of_true ?_ ⟨hdel, fun _ _ mem' hmoved => ?_⟩
        · refine ⟨fun hdel' => ?_, fun b hb _ => ?_⟩
          · rw [hdel] at hdel'
            cases hdel'
          · rw [htouched, hanswer] at hb
            rcases List.mem_pair.mp hb with rfl | rfl
            · exact h.live hdel hnull
            · rfl
        · rw [hanswer] at hmoved
          cases hmoved
    | moved mem =>
        refine iff_of_false (fun hclosed => ?_) fun havoids => havoids.2 hnull hfull mem hanswer
        have hmem : (s.table.regrown (.moved mem)).uuidTable ∈
            blocksTouched s.table (.put e realloc) := by
          rw [htouched, hanswer]
          exact List.mem_pair.mpr (Or.inr rfl)
        have hlive : false = true := hclosed.noUseAfterFree _ hmem hnull
        cases hlive
  · have hstays : s.table.uuidTable.isNull = false →
        s.table.tableNumEntries ≠ s.table.uuidTableSize :=
      fun hnull hfull => hgrows ⟨hnull, hfull⟩
    refine iff_of_true (closed_of_touched h hdel ?_) ⟨hdel, fun hnull hfull => ?_⟩
    · exact fun b hb => touched_eq hb fun _ _ _ => hstays
    · exact absurd hfull (hstays hnull)

/-- In the states of the invariant a call is closed exactly when it avoids the freed block. -/
theorem closed_iff_avoidsFreed {s : LifeState} (h : LifeInv s) (c : LifeCall) :
    Closed s c ↔ AvoidsFreed s c := by
  cases hdel : s.deleted with
  | true => exact answersDeleted_iff h hdel c
  | false =>
      have hnot : ¬ s.deleted = true := by rw [hdel]; decide
      cases c with
      | put e realloc => exact closed_put_iff h hdel e realloc
      | init mem => exact iff_of_true (closed_of_touched h hdel fun b hb => nomatch hb) hdel
      | copy i =>
          refine iff_of_true (closed_of_touched h hdel fun b hb => ?_)
            fun hdel' => absurd hdel' hnot
          exact touched_eq hb fun _ _ hput => nomatch hput
      | set i f =>
          refine iff_of_true (closed_of_touched h hdel fun b hb => ?_)
            fun hdel' => absurd hdel' hnot
          exact touched_eq hb fun _ _ hput => nomatch hput
      | delete =>
          refine iff_of_true (closed_of_touched h hdel fun b hb => ?_) hdel
          exact touched_eq hb fun _ _ hput => nomatch hput

/-! ## Runs -/

theorem set_live (t : UuidTable) (i : ℤ) (f : UuidTableEntry → UuidTableEntry) :
    (tableSetXxx t i f).2.uuidTable.isNull = t.uuidTable.isNull ∧
      (tableSetXxx t i f).2.uuidTable.live = t.uuidTable.live := by
  unfold tableSetXxx
  split <;> exact ⟨rfl, rfl⟩

/-- A put that does not move the block leaves it live. -/
theorem put_live {t : UuidTable} (h : t.uuidTable.isNull = false → t.uuidTable.live = true)
    (e : UuidTableEntry) {realloc : ℤ → Realloc UuidTableEntry}
    (hstay : t.uuidTable.isNull = false → t.tableNumEntries = t.uuidTableSize →
      ∀ mem, realloc t.newSizeBytes ≠ .moved mem)
    (hnull : (tablePut t e realloc).2.uuidTable.isNull = false) :
    (tablePut t e realloc).2.uuidTable.live = true := by
  rcases tablePut_cases t e realloc with
    ⟨retVal, hput⟩ | ⟨halloc, -, hput⟩ | ⟨halloc, hfull, answer, hok, hanswer, hput⟩
  · rw [hput] at hnull ⊢
    exact h hnull
  · rw [hput]
    exact h halloc
  · rw [hput]
    cases answer with
    | failed errno => exact absurd rfl (hok errno)
    | inPlace mem => rfl
    | moved mem => exact absurd hanswer (hstay halloc hfull mem)

theorem LifeInv.step {s : LifeState} (h : LifeInv s) {c : LifeCall} (havoids : AvoidsFreed s c)
    {t : LifeState} (hstep : lifeStep s c = some t) : LifeInv t := by
  obtain ⟨table, deleted⟩ := s
  cases c with
  | init mem =>
      obtain rfl := Option.some.inj hstep
      obtain rfl : deleted = false := havoids
      refine LifeInv.of_live fun hnull => ?_
      unfold tableInit at hnull ⊢
      split
      · rename_i hnull'
        exact h.live rfl hnull'
      · rfl
  | put e realloc =>
      obtain rfl := Option.some.inj hstep
      obtain ⟨hdel, hstay⟩ := havoids
      obtain rfl : deleted = false := hdel
      exact LifeInv.of_live fun hnull => put_live (h.live rfl) e hstay hnull
  | copy i =>
      obtain rfl := Option.some.inj hstep
      exact h
  | set i f =>
      obtain rfl := Option.some.inj hstep
      obtain ⟨hnull, hlive⟩ := set_live table i f
      refine ⟨fun hdel => ?_, fun hdel => ?_⟩
      · rw [hnull, hlive]
        exact h.dangles hdel
      · rw [hnull, hlive]
        exact h.live hdel
  | delete =>
      obtain rfl := Option.some.inj hstep
      obtain rfl : deleted = false := havoids
      cases hnull : table.uuidTable.isNull with
      | true =>
          have hdelete : tableDelete table = (-1, table) := if_pos hnull
          rw [hdelete]
          exact h
      | false =>
          have hdelete : tableDelete table =
              (0, { table with uuidTable := table.uuidTable.free }) :=
            if_neg (by rw [hnull]; decide)
          rw [hdelete]
          exact ⟨fun _ => ⟨hnull, rfl⟩, fun hdel => nomatch hdel⟩

/-- **The life cycle is closed** in a run exactly as long as no call comes to the block that
`table_delete` or a moving `realloc` has freed. -/
theorem lifeCycle_closed_iff (mem : ℤ → UuidTableEntry) (cs : List LifeCall) :
    StepsMeet lifeStep Closed (LifeState.start mem) cs ↔
      StepsMeet lifeStep AvoidsFreed (LifeState.start mem) cs :=
  stepsMeet_congr (fun _ c h => closed_iff_avoidsFreed h c)
    (fun _ _ _ h havoids hstep => h.step havoids hstep) cs _ (start_lifeInv mem)

/-- A second `table_delete` returns 0 and frees the block again. -/
theorem second_delete_not_closed :
    ¬ ∀ mem cs, StepsMeet lifeStep Closed (LifeState.start mem) cs := by
  intro hall
  have hrun := hall (fun _ => default) [.init fun _ => default, .delete, .delete]
  have hlast := (((hrun _ rfl).2 _ rfl).2 _ rfl).1
  have hneg : (0 : ℤ) < 0 := hlast.deleted rfl
  exact absurd hneg (lt_irrefl 0)

end LxcUio.Server
