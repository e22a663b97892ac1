import LxcUio.Foundation.LabelledRun
import LxcUio.Server.UuidTable

/-!
# The server's table through failing allocations

Runs of `table_put`, `table_set_xxx`, `table_entry_at_index_copy` and
`get_table_num_entries` from a successful `table_init`, in any order and with any
answer of `realloc`. Beside the table stands the list of entries it is to hold: a
put that returned 0 appends to it, a set changes one of its members.

The size is doubled in `int` and the number of bytes is narrowed to `int`. That is
harmless because the size is a power of two from 2^8 on and never passes 2^22: at
2^22 the number of bytes comes out as 2^64 - 1610612736, which `realloc` refuses.
-/

namespace LxcUio.Server

open LxcUio.Foundation

/-- `realloc`: a failure sets a positive `errno`, and no block has 2^63 bytes. -/
structure LibcRealloc where
  answer : ℤ → Realloc UuidTableEntry
  errno_pos : ∀ bytes errno, answer bytes = .failed errno → 0 < errno
  refuses : ∀ bytes, 2 ^ 63 ≤ bytes → ∃ errno, answer bytes = .failed errno

inductive TableCall where
  | put (entry : UuidTableEntry) (realloc : LibcRealloc)
  | set (index : ℤ) (f : UuidTableEntry → UuidTableEntry)
  | copy (index : ℤ) (malloc : Bool)
  | numEntries

/-- A finished `table_put`: the table it found, its argument and its result. -/
structure PutRecord where
  before : UuidTable
  entry : UuidTableEntry
  retVal : ℤ

/-- The put appended its entry, or returned an error and left the table alone. -/
def PutRecord.Honest (p : PutRecord) (t : UuidTable) : Prop :=
  (p.retVal = 0 ∧ Appended p.before t p.entry) ∨ (p.retVal < 0 ∧ t = p.before)

/-- The table, the entries it stands for, and the last call if that was a put. -/
structure TableRun where
  table : UuidTable
  entries : List UuidTableEntry
  lastPut : Option PutRecord

def TableRun.start (mem kmem : ℤ → UuidTableEntry) : TableRun :=
  ⟨UuidTable.fresh mem kmem, [], none⟩

/-- What `table_set_xxx` means for the list. A negative index is none of its members. -/
def setEntry (entries : List UuidTableEntry) (index : ℤ)
    (f : UuidTableEntry → UuidTableEntry) : List UuidTableEntry :=
  if 0 ≤ index then entries.modify index.toNat f else entries

def tableStep (s : TableRun) : TableCall → Option TableRun
  | .put entry realloc =>
      let put := tablePut s.table entry realloc.answer
      some
        { table := put.2
          entries := if put.1 = 0 then s.entries ++ [entry] else s.entries
          lastPut := some ⟨s.table, entry, put.1⟩ }
  | .set index f =>
      some
        { table := (tableSetXxx s.table index f).2
          entries := setEntry s.entries index f
          lastPut := none }
  | .copy _ _ => some { s with lastPut := none }
  | .numEntries => some { s with lastPut := none }

/-- The block that `uuid_table` points to has room for `uuid_table_size` entries. -/
structure HasRoom (t : UuidTable) : Prop where
  allocated : t.uuidTable.isNull = false
  live : t.uuidTable.live = true
  room : t.uuidTableSize ≤ t.uuidTable.room

/-- The table represents its entries. -/
structure Represented (s : TableRun) : Prop where
  num_nonneg : 0 ≤ s.table.tableNumEntries
  num_le : s.table.tableNumEntries ≤ s.table.uuidTableSize
  room : HasRoom s.table
  put : ∀ p, s.lastPut = some p → p.Honest s.table
  count : getTableNumEntries s.table = s.table.tableNumEntries
  length : s.table.tableNumEntries = s.entries.length
  copies : ∀ i : ℕ, (i : ℤ) < s.table.tableNumEntries →
    tableEntryAtIndexCopy s.table i true = s.entries[i]?

/-- If the call has to enlarge the block, `realloc` does not move it. -/
def StaysInPlace (s : TableRun) : TableCall → Prop
  | .put _ realloc =>
      s.table.tableNumEntries = s.table.uuidTableSize →
        ∀ mem, realloc.answer s.table.newSizeBytes ≠ .moved mem
  | _ => True

/-! ## The invariant of a run -/

structure RunInv (s : TableRun) : Prop where
  exact_table : s.table.Exact
  size_le : s.table.uuidTableSize ≤ 2 ^ 22
  holds : s.table.uuidTable.slice 0 s.table.tableNumEntries = s.entries
  put : ∀ p, s.lastPut = some p → p.Honest s.table

theorem RunInv.represented {s : TableRun} (h : RunInv s) : Represented s where
  num_nonneg := h.exact_table.num_nonneg
  num_le := h.exact_table.num_le
  room := ⟨h.exact_table.allocated, h.exact_table.live, le_of_eq h.exact_table.room.symm⟩
  put := h.put
  count := by
    have h0 := h.exact_table.num_nonneg
    have hle := h.exact_table.num_le
    have hsize := h.size_le
    exact toInt_of_bounds (by omega) (by omega)
  length := by
    have h0 := h.exact_table.num_nonneg
    rw [← h.holds, HeapArray.length_slice, sub_zero, Int.toNat_of_nonneg h0]
  copies := by
    intro i hi
    have hlt : 0 + (i : ℤ) < s.table.tableNumEntries := by rwa [zero_add]
    rw [← h.holds, HeapArray.getElem?_slice _ hlt, zero_add, tableEntryAtIndexCopy,
      if_neg (not_le.mpr hi), if_pos rfl]
    rfl

theorem start_inv (mem kmem : ℤ → UuidTableEntry) : RunInv (TableRun.start mem kmem) where
  exact_table := fresh_exact mem kmem
  size_le := show (256 : ℤ) ≤ 2 ^ 22 by decide
  holds := HeapArray.slice_eq_nil _ (le_refl 0)
  put := fun _ h => nomatch h

/-! ## Growth up to the bound -/

/-- The table of 2^22 entries asks for more bytes than there are. -/
theorem newSizeBytes_at_bound {t : UuidTable} (h : t.uuidTableSize = 2 ^ 22) :
    t.newSizeBytes = 2 ^ 64 - 1610612736 := by
  rw [UuidTable.newSizeBytes, UuidTable.newsize, h]
  decide

/-- A full table is at the bound or far enough below it. -/
theorem UuidTable.Exact.size_le_or {t : UuidTable} (h : t.Exact)
    (hsize : t.uuidTableSize ≤ 2 ^ 22) :
    t.uuidTableSize ≤ 2 ^ 21 ∨ t.uuidTableSize = 2 ^ 22 := by
  obtain ⟨k, hk⟩ := h.pow
  rw [hk] at hsize ⊢
  have hk22 : k ≤ 22 := (pow_le_pow_iff_right₀ (by norm_num)).mp hsize
  rcases Nat.lt_or_ge k 22 with hlt | hge
  · exact Or.inl (pow_le_pow_right₀ (by norm_num) (by omega))
  · rw [le_antisymm hk22 hge]
    exact Or.inr rfl

/-- The bound on the size is kept as well. -/
theorem tablePut_size_le {t : UuidTable} (h : t.Exact) (hsize : t.uuidTableSize ≤ 2 ^ 22)
    (hle : t.tableNumEntries = t.uuidTableSize → t.uuidTableSize ≤ 2 ^ 21)
    (e : UuidTableEntry) {realloc : ℤ → Realloc UuidTableEntry}
    (hin : GrowsInPlace t realloc) : (tablePut t e realloc).2.uuidTableSize ≤ 2 ^ 22 := by
  by_cases hfull : t.tableNumEntries = t.uuidTableSize
  · obtain ⟨mem, hmem⟩ := hin hfull
    have hdouble := (h.regrown (hle hfull) mem).2
    have hbound := hle hfull
    rw [tablePut_of_grown h.allocated hfull hmem, store_size]
    omega
  · rw [tablePut_of_room h.allocated (lt_of_le_of_ne h.num_le hfull), store_size]
    exact hsize

/-- `table_put` with a `realloc` that does not move the block. -/
theorem tablePut_honest {t : UuidTable} (h : t.Exact) (hsize : t.uuidTableSize ≤ 2 ^ 22)
    (e : UuidTableEntry) (realloc : LibcRealloc)
    (hstay : t.tableNumEntries = t.uuidTableSize →
      ∀ mem, realloc.answer t.newSizeBytes ≠ .moved mem) :
    ((tablePut t e realloc.answer).1 = 0 ∧ Appended t (tablePut t e realloc.answer).2 e ∧
        (tablePut t e realloc.answer).2.Exact ∧
        (tablePut t e realloc.answer).2.uuidTableSize ≤ 2 ^ 22) ∨
      ((tablePut t e realloc.answer).1 < 0 ∧ (tablePut t e realloc.answer).2 = t) := by
  have happends (hle : t.tableNumEntries = t.uuidTableSize → t.uuidTableSize ≤ 2 ^ 21)
      (hin : GrowsInPlace t realloc.answer) :
      (tablePut t e realloc.answer).1 = 0 ∧ Appended t (tablePut t e realloc.answer).2 e ∧
        (tablePut t e realloc.answer).2.Exact ∧
        (tablePut t e realloc.answer).2.uuidTableSize ≤ 2 ^ 22 := by
    obtain ⟨hret, happ, hexact⟩ := tablePut_exact h hle e hin
    exact ⟨hret, happ, hexact, tablePut_size_le h hsize hle e hin⟩
  by_cases hfull : t.tableNumEntries = t.uuidTableSize
  · cases hanswer : realloc.answer t.newSizeBytes with
    | failed errno =>
        right
        have hpos := realloc.errno_pos _ _ hanswer
        rw [tablePut_of_failed h.allocated hfull hanswer]
        exact ⟨neg_lt_zero.mpr hpos, rfl⟩
    | moved mem => exact absurd hanswer (hstay hfull mem)
    | inPlace mem =>
        left
        rcases h.size_le_or hsize with hle | hbound
        · exact happends (fun _ => hle) fun _ => ⟨mem, hanswer⟩
        · -- at the bound no such answer is possible
          obtain ⟨errno, hfail⟩ := realloc.refuses t.newSizeBytes (by
            rw [newSizeBytes_at_bound hbound]
            norm_num)
          rw [hanswer] at hfail
          cases hfail
  · left
    exact happends (fun hf => absurd hf hfull) fun hf => absurd hf hfull

/-! ## The steps of a run -/

theorem RunInv.put_step {s : TableRun} (h : RunInv s) (e : UuidTableEntry)
    (realloc : LibcRealloc) (hstay : StaysInPlace s (.put e realloc)) {t : TableRun}
    (hstep : tableStep s (.put e realloc) = some t) : RunInv t := by
  obtain rfl := Option.some.inj hstep
  rcases tablePut_honest h.exact_table h.size_le e realloc hstay with
    ⟨hret, happ, hexact, hsize⟩ | ⟨hret, hsame⟩
  · refine ⟨hexact, hsize, ?_, ?_⟩
    · show (tablePut s.table e realloc.answer).2.uuidTable.slice 0
        (tablePut s.table e realloc.answer).2.tableNumEntries = _
      rw [if_pos hret, ← h.holds, happ.num]
      exact HeapArray.slice_snoc h.exact_table.num_nonneg happ.kept happ.last
    · rintro p hp
      obtain rfl := Option.some.inj hp
      exact Or.inl ⟨hret, happ⟩
  · have hne : ¬ (tablePut s.table e realloc.answer).1 = 0 := ne_of_lt hret
    show RunInv ⟨(tablePut s.table e realloc.answer).2,
      if (tablePut s.table e realloc.answer).1 = 0 then s.entries ++ [e] else s.entries,
      some ⟨s.table, e, (tablePut s.table e realloc.answer).1⟩⟩
    rw [if_neg hne, hsame]
    refine ⟨h.exact_table, h.size_le, h.holds, ?_⟩
    rintro p hp
    obtain rfl := Option.some.inj hp
    exact Or.inr ⟨hret, rfl⟩

theorem RunInv.read_step {s : TableRun} (h : RunInv s) : RunInv { s with lastPut := none } :=
  ⟨h.exact_table, h.size_le, h.holds, fun _ hp => nomatch hp⟩

/-- A store through `table_set_xxx` reaches one entry, or none of the list. -/
theorem RunInv.set_step {s : TableRun} (h : RunInv s) (i : ℤ)
    (f : UuidTableEntry → UuidTableEntry) {t : TableRun}
    (hstep : tableStep s (.set i f) = some t) : RunInv t := by
  obtain rfl := Option.some.inj hstep
  show RunInv ⟨(tableSetXxx s.table i f).2, setEntry s.entries i f, none⟩
  by_cases hi : i ≤ s.table.tableNumEntries - 1
  · have htable : (tableSetXxx s.table i f).2 = s.table.modify i f := by
      rw [tableSetXxx, if_pos hi]
    rw [htable, ← h.holds]
    refine ⟨h.exact_table.modify i f, h.size_le, ?_, fun _ hp => nomatch hp⟩
    by_cases h0 : 0 ≤ i
    · rw [setEntry, if_pos h0]
      exact HeapArray.slice_set _ h0 f
    · rw [setEntry, if_neg h0]
      exact HeapArray.slice_set_before _ (not_le.mp h0) _
  · have htable : (tableSetXxx s.table i f).2 = s.table := by
      rw [tableSetXxx, if_neg hi]
    have hlist : setEntry s.entries i f = s.entries := by
      have hlen := h.represented.length
      have h0 := h.exact_table.num_nonneg
      rw [setEntry, if_pos (by omega)]
      exact List.modify_eq_self (by omega)
    rw [htable, hlist]
    exact h.read_step

theorem RunInv.step {s : TableRun} (h : RunInv s) {c : TableCall} (hstay : StaysInPlace s c)
    {t : TableRun} (hstep : tableStep s c = some t) : RunInv t := by
  cases c with
  | put e realloc => exact h.put_step e realloc hstay hstep
  | set i f => exact h.set_step i f hstep
  | copy i malloc =>
      obtain rfl := Option.some.inj hstep
      exact h.read_step
  | numEntries =>
      obtain rfl := Option.some.inj hstep
      exact h.read_step

/-- After a growth that moved the block, `uuid_table` has no room at all. -/
theorem moved_not_represented {s : TableRun} (h : RunInv s) {c : TableCall}
    (hmoved : ¬ StaysInPlace s c) {t : TableRun} (hstep : tableStep s c = some t) :
    ¬ Represented t := by
  intro hrep
  cases c with
  | put e realloc =>
      obtain ⟨hfull, hnot⟩ := not_forall.mp hmoved
      obtain ⟨mem, hnot⟩ := not_forall.mp hnot
      have hmem : realloc.answer s.table.newSizeBytes = .moved mem := not_not.mp hnot
      obtain rfl := Option.some.inj hstep
      have hlive : (tablePut s.table e realloc.answer).2.uuidTable.live = true :=
        hrep.room.live
      rw [tablePut_of_moved h.exact_table.allocated hfull hmem] at hlive
      cases hlive
  | set i f => exact hmoved trivial
  | copy i malloc => exact hmoved trivial
  | numEntries => exact hmoved trivial

/-- **The table keeps its representation** through every run in which no growth moves
the block, whatever fails, and through no other run. -/
theorem represented_iff_inPlace (mem kmem : ℤ → UuidTableEntry) (cs : List TableCall) :
    StatesMeet tableStep Represented (TableRun.start mem kmem) cs ↔
      StepsMeet tableStep StaysInPlace (TableRun.start mem kmem) cs :=
  statesMeet_iff_stepsMeet (fun _ h => h.represented)
    (fun _ _ _ h hstay hstep => h.step hstay hstep)
    (fun _ _ _ h hmoved hstep => moved_not_represented h hmoved hstep) cs _
    (start_inv mem kmem)

/-- A `realloc` that always finds the room elsewhere. -/
def movingRealloc : LibcRealloc where
  answer := fun bytes => if bytes < 2 ^ 63 then .moved fun _ => default else .failed 12
  errno_pos := by
    intro bytes errno h
    split at h
    · cases h
    · cases h
      decide
  refuses := fun bytes h => ⟨12, if_neg (not_lt.mpr h)⟩

/-- `n` puts on the fresh table, while there is room. -/
theorem puts_fill_table : ∀ n : ℕ, n ≤ 256 →
    ∃ s, exec tableStep (TableRun.start (fun _ => default) fun _ => default)
        (List.replicate n (.put default movingRealloc)) = some s ∧ RunInv s ∧
      s.table.tableNumEntries = n ∧ s.table.uuidTableSize = 256 := by
  intro n
  induction n with
  | zero => exact fun _ => ⟨_, rfl, start_inv _ _, rfl, rfl⟩
  | succ n ih =>
      intro hn
      obtain ⟨s, hexec, hinv, hnum, hsize⟩ := ih (by omega)
      have hlt : s.table.tableNumEntries < s.table.uuidTableSize := by omega
      have hstay : StaysInPlace s (.put default movingRealloc) := fun hfull => by omega
      have hput : tablePut s.table default movingRealloc.answer = (0, s.table.store default) :=
        tablePut_of_room hinv.exact_table.allocated hlt default
      refine ⟨_, ?_, hinv.step hstay rfl, ?_, ?_⟩
      · rw [List.replicate_succ', exec_append, hexec]
        rfl
      · show (tablePut s.table default movingRealloc.answer).2.tableNumEntries = _
        rw [hput, store_num, hnum]
        rfl
      · show (tablePut s.table default movingRealloc.answer).2.uuidTableSize = _
        rw [hput, store_size, hsize]

/-- The 257th put finds the table full, and `realloc` moves it. -/
theorem moved_table_not_represented :
    ¬ ∀ mem kmem cs, StatesMeet tableStep Represented (TableRun.start mem kmem) cs := by
  intro hall
  obtain ⟨s, hexec, hinv, hnum, hsize⟩ := puts_fill_table 256 (le_refl 256)
  have hmoved : ¬ StaysInPlace s (.put default movingRealloc) := by
    intro hstay
    have hbytes : s.table.newSizeBytes = 163840 := by
      rw [UuidTable.newSizeBytes, UuidTable.newsize, hsize]
      decide
    refine hstay (by omega) (fun _ => default) ?_
    rw [hbytes]
    rfl
  have hrun := StatesMeet.after hexec (hall _ _
    (List.replicate 256 (.put default movingRealloc) ++ [.put default movingRealloc]))
  exact moved_not_represented hinv hmoved rfl (hrun.2 _ rfl)

end LxcUio.Server
