import LxcUio.Foundation.CInt
import LxcUio.Foundation.HeapArray
import LxcUio.Protocol
import Mathlib.Algebra.Order.Ring.Int
import Mathlib.Tactic.NormNum

/-!
# The server's `uuid_table`

The functions of `uuid-table.h` that handle the table as a whole, from `table_init`
to `table_entry_at_index_copy`, and the macro `table_set_xxx`. The server has one
thread, so the mutex is left out.

`realloc` answers a request for a number of bytes. Its result `p` is compared with
NULL and then dropped: `uuid_table` keeps the old address, also when `realloc`
moved the block and freed the old one.
-/

namespace LxcUio.Server

open LxcUio.Foundation

/-- `struct UUID_table`. -/
structure UuidTableEntry where
  uuid : Uuid
  vmfd : ℤ
  vcpufd : ℤ
  memory : VmMemory
  processed : Bool
  couldNotProcess : Bool
deriving DecidableEq, Inhabited

/-- `sizeof(struct UUID_table)`. -/
def sizeofEntry : ℤ := 320

/-- The globals `uuid_table`, `uuid_table_size`, `table_num_entries`. -/
structure UuidTable where
  uuidTable : HeapArray UuidTableEntry
  uuidTableSize : ℤ
  tableNumEntries : ℤ

/-- The globals as they are initialised at program start. -/
def UuidTable.atStart (mem : ℤ → UuidTableEntry) : UuidTable :=
  ⟨HeapArray.null mem, 256, 0⟩

/-- `uuid_table[i]`. -/
def UuidTable.entry (t : UuidTable) (i : ℤ) : UuidTableEntry := t.uuidTable.cells i

/-- A store through `uuid_table[i]`. -/
def UuidTable.modify (t : UuidTable) (i : ℤ) (f : UuidTableEntry → UuidTableEntry) :
    UuidTable :=
  { t with uuidTable := t.uuidTable.set i (f (t.entry i)) }

def tableInit (t : UuidTable) (malloc : Except ℤ (ℤ → UuidTableEntry)) :
    ℤ × UuidTable :=
  if t.uuidTable.isNull = false then (-1, t)
  else
    match malloc with
    | .error errno => (-errno, t)
    | .ok mem =>
        (0, { t with
          uuidTable := HeapArray.malloc t.uuidTableSize mem
          tableNumEntries := 0 })

def tableDelete (t : UuidTable) : ℤ × UuidTable :=
  if t.uuidTable.isNull = true then (-1, t)
  else (0, { t with uuidTable := t.uuidTable.free })

/-- `uuid_table[table_num_entries]=entry; table_num_entries++;`. -/
def UuidTable.store (t : UuidTable) (entry : UuidTableEntry) : UuidTable :=
  { t with
    uuidTable := t.uuidTable.set t.tableNumEntries entry
    tableNumEntries := t.tableNumEntries + 1 }

/-- `int newsize=2*uuid_table_size`. -/
def UuidTable.newsize (t : UuidTable) : ℤ := toInt (2 * t.uuidTableSize)

/-- The number of bytes `realloc` is asked for: `newsize*sizeof(*uuid_table)` is a
`size_t`, is stored in an `int` and passed as a `size_t` again. -/
def UuidTable.newSizeBytes (t : UuidTable) : ℤ :=
  toSizeT (toInt (toSizeT (t.newsize * sizeofEntry)))

/-- The table after `realloc` granted the bytes. The pointer is not assigned: it
owns the enlarged block when that stayed in place, and nothing when it moved. -/
def UuidTable.regrown (t : UuidTable) : Realloc UuidTableEntry → UuidTable
  | .failed _ => t
  | .inPlace mem =>
      { t with
        uuidTable := t.uuidTable.grow (t.newSizeBytes / sizeofEntry) mem
        uuidTableSize := t.newsize }
  | .moved _ =>
      { t with
        uuidTable := t.uuidTable.free
        uuidTableSize := t.newsize }

def tablePut (t : UuidTable) (entry : UuidTableEntry)
    (realloc : ℤ → Realloc UuidTableEntry) : ℤ × UuidTable :=
  if t.uuidTable.isNull = true then (-1, t)
  else if t.tableNumEntries = t.uuidTableSize then
    match realloc t.newSizeBytes with
    | .failed errno => (-errno, t)
    | .inPlace mem => (0, (t.regrown (.inPlace mem)).store entry)
    | .moved mem => (0, (t.regrown (.moved mem)).store entry)
  else if t.tableNumEntries > t.uuidTableSize then (0, t)
  else (0, t.store entry)

/-- The count goes through an `int`. -/
def getTableNumEntries (t : UuidTable) : ℤ := toInt t.tableNumEntries

/-- NULL when the index is out of range or `malloc` fails. -/
def tableEntryAtIndexCopy (t : UuidTable) (index : ℤ) (malloc : Bool) :
    Option UuidTableEntry :=
  if index ≥ t.tableNumEntries then none
  else if malloc = true then some (t.entry index)
  else none

/-- A copy is one of an entry of the table. -/
theorem copy_inRange {t : UuidTable} {i : ℤ} {malloc : Bool} {ptr : UuidTableEntry}
    (h : tableEntryAtIndexCopy t i malloc = some ptr) :
    i < t.tableNumEntries ∧ malloc = true := by
  unfold tableEntryAtIndexCopy at h
  split at h
  · cases h
  · rename_i hlt
    split at h
    · rename_i hm
      exact ⟨not_le.mp hlt, hm⟩
    · cases h

theorem copy_eq_none {t : UuidTable} {i : ℤ} {malloc : Bool} :
    tableEntryAtIndexCopy t i malloc = none ↔ t.tableNumEntries ≤ i ∨ malloc = false := by
  unfold tableEntryAtIndexCopy
  by_cases hi : i ≥ t.tableNumEntries
  · rw [if_pos hi]
    exact iff_of_true rfl (Or.inl hi)
  · cases malloc with
    | false => simp [hi]
    | true => simp [hi]

theorem copy_eq {t : UuidTable} {i : ℤ} {malloc : Bool} {ptr : UuidTableEntry}
    (h : tableEntryAtIndexCopy t i malloc = some ptr) : t.entry i = ptr := by
  obtain ⟨hlt, hm⟩ := copy_inRange h
  rw [tableEntryAtIndexCopy, if_neg (not_le.mpr hlt), if_pos hm] at h
  exact Option.some.inj h

/-- `table_set_xxx`: the `errno` it leaves and the table. -/
def tableSetXxx (t : UuidTable) (index : ℤ) (f : UuidTableEntry → UuidTableEntry) :
    ℤ × UuidTable :=
  if index ≤ t.tableNumEntries - 1 then (0, t.modify index f) else (-1, t)

/-! ## The representation invariant -/

/-- The block behind `uuid_table` has room for `uuid_table_size` entries. -/
structure UuidTable.Sound (t : UuidTable) : Prop where
  size_pos : 0 < t.uuidTableSize
  num_nonneg : 0 ≤ t.tableNumEntries
  num_le : t.tableNumEntries ≤ t.uuidTableSize
  allocated : t.uuidTable.isNull = false
  live : t.uuidTable.live = true
  room : t.uuidTable.room = t.uuidTableSize

theorem UuidTable.Sound.owns {t : UuidTable} (h : t.Sound) {i : ℤ} (h0 : 0 ≤ i)
    (hi : i < t.tableNumEntries) : t.uuidTable.Owns i := by
  have := h.num_le
  have := h.room
  exact ⟨h.live, h0, by omega⟩

/-! ## Cells -/

@[simp] theorem modify_size (t : UuidTable) (i : ℤ) (f : UuidTableEntry → UuidTableEntry) :
    (t.modify i f).uuidTableSize = t.uuidTableSize := rfl

@[simp] theorem modify_num (t : UuidTable) (i : ℤ) (f : UuidTableEntry → UuidTableEntry) :
    (t.modify i f).tableNumEntries = t.tableNumEntries := rfl

@[simp] theorem modify_entry_same (t : UuidTable) (i : ℤ)
    (f : UuidTableEntry → UuidTableEntry) : (t.modify i f).entry i = f (t.entry i) :=
  HeapArray.set_cells_same _ _ _

theorem modify_entry_ne (t : UuidTable) {i j : ℤ} (f : UuidTableEntry → UuidTableEntry)
    (h : j ≠ i) : (t.modify i f).entry j = t.entry j :=
  HeapArray.set_cells_ne _ _ h

theorem modify_entry (t : UuidTable) (i j : ℤ) (f : UuidTableEntry → UuidTableEntry) :
    (t.modify i f).entry j = if j = i then f (t.entry j) else t.entry j := by
  by_cases h : j = i
  · subst h
    simp
  · rw [modify_entry_ne t f h, if_neg h]

theorem UuidTable.Sound.modify {t : UuidTable} (h : t.Sound) (i : ℤ)
    (f : UuidTableEntry → UuidTableEntry) : (t.modify i f).Sound :=
  ⟨h.size_pos, h.num_nonneg, h.num_le, h.allocated, h.live, h.room⟩

@[simp] theorem store_num (t : UuidTable) (e : UuidTableEntry) :
    (t.store e).tableNumEntries = t.tableNumEntries + 1 := rfl

@[simp] theorem store_size (t : UuidTable) (e : UuidTableEntry) :
    (t.store e).uuidTableSize = t.uuidTableSize := rfl

@[simp] theorem store_entry_last (t : UuidTable) (e : UuidTableEntry) :
    (t.store e).entry t.tableNumEntries = e :=
  HeapArray.set_cells_same _ _ _

theorem store_entry_ne (t : UuidTable) (e : UuidTableEntry) {j : ℤ}
    (h : j ≠ t.tableNumEntries) : (t.store e).entry j = t.entry j :=
  HeapArray.set_cells_ne _ _ h

/-! ## Growth -/

/-- What the `int` arithmetic of the growth relies on: the size is a power of two. -/
structure UuidTable.Exact (t : UuidTable) : Prop extends t.Sound where
  pow : ∃ k : ℕ, t.uuidTableSize = 2 ^ k

theorem UuidTable.Exact.modify {t : UuidTable} (h : t.Exact) (i : ℤ)
    (f : UuidTableEntry → UuidTableEntry) : (t.modify i f).Exact :=
  ⟨h.toSound.modify i f, h.pow⟩

/-- Up to 2^21 entries the number of bytes asked for is the right one. -/
theorem newSizeBytes_of_le {t : UuidTable} (h0 : 0 < t.uuidTableSize)
    (h : t.uuidTableSize ≤ 2 ^ 21) :
    t.newsize = 2 * t.uuidTableSize ∧
      t.newSizeBytes = 2 * t.uuidTableSize * sizeofEntry := by
  have hsize : t.newsize = 2 * t.uuidTableSize := toInt_of_bounds (by omega) (by omega)
  refine ⟨hsize, ?_⟩
  have hbytes : toSizeT (2 * t.uuidTableSize * 320) = 2 * t.uuidTableSize * 320 :=
    toSizeT_of_bounds (by omega) (by omega)
  have hint : toInt (2 * t.uuidTableSize * 320) = 2 * t.uuidTableSize * 320 :=
    toInt_of_bounds (by omega) (by omega)
  simp only [UuidTable.newSizeBytes, sizeofEntry, hsize, hbytes, hint]

/-- A full table of fewer than 2^22 entries has at most 2^21. -/
theorem UuidTable.Exact.size_le_of_full {t : UuidTable} (h : t.Exact)
    (hfull : t.tableNumEntries = t.uuidTableSize) (hlt : t.tableNumEntries + 1 < 2 ^ 22) :
    t.uuidTableSize ≤ 2 ^ 21 := by
  obtain ⟨k, hk⟩ := h.pow
  have hk' : (2 : ℤ) ^ k < 2 ^ 22 := by omega
  have hk22 : k < 22 := (pow_lt_pow_iff_right₀ (by norm_num)).mp hk'
  rw [hk]
  exact pow_le_pow_right₀ (by norm_num) (by omega)

/-- A put that returned 0: `t'` is `t` with `e` behind its last entry. -/
structure Appended (t t' : UuidTable) (e : UuidTableEntry) : Prop where
  num : t'.tableNumEntries = t.tableNumEntries + 1
  last : t'.entry t.tableNumEntries = e
  kept : ∀ i, 0 ≤ i → i < t.tableNumEntries → t'.entry i = t.entry i

theorem store_appended (t : UuidTable) (e : UuidTableEntry) : Appended t (t.store e) e :=
  ⟨rfl, store_entry_last t e, fun _ _ hi => store_entry_ne t e (by omega)⟩

/-- If the table is full, `realloc` enlarges the block at its address. -/
def GrowsInPlace (t : UuidTable) (realloc : ℤ → Realloc UuidTableEntry) : Prop :=
  t.tableNumEntries = t.uuidTableSize → ∃ mem, realloc t.newSizeBytes = .inPlace mem

/-- If the table is full, `realloc` does not fail. -/
def GrowthGranted (t : UuidTable) (realloc : ℤ → Realloc UuidTableEntry) : Prop :=
  t.tableNumEntries = t.uuidTableSize → ∀ errno, realloc t.newSizeBytes ≠ .failed errno

/-! ## What a put does -/

section Put

variable {t : UuidTable} {realloc : ℤ → Realloc UuidTableEntry}

theorem tablePut_of_room (hnull : t.uuidTable.isNull = false)
    (hlt : t.tableNumEntries < t.uuidTableSize) (e : UuidTableEntry) :
    tablePut t e realloc = (0, t.store e) := by
  have hfull : ¬ t.tableNumEntries = t.uuidTableSize := ne_of_lt hlt
  have hover : ¬ t.tableNumEntries > t.uuidTableSize := not_lt.mpr hlt.le
  simp only [tablePut, hnull, Bool.false_eq_true, if_false, hfull, hover]

theorem tablePut_of_grown (hnull : t.uuidTable.isNull = false)
    (hfull : t.tableNumEntries = t.uuidTableSize) {mem : ℤ → UuidTableEntry}
    (hmem : realloc t.newSizeBytes = .inPlace mem) (e : UuidTableEntry) :
    tablePut t e realloc = (0, (t.regrown (.inPlace mem)).store e) := by
  simp only [tablePut, hnull, Bool.false_eq_true, if_false, hfull, if_true, hmem]

theorem tablePut_of_moved (hnull : t.uuidTable.isNull = false)
    (hfull : t.tableNumEntries = t.uuidTableSize) {mem : ℤ → UuidTableEntry}
    (hmem : realloc t.newSizeBytes = .moved mem) (e : UuidTableEntry) :
    tablePut t e realloc = (0, (t.regrown (.moved mem)).store e) := by
  simp only [tablePut, hnull, Bool.false_eq_true, if_false, hfull, if_true, hmem]

theorem tablePut_of_failed (hnull : t.uuidTable.isNull = false)
    (hfull : t.tableNumEntries = t.uuidTableSize) {errno : ℤ}
    (herrno : realloc t.newSizeBytes = .failed errno) (e : UuidTableEntry) :
    tablePut t e realloc = (-errno, t) := by
  simp only [tablePut, hnull, Bool.false_eq_true, if_false, hfull, if_true, herrno]

/-- A put changes nothing, fills the next cell, or grows the table first. -/
theorem tablePut_cases (t : UuidTable) (e : UuidTableEntry)
    (realloc : ℤ → Realloc UuidTableEntry) :
    -- no table, a failed growth, or more entries than the size
    (∃ retVal, tablePut t e realloc = (retVal, t)) ∨
    -- room for the entry
    (t.uuidTable.isNull = false ∧ t.tableNumEntries < t.uuidTableSize ∧
      tablePut t e realloc = (0, t.store e)) ∨
    -- a full table, grown in place or at another address
    (t.uuidTable.isNull = false ∧ t.tableNumEntries = t.uuidTableSize ∧
      ∃ answer, (∀ errno, answer ≠ .failed errno) ∧ realloc t.newSizeBytes = answer ∧
        tablePut t e realloc = (0, (t.regrown answer).store e)) := by
  cases hnull : t.uuidTable.isNull with
  | true =>
      left
      exact ⟨-1, by rw [tablePut, if_pos hnull]⟩
  | false =>
      rcases lt_trichotomy t.tableNumEntries t.uuidTableSize with hlt | hfull | hover
      · right; left
        exact ⟨rfl, hlt, tablePut_of_room hnull hlt e⟩
      · cases hanswer : realloc t.newSizeBytes with
        | failed errno =>
            left
            exact ⟨_, tablePut_of_failed hnull hfull hanswer e⟩
        | inPlace mem =>
            right; right
            exact ⟨rfl, hfull, .inPlace mem, (fun _ h => nomatch h), rfl,
              tablePut_of_grown hnull hfull hanswer e⟩
        | moved mem =>
            right; right
            exact ⟨rfl, hfull, .moved mem, (fun _ h => nomatch h), rfl,
              tablePut_of_moved hnull hfull hanswer e⟩
      · left
        have hne : ¬ t.tableNumEntries = t.uuidTableSize := ne_of_gt hover
        refine ⟨0, ?_⟩
        simp only [tablePut, hnull, Bool.false_eq_true, if_false, hne, hover, if_true]

/-- Without a failure of `realloc` a table that exists takes every put for a success. -/
theorem tablePut_granted (hnull : t.uuidTable.isNull = false) (e : UuidTableEntry)
    (hgranted : GrowthGranted t realloc) : (tablePut t e realloc).1 = 0 := by
  by_cases hfull : t.tableNumEntries = t.uuidTableSize
  · cases hanswer : realloc t.newSizeBytes with
    | failed errno => exact absurd hanswer (hgranted hfull errno)
    | inPlace mem => rw [tablePut_of_grown hnull hfull hanswer]
    | moved mem => rw [tablePut_of_moved hnull hfull hanswer]
  · simp only [tablePut, hnull, Bool.false_eq_true, if_false, hfull]
    split <;> rfl

end Put

theorem UuidTable.Exact.store {t : UuidTable} (h : t.Exact) (e : UuidTableEntry)
    (hlt : t.tableNumEntries < t.uuidTableSize) : (t.store e).Exact where
  size_pos := h.size_pos
  num_nonneg := by
    have := h.num_nonneg
    show 0 ≤ t.tableNumEntries + 1
    omega
  num_le := by
    show t.tableNumEntries + 1 ≤ t.uuidTableSize
    omega
  allocated := h.allocated
  live := h.live
  room := h.room
  pow := h.pow

/-- A table of at most 2^21 entries is twice as long after it has grown in place. -/
theorem UuidTable.Exact.regrown {t : UuidTable} (h : t.Exact) (hle : t.uuidTableSize ≤ 2 ^ 21)
    (mem : ℤ → UuidTableEntry) :
    (t.regrown (.inPlace mem)).Exact ∧
      (t.regrown (.inPlace mem)).uuidTableSize = 2 * t.uuidTableSize := by
  obtain ⟨hnew, hbytes⟩ := newSizeBytes_of_le h.size_pos hle
  have hpos := h.size_pos
  have hnum := h.num_le
  have hroom : t.newSizeBytes / sizeofEntry = 2 * t.uuidTableSize := by
    rw [hbytes]
    exact Int.mul_ediv_cancel _ (by decide)
  refine ⟨⟨⟨?_, h.num_nonneg, ?_, rfl, rfl, ?_⟩, ?_⟩, hnew⟩
  · show 0 < t.newsize
    omega
  · show t.tableNumEntries ≤ t.newsize
    omega
  · show t.newSizeBytes / sizeofEntry = t.newsize
    omega
  · obtain ⟨k, hk⟩ := h.pow
    refine ⟨k + 1, ?_⟩
    show t.newsize = 2 ^ (k + 1)
    rw [hnew, hk, pow_succ, mul_comm]

theorem regrown_appended {t : UuidTable} (h : t.Sound) (mem : ℤ → UuidTableEntry)
    (e : UuidTableEntry) : Appended t ((t.regrown (.inPlace mem)).store e) e where
  num := rfl
  last := store_entry_last _ e
  kept := by
    intro i h0 hi
    rw [store_entry_ne _ e (by show i ≠ t.tableNumEntries; omega)]
    exact HeapArray.grow_cells _ _ mem h0 (by have := h.num_le; rw [h.room]; omega)

/-- While growth stays in place and the table is not too large for it, `table_put` appends
and keeps the table exact. -/
theorem tablePut_exact {t : UuidTable} (h : t.Exact)
    (hle : t.tableNumEntries = t.uuidTableSize → t.uuidTableSize ≤ 2 ^ 21)
    (e : UuidTableEntry) {realloc : ℤ → Realloc UuidTableEntry}
    (hin : GrowsInPlace t realloc) :
    (tablePut t e realloc).1 = 0 ∧ Appended t (tablePut t e realloc).2 e ∧
      (tablePut t e realloc).2.Exact := by
  by_cases hfull : t.tableNumEntries = t.uuidTableSize
  · obtain ⟨mem, hmem⟩ := hin hfull
    obtain ⟨hgrown, hsize⟩ := h.regrown (hle hfull) mem
    rw [tablePut_of_grown h.allocated hfull hmem]
    refine ⟨rfl, regrown_appended h.toSound mem e, hgrown.store e ?_⟩
    have := h.size_pos
    show t.tableNumEntries < (t.regrown (.inPlace mem)).uuidTableSize
    omega
  · have hlt : t.tableNumEntries < t.uuidTableSize := lt_of_le_of_ne h.num_le hfull
    rw [tablePut_of_room h.allocated hlt]
    exact ⟨rfl, store_appended t e, h.store e hlt⟩

/-- In particular below 2^22 entries. -/
theorem tablePut_inPlace {t : UuidTable} (h : t.Exact) (hlt : t.tableNumEntries + 1 < 2 ^ 22)
    (e : UuidTableEntry) {realloc : ℤ → Realloc UuidTableEntry}
    (hin : GrowsInPlace t realloc) :
    (tablePut t e realloc).1 = 0 ∧ Appended t (tablePut t e realloc).2 e ∧
      (tablePut t e realloc).2.Exact :=
  tablePut_exact h (fun hfull => h.size_le_of_full hfull hlt) e hin

/-- A `table_init` that gets its memory leaves an empty table. -/
theorem tableInit_exact {t : UuidTable} (hnull : t.uuidTable.isNull = true)
    (hsize : t.uuidTableSize = 256) (mem : ℤ → UuidTableEntry) :
    (tableInit t (.ok mem)).1 = 0 ∧ (tableInit t (.ok mem)).2.tableNumEntries = 0 ∧
      (tableInit t (.ok mem)).2.Exact := by
  have hinit : tableInit t (.ok mem) =
      (0, { t with
        uuidTable := HeapArray.malloc t.uuidTableSize mem
        tableNumEntries := 0 }) := by
    simp [tableInit, hnull]
  rw [hinit]
  refine ⟨rfl, rfl, ⟨?_, le_refl 0, ?_, rfl, rfl, rfl⟩, 8, ?_⟩
  · show 0 < t.uuidTableSize
    omega
  · show 0 ≤ t.uuidTableSize
    omega
  · exact hsize

/-- The table after a successful `table_init`. -/
def UuidTable.fresh (mem kmem : ℤ → UuidTableEntry) : UuidTable :=
  (tableInit (UuidTable.atStart mem) (.ok kmem)).2

theorem fresh_exact (mem kmem : ℤ → UuidTableEntry) : (UuidTable.fresh mem kmem).Exact :=
  (tableInit_exact rfl rfl kmem).2.2

/-- Writes of other owners of the heap do not reach the entries of a sound table. -/
theorem disturb_entry {t : UuidTable} (h : t.Sound) (mem : ℤ → UuidTableEntry) {i : ℤ}
    (h0 : 0 ≤ i) (hi : i < t.tableNumEntries) :
    ({ t with uuidTable := t.uuidTable.disturb mem } : UuidTable).entry i = t.entry i :=
  HeapArray.disturb_cells _ mem (h.owns h0 hi)

theorem UuidTable.Exact.disturb {t : UuidTable} (h : t.Exact) (mem : ℤ → UuidTableEntry) :
    ({ t with uuidTable := t.uuidTable.disturb mem } : UuidTable).Exact :=
  ⟨⟨h.size_pos, h.num_nonneg, h.num_le, h.allocated, h.live, h.room⟩, h.pow⟩

end LxcUio.Server
