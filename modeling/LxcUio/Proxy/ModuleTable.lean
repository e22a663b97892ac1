import LxcUio.Foundation.HeapArray
import LxcUio.Protocol

/-!
# The proxy's `module_table`

`lxc-uio-proxy.c`, from `table_init` to `table_peek`: an array of the modules that
insmod handed over, with a cursor. Each function is one section of `table_mutex`.

- `kmalloc` and `krealloc` are arguments: `none` when they fail, otherwise what
  the new memory holds.
- A pointer into the table is the index of the cell it points to; `none` is NULL.
- `OrOops` is the result of kernel code that may die on a bad pointer.
-/

namespace LxcUio.Proxy

open LxcUio.Foundation

/-- A result of kernel code, or `none` when it faults. -/
abbrev OrOops (α : Type*) := Option α

/-- What the proxy reads of a `struct module`: its two layouts and the bytes that
start at `core_layout.base`. -/
structure KModule where
  initLayout : ModuleLayout
  coreLayout : ModuleLayout
  coreImage : ℕ → UInt8

instance : Inhabited KModule := ⟨⟨default, default, fun _ => 0⟩⟩

structure ModuleTableStruct where
  uuid : Uuid
  nsproxy : ℕ
  mod : KModule
deriving Inhabited

/-- A block for one entry. `none` if what stands in its `module` cannot be followed. -/
abbrev CopyBlock : Type := OrOops ModuleTableStruct

/-- The globals `module_table`, `table_size`, `table_num_entries`, `table_index`. -/
structure ModuleTable where
  moduleTable : HeapArray ModuleTableStruct
  tableSize : ℤ
  tableNumEntries : ℤ
  tableIndex : ℤ

/-- The globals as they are initialised at load time. -/
def ModuleTable.atLoad (mem : ℤ → ModuleTableStruct) : ModuleTable :=
  ⟨HeapArray.null mem, 256, 0, -1⟩

def tableInit (t : ModuleTable) (kmalloc : Option (ℤ → ModuleTableStruct)) :
    ℤ × ModuleTable :=
  if t.moduleTable.isNull = false then (-1, t)
  else
    match kmalloc with
    | none => (-1, t)
    | some mem => (0, { t with moduleTable := HeapArray.malloc t.tableSize mem })

/-- `module_table[table_num_entries]=mt; table_num_entries++;`. -/
def ModuleTable.store (t : ModuleTable) (mt : ModuleTableStruct) : ModuleTable :=
  { t with
    moduleTable := t.moduleTable.set t.tableNumEntries mt
    tableNumEntries := t.tableNumEntries + 1 }

/-- The table after a successful `krealloc`. -/
def ModuleTable.doubled (t : ModuleTable) (mem : ℤ → ModuleTableStruct) :
    ModuleTable :=
  { t with
    moduleTable := t.moduleTable.grow (2 * t.tableSize) mem
    tableSize := 2 * t.tableSize }

/-- The table after a failed `krealloc`: its result, NULL, is assigned. -/
def ModuleTable.lost (t : ModuleTable) : ModuleTable :=
  { t with moduleTable := HeapArray.null t.moduleTable.cells }

def tablePut (t : ModuleTable) (mt : ModuleTableStruct)
    (krealloc : Option (ℤ → ModuleTableStruct)) : ℤ × ModuleTable :=
  if t.moduleTable.isNull = true then (-1, t)
  else if t.tableNumEntries > t.tableSize then (negENOMEM, t)
  else if t.tableNumEntries = t.tableSize then
    match krealloc with
    | none => (negENOMEM, t.lost)
    | some mem => (0, (t.doubled mem).store mt)
  else (0, t.store mt)

/-- A copy of the first entry with the uuid. When there is none, the block is
returned as `kmalloc` delivered it. -/
def tableGetCopy (t : ModuleTable) (uuid : Uuid)
    (kmalloc : Option CopyBlock) : OrOops (Option CopyBlock) :=
  match kmalloc with
  | none => some none
  | some stale =>
      if t.moduleTable.isNull = true ∧ 0 < t.tableNumEntries then none
      else
        some (some ((((t.moduleTable.slice 0 t.tableNumEntries).find?
          (fun mt => mt.uuid = uuid)).map some).getD stale))

/-- An entry stands behind the cursor: the guard of `table_pop`. -/
def ModuleTable.Pending (t : ModuleTable) : Prop :=
  t.tableIndex + 1 ≤ t.tableNumEntries - 1

instance (t : ModuleTable) : Decidable t.Pending :=
  inferInstanceAs (Decidable (_ ≤ _))

/-- `&module_table[i]`, which is NULL for the first cell of a NULL table. -/
def ModuleTable.address (t : ModuleTable) (i : ℤ) : Option ℤ :=
  if t.moduleTable.isNull = true ∧ i = 0 then none else some i

/-- A read through a pointer into the table. -/
def ModuleTable.deref (t : ModuleTable) (i : ℤ) : OrOops ModuleTableStruct :=
  if t.moduleTable.isNull = true then none else some (t.moduleTable.cells i)

def tablePop (t : ModuleTable) : Option ℤ × ModuleTable :=
  if t.Pending then
    (t.address (t.tableIndex + 1), { t with tableIndex := t.tableIndex + 1 })
  else (none, t)

def tablePopReverse (t : ModuleTable) : ℤ × ModuleTable :=
  if t.tableIndex ≤ 0 then (-1, t)
  else (0, { t with tableIndex := t.tableIndex - 1 })

def tablePeek (t : ModuleTable) : Option ℤ :=
  if t.Pending then t.address (t.tableIndex + 1) else none

/-! ## The representation invariant -/

/-- What every operation keeps, a failed growth included. -/
structure ModuleTable.Sound (t : ModuleTable) : Prop where
  size_pos : 0 < t.tableSize
  index_ge : -1 ≤ t.tableIndex
  index_lt : t.tableIndex < t.tableNumEntries
  num_le : t.tableNumEntries ≤ t.tableSize
  block : t.moduleTable.isNull = false →
    t.moduleTable.live = true ∧ t.moduleTable.room = t.tableSize

theorem ModuleTable.Sound.num_nonneg {t : ModuleTable} (h : t.Sound) :
    0 ≤ t.tableNumEntries := by
  have := h.index_ge
  have := h.index_lt
  omega

/-- A table that is allocated and sound. -/
structure UsableTable where
  table : ModuleTable
  sound : table.Sound
  allocated : table.moduleTable.isNull = false

/-- A put that returned 0: `t'` is `t` with `mt` behind its last entry. -/
structure Appended (t t' : ModuleTable) (mt : ModuleTableStruct) : Prop where
  allocated : t'.moduleTable.isNull = false
  num : t'.tableNumEntries = t.tableNumEntries + 1
  index : t'.tableIndex = t.tableIndex
  last : t'.moduleTable.cells t.tableNumEntries = mt
  kept : ∀ i, 0 ≤ i → i < t.tableNumEntries →
    t'.moduleTable.cells i = t.moduleTable.cells i

theorem store_appended (t : ModuleTable) (mt : ModuleTableStruct)
    (hnull : t.moduleTable.isNull = false) : Appended t (t.store mt) mt where
  allocated := hnull
  num := rfl
  index := rfl
  last := HeapArray.set_cells_same _ _ _
  kept := fun i _ hi => HeapArray.set_cells_ne _ mt (by omega)

theorem doubled_store_appended {t : ModuleTable} (h : t.Sound)
    (hnull : t.moduleTable.isNull = false) (mem : ℤ → ModuleTableStruct)
    (mt : ModuleTableStruct) : Appended t ((t.doubled mem).store mt) mt where
  allocated := rfl
  num := rfl
  index := rfl
  last := HeapArray.set_cells_same _ _ _
  kept := by
    intro i h0 hi
    have hroom := (h.block hnull).2
    have hnum := h.num_le
    rw [show ((t.doubled mem).store mt).moduleTable.cells i =
        (t.doubled mem).moduleTable.cells i from
      HeapArray.set_cells_ne _ mt (by show i ≠ t.tableNumEntries; omega)]
    exact HeapArray.grow_cells _ _ mem h0 (by omega)

theorem tablePut_of_room {t : ModuleTable} (hnull : t.moduleTable.isNull = false)
    (hlt : t.tableNumEntries < t.tableSize) (mt : ModuleTableStruct)
    (krealloc : Option (ℤ → ModuleTableStruct)) :
    tablePut t mt krealloc = (0, t.store mt) := by
  have hfull : ¬ t.tableNumEntries = t.tableSize := ne_of_lt hlt
  have hover : ¬ t.tableNumEntries > t.tableSize := not_lt.mpr hlt.le
  simp only [tablePut, hnull, Bool.false_eq_true, if_false, hfull, hover]

/-- Everything `table_put` can do to a sound table. -/
theorem tablePut_cases {t : ModuleTable} (h : t.Sound) (mt : ModuleTableStruct)
    (krealloc : Option (ℤ → ModuleTableStruct)) :
    ((tablePut t mt krealloc).1 = 0 ∧
      Appended t (tablePut t mt krealloc).2 mt ∧
      t.moduleTable.isNull = false ∧
      (t.tableNumEntries < t.tableSize ∨ krealloc.isSome = true)) ∨
    ((tablePut t mt krealloc).1 < 0 ∧ t.moduleTable.isNull = true ∧
      (tablePut t mt krealloc).2 = t) ∨
    ((tablePut t mt krealloc).1 < 0 ∧ t.tableNumEntries = t.tableSize ∧
      krealloc = none ∧ (tablePut t mt krealloc).2 = t.lost) := by
  by_cases hnull : t.moduleTable.isNull = true
  · exact Or.inr (Or.inl (by simp [tablePut, hnull]))
  · have hnull' : t.moduleTable.isNull = false := by simpa using hnull
    have hle := h.num_le
    by_cases hfull : t.tableNumEntries = t.tableSize
    · cases krealloc with
      | none =>
          right; right
          simp [tablePut, hnull', hfull, negENOMEM]
      | some mem =>
          left
          have hput : tablePut t mt (some mem) = (0, (t.doubled mem).store mt) := by
            simp [tablePut, hnull', hfull]
          rw [hput]
          exact ⟨rfl, doubled_store_appended h hnull' mem mt, hnull', Or.inr rfl⟩
    · left
      have hlt : t.tableNumEntries < t.tableSize := lt_of_le_of_ne hle hfull
      rw [tablePut_of_room hnull' hlt]
      exact ⟨rfl, store_appended t mt hnull', hnull', Or.inl hlt⟩

/-- A put on an allocated table succeeds unless it has to grow and cannot. -/
theorem tablePut_succeeds {t : ModuleTable} (h : t.Sound)
    (hnull : t.moduleTable.isNull = false) (mt : ModuleTableStruct)
    {krealloc : Option (ℤ → ModuleTableStruct)}
    (hk : t.tableNumEntries = t.tableSize → krealloc.isSome = true) :
    (tablePut t mt krealloc).1 = 0 ∧ Appended t (tablePut t mt krealloc).2 mt := by
  rcases tablePut_cases h mt krealloc with ⟨hret, happ, -, -⟩ | ⟨-, hnull', -⟩ |
    ⟨-, hfull, hnone, -⟩
  · exact ⟨hret, happ⟩
  · rw [hnull] at hnull'
    cases hnull'
  · have := hk hfull
    rw [hnone] at this
    cases this

theorem store_sound {t : ModuleTable} (h : t.Sound) (mt : ModuleTableStruct)
    (hlt : t.tableNumEntries < t.tableSize) : (t.store mt).Sound where
  size_pos := h.size_pos
  index_ge := h.index_ge
  index_lt := by
    have := h.index_lt
    show t.tableIndex < t.tableNumEntries + 1
    omega
  num_le := by
    show t.tableNumEntries + 1 ≤ t.tableSize
    omega
  block := h.block

theorem doubled_sound {t : ModuleTable} (h : t.Sound) (mem : ℤ → ModuleTableStruct) :
    (t.doubled mem).Sound where
  size_pos := by
    have := h.size_pos
    show 0 < 2 * t.tableSize
    omega
  index_ge := h.index_ge
  index_lt := h.index_lt
  num_le := by
    have := h.size_pos
    have := h.num_le
    show t.tableNumEntries ≤ 2 * t.tableSize
    omega
  block := fun _ => ⟨rfl, rfl⟩

theorem lost_sound {t : ModuleTable} (h : t.Sound) : t.lost.Sound where
  size_pos := h.size_pos
  index_ge := h.index_ge
  index_lt := h.index_lt
  num_le := h.num_le
  block := fun hnull => absurd hnull (by simp [ModuleTable.lost, HeapArray.null])

theorem tablePut_sound {t : ModuleTable} (h : t.Sound) (mt : ModuleTableStruct)
    (krealloc : Option (ℤ → ModuleTableStruct)) :
    (tablePut t mt krealloc).2.Sound := by
  unfold tablePut
  split
  · exact h
  · split
    · exact h
    · split
      · rename_i hfull
        cases krealloc with
        | none => exact lost_sound h
        | some mem =>
            apply store_sound (doubled_sound h mem)
            have := h.size_pos
            show t.tableNumEntries < 2 * t.tableSize
            omega
      · apply store_sound h
        have := h.num_le
        omega

/-- The table after a successful `table_init`. -/
def UsableTable.fresh (mem kmem : ℤ → ModuleTableStruct) : UsableTable where
  table := (tableInit (ModuleTable.atLoad mem) (some kmem)).2
  sound :=
    ⟨by show (0 : ℤ) < 256; omega, by show (-1 : ℤ) ≤ -1; omega,
      by show (-1 : ℤ) < 0; omega, by show (0 : ℤ) ≤ 256; omega,
      fun _ => ⟨rfl, rfl⟩⟩
  allocated := rfl

/-! ## The cursor -/

theorem tablePop_of_pending {t : ModuleTable} (h : t.Pending) :
    tablePop t = (t.address (t.tableIndex + 1),
      { t with tableIndex := t.tableIndex + 1 }) :=
  if_pos h

theorem tablePop_of_not_pending {t : ModuleTable} (h : ¬ t.Pending) :
    tablePop t = (none, t) :=
  if_neg h

theorem address_of_allocated {t : ModuleTable} (h : t.moduleTable.isNull = false)
    (i : ℤ) : t.address i = some i := by
  simp [ModuleTable.address, h]

theorem deref_of_allocated {t : ModuleTable} (h : t.moduleTable.isNull = false)
    (i : ℤ) : t.deref i = some (t.moduleTable.cells i) := by
  simp [ModuleTable.deref, h]

theorem tablePeek_of_pending {t : ModuleTable} (h : t.Pending)
    (hnull : t.moduleTable.isNull = false) :
    tablePeek t = some (t.tableIndex + 1) := by
  rw [tablePeek, if_pos h, address_of_allocated hnull]

theorem tablePop_sound {t : ModuleTable} (h : t.Sound) : (tablePop t).2.Sound := by
  by_cases hp : t.Pending
  · rw [tablePop_of_pending hp]
    have hge := h.index_ge
    unfold ModuleTable.Pending at hp
    exact ⟨h.size_pos, by show -1 ≤ t.tableIndex + 1; omega,
      by show t.tableIndex + 1 < t.tableNumEntries; omega, h.num_le, h.block⟩
  · rw [tablePop_of_not_pending hp]
    exact h

theorem tablePopReverse_sound {t : ModuleTable} (h : t.Sound) :
    (tablePopReverse t).2.Sound := by
  unfold tablePopReverse
  split
  · exact h
  · have hlt := h.index_lt
    exact ⟨h.size_pos, by show -1 ≤ t.tableIndex - 1; omega,
      by show t.tableIndex - 1 < t.tableNumEntries; omega, h.num_le, h.block⟩

/-- The cursor's operations add and remove no entry. -/
theorem tablePop_num (t : ModuleTable) :
    (tablePop t).2.tableNumEntries = t.tableNumEntries := by
  unfold tablePop
  split <;> rfl

theorem tablePopReverse_num (t : ModuleTable) :
    (tablePopReverse t).2.tableNumEntries = t.tableNumEntries := by
  unfold tablePopReverse
  split <;> rfl

end LxcUio.Proxy
