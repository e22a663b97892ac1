import Mathlib.Data.Int.Init
import Mathlib.Data.List.Range
import Mathlib.Logic.Function.Basic
import Mathlib.Tactic.Common
import Mathlib.Tactic.Ring

/-!
# C pointers to arrays on a heap

A pointer is modelled together with the memory it points into: `cells i` is what
stands `i` elements behind the address, for every integer `i`, whether or not it
belongs to the allocation. The allocation itself is `room` elements long and is
`live` until it is freed. Reads and writes are therefore total, and memory the
pointer does not own can change at any moment (`disturb`).

`slice lo hi` is the list of the cells from `lo` up to, not including, `hi`.
-/

namespace LxcUio.Foundation

structure HeapArray (α : Type*) where
  isNull : Bool
  cells : ℤ → α
  room : ℤ
  live : Bool

/-- How a request to grow an allocation ends: refused with an `errno`, granted at
the same address, or granted at another one. The new memory holds `mem`. -/
inductive Realloc (α : Type*) where
  | failed (errno : ℤ)
  | inPlace (mem : ℤ → α)
  | moved (mem : ℤ → α)

namespace HeapArray

variable {α β : Type*}

def null (mem : ℤ → α) : HeapArray α := ⟨true, mem, 0, false⟩

def malloc (room : ℤ) (mem : ℤ → α) : HeapArray α := ⟨false, mem, room, true⟩

def free (b : HeapArray α) : HeapArray α := { b with live := false }

/-- Cell `i` belongs to the allocation, and the allocation has not been freed. -/
def Owns (b : HeapArray α) (i : ℤ) : Prop := b.live = true ∧ 0 ≤ i ∧ i < b.room

instance (b : HeapArray α) (i : ℤ) : Decidable (b.Owns i) :=
  inferInstanceAs (Decidable (_ ∧ _ ∧ _))

def set (b : HeapArray α) (i : ℤ) (v : α) : HeapArray α :=
  { b with cells := Function.update b.cells i v }

/-- The enlarged allocation: the old contents are kept, the rest is `mem`. -/
def grow (b : HeapArray α) (room : ℤ) (mem : ℤ → α) : HeapArray α where
  isNull := false
  cells := fun i => if 0 ≤ i ∧ i < b.room then b.cells i else mem i
  room := room
  live := true

/-- Whoever owns the memory around the allocation writes `mem` there. -/
def disturb (b : HeapArray α) (mem : ℤ → α) : HeapArray α :=
  { b with cells := fun i => if b.Owns i then b.cells i else mem i }

def slice (b : HeapArray α) (lo hi : ℤ) : List α :=
  (List.range (hi - lo).toNat).map fun j : ℕ => b.cells (lo + j)

/-! ## Cells after a write, a growth, a disturbance -/

@[simp] theorem set_isNull (b : HeapArray α) (i : ℤ) (v : α) :
    (b.set i v).isNull = b.isNull := rfl

@[simp] theorem set_room (b : HeapArray α) (i : ℤ) (v : α) :
    (b.set i v).room = b.room := rfl

@[simp] theorem set_live (b : HeapArray α) (i : ℤ) (v : α) :
    (b.set i v).live = b.live := rfl

@[simp] theorem set_cells_same (b : HeapArray α) (i : ℤ) (v : α) :
    (b.set i v).cells i = v := by
  simp [set]

theorem set_cells_ne (b : HeapArray α) {i j : ℤ} (v : α) (h : j ≠ i) :
    (b.set i v).cells j = b.cells j := by
  simp [set, h]

@[simp] theorem set_set (b : HeapArray α) (i : ℤ) (v w : α) :
    (b.set i v).set i w = b.set i w := by
  simp [set]

@[simp] theorem set_self (b : HeapArray α) (i : ℤ) : b.set i (b.cells i) = b := by
  simp [set]

@[simp] theorem grow_isNull (b : HeapArray α) (room : ℤ) (mem : ℤ → α) :
    (b.grow room mem).isNull = false := rfl

@[simp] theorem grow_room (b : HeapArray α) (room : ℤ) (mem : ℤ → α) :
    (b.grow room mem).room = room := rfl

@[simp] theorem grow_live (b : HeapArray α) (room : ℤ) (mem : ℤ → α) :
    (b.grow room mem).live = true := rfl

theorem grow_cells (b : HeapArray α) (room : ℤ) (mem : ℤ → α) {i : ℤ}
    (h0 : 0 ≤ i) (hi : i < b.room) : (b.grow room mem).cells i = b.cells i :=
  if_pos ⟨h0, hi⟩

@[simp] theorem disturb_isNull (b : HeapArray α) (mem : ℤ → α) :
    (b.disturb mem).isNull = b.isNull := rfl

@[simp] theorem disturb_room (b : HeapArray α) (mem : ℤ → α) :
    (b.disturb mem).room = b.room := rfl

@[simp] theorem disturb_live (b : HeapArray α) (mem : ℤ → α) :
    (b.disturb mem).live = b.live := rfl

/-- A disturbance does not reach what the pointer owns. -/
theorem disturb_cells (b : HeapArray α) (mem : ℤ → α) {i : ℤ} (h : b.Owns i) :
    (b.disturb mem).cells i = b.cells i :=
  if_pos h

/-- What a pointer to freed memory reads is decided by others. -/
theorem disturb_cells_freed (b : HeapArray α) (mem : ℤ → α) (i : ℤ) (h : b.live = false) :
    (b.disturb mem).cells i = mem i := by
  apply if_neg
  rintro ⟨hlive, -⟩
  rw [h] at hlive
  cases hlive

/-! ## Slices -/

@[simp] theorem length_slice (b : HeapArray α) (lo hi : ℤ) :
    (b.slice lo hi).length = (hi - lo).toNat := by
  simp [slice]

theorem slice_eq_nil (b : HeapArray α) {lo hi : ℤ} (h : hi ≤ lo) :
    b.slice lo hi = [] := by
  have : (hi - lo).toNat = 0 := by omega
  simp [slice, this]

theorem slice_congr {b c : HeapArray α} {lo hi : ℤ}
    (h : ∀ i, lo ≤ i → i < hi → b.cells i = c.cells i) :
    b.slice lo hi = c.slice lo hi := by
  apply List.map_congr_left
  intro j hj
  have hj' : j < (hi - lo).toNat := List.mem_range.mp hj
  exact h _ (by omega) (by omega)

theorem slice_map_congr {b c : HeapArray α} {lo hi : ℤ} (f : α → β)
    (h : ∀ i, lo ≤ i → i < hi → f (b.cells i) = f (c.cells i)) :
    (b.slice lo hi).map f = (c.slice lo hi).map f := by
  simp only [slice, List.map_map]
  apply List.map_congr_left
  intro j hj
  have hj' : j < (hi - lo).toNat := List.mem_range.mp hj
  exact h _ (by omega) (by omega)

/-- One more cell at the end. -/
theorem slice_succ (b : HeapArray α) {lo hi : ℤ} (h : lo ≤ hi) :
    b.slice lo (hi + 1) = b.slice lo hi ++ [b.cells hi] := by
  have hn : (hi + 1 - lo).toNat = (hi - lo).toNat + 1 := by omega
  have hlast : lo + ((hi - lo).toNat : ℤ) = hi := by omega
  simp only [slice, hn, List.range_succ, List.map_append, List.map_cons,
    List.map_nil, hlast]

/-- A memory that agrees with `b` up to `hi` and holds `v` there. -/
theorem slice_snoc {b c : HeapArray α} {lo hi : ℤ} {v : α} (h : lo ≤ hi)
    (hkept : ∀ i, lo ≤ i → i < hi → c.cells i = b.cells i) (hlast : c.cells hi = v) :
    c.slice lo (hi + 1) = b.slice lo hi ++ [v] := by
  rw [slice_succ c h, slice_congr hkept, hlast]

theorem getElem?_slice (b : HeapArray α) {lo hi : ℤ} {j : ℕ} (hj : lo + j < hi) :
    (b.slice lo hi)[j]? = some (b.cells (lo + j)) := by
  have hlt : j < (hi - lo).toNat := by omega
  rw [slice, List.getElem?_map, List.getElem?_range hlt, Option.map_some]

/-- A write inside the slice. -/
theorem slice_set (b : HeapArray α) {hi i : ℤ} (h0 : 0 ≤ i) (f : α → α) :
    (b.set i (f (b.cells i))).slice 0 hi = (b.slice 0 hi).modify i.toNat f := by
  apply List.ext_getElem?
  intro j
  by_cases hj : (0 : ℤ) + j < hi
  · rw [getElem?_slice _ hj, List.getElem?_modify, getElem?_slice _ hj]
    by_cases hij : i.toNat = j
    · have hcell : (0 : ℤ) + j = i := by omega
      rw [hcell, set_cells_same]
      simp [hij]
    · rw [set_cells_ne _ _ (by omega)]
      simp [hij]
  · have hlen : (hi - 0).toNat ≤ j := by omega
    rw [List.getElem?_eq_none (by rw [length_slice]; exact hlen),
      List.getElem?_eq_none (by rw [List.length_modify, length_slice]; exact hlen)]

/-- A write before the slice. -/
theorem slice_set_before (b : HeapArray α) {hi i : ℤ} (hi0 : i < 0) (v : α) :
    (b.set i v).slice 0 hi = b.slice 0 hi :=
  slice_congr fun _ h0 _ => set_cells_ne _ _ (by omega)

/-- One cell less at the front. -/
theorem slice_cons (b : HeapArray α) {lo hi : ℤ} (h : lo < hi) :
    b.slice lo hi = b.cells lo :: b.slice (lo + 1) hi := by
  have hn : (hi - lo).toNat = (hi - (lo + 1)).toNat + 1 := by omega
  simp only [slice, hn, List.range_succ_eq_map, List.map_cons, List.map_map]
  congr 1
  · simp
  · apply List.map_congr_left
    intro j _
    simp only [Function.comp_apply]
    congr 1
    push_cast
    ring

/-- A slice splits at every point between its ends. -/
theorem slice_append (b : HeapArray α) {lo mid hi : ℤ} (h₁ : lo ≤ mid)
    (h₂ : mid ≤ hi) : b.slice lo hi = b.slice lo mid ++ b.slice mid hi := by
  obtain ⟨n, rfl⟩ := Int.le.dest h₂
  induction n with
  | zero => simp [slice_eq_nil b (le_refl mid)]
  | succ n ih =>
      have hstep : mid + ((n + 1 : ℕ) : ℤ) = mid + n + 1 := by push_cast; ring
      rw [hstep, slice_succ b (by omega), slice_succ b (by omega),
        ih (by omega), List.append_assoc]

theorem mem_slice {b : HeapArray α} {lo hi : ℤ} {x : α} :
    x ∈ b.slice lo hi ↔ ∃ i, lo ≤ i ∧ i < hi ∧ b.cells i = x := by
  simp only [slice, List.mem_map, List.mem_range]
  constructor
  · rintro ⟨j, hj, rfl⟩
    exact ⟨lo + j, by omega, by omega, rfl⟩
  · rintro ⟨i, hlo, hhi, rfl⟩
    refine ⟨(i - lo).toNat, by omega, ?_⟩
    rw [show lo + ((i - lo).toNat : ℤ) = i by omega]

theorem slice_disturb (b : HeapArray α) (mem : ℤ → α) {lo hi : ℤ}
    (hlive : b.live = true) (h0 : 0 ≤ lo) (h : hi ≤ b.room) :
    (b.disturb mem).slice lo hi = b.slice lo hi :=
  slice_congr fun _ hlo hhi => disturb_cells b mem ⟨hlive, by omega, by omega⟩

end HeapArray

end LxcUio.Foundation
