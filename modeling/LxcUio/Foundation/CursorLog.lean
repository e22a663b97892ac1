import Mathlib.Data.List.TakeDrop
import Mathlib.Order.Nat
import Mathlib.Tactic.Common

/-!
# A log with a cursor

The queue that is never shortened: everything that was put stays in `entries`, and the
first `taken` of them have been handed out. Popping moves the cursor, so what was popped
is a prefix of what was put, in the same order.
-/

namespace LxcUio.Foundation

variable {α : Type*}

@[ext] structure CursorLog (α : Type*) where
  entries : List α
  taken : ℕ
  taken_le : taken ≤ entries.length

namespace CursorLog

def empty : CursorLog α := ⟨[], 0, le_refl 0⟩

def put (l : CursorLog α) (a : α) : CursorLog α where
  entries := l.entries ++ [a]
  taken := l.taken
  taken_le := by
    rw [List.length_append]
    exact l.taken_le.trans (Nat.le_add_right _ _)

/-- The entry that the next pop hands out. -/
def peek (l : CursorLog α) : Option α := l.entries[l.taken]?

def pop (l : CursorLog α) : CursorLog α :=
  if h : l.taken < l.entries.length then ⟨l.entries, l.taken + 1, h⟩ else l

/-- What has been handed out, in order. -/
def delivered (l : CursorLog α) : List α := l.entries.take l.taken

@[simp] theorem put_entries (l : CursorLog α) (a : α) :
    (l.put a).entries = l.entries ++ [a] := rfl

@[simp] theorem empty_entries : (empty : CursorLog α).entries = [] := rfl

@[simp] theorem empty_delivered : (empty : CursorLog α).delivered = [] := rfl

@[simp] theorem pop_entries (l : CursorLog α) : l.pop.entries = l.entries := by
  unfold pop
  split <;> rfl

/-- What was handed out is a prefix of what was put. -/
theorem delivered_prefix (l : CursorLog α) : l.delivered <+: l.entries :=
  List.take_prefix _ _

theorem length_delivered (l : CursorLog α) : l.delivered.length = l.taken := by
  rw [delivered, List.length_take, Nat.min_eq_left l.taken_le]

@[simp] theorem delivered_put (l : CursorLog α) (a : α) :
    (l.put a).delivered = l.delivered :=
  List.take_append_of_le_length l.taken_le

theorem peek_eq_none {l : CursorLog α} : l.peek = none ↔ l.delivered = l.entries := by
  rw [peek, List.getElem?_eq_none_iff, delivered, List.take_eq_self_iff]

theorem taken_lt_of_peek {l : CursorLog α} {a : α} (h : l.peek = some a) :
    l.taken < l.entries.length := by
  obtain ⟨hlt, -⟩ := List.getElem?_eq_some_iff.mp h
  exact hlt

/-- A pop hands out the entry at the cursor. -/
theorem delivered_pop {l : CursorLog α} {a : α} (h : l.peek = some a) :
    l.pop.delivered = l.delivered ++ [a] := by
  rw [pop, dif_pos (taken_lt_of_peek h)]
  show l.entries.take (l.taken + 1) = l.entries.take l.taken ++ [a]
  rw [List.take_add_one, show l.entries[l.taken]? = some a from h]
  rfl

theorem pop_of_peek_none {l : CursorLog α} (h : l.peek = none) : l.pop = l :=
  dif_neg (not_lt.mpr (List.getElem?_eq_none_iff.mp h))

end CursorLog

end LxcUio.Foundation
