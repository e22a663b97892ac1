import Mathlib.Algebra.Order.Ring.Nat
import Mathlib.Tactic.NormNum

/-!
# Little-endian integers in memory

An integer of `n` bytes at an address of a byte memory, the least significant byte
first.
-/

namespace LxcUio.Foundation

/-- The integer in the `n` bytes from `a` on. -/
def loadLE (mem : ℕ → UInt8) (a : ℕ) : ℕ → ℕ
  | 0 => 0
  | n + 1 => (mem a).toNat + 256 * loadLE mem (a + 1) n

/-- Byte `i` of the integer `x`. -/
def byteLE (x i : ℕ) : UInt8 := UInt8.ofNat (x / 256 ^ i)

theorem byteLE_succ (x i : ℕ) : byteLE x (i + 1) = byteLE (x / 256) i := by
  rw [byteLE, byteLE, pow_succ', Nat.div_div_eq_div_mul]

/-- Memory that holds the bytes of `x` holds `x`, as far as it fits. -/
theorem loadLE_of_bytes {mem : ℕ → UInt8} : ∀ {n a x : ℕ},
    (∀ i < n, mem (a + i) = byteLE x i) → loadLE mem a n = x % 256 ^ n := by
  intro n
  induction n with
  | zero =>
      intro a x _
      rw [loadLE, pow_zero, Nat.mod_one]
  | succ n ih =>
      intro a x h
      have hfirst : (mem a).toNat = x % 256 := by
        have hbyte := h 0 (Nat.succ_pos n)
        rw [Nat.add_zero] at hbyte
        rw [hbyte, byteLE, pow_zero, Nat.div_one]
        rfl
      have hrest : loadLE mem (a + 1) n = x / 256 % 256 ^ n := by
        refine ih fun i hi => ?_
        rw [← byteLE_succ, ← h (i + 1) (by omega)]
        congr 1
        omega
      rw [loadLE, hfirst, hrest, pow_succ', Nat.mod_mul]

theorem loadLE_of_lt {mem : ℕ → UInt8} {n a x : ℕ} (h : ∀ i < n, mem (a + i) = byteLE x i)
    (hx : x < 256 ^ n) : loadLE mem a n = x := by
  rw [loadLE_of_bytes h, Nat.mod_eq_of_lt hx]

end LxcUio.Foundation
