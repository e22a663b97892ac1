import Mathlib.Algebra.Order.Ring.Int
import Mathlib.Tactic.Common

/-!
# C integer conversions

Integers are mathematical integers; the conversions that lose information are
explicit: `toInt` is the conversion to a 32 bit `int`, `toSizeT` the one to a
64 bit `size_t`.
-/

namespace LxcUio.Foundation

def toInt (x : ℤ) : ℤ := x.bmod (2 ^ 32)

def toSizeT (x : ℤ) : ℤ := x % 2 ^ 64

theorem toInt_of_bounds {x : ℤ} (hlo : -2 ^ 31 ≤ x) (hhi : x < 2 ^ 31) :
    toInt x = x := by
  apply Int.bmod_eq_of_le <;> omega

/-- An `int` made of a natural number is not above it. -/
theorem toInt_le {x : ℤ} (h : 0 ≤ x) : toInt x ≤ x := by
  rw [toInt, Int.bmod_def]
  split <;> omega

theorem toSizeT_of_bounds {x : ℤ} (hlo : 0 ≤ x) (hhi : x < 2 ^ 64) :
    toSizeT x = x :=
  Int.emod_eq_of_lt hlo hhi

theorem dvd_of_toInt_eq_zero {x : ℤ} (h : toInt x = 0) : ∃ k, x = 2 ^ 32 * k := by
  have hdvd : ((2 ^ 32 : ℕ) : ℤ) ∣ x := Int.dvd_of_bmod_eq_zero h
  exact hdvd

/-- The negation of an `int` other than 0 is not 0, not even for the least one. -/
theorem toInt_neg_ne_zero {x : ℤ} (h : toInt x ≠ 0) : toInt (-toInt x) ≠ 0 := by
  intro hneg
  obtain ⟨k, hk⟩ := dvd_of_toInt_eq_zero hneg
  have hlo : -(2 ^ 31) ≤ toInt x := Int.le_bmod (by decide)
  have hhi : toInt x < 2 ^ 31 := Int.bmod_lt (by decide)
  omega

theorem toInt_eq_zero_iff {x : ℤ} (hlo : 0 ≤ x) (hhi : x < 2 ^ 32) :
    toInt x = 0 ↔ x = 0 := by
  constructor
  · intro h
    obtain ⟨k, rfl⟩ := dvd_of_toInt_eq_zero h
    have : k = 0 := by omega
    simp [this]
  · rintro rfl
    rfl

end LxcUio.Foundation
