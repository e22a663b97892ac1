import Mathlib.Data.Nat.Bitwise
import Mathlib.Tactic.Common

/-!
# Command words

`_IOC` of `asm-generic/ioctl.h` makes a command word of a direction, a type, a number and a
size. The fields are shifted and or-ed, not cut to their widths: a type of more than 8 bits
runs into the size, and one of more than 22 into the direction. A word that is taken as an
`unsigned int` loses what lies above. Two words are told apart by what is left (`ioc_inj`).
-/

namespace LxcUio.Foundation

def ioc (dir type nr size : ℕ) : ℕ := dir <<< 30 ||| type <<< 8 ||| nr <<< 0 ||| size <<< 16

/-- `_IO`. -/
def io (type nr : ℕ) : ℕ := ioc 0 type nr 0

/-- `_IOWR`, with the size of the type it is given. -/
def iowr (type nr size : ℕ) : ℕ := ioc 3 type nr size

/-- Direction, type and size share the bits from 8 up. -/
def iocTop (dir type size : ℕ) : ℕ := dir <<< 22 ||| type ||| size <<< 8

theorem iocTop_lt {dir type size : ℕ} (hdir : dir < 2 ^ 2) (htype : type < 2 ^ 24)
    (hsize : size < 2 ^ 14) : iocTop dir type size < 2 ^ 24 := by
  refine Nat.or_lt_two_pow (Nat.or_lt_two_pow ?_ htype) ?_
  · rw [Nat.shiftLeft_eq]
    omega
  · rw [Nat.shiftLeft_eq]
    omega

/-- The number stands in bits that nothing else reaches. -/
theorem ioc_eq {dir type nr size : ℕ} (hnr : nr < 2 ^ 8) :
    ioc dir type nr size = iocTop dir type size * 2 ^ 8 + nr := by
  calc ioc dir type nr size
      = (dir <<< 30 ||| type <<< 8 ||| size <<< 16) ||| nr := by
        rw [ioc, Nat.shiftLeft_zero, Nat.or_assoc _ nr, Nat.or_comm nr, ← Nat.or_assoc]
    _ = iocTop dir type size <<< 8 ||| nr := by
        rw [iocTop, Nat.shiftLeft_or_distrib, Nat.shiftLeft_or_distrib, ← Nat.shiftLeft_add,
          ← Nat.shiftLeft_add]
    _ = iocTop dir type size * 2 ^ 8 + nr := by
        rw [← Nat.shiftLeft_add_eq_or_of_lt hnr, Nat.shiftLeft_eq]

theorem ioc_mod {dir type nr size : ℕ} (hnr : nr < 2 ^ 8) : ioc dir type nr size % 2 ^ 8 = nr := by
  rw [ioc_eq hnr]
  omega

theorem ioc_lt {dir type nr size : ℕ} (hdir : dir < 2 ^ 2) (hnr : nr < 2 ^ 8)
    (htype : type < 2 ^ 24) (hsize : size < 2 ^ 14) : ioc dir type nr size < 2 ^ 32 := by
  have htop := iocTop_lt hdir htype hsize
  rw [ioc_eq hnr]
  omega

/-- A word that is cut to 32 bits determines its number, and direction, type and size as far as
they can be told apart. -/
theorem ioc_inj {dir dir' type type' nr nr' size size' : ℕ} (hnr : nr < 2 ^ 8)
    (hnr' : nr' < 2 ^ 8) :
    ioc dir type nr size % 2 ^ 32 = ioc dir' type' nr' size' % 2 ^ 32 ↔
      iocTop dir type size % 2 ^ 24 = iocTop dir' type' size' % 2 ^ 24 ∧ nr = nr' := by
  rw [ioc_eq hnr, ioc_eq hnr']
  omega

end LxcUio.Foundation
