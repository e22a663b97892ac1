import LxcUio.Foundation.LittleEndian
import Mathlib.Data.List.Basic

/-!
# Structs as bytes

A C struct is a list of fields, each an integer of `size` bytes at an offset. `structByte`
assigns the fields; the bytes that belong to none of them, the padding among them, are those
that were there before. Fields that do not overlap are all read back (`holds_of_bytes`),
whatever the padding.

A struct inside another one is its list of fields, shifted by its offset.
-/

namespace LxcUio.Foundation

structure StructField where
  offset : ℕ
  size : ℕ
  value : ℕ

namespace StructField

/-- The bytes of the field: where they begin, and where they end. -/
def place (f : StructField) : ℕ × ℕ := (f.offset, f.offset + f.size)

def shift (o : ℕ) (f : StructField) : StructField := { f with offset := o + f.offset }

end StructField

/-- Two places that share no byte. -/
def Apart (p q : ℕ × ℕ) : Prop := p.2 ≤ q.1 ∨ q.2 ≤ p.1

instance (p q : ℕ × ℕ) : Decidable (Apart p q) := inferInstanceAs (Decidable (_ ∨ _))

/-- Byte `i` of a struct whose fields are assigned. -/
def structByte (old : ℕ → UInt8) : List StructField → ℕ → UInt8
  | [], i => old i
  | f :: fs, i =>
      if f.offset ≤ i ∧ i < f.offset + f.size then byteLE f.value (i - f.offset)
      else structByte old fs i

/-- The memory from `a` on holds the fields. -/
def HoldsFields (mem : ℕ → UInt8) (a : ℕ) (fs : List StructField) : Prop :=
  ∀ f ∈ fs, loadLE mem (a + f.offset) f.size = f.value % 256 ^ f.size

/-- A byte of a field is a byte of its value: no other field overlaps it. -/
theorem structByte_field {old : ℕ → UInt8} {fs : List StructField}
    (hapart : (fs.map StructField.place).Pairwise Apart) {f : StructField} (hf : f ∈ fs) {i : ℕ}
    (hlo : f.offset ≤ i) (hhi : i < f.offset + f.size) :
    structByte old fs i = byteLE f.value (i - f.offset) := by
  induction fs with
  | nil => cases hf
  | cons g fs ih =>
      obtain ⟨hg, hrest⟩ := List.pairwise_cons.mp hapart
      rcases List.mem_cons.mp hf with rfl | hf
      · rw [structByte, if_pos ⟨hlo, hhi⟩]
      · have hoff : ¬ (g.offset ≤ i ∧ i < g.offset + g.size) := by
          rintro ⟨hglo, hghi⟩
          rcases hg f.place (List.mem_map_of_mem hf) with hbefore | hbehind
          · exact absurd (lt_of_lt_of_le hghi hbefore) (not_lt.mpr hlo)
          · exact absurd (lt_of_lt_of_le hhi hbehind) (not_lt.mpr hglo)
        rw [structByte, if_neg hoff]
        exact ih hrest hf

/-- Memory that holds the bytes of a struct holds its fields. -/
theorem holds_of_bytes {mem old : ℕ → UInt8} {a n : ℕ} {fs : List StructField}
    (hapart : (fs.map StructField.place).Pairwise Apart) (hsize : ∀ f ∈ fs, f.offset + f.size ≤ n)
    (h : ∀ i < n, mem (a + i) = structByte old fs i) : HoldsFields mem a fs := by
  intro f hf
  apply loadLE_of_bytes
  intro i hi
  have hin := hsize f hf
  rw [Nat.add_assoc, h _ (by omega), structByte_field hapart hf (by omega) (by omega),
    Nat.add_sub_cancel_left]

theorem HoldsFields.subset {mem : ℕ → UInt8} {a : ℕ} {fs gs : List StructField}
    (h : HoldsFields mem a fs) (hsub : gs ⊆ fs) : HoldsFields mem a gs :=
  fun f hf => h f (hsub hf)

/-- The fields of a struct inside another one. -/
theorem HoldsFields.inside {mem : ℕ → UInt8} {a o : ℕ} {fs gs : List StructField}
    (h : HoldsFields mem a fs) (hsub : gs.map (StructField.shift o) ⊆ fs) :
    HoldsFields mem (a + o) gs := by
  intro f hf
  have hshifted := h (f.shift o) (hsub (List.mem_map_of_mem hf))
  rw [Nat.add_assoc]
  exact hshifted

end LxcUio.Foundation
