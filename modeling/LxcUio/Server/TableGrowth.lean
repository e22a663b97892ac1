import LxcUio.Foundation.LabelledRun
import LxcUio.Server.UuidTable

/-!
# How the server's table grows

The tables that successful calls of `table_put` lead to, whatever `realloc` answers.
Their size is 256 doubled some number of times, until it leaves `int`: at 2^30 the
doubled size is negative, and no later call finds such a table full.

The number of bytes leaves `int` earlier, at 2^22 entries of 320 bytes, and comes out
of the conversion back to `size_t` as a number close to 2^64.
-/

namespace LxcUio.Server

open LxcUio.Foundation

/-- A call of `table_put` that returns 0. -/
def growStep (t : UuidTable) (call : UuidTableEntry × (ℤ → Realloc UuidTableEntry)) :
    Option UuidTable :=
  if (tablePut t call.1 call.2).1 = 0 then some (tablePut t call.1 call.2).2 else none

/-- `t` is the table after some number of successful puts. -/
def Grown (t : UuidTable) : Prop :=
  ∃ mem kmem, Via growStep anyStep (UuidTable.fresh mem kmem) t

/-- `realloc` can supply that many bytes. -/
def Supplies (realloc : ℤ → Realloc UuidTableEntry) (bytes : ℤ) : Prop :=
  ∀ errno, realloc bytes ≠ .failed errno

/-- The growth of `t` asks for the bytes of twice the entries, and no put on `t` needs more
than that to succeed. -/
structure GrowthExact (t : UuidTable) : Prop where
  bytes : t.newSizeBytes = 2 * t.uuidTableSize * sizeofEntry
  doubled : ∀ e realloc, Supplies realloc t.newSizeBytes →
    (tablePut t e realloc).2.uuidTableSize = 2 * t.uuidTableSize
  succeeds : ∀ e realloc, Supplies realloc (2 * t.uuidTableSize * sizeofEntry) →
    (tablePut t e realloc).1 = 0 ∧
      (tablePut t e realloc).2.tableNumEntries = t.tableNumEntries + 1

/-! ## The sizes that occur -/

structure GrownInv (t : UuidTable) : Prop where
  num_nonneg : 0 ≤ t.tableNumEntries
  allocated : t.uuidTable.isNull = false
  size : t.uuidTableSize < 0 ∨ ∃ k : ℕ, k ≤ 30 ∧ t.uuidTableSize = 2 ^ k

theorem fresh_grownInv (mem kmem : ℤ → UuidTableEntry) :
    GrownInv (UuidTable.fresh mem kmem) where
  num_nonneg := le_refl 0
  allocated := rfl
  size := Or.inr ⟨8, by decide, rfl⟩

/-- Doubling in `int` stays exact up to 2^29. -/
theorem newsize_of_pow {t : UuidTable} {k : ℕ} (hk : k ≤ 30) (h : t.uuidTableSize = 2 ^ k) :
    t.newsize < 0 ∨ ∃ k : ℕ, k ≤ 30 ∧ t.newsize = 2 ^ k := by
  rcases Nat.lt_or_ge k 30 with hlt | hge
  · right
    have hle : (2 : ℤ) ^ k ≤ 2 ^ 29 := pow_le_pow_right₀ (by norm_num) (by omega)
    have hpos : (0 : ℤ) < 2 ^ k := by positivity
    refine ⟨k + 1, hlt, ?_⟩
    rw [UuidTable.newsize, h, toInt_of_bounds (by omega) (by omega), pow_succ, mul_comm]
  · left
    rw [UuidTable.newsize, h, le_antisymm hk hge]
    decide

theorem regrown_size {t : UuidTable} {answer : Realloc UuidTableEntry}
    (h : ∀ errno, answer ≠ .failed errno) : (t.regrown answer).uuidTableSize = t.newsize := by
  cases answer with
  | failed errno => exact absurd rfl (h errno)
  | inPlace mem => rfl
  | moved mem => rfl

theorem regrown_num (t : UuidTable) (answer : Realloc UuidTableEntry) :
    (t.regrown answer).tableNumEntries = t.tableNumEntries := by
  cases answer <;> rfl

theorem regrown_isNull {t : UuidTable} (h : t.uuidTable.isNull = false)
    (answer : Realloc UuidTableEntry) : (t.regrown answer).uuidTable.isNull = false := by
  cases answer with
  | failed errno => exact h
  | inPlace mem => rfl
  | moved mem => exact h

/-- No put leads out of these sizes. -/
theorem GrownInv.put {t : UuidTable} (h : GrownInv t) (e : UuidTableEntry)
    (realloc : ℤ → Realloc UuidTableEntry) : GrownInv (tablePut t e realloc).2 := by
  have hnum := h.num_nonneg
  rcases tablePut_cases t e realloc with
    ⟨retVal, hput⟩ | ⟨hnull, hlt, hput⟩ | ⟨hnull, hfull, answer, hok, -, hput⟩
  · rw [hput]
    exact h
  · rw [hput]
    exact ⟨by rw [store_num]; omega, hnull, h.size⟩
  · rw [hput]
    refine ⟨?_, regrown_isNull hnull answer, ?_⟩
    · rw [store_num, regrown_num]
      omega
    · rw [store_size, regrown_size hok]
      rcases h.size with hneg | ⟨k, hk, hpow⟩
      · omega
      · exact newsize_of_pow hk hpow

theorem Grown.inv {t : UuidTable} (h : Grown t) : GrownInv t := by
  obtain ⟨mem, kmem, hvia⟩ := h
  refine hvia.invariant GrownInv (fresh_grownInv mem kmem) fun u call v hu _ hstep => ?_
  unfold growStep at hstep
  split at hstep
  · obtain rfl := Option.some.inj hstep
    exact hu.put call.1 call.2
  · cases hstep

/-- A full table has at most 2^30 entries. -/
theorem GrownInv.size_of_full {t : UuidTable} (h : GrownInv t)
    (hfull : t.tableNumEntries = t.uuidTableSize) :
    ∃ k : ℕ, k ≤ 30 ∧ t.uuidTableSize = 2 ^ k := by
  have hnum := h.num_nonneg
  rcases h.size with hneg | hpow
  · omega
  · exact hpow

/-! ## The growth itself -/

/-- The number of bytes has been an `int`. -/
theorem newSizeBytes_range (t : UuidTable) :
    t.newSizeBytes < 2 ^ 31 ∨ 2 ^ 64 - 2 ^ 31 ≤ t.newSizeBytes := by
  let bytes := toInt (toSizeT (t.newsize * sizeofEntry))
  have hlo : -(2 ^ 31) ≤ bytes := Int.le_bmod (by decide)
  have hhi : bytes < 2 ^ 31 := Int.bmod_lt (by decide)
  show bytes % 2 ^ 64 < 2 ^ 31 ∨ 2 ^ 64 - 2 ^ 31 ≤ bytes % 2 ^ 64
  omega

/-- A full table whose `realloc` supplies the bytes asked for. -/
theorem tablePut_of_supplied {t : UuidTable} (hnull : t.uuidTable.isNull = false)
    (hfull : t.tableNumEntries = t.uuidTableSize) (e : UuidTableEntry)
    {realloc : ℤ → Realloc UuidTableEntry} (h : Supplies realloc t.newSizeBytes) :
    (tablePut t e realloc).1 = 0 ∧
      (tablePut t e realloc).2.tableNumEntries = t.tableNumEntries + 1 ∧
      (tablePut t e realloc).2.uuidTableSize = t.newsize := by
  cases hanswer : realloc t.newSizeBytes with
  | failed errno => exact absurd hanswer (h errno)
  | inPlace mem =>
      rw [tablePut_of_grown hnull hfull hanswer]
      exact ⟨rfl, rfl, rfl⟩
  | moved mem =>
      rw [tablePut_of_moved hnull hfull hanswer]
      exact ⟨rfl, rfl, rfl⟩

/-- The numbers of bytes that an `int` cannot hold are not asked for. -/
theorem GrowthExact.size_le {t : UuidTable} (h : GrowthExact t) {k : ℕ} (hk : k ≤ 30)
    (hpow : t.uuidTableSize = 2 ^ k) : t.uuidTableSize ≤ 2 ^ 21 := by
  have hbytes := h.bytes
  have hrange := newSizeBytes_range t
  rw [hbytes, sizeofEntry, hpow] at hrange
  rw [hpow]
  rcases Nat.lt_or_ge k 22 with hlt | hge
  · exact pow_le_pow_right₀ (by norm_num) (by omega)
  · have hlo : (2 : ℤ) ^ 22 ≤ 2 ^ k := pow_le_pow_right₀ (by norm_num) hge
    have hhi : (2 : ℤ) ^ k ≤ 2 ^ 30 := pow_le_pow_right₀ (by norm_num) hk
    omega

/-- **When growth is exact**: up to 2^21 entries. -/
theorem growthExact_iff {t : UuidTable} (h : Grown t)
    (hfull : t.tableNumEntries = t.uuidTableSize) :
    GrowthExact t ↔ t.uuidTableSize ≤ 2 ^ 21 := by
  obtain ⟨k, hk, hpow⟩ := h.inv.size_of_full hfull
  have hpos : 0 < t.uuidTableSize := by
    rw [hpow]
    positivity
  have hnull := h.inv.allocated
  constructor
  · intro hexact
    exact hexact.size_le hk hpow
  · intro hle
    obtain ⟨hsize, hbytes⟩ := newSizeBytes_of_le hpos hle
    refine ⟨hbytes, fun e realloc hsupplies => ?_, fun e realloc hsupplies => ?_⟩
    · rw [← hsize]
      exact (tablePut_of_supplied hnull hfull e hsupplies).2.2
    · rw [← hbytes] at hsupplies
      obtain ⟨hret, hnum, -⟩ := tablePut_of_supplied hnull hfull e hsupplies
      exact ⟨hret, hnum⟩

/-! ## Full tables are reached -/

/-- A `realloc` that always enlarges the block where it is. -/
def growingRealloc (_ : ℤ) : Realloc UuidTableEntry := .inPlace fun _ => default

/-- A table that a run of puts has reached with its representation intact. -/
structure GrownTo (num size : ℤ) (t : UuidTable) : Prop where
  grown : Grown t
  exact_table : t.Exact
  num_eq : t.tableNumEntries = num
  size_eq : t.uuidTableSize = size

theorem GrownTo.put {t : UuidTable} {num size : ℤ} (h : GrownTo num size t)
    (hle : num = size → size ≤ 2 ^ 21) :
    ∃ t', GrownTo (num + 1) (if num = size then 2 * size else size) t' := by
  obtain ⟨⟨mem, kmem, hvia⟩, hexact, rfl, rfl⟩ := h
  have hin : GrowsInPlace t growingRealloc := fun _ => ⟨_, rfl⟩
  obtain ⟨hret, happ, hexact'⟩ := tablePut_exact hexact hle default hin
  have hstep : growStep t (default, growingRealloc) =
      some (tablePut t default growingRealloc).2 := if_pos hret
  refine ⟨_, ⟨mem, kmem, hvia.snoc trivial hstep⟩, hexact', happ.num, ?_⟩
  by_cases hfull : t.tableNumEntries = t.uuidTableSize
  · rw [if_pos hfull, tablePut_of_grown hexact.allocated hfull rfl, store_size]
    exact (hexact.regrown (hle hfull) _).2
  · rw [if_neg hfull, tablePut_of_room hexact.allocated (lt_of_le_of_ne hexact.num_le hfull),
      store_size]

/-- Puts fill the table up. -/
theorem GrownTo.fill {t : UuidTable} {num size : ℤ} (h : GrownTo num size t) :
    ∀ n : ℕ, num + n ≤ size → ∃ t', GrownTo (num + n) size t' := by
  intro n
  induction n with
  | zero => exact fun _ => ⟨t, by simpa using h⟩
  | succ n ih =>
      intro hn
      obtain ⟨u, hu⟩ := ih (by omega)
      have hne : ¬ num + (n : ℤ) = size := by omega
      obtain ⟨t', ht'⟩ := hu.put fun hfull => absurd hfull hne
      rw [if_neg hne] at ht'
      exact ⟨t', by rwa [Nat.cast_succ, ← add_assoc]⟩

/-- Every power of two from 256 to 2^22 is the size of a full table. -/
theorem full_of_pow : ∀ k : ℕ, 8 ≤ k → k ≤ 22 → ∃ t, GrownTo (2 ^ k) (2 ^ k) t := by
  intro k hk
  induction k, hk using Nat.le_induction with
  | base =>
      intro _
      let t := UuidTable.fresh (fun _ => default) fun _ => default
      have hfresh : GrownTo 0 256 t := ⟨⟨_, _, Via.refl⟩, fresh_exact _ _, rfl, rfl⟩
      exact hfresh.fill 256 (by decide)
  | succ k hk ih =>
      intro hle
      obtain ⟨t, ht⟩ := ih (by omega)
      have hsize : (2 : ℤ) ^ k ≤ 2 ^ 21 := pow_le_pow_right₀ (by norm_num) (by omega)
      have hpos : (0 : ℤ) < 2 ^ k := by positivity
      -- one put doubles the size, the rest fill the new half
      obtain ⟨u, hu⟩ := ht.put fun _ => hsize
      rw [if_pos rfl] at hu
      obtain ⟨v, hv⟩ := hu.fill (2 ^ k - 1 : ℤ).toNat (by omega)
      rw [Int.toNat_of_nonneg (by omega)] at hv
      refine ⟨v, ?_⟩
      have hdouble : (2 : ℤ) ^ (k + 1) = 2 * 2 ^ k := by rw [pow_succ, mul_comm]
      have hsum : (2 : ℤ) ^ k + 1 + (2 ^ k - 1) = 2 ^ (k + 1) := by omega
      rw [hsum, ← hdouble] at hv
      exact hv

/-- The first growth is exact. -/
theorem first_growth_exact :
    ∃ t, Grown t ∧ t.tableNumEntries = 256 ∧ t.tableNumEntries = t.uuidTableSize ∧
      GrowthExact t := by
  obtain ⟨t, ht⟩ := full_of_pow 8 (by decide) (by decide)
  have hfull : t.tableNumEntries = t.uuidTableSize := by rw [ht.num_eq, ht.size_eq]
  refine ⟨t, ht.grown, ht.num_eq, hfull, (growthExact_iff ht.grown hfull).mpr ?_⟩
  rw [ht.size_eq]
  decide

/-- The table of 2^22 entries asks for 2^64 - 1610612736 bytes. -/
theorem growth_of_2_22_inexact :
    ∃ t, Grown t ∧ t.tableNumEntries = 2 ^ 22 ∧ t.tableNumEntries < 2 ^ 31 ∧
      t.tableNumEntries = t.uuidTableSize ∧ t.newSizeBytes = 2 ^ 64 - 1610612736 ∧
      ¬ GrowthExact t := by
  obtain ⟨t, ht⟩ := full_of_pow 22 (by decide) (by decide)
  have hbytes : t.newSizeBytes = 2 ^ 64 - 1610612736 := by
    rw [UuidTable.newSizeBytes, UuidTable.newsize, ht.size_eq]
    decide
  refine ⟨t, ht.grown, ht.num_eq, by rw [ht.num_eq]; decide, by rw [ht.num_eq, ht.size_eq],
    hbytes, fun hexact => ?_⟩
  have hle := hexact.size_le (k := 22) (by decide) ht.size_eq
  rw [ht.size_eq] at hle
  exact absurd hle (by decide)

end LxcUio.Server
