import LxcUio.Proxy.Cdev

/-!
# What `process_packet` writes

The packet names a module by its uuid and announces the memory its core area goes to;
how much is copied there is what the proxy's own record of the module says. A byte is
written if there is a memory in which the call changes it: what a call writes does not
depend on the memory it writes to.
-/

namespace LxcUio.Proxy

open LxcUio.Foundation

/-! ## The copy -/

/-- A byte that the copy changes lies in the copied area and gets the byte of the source. -/
theorem copyToUser_changes {mem : UserMem} {dst : ℕ} {src : ℕ → UInt8}
    {n notCopied : ℕ} {a : ℕ} (h : copyToUser mem dst src n notCopied a ≠ mem a) :
    dst ≤ a ∧ a < dst + (n - notCopied) ∧ copyToUser mem dst src n notCopied a = src (a - dst) := by
  unfold copyToUser at h ⊢
  by_cases hin : dst ≤ a ∧ a < dst + (n - notCopied)
  · exact ⟨hin.1, hin.2, if_pos hin⟩
  · rw [if_neg hin] at h
    exact absurd rfl h

/-- Every byte of the copied area is changed in some memory. -/
theorem copyToUser_reaches (dst : ℕ) (src : ℕ → UInt8) {n notCopied k : ℕ}
    (hk : k < n - notCopied) :
    ∃ mem : UserMem, copyToUser mem dst src n notCopied (dst + k) ≠ mem (dst + k) := by
  have hin : dst ≤ dst + k ∧ dst + k < dst + (n - notCopied) := ⟨by omega, by omega⟩
  by_cases hzero : src (dst + k - dst) = 0
  · refine ⟨fun _ => 1, ?_⟩
    rw [copyToUser, if_pos hin, hzero]
    exact (by decide : (0 : UInt8) ≠ 1)
  · refine ⟨fun _ => 0, ?_⟩
    rw [copyToUser, if_pos hin]
    exact hzero

/-- What the call returns when `copy_to_user` left `left` bytes. -/
def packetRetval (left : ℕ) : ℤ :=
  if toInt left = 0 then 0 else toInt (-toInt left)

theorem packetRetval_eq_zero {left : ℕ} (h : left < 2 ^ 32) : packetRetval left = 0 ↔ left = 0 := by
  have hzero : toInt left = 0 ↔ (left : ℤ) = 0 := toInt_eq_zero_iff (by omega) (by omega)
  unfold packetRetval
  by_cases hleft : toInt left = 0
  · rw [if_pos hleft]
    exact iff_of_true rfl (by exact_mod_cast hzero.mp hleft)
  · rw [if_neg hleft]
    refine iff_of_false (toInt_neg_ne_zero hleft) fun h0 => hleft (hzero.mpr (by exact_mod_cast h0))

/-- The error is the negated count only while that fits an `int`. -/
theorem packetRetval_neg {left : ℕ} (h : left < 2 ^ 32) :
    packetRetval left < 0 ↔ 0 < left ∧ left ≤ 2 ^ 31 := by
  unfold packetRetval toInt
  simp only [Int.bmod_def]
  split <;> split <;> omega

/-- Where the core area goes. -/
abbrev coreAddr (packet1 : Packet) : ℕ := packet1.memory.regionCore.userspaceAddr.toNat

/-- `core_layout.size`. -/
abbrev coreSize (mts : ModuleTableStruct) : ℕ := mts.mod.coreLayout.size.toNat

theorem coreSize_lt (mts : ModuleTableStruct) : coreSize mts < 2 ^ 32 :=
  mts.mod.coreLayout.size.toNat_lt

theorem processPacket_of_copy {t : ModuleTable} {packet1 : Packet}
    {kmalloc : Option CopyBlock} {mts : ModuleTableStruct}
    (h : tableGetCopy t packet1.uuid kmalloc = some (some (some mts))) (notCopied : ℕ)
    (mem : UserMem) :
    processPacket t packet1 kmalloc notCopied mem =
      some (packetRetval (min notCopied (coreSize mts)),
        copyToUser mem (coreAddr packet1) mts.mod.coreImage (coreSize mts)
          (min notCopied (coreSize mts))) := by
  simp only [processPacket, h, packetRetval]
  split <;> rfl

/-! ## The entry a packet is for -/

/-- The first entry with the uuid. A table that was lost has no entries. -/
def ModuleTable.entryOf (t : ModuleTable) (uuid : Uuid) : Option ModuleTableStruct :=
  if t.moduleTable.isNull = true then none
  else (t.moduleTable.slice 0 t.tableNumEntries).find? fun mt => mt.uuid = uuid

/-- The loop of `table_get_copy` runs through a NULL table. -/
def ModuleTable.Faults (t : ModuleTable) : Prop :=
  t.moduleTable.isNull = true ∧ 0 < t.tableNumEntries

instance (t : ModuleTable) : Decidable t.Faults := inferInstanceAs (Decidable (_ ∧ _))

theorem tableGetCopy_of_entry {t : ModuleTable} {uuid : Uuid} {mts : ModuleTableStruct}
    (h : t.entryOf uuid = some mts) (stale : CopyBlock) :
    tableGetCopy t uuid (some stale) = some (some (some mts)) := by
  unfold ModuleTable.entryOf at h
  split at h
  · cases h
  · rename_i hnull
    simp [tableGetCopy, hnull, h]

/-- Without an entry the new block is handed out as it is. -/
theorem tableGetCopy_of_unknown {t : ModuleTable} {uuid : Uuid} (h : t.entryOf uuid = none)
    (stale : CopyBlock) :
    tableGetCopy t uuid (some stale) = if t.Faults then none else some (some stale) := by
  show (if t.Faults then none else some (some ((((t.moduleTable.slice 0 t.tableNumEntries).find?
    (fun mt => mt.uuid = uuid)).map some).getD stale))) = _
  by_cases hfault : t.Faults
  · rw [if_pos hfault, if_pos hfault]
  · rw [if_neg hfault, if_neg hfault]
    by_cases hnull : t.moduleTable.isNull = true
    · have hempty : t.tableNumEntries ≤ 0 := not_lt.mp fun hpos => hfault ⟨hnull, hpos⟩
      rw [HeapArray.slice_eq_nil _ hempty]
      rfl
    · rw [ModuleTable.entryOf, if_neg hnull] at h
      rw [h]
      rfl

/-! ## What the packet announces -/

section Packet

variable (t : ModuleTable) (packet1 : Packet) (kmalloc : Option CopyBlock)
  (notCopied : ℕ)

/-- The address lies in the core area that the packet announces. -/
def Announces (a : ℕ) : Prop :=
  coreAddr packet1 ≤ a ∧ a < coreAddr packet1 + packet1.memory.regionCore.memorySize.toNat

/-- The address gets byte `a - userspace_addr` of the module's core image. -/
def GetsImage (mts : ModuleTableStruct) (a : ℕ) (byte : UInt8) : Prop :=
  coreAddr packet1 ≤ a ∧ a - coreAddr packet1 < coreSize mts ∧
    byte = mts.mod.coreImage (a - coreAddr packet1)

/-- The whole core image is in its place after the call, whatever the memory held. -/
def CopiesImage (mts : ModuleTableStruct) : Prop :=
  ∀ mem retVal mem', processPacket t packet1 kmalloc notCopied mem = some (retVal, mem') →
    ∀ n < coreSize mts, mem' (coreAddr packet1 + n) = mts.mod.coreImage n

/-- **A packet stays within what it announces.** An unknown uuid is refused and nothing
is written; otherwise what is written belongs to the image of the entry and lands in the
announced area, and 0 is returned exactly when the image is complete. -/
structure StaysWithin : Prop where
  returns : ∀ mem, (processPacket t packet1 kmalloc notCopied mem).isSome = true
  unknown : t.entryOf packet1.uuid = none → ∀ mem retVal mem',
    processPacket t packet1 kmalloc notCopied mem = some (retVal, mem') →
      retVal < 0 ∧ mem' = mem
  image : ∀ mts, t.entryOf packet1.uuid = some mts → ∀ mem retVal mem',
    processPacket t packet1 kmalloc notCopied mem = some (retVal, mem') →
      ∀ a, mem' a ≠ mem a → GetsImage packet1 mts a (mem' a)
  announced : ∀ mts, t.entryOf packet1.uuid = some mts → ∀ mem retVal mem',
    processPacket t packet1 kmalloc notCopied mem = some (retVal, mem') →
      ∀ a, mem' a ≠ mem a → Announces packet1 a
  complete : ∀ mts, t.entryOf packet1.uuid = some mts → ∀ mem retVal mem',
    processPacket t packet1 kmalloc notCopied mem = some (retVal, mem') →
      (retVal = 0 ↔ CopiesImage t packet1 kmalloc notCopied mts)

/-- The condition, by whether the uuid is known. Of a known module no more is copied than
the packet has room for. For an unknown one the contents of the new block take the place
of a module: one must be found there, whose size makes the copy fail as a whole. -/
def CopyFits : Prop :=
  match t.entryOf packet1.uuid with
  | some mts => kmalloc.isSome = true ∧
      coreSize mts - notCopied ≤ packet1.memory.regionCore.memorySize.toNat
  | none => ¬ t.Faults ∧ ∃ stale, kmalloc = some (some stale) ∧
      0 < coreSize stale ∧ coreSize stale ≤ 2 ^ 31 ∧ coreSize stale ≤ notCopied

end Packet

/-- The module's image is complete exactly when no byte was left. -/
theorem copiesImage_iff {t : ModuleTable} {packet1 : Packet} {kmalloc : Option CopyBlock}
    {mts : ModuleTableStruct} (h : tableGetCopy t packet1.uuid kmalloc = some (some (some mts)))
    (notCopied : ℕ) :
    CopiesImage t packet1 kmalloc notCopied mts ↔ min notCopied (coreSize mts) = 0 := by
  constructor
  · intro hall
    by_contra hleft
    -- the last byte is not reached: a memory that differs there shows it
    have hlast : coreSize mts - 1 < coreSize mts := by omega
    have hbyte := fun mem => hall mem _ _ (processPacket_of_copy h notCopied mem) _ hlast
    have hout : ¬ coreAddr packet1 + (coreSize mts - 1) <
        coreAddr packet1 + (coreSize mts - min notCopied (coreSize mts)) := by
      omega
    simp only [copyToUser, hout, and_false, if_false] at hbyte
    have hsame := (hbyte fun _ => 0).trans (hbyte fun _ => 1).symm
    exact absurd hsame (by decide)
  · intro hnone mem retVal mem' hrun n hn
    rw [processPacket_of_copy h, hnone] at hrun
    obtain ⟨-, rfl⟩ := Prod.mk.inj (Option.some.inj hrun)
    have hin : coreAddr packet1 ≤ coreAddr packet1 + n ∧
        coreAddr packet1 + n < coreAddr packet1 + (coreSize mts - 0) := ⟨by omega, by omega⟩
    rw [copyToUser, if_pos hin, Nat.add_sub_cancel_left]

/-- A known module. -/
theorem staysWithin_of_entry {t : ModuleTable} {packet1 : Packet} {mts : ModuleTableStruct}
    (h : t.entryOf packet1.uuid = some mts) (kmalloc : Option CopyBlock)
    (notCopied : ℕ) :
    StaysWithin t packet1 kmalloc notCopied ↔ kmalloc.isSome = true ∧
      coreSize mts - notCopied ≤ packet1.memory.regionCore.memorySize.toNat := by
  cases kmalloc with
  | none =>
      -- table_get_copy returns NULL, and mts->module faults
      exact iff_of_false (fun hs => absurd (hs.returns fun _ => 0) Bool.false_ne_true)
        fun hc => absurd hc.1 Bool.false_ne_true
  | some stale =>
  have hcopy := tableGetCopy_of_entry h stale
  have hrun := processPacket_of_copy hcopy notCopied
  have hsize : coreSize mts < 2 ^ 32 := coreSize_lt mts
  constructor
  · intro hs
    refine ⟨rfl, not_lt.mp fun hmore => ?_⟩
    -- the first byte behind the announced area is written
    have hk : packet1.memory.regionCore.memorySize.toNat <
        coreSize mts - min notCopied (coreSize mts) := by omega
    obtain ⟨mem, hmem⟩ := copyToUser_reaches (coreAddr packet1) mts.mod.coreImage hk
    exact absurd (hs.announced mts h mem _ _ (hrun mem) _ hmem).2 (lt_irrefl _)
  · rintro ⟨-, hfits⟩
    refine ⟨fun mem => by rw [hrun]; rfl, fun hnone => ?_, fun m hm mem retVal mem' hr a ha => ?_,
      fun m hm mem retVal mem' hr a ha => ?_, fun m hm mem retVal mem' hr => ?_⟩
    · rw [h] at hnone
      cases hnone
    all_goals
      obtain rfl : mts = m := Option.some.inj (h.symm.trans hm)
      have hr' := hr
      rw [hrun] at hr'
      obtain ⟨rfl, rfl⟩ := Prod.mk.inj (Option.some.inj hr')
    · obtain ⟨hlo, hhi, hbyte⟩ := copyToUser_changes ha
      exact ⟨hlo, by omega, hbyte⟩
    · obtain ⟨hlo, hhi, -⟩ := copyToUser_changes ha
      exact ⟨hlo, by omega⟩
    · rw [packetRetval_eq_zero (by omega), copiesImage_iff hcopy]

/-- A uuid that is not in the table. -/
theorem staysWithin_of_unknown {t : ModuleTable} {packet1 : Packet}
    (h : t.entryOf packet1.uuid = none) (kmalloc : Option CopyBlock) (notCopied : ℕ) :
    StaysWithin t packet1 kmalloc notCopied ↔ ¬ t.Faults ∧ ∃ stale, kmalloc = some (some stale) ∧
      0 < coreSize stale ∧ coreSize stale ≤ 2 ^ 31 ∧ coreSize stale ≤ notCopied := by
  cases kmalloc with
  | none =>
      apply iff_of_false (fun hs => absurd (hs.returns fun _ => 0) Bool.false_ne_true)
      rintro ⟨-, stale, hnone, -⟩
      cases hnone
  | some block =>
  have hcopy := tableGetCopy_of_unknown h block
  by_cases hfault : t.Faults
  · rw [if_pos hfault] at hcopy
    refine iff_of_false (fun hs => ?_) fun hc => hc.1 hfault
    have hret := hs.returns fun _ => 0
    simp [processPacket, hcopy] at hret
  · rw [if_neg hfault] at hcopy
    cases block with
    | none =>
        -- what stands in the block as `module` is followed all the same
        refine iff_of_false (fun hs => ?_) ?_
        · have hret := hs.returns fun _ => 0
          simp [processPacket, hcopy] at hret
        · rintro ⟨-, stale, hwild, -⟩
          cases hwild
    | some stale =>
    have hrun := processPacket_of_copy hcopy notCopied
    have hsize : coreSize stale < 2 ^ 32 := coreSize_lt stale
    -- the block stands in for a module, with the size found in it
    have hneg : packetRetval (min notCopied (coreSize stale)) < 0 ↔ _ :=
      packetRetval_neg (by omega)
    constructor
    · intro hs
      have hret := hneg.mp (hs.unknown h (fun _ => 0) _ _ (hrun _)).1
      have hnothing : coreSize stale ≤ notCopied := by
        by_contra hsome
        have hk : 0 < coreSize stale - min notCopied (coreSize stale) := by omega
        obtain ⟨mem, hmem⟩ := copyToUser_reaches (coreAddr packet1) stale.mod.coreImage hk
        exact hmem (congrFun (hs.unknown h mem _ _ (hrun mem)).2 _)
      exact ⟨hfault, stale, rfl, by omega, by omega, hnothing⟩
    · rintro ⟨-, stale', hstale, hpos, hle, hnothing⟩
      obtain rfl := Option.some.inj (Option.some.inj hstale)
      refine ⟨fun mem => by rw [hrun]; rfl, fun _ mem retVal mem' hr => ?_,
        fun m hm => ?_, fun m hm => ?_, fun m hm => ?_⟩
      · rw [hrun] at hr
        obtain ⟨rfl, rfl⟩ := Prod.mk.inj (Option.some.inj hr)
        refine ⟨hneg.mpr (by omega), ?_⟩
        funext a
        by_contra ha
        obtain ⟨hlo, hhi, -⟩ := copyToUser_changes ha
        omega
      all_goals
        rw [h] at hm
        cases hm

/-- **When a packet stays within what it announces**: no bound of the packet is looked at,
and no lookup that found nothing is noticed. -/
theorem staysWithin_iff (t : ModuleTable) (packet1 : Packet) (kmalloc : Option CopyBlock)
    (notCopied : ℕ) :
    StaysWithin t packet1 kmalloc notCopied ↔ CopyFits t packet1 kmalloc notCopied := by
  unfold CopyFits
  cases h : t.entryOf packet1.uuid with
  | none => exact staysWithin_of_unknown h kmalloc notCopied
  | some mts => exact staysWithin_of_entry h kmalloc notCopied

/-- A module with one byte of core image. -/
def oneByteModule : ModuleTableStruct :=
  ⟨0, 0, ⟨default, { (default : ModuleLayout) with size := 1 }, fun _ => 0⟩⟩

/-- A packet that announces no memory gets the whole image of its module written. -/
theorem packet_overruns :
    ¬ ∀ (t : ModuleTable) (packet1 : Packet) (kmalloc : Option CopyBlock)
      (notCopied : ℕ), StaysWithin t packet1 kmalloc notCopied := by
  intro hall
  let t := (tablePut (UsableTable.fresh (fun _ => default) fun _ => default).table
    oneByteModule none).2
  have hentry : t.entryOf (default : Packet).uuid = some oneByteModule := rfl
  have hs := (staysWithin_of_entry hentry (some default) 0).mp (hall t default (some default) 0)
  exact absurd hs.2 (by decide)

end LxcUio.Proxy
