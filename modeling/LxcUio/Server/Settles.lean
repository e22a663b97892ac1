import LxcUio.Server.MemoryComplete
import LxcUio.Server.WorkDone

/-!
# `process_entry` settles the entry it picks

`kvm-host-server.c`. An entry that comes back without either flag is picked again by
the next call.

- `Settles` : what a call owes to its caller, read off its result and its last state.
- `MarksFailures` : the branches that store `could_not_process`, or succeed, in the
  order in which the calls are made.
- `Decides` : from here on the call settles the entry exactly under a condition; one
  rule for each kind of statement, one lemma for each section of the body.

The branches from `KVM_GET_VCPU_MMAP_SIZE` on leave without a mark, and so do the
reloads of `ptr`; a failed `mmap` of `struct kvm_run` is compared with NULL.
-/

namespace LxcUio.Server

open LxcUio.Foundation

/-! ## What a call owes -/

/-- What the caller gets, if the call returns. -/
def ProcessResult.retVal : ProcessResult → Option ℤ
  | .returned v => some v
  | .bug _ => some (-1)
  | .running => none
  | .crashed => none

/-- No entry but `i` changed. -/
structure OnlyEntry (i : ℤ) (t0 t : UuidTable) : Prop where
  num : t.tableNumEntries = t0.tableNumEntries
  others : ∀ j, j ≠ i → t.entry j = t0.entry j

def ExitReason.goesOn : ExitReason → Bool
  | .io _ _ _ _ _ => true
  | .other _ => true
  | _ => false

/-- The loop around `KVM_RUN` goes on after this exit. -/
def VcpuExit.GoesOn (x : VcpuExit) : Prop := 0 ≤ x.ret ∧ x.reason.goesOn = true

/-- The run of the guest ended in `KVM_EXIT_HLT`. -/
def EndsInHlt (env : ProcessEnv) (u : ProcState) : Prop :=
  ∃ before x behind, env.exits = before ++ x :: behind ∧ (∀ y ∈ before, y.GoesOn) ∧
    x.reason = .hlt ∧ u.events.getLast? = some (.kvmRun env.createVcpu x.ret)

/-- Entry `i`, and no other, was run to its end and marked so. -/
structure Processed (env : ProcessEnv) (i : ℤ) (t : UuidTable) (u : ProcState) : Prop where
  only : OnlyEntry i t u.table
  processed : (u.table.entry i).processed = true
  notGivenUp : (u.table.entry i).couldNotProcess = false
  halted : EndsInHlt env u

/-- Entry `i`, and no other, was given up and marked so. -/
structure GivenUp (i : ℤ) (t u : UuidTable) : Prop where
  only : OnlyEntry i t u
  unprocessed : (u.entry i).processed = false
  givenUp : (u.entry i).couldNotProcess = true

/-- A call that started on `t` and ended in `u` with the result `r` settled what it
picked. A call that is still running the guest owes nothing yet. -/
structure Settles (env : ProcessEnv) (t : UuidTable) (r : ProcessResult) (u : ProcState) :
    Prop where
  survives : r ≠ .crashed
  value : ∀ v, r.retVal = some v → v = 0 ∨ v = 1 ∨ v < 0
  zero : r.retVal = some 0 → ∀ j, 0 ≤ j → j < u.table.tableNumEntries →
    Settled (u.table.entry j)
  one : r.retVal = some 1 → ∃ i, FirstUnsettled t i ∧ Processed env i t u
  error : ∀ v, v < 0 → r.retVal = some v → ∀ i, pickedEntry env t = some i →
    GivenUp i t u.table

/-! ## When it does -/

/-- The exits end in `KVM_EXIT_HLT`, or have not ended the run yet; the mapping is
read for each of them. -/
inductive GuestHalts (mmapRun : RunMapping) : List VcpuExit → Prop where
  | running : GuestHalts mmapRun []
  | hlt {x rest} (hret : 0 ≤ x.ret) (hmap : mmapRun ≠ .mapFailed) (hreason : x.reason = .hlt) :
      GuestHalts mmapRun (x :: rest)
  | next {x rest} (hgo : x.GoesOn) (hmap : mmapRun ≠ .mapFailed)
      (hrest : GuestHalts mmapRun rest) : GuestHalts mmapRun (x :: rest)

/-- Behind `KVM_GET_VCPU_MMAP_SIZE` no failure is marked. -/
structure RunsGuest (env : ProcessEnv) : Prop where
  mmapSize : env.sizeofKvmRun ≤ env.vcpuMmapSize
  mapped : env.mmapRun ≠ .null
  getSregs : 0 ≤ env.getSregs
  setSregs : 0 ≤ env.setSregs
  mallocRegs : env.mallocRegs = true
  setRegs : 0 ≤ env.setRegs
  halts : GuestHalts env.mmapRun env.exits

/-- No call fails in a branch that forgets the mark, for an entry with `numRegions`
regions. A failure of `KVM_CREATE_VM`, the memory set-up, `send_packet`,
`KVM_CREATE_VCPU` or `KVM_GET_VCPU_MMAP_SIZE` is marked, and ends the call. -/
def MarksFailures (env : ProcessEnv) (numRegions : ℤ) : Prop :=
  0 ≤ env.createVm → env.memory.NoError numRegions →
    env.mallocPacket = true ∧ (0 ≤ sendPacket env.bytesWritten →
      env.mallocReload = true ∧ (0 ≤ env.createVcpu → 0 ≤ env.vcpuMmapSize → RunsGuest env))

/-- The exact condition: the picked entry is marked whatever fails, and behind a scan that went
past all it counts the entries beyond the `int` that `get_table_num_entries` returns are
settled. -/
structure SettlesWhen (env : ProcessEnv) (t : UuidTable) : Prop where
  marks : ∀ i, pickedEntry env t = some i →
    MarksFailures env (t.entry i).memory.numRegions
  counted : 0 ≤ getTableNumEntries t →
    (∀ j ∈ entryIndices (getTableNumEntries t), PassedOver env t j) →
    ∀ j, getTableNumEntries t ≤ j → j < t.tableNumEntries → Settled (t.entry j)

/-! ## The entry that is worked on -/

theorem OnlyEntry.refl (i : ℤ) (t : UuidTable) : OnlyEntry i t t := ⟨rfl, fun _ _ => rfl⟩

theorem OnlyEntry.trans {i : ℤ} {t u v : UuidTable} (h : OnlyEntry i t u)
    (h' : OnlyEntry i u v) : OnlyEntry i t v :=
  ⟨h'.num.trans h.num, fun j hj => (h'.others j hj).trans (h.others j hj)⟩

theorem OnlyEntry.modify {i : ℤ} {t0 t : UuidTable} (h : OnlyEntry i t0 t)
    (f : UuidTableEntry → UuidTableEntry) : OnlyEntry i t0 (t.modify i f) where
  num := h.num
  others := fun j hj => by rw [modify_entry_ne t f hj, h.others j hj]

/-- Entry `i` is being worked on: neither flag is set yet, and no other entry was
touched. -/
structure Alone (i : ℤ) (t0 t : UuidTable) : Prop extends OnlyEntry i t0 t where
  uuid : (t.entry i).uuid = (t0.entry i).uuid
  unprocessed : (t.entry i).processed = false
  notGivenUp : (t.entry i).couldNotProcess = false
  nonneg : 0 ≤ i
  inRange : i ≤ t.tableNumEntries - 1

theorem FirstUnsettled.alone {t : UuidTable} {i : ℤ} (h : FirstUnsettled t i) :
    Alone i t t where
  toOnlyEntry := .refl i t
  uuid := rfl
  unprocessed := h.unprocessed
  notGivenUp := h.notGivenUp
  nonneg := h.nonneg
  inRange := by
    have := h.inRange
    omega

theorem Alone.modify {i : ℤ} {t0 t : UuidTable} (h : Alone i t0 t)
    {f : UuidTableEntry → UuidTableEntry} (hf : KeepsFlags f) :
    Alone i t0 (t.modify i f) where
  toOnlyEntry := h.toOnlyEntry.modify f
  uuid := by rw [modify_entry_same, hf.uuid, h.uuid]
  unprocessed := by rw [modify_entry_same, hf.processed, h.unprocessed]
  notGivenUp := by rw [modify_entry_same, hf.couldNotProcess, h.notGivenUp]
  nonneg := h.nonneg
  inRange := h.inRange

theorem Alone.memoryOnly {i : ℤ} {t0 t u : UuidTable} (h : Alone i t0 t)
    (hmem : MemoryOnly t u) (honly : OnlyEntry i t u) : Alone i t0 u where
  toOnlyEntry := h.toOnlyEntry.trans honly
  uuid := (hmem.uuid i).trans h.uuid
  unprocessed := (hmem.processed i).trans h.unprocessed
  notGivenUp := (hmem.couldNotProcess i).trans h.notGivenUp
  nonneg := h.nonneg
  inRange := by
    rw [honly.num]
    exact h.inRange

theorem Alone.distinct {i : ℤ} {t0 t : UuidTable} (h : Alone i t0 t) (ht : t0.Distinct) :
    t.Distinct := by
  have huuid : ∀ j, (t.entry j).uuid = (t0.entry j).uuid := by
    intro j
    by_cases hj : j = i
    · rw [hj, h.uuid]
    · rw [h.others j hj]
  intro j k hj0 hj hk0 hk heq
  rw [h.num] at hj hk
  rw [huuid, huuid] at heq
  exact ht j k hj0 hj hk0 hk heq

/-! ### The memory set-up -/

theorem addRegion_onlyEntry {i : ℤ} {t0 : UuidTable} {u : ProcState}
    (h : OnlyEntry i t0 u.table) (vmfd : ℤ) (mmap : Option UInt64) (size : UInt32)
    (fill : UInt64 → UuidTableEntry → UuidTableEntry)
    (region : VmMemory → KvmUserspaceMemoryRegion) (ret : ℤ) :
    (addRegion vmfd i mmap size fill region ret).wp (fun _ => True)
      (fun _ v => OnlyEntry i t0 v.table) (fun _ v => OnlyEntry i t0 v.table) u := by
  cases mmap with
  | none => exact wp_addRegion_none.mpr h
  | some mem =>
      exact wp_addRegion_some.mpr ⟨trivial, trivial, trivial, fun _ => h.modify _,
        fun _ => ⟨trivial, (h.modify _).modify _⟩⟩

theorem initializeEntry_onlyEntry (env : MemoryEnv) (vmfd i : ℤ) (s : ProcState) :
    (initializeEntry env vmfd i).wp (fun _ => True)
      (fun _ v => OnlyEntry i s.table v.table) (fun _ v => OnlyEntry i s.table v.table) s := by
  have hrefl := OnlyEntry.refl i s.table
  refine wp_initializeEntry.mpr ⟨fun _ => ?_, fun _ => hrefl⟩
  refine Program.wp_seq (addRegion_onlyEntry hrefl _ _ _ _ _ _) fun _ t hone =>
    wp_initRegion.mpr ⟨fun _ => ?_, fun _ => hone⟩
  exact Program.wp_seq (addRegion_onlyEntry hone _ _ _ _ _ _) fun _ u htwo =>
    wp_coreRegion.mpr ⟨fun _ => addRegion_onlyEntry htwo _ _ _ _ _ _, fun _ => htwo⟩

/-- The set-up leaves the entry worked on, and its sign says which calls failed. -/
theorem initializeMemoryUuid_alone (debugOn : Bool) (env : MemoryEnv) (vmfd : ℤ) {i : ℤ}
    {t0 : UuidTable} (hdistinct : t0.Distinct) {s : ProcState} (h : Alone i t0 s.table) :
    (initializeMemoryUuid debugOn env (t0.entry i).uuid vmfd).wp (fun _ => True)
      (fun r v => Alone i t0 v.table ∧ (0 ≤ r ↔ env.NoError (regionCount s i)))
      (fun r v => Alone i t0 v.table ∧ (0 ≤ r ↔ env.NoError (regionCount s i))) s := by
  have hlt : i < s.table.tableNumEntries := by
    have := h.inRange
    omega
  have hentry := Program.wp_and (initializeEntry_sign env vmfd i s)
    (Program.wp_and (initializeEntry_only env vmfd i s) (initializeEntry_onlyEntry env vmfd i s))
  rw [← h.uuid]
  apply wp_initializeMemoryUuid debugOn (h.distinct hdistinct) h.nonneg hlt
  refine Program.wp_weaken hentry (fun _ _ => trivial) (fun _ v hend => ?_) (fun r v hexit => ?_)
  · obtain ⟨hnone, hmem, honly⟩ := hend
    exact ⟨hmem.uuid, h.memoryOnly hmem honly, iff_of_true (le_refl 0) hnone⟩
  · obtain ⟨hsign, hmem, honly⟩ := hexit
    exact ⟨h.memoryOnly hmem honly, hsign⟩

/-! ## The body settles the entry exactly under a condition -/

/-- From `s` on the call settles what it picked exactly when `C` holds. -/
def Decides (env : ProcessEnv) (t0 : UuidTable) (C : Prop) (x : ProcOut ProcessResult)
    (s : ProcState) : Prop :=
  x.wp (fun _ => True) (fun r u => Settles env t0 r u ↔ C)
    (fun r u => Settles env t0 r u ↔ C) s

theorem Decides.congr {env : ProcessEnv} {t0 : UuidTable} {C C' : Prop}
    {x : ProcOut ProcessResult} {s : ProcState} (h : Decides env t0 C x s) (hC : C ↔ C') :
    Decides env t0 C' x s :=
  Program.wp_mono h (fun _ _ hr => hr.trans hC) fun _ _ hr => hr.trans hC

section Decides

variable {env : ProcessEnv} {t0 : UuidTable} {i : ℤ} {C : Prop} {s : ProcState}

/-- An error behind which the entry has no mark. -/
theorem not_settles (hpick : pickedEntry env t0 = some i) {u : ProcState}
    (h : Alone i t0 u.table) {v : ℤ} (hv : v < 0) : ¬ Settles env t0 (.returned v) u := by
  intro hsettles
  have hgiven := hsettles.error v hv rfl i hpick
  exact Bool.false_ne_true (h.notGivenUp.symm.trans hgiven.givenUp)

/-- An error behind the mark. -/
theorem settles_marked (hpick : pickedEntry env t0 = some i) (h : Alone i t0 s.table)
    {v : ℤ} (hv : v < 0) : Settles env t0 (.returned v) (s.modify i setCouldNotProcess) where
  survives := fun hc => by cases hc
  value := by
    rintro w hw
    obtain rfl := Option.some.inj hw
    exact Or.inr (Or.inr hv)
  zero := by
    intro hw
    exact absurd (Option.some.inj hw) (ne_of_lt hv)
  one := by
    intro hw
    rw [Option.some.inj hw] at hv
    exact absurd hv (by decide)
  error := by
    intro w _ _ j hj
    obtain rfl := Option.some.inj (hpick.symm.trans hj)
    refine ⟨h.toOnlyEntry.modify _, ?_, ?_⟩
    · rw [procModify_table, modify_entry_same]
      exact h.unprocessed
    · rw [procModify_table, modify_entry_same]
      rfl

theorem decides_emit {e : Event} {k : Unit → ProcOut ProcessResult}
    (hk : Decides env t0 C (k ()) (s.emit e)) : Decides env t0 C (emit e >>= k) s :=
  (Program.wp_bind _ _).mpr ((wp_emit e).mpr ⟨trivial, hk⟩)

theorem decides_setXxx (h : Alone i t0 s.table) {f : UuidTableEntry → UuidTableEntry}
    {k : ℤ → ProcOut ProcessResult} (hk : Decides env t0 C (k 0) (s.modify i f)) :
    Decides env t0 C (setXxx i f >>= k) s :=
  (Program.wp_bind _ _).mpr ((wp_setXxx h.inRange f).mpr ⟨trivial, hk⟩)

/-- A branch that leaves with an error and without a mark has to be excluded. -/
theorem decides_out (hpick : pickedEntry env t0 = some i) (h : Alone i t0 s.table) {c : Prop}
    [Decidable c] {v : ℤ} (hv : c → v < 0) (hC : c → ¬ C) {k : Unit → ProcOut ProcessResult}
    (hk : ¬ c → Decides env t0 C (k ()) s) :
    Decides env t0 C (Program.onlyIf c (out v) >>= k) s := by
  refine (Program.wp_bind _ _).mpr ((Program.wp_onlyIf _ _).mpr ⟨fun hc => ?_, hk⟩)
  exact (wp_out v).mpr (iff_of_false (not_settles hpick h (hv hc)) (hC hc))

/-- A branch that marks the entry is allowed. -/
theorem decides_giveUp (hpick : pickedEntry env t0 = some i) (h : Alone i t0 s.table)
    {c : Prop} [Decidable c] {v : ℤ} (hv : c → v < 0) (hC : c → C)
    {k : Unit → ProcOut ProcessResult} (hk : ¬ c → Decides env t0 C (k ()) s) :
    Decides env t0 C (Program.onlyIf c (do giveUp i; out v) >>= k) s := by
  refine (Program.wp_bind _ _).mpr ((Program.wp_onlyIf _ _).mpr ⟨fun hc => ?_, hk⟩)
  refine (Program.wp_bind _ _).mpr ((wp_giveUp h.inRange).mpr ⟨trivial, (wp_out v).mpr ?_⟩)
  exact iff_of_true (settles_marked hpick h (hv hc)) (hC hc)

/-- `errno` of a `table_set_xxx` that stored is 0. -/
theorem decides_noErrno (hpick : pickedEntry env t0 = some i) (h : Alone i t0 s.table) {v : ℤ}
    {k : Unit → ProcOut ProcessResult} (hk : Decides env t0 C (k ()) s) :
    Decides env t0 C (Program.onlyIf ((0 : ℤ) < 0) (do giveUp i; out v) >>= k) s :=
  decides_giveUp hpick h (fun hc => absurd hc (lt_irrefl 0)) (fun hc => absurd hc (lt_irrefl 0))
    fun _ => hk

theorem decides_reload (hpick : pickedEntry env t0 = some i) (h : Alone i t0 s.table)
    {malloc : Bool} (hC : malloc = false → ¬ C) {k : UuidTableEntry → ProcOut ProcessResult}
    (hk : malloc = true → Decides env t0 C (k (s.table.entry i)) s) :
    Decides env t0 C (reload i malloc >>= k) s := by
  refine (Program.wp_bind _ _).mpr ((wp_reload h.inRange malloc).mpr ⟨hk, fun hm => ?_⟩)
  exact iff_of_false (not_settles hpick h (by decide)) (hC hm)

/-! ### The guest's run -/

/-- What one more exit makes of the condition. -/
theorem guestHalts_cons {mmapRun : RunMapping} {x : VcpuExit} {rest : List VcpuExit} :
    GuestHalts mmapRun (x :: rest) ↔ 0 ≤ x.ret ∧ mmapRun ≠ .mapFailed ∧
      (x.reason = .hlt ∨ (x.reason.goesOn = true ∧ GuestHalts mmapRun rest)) := by
  constructor
  · rintro (_ | ⟨hret, hmap, hreason⟩ | ⟨hgo, hmap, hrest⟩)
    · exact ⟨hret, hmap, Or.inl hreason⟩
    · exact ⟨hgo.1, hmap, Or.inr ⟨hgo.2, hrest⟩⟩
  · rintro ⟨hret, hmap, hreason | ⟨hgo, hrest⟩⟩
    · exact .hlt hret hmap hreason
    · exact .next ⟨hret, hgo⟩ hmap hrest

/-- Behind an exit that does not end the run nothing is decided yet. -/
theorem guestHalts_of_goesOn {mmapRun : RunMapping} {x : VcpuExit} {rest : List VcpuExit}
    (hgo : x.GoesOn) (hmap : mmapRun ≠ .mapFailed) :
    GuestHalts mmapRun rest ↔ GuestHalts mmapRun (x :: rest) := by
  constructor
  · exact fun hrest => .next hgo hmap hrest
  · intro hhalts
    obtain ⟨-, -, hhlt | ⟨-, hrest⟩⟩ := guestHalts_cons.mp hhalts
    · have hends := hgo.2
      rw [hhlt] at hends
      cases hends
    · exact hrest

/-- The exits that end the run with an error. -/
theorem not_guestHalts_of_ends {mmapRun : RunMapping} {x : VcpuExit} {rest : List VcpuExit}
    (hends : x.reason = .failEntry ∨ x.reason = .internalError) :
    ¬ GuestHalts mmapRun (x :: rest) := by
  intro hhalts
  obtain ⟨-, -, hreason⟩ := guestHalts_cons.mp hhalts
  rcases hends with hfail | hfail
  · rw [hfail] at hreason
    rcases hreason with hhlt | ⟨hgo, -⟩
    · cases hhlt
    · cases hgo
  · rw [hfail] at hreason
    rcases hreason with hhlt | ⟨hgo, -⟩
    · cases hhlt
    · cases hgo

/-- The entry is marked behind an exit with `KVM_EXIT_HLT`. -/
theorem settles_halted (hfirst : FirstUnsettled t0 i)
    (h : Alone i t0 s.table) {before behind : List VcpuExit} {x : VcpuExit}
    (hexits : env.exits = before ++ x :: behind) (hbefore : ∀ y ∈ before, y.GoesOn)
    (hreason : x.reason = .hlt) :
    Settles env t0 (.returned 1)
      ((s.emit (.kvmRun env.createVcpu x.ret)).modify i setProcessed) where
  survives := fun hc => by cases hc
  value := by
    rintro w hw
    obtain rfl := Option.some.inj hw
    exact Or.inr (Or.inl rfl)
  zero := fun hw => absurd (Option.some.inj hw) (by decide)
  one := by
    intro _
    refine ⟨i, hfirst, h.toOnlyEntry.modify _, ?_, ?_, before, x, behind, hexits, hbefore,
      hreason, ?_⟩
    · rw [procModify_table, emit_table, modify_entry_same]
      rfl
    · rw [procModify_table, emit_table, modify_entry_same]
      exact h.notGivenUp
    · rw [procModify_events, emit_events, List.getLast?_concat]
  error := by
    intro w hw hret
    rw [← Option.some.inj hret] at hw
    exact absurd hw (by decide)

theorem runVcpu_decides (hpick : pickedEntry env t0 = some i) (hfirst : FirstUnsettled t0 i) :
    ∀ (rest before : List VcpuExit) (s : ProcState), Alone i t0 s.table →
      env.exits = before ++ rest → (∀ y ∈ before, y.GoesOn) →
      Decides env t0 (GuestHalts env.mmapRun rest) (runVcpu i env.createVcpu env.mmapRun rest)
        s := by
  intro rest
  induction rest with
  | nil =>
      intro before s h _ _
      -- still running: nothing is owed
      refine (Program.wp_exit _).mpr (iff_of_true ?_ .running)
      exact ⟨fun hc => (by cases hc), fun w hw => (by cases hw), fun hw => (by cases hw),
        fun hw => (by cases hw), fun w _ hw => (by cases hw)⟩
  | cons x rest ih =>
      intro before s h hexits hbefore
      apply decides_emit
      refine decides_out (s := s.emit _) hpick h (fun hneg => hneg) (fun hneg hhalts => ?_)
        fun hret => ?_
      · exact not_le.mpr hneg (guestHalts_cons.mp hhalts).1
      refine (Program.wp_bind _ _).mpr ((Program.wp_onlyIf _ _).mpr ⟨fun hmap => ?_,
        fun hmap => ?_⟩)
      · -- `run->exit_reason` is read through MAP_FAILED
        exact (Program.wp_exit _).mpr (iff_of_false (fun hs => hs.survives rfl)
          fun hhalts => (guestHalts_cons.mp hhalts).2.1 hmap)
      have hnext : x.reason.goesOn = true → ∀ u : ProcState, Alone i t0 u.table →
          Decides env t0 (GuestHalts env.mmapRun (x :: rest))
            (runVcpu i env.createVcpu env.mmapRun rest) u := by
        intro hgo u hu
        have hx : x.GoesOn := ⟨not_lt.mp hret, hgo⟩
        have hmore : env.exits = (before ++ [x]) ++ rest := by
          rw [hexits, List.append_assoc]
          rfl
        have hall : ∀ y ∈ before ++ [x], y.GoesOn :=
          List.forall_mem_append.mpr ⟨hbefore, List.forall_mem_singleton.mpr hx⟩
        exact (ih (before ++ [x]) u hu hmore hall).congr (guestHalts_of_goesOn hx hmap)
      cases hreason : x.reason with
      | hlt =>
          apply decides_setXxx (s := s.emit _) h
          rw [if_neg (lt_irrefl _)]
          refine (Program.wp_pure _).mpr (iff_of_true ?_ (.hlt (not_lt.mp hret) hmap hreason))
          exact settles_halted hfirst h hexits hbefore hreason
      | io direction size port count data =>
          have hgo : x.reason.goesOn = true := by rw [hreason]; rfl
          refine (Program.wp_bind _ _).mpr ((Program.wp_onlyIf _ _).mpr ⟨fun _ => ?_, fun _ => ?_⟩)
          · exact (wp_emit _).mpr ⟨trivial, hnext hgo _ h⟩
          · exact hnext hgo _ h
      | failEntry =>
          refine (Program.wp_pure _).mpr (iff_of_false (not_settles
            (u := s.emit _) (v := -1) hpick h (by decide)) ?_)
          exact not_guestHalts_of_ends (Or.inl hreason)
      | internalError =>
          refine (Program.wp_pure _).mpr (iff_of_false (not_settles
            (u := s.emit _) (v := -1) hpick h (by decide)) ?_)
          exact not_guestHalts_of_ends (Or.inr hreason)
      | other reason =>
          exact hnext (by rw [hreason]; rfl) _ h

/-! ### The sections of the body -/

/-- The part from `KVM_CREATE_VCPU` on. -/
theorem startVcpu_decides (hpick : pickedEntry env t0 = some i)
    (hfirst : FirstUnsettled t0 i) (h : Alone i t0 s.table) :
    Decides env t0 (0 ≤ env.createVcpu → 0 ≤ env.vcpuMmapSize → RunsGuest env)
      (startVcpu env i env.createVm) s := by
  apply decides_emit
  refine decides_giveUp (s := s.emit _) hpick h (fun _ => by decide)
    (fun hneg hpos => absurd hpos (not_le.mpr hneg)) fun hvcpu => ?_
  have hset := h.modify (setVcpufd_keepsFlags env.createVcpu)
  apply decides_setXxx (s := s.emit _) h
  apply decides_noErrno hpick hset
  refine decides_giveUp hpick hset (fun _ => by decide)
    (fun hneg _ hpos => absurd hpos (not_le.mpr hneg)) fun hsize => ?_
  -- both failures that are marked are behind us
  have hC : RunsGuest env ↔ (0 ≤ env.createVcpu → 0 ≤ env.vcpuMmapSize → RunsGuest env) :=
    ⟨fun hruns _ _ => hruns, fun hruns => hruns (not_lt.mp hvcpu) (not_lt.mp hsize)⟩
  refine Decides.congr ?_ hC
  refine decides_out hpick hset (fun _ => by decide)
    (fun hsmall hruns => absurd hruns.mmapSize (not_le.mpr hsmall)) fun hsmall => ?_
  refine decides_out hpick hset (fun _ => by decide)
    (fun hnull hruns => hruns.mapped hnull) fun hnull => ?_
  refine decides_out hpick hset (fun hneg => hneg)
    (fun hneg hruns => absurd hruns.getSregs (not_le.mpr hneg)) fun hget => ?_
  apply decides_emit
  refine decides_out hpick hset (fun hneg => hneg)
    (fun hneg hruns => absurd hruns.setSregs (not_le.mpr hneg)) fun hsregs => ?_
  refine decides_reload hpick hset
    (fun hm hruns => Bool.false_ne_true (hm.symm.trans hruns.mallocRegs)) fun hm => ?_
  apply decides_emit
  refine decides_out hpick hset (fun hneg => hneg)
    (fun hneg hruns => absurd hruns.setRegs (not_le.mpr hneg)) fun hregs => ?_
  refine (runVcpu_decides hpick hfirst env.exits [] _ hset rfl
    fun y hy => (by cases hy)).congr ?_
  exact ⟨fun hhalts => ⟨not_lt.mp hsmall, hnull, not_lt.mp hget, not_lt.mp hsregs, hm,
    not_lt.mp hregs, hhalts⟩, fun hruns => hruns.halts⟩

/-- The whole body. -/
theorem processPicked_decides (debugOn : Bool) (hdistinct : t0.Distinct)
    (hpick : pickedEntry env t0 = some i) (hfirst : FirstUnsettled t0 i) :
    Decides env t0 (MarksFailures env (t0.entry i).memory.numRegions)
      (processPicked debugOn env i (t0.entry i)) ⟨t0, []⟩ := by
  have h : Alone i t0 t0 := hfirst.alone
  apply decides_emit
  refine decides_giveUp (s := ProcState.emit ⟨t0, []⟩ _) hpick h (fun _ => by decide)
    (fun hneg hpos => absurd hpos (not_le.mpr hneg)) fun hvm => ?_
  have hset := h.modify (setVmfd_keepsFlags env.createVm)
  apply decides_setXxx (s := ProcState.emit ⟨t0, []⟩ _) h
  apply decides_noErrno hpick hset
  have hmemory := initializeMemoryUuid_alone debugOn env.memory env.createVm hdistinct
    (s := (ProcState.emit ⟨t0, []⟩ (.createVm env.createVm)).modify i (setVmfd env.createVm))
    hset
  refine Program.wp_seq ((Program.wp_call _).mpr hmemory) fun r s hmem => ?_
  obtain ⟨hcur, hsign⟩ := hmem
  have hcount : regionCount ((ProcState.emit ⟨t0, []⟩ (.createVm env.createVm)).modify i
      (setVmfd env.createVm)) i = (t0.entry i).memory.numRegions := by
    unfold regionCount
    rw [procModify_table, modify_entry_same]
    rfl
  rw [hcount] at hsign
  -- a call without an error goes on, also when a layout was missed
  refine decides_giveUp hpick hcur (fun hneg => hneg)
    (fun hneg _ hnone => absurd (hsign.mpr hnone) (not_le.mpr hneg)) fun hpos => ?_
  have hnone := hsign.mp (not_lt.mp hpos)
  have hC : (env.mallocPacket = true ∧ (0 ≤ sendPacket env.bytesWritten →
      env.mallocReload = true ∧ (0 ≤ env.createVcpu → 0 ≤ env.vcpuMmapSize → RunsGuest env))) ↔
      MarksFailures env (t0.entry i).memory.numRegions :=
    ⟨fun hmarks _ _ => hmarks, fun hmarks => hmarks (not_lt.mp hvm) hnone⟩
  refine Decides.congr ?_ hC
  refine decides_reload hpick hcur
    (fun hm hmarks => Bool.false_ne_true (hm.symm.trans hmarks.1)) fun hm => ?_
  apply decides_emit
  refine decides_giveUp (s := s.emit _) hpick hcur (fun hneg => hneg)
    (fun hneg => ⟨hm, fun hsent => absurd hsent (not_le.mpr hneg)⟩) fun hsent => ?_
  refine decides_reload (s := s.emit _) hpick hcur (fun hm' hmarks =>
    Bool.false_ne_true (hm'.symm.trans (hmarks.2 (not_lt.mp hsent)).1)) fun hm' => ?_
  apply (startVcpu_decides (s := s.emit _) hpick hfirst hcur).congr
  exact ⟨fun hvcpu => ⟨hm, fun _ => ⟨hm', hvcpu⟩⟩, fun hmarks =>
    (hmarks.2 (not_lt.mp hsent)).2⟩

end Decides

/-! ## The whole call -/

section Call

variable {env : ProcessEnv} {t : UuidTable}

/-- A bug check before anything is picked owes nothing. -/
theorem settles_bug (hnone : pickedEntry env t = none) (b : BugCheck) (u : ProcState) :
    Settles env t (.bug b) u where
  survives := fun hc => by cases hc
  value := by
    rintro v hv
    obtain rfl := Option.some.inj hv
    exact Or.inr (Or.inr (by decide))
  zero := fun hv => absurd (Option.some.inj hv) (by decide)
  one := fun hv => absurd (Option.some.inj hv) (by decide)
  error := by
    intro _ _ _ i hi
    rw [hnone] at hi
    cases hi

/-- A return of 0 owes that nothing is left. -/
theorem settles_zero_iff (events : List Event) : Settles env t (.returned 0) ⟨t, events⟩ ↔
    ∀ j, 0 ≤ j → j < t.tableNumEntries → Settled (t.entry j) := by
  constructor
  · exact fun h => h.zero rfl
  · intro hall
    refine ⟨fun hc => (by cases hc), fun v hv => ?_, fun _ => hall, fun hv => ?_,
      fun v hneg hv => ?_⟩
    · exact Or.inl (Option.some.inj hv).symm
    · exact absurd (Option.some.inj hv) (by decide)
    · rw [← Option.some.inj hv] at hneg
      exact absurd hneg (lt_irrefl 0)

/-- A call that picks an entry. -/
theorem settlesWhen_of_picked {i : ℤ} (hpick : pickedEntry env t = some i) :
    MarksFailures env (t.entry i).memory.numRegions ↔ SettlesWhen env t := by
  constructor
  · intro hmarks
    refine ⟨fun j hj => ?_, fun _ hpass => ?_⟩
    · obtain rfl := Option.some.inj (hpick.symm.trans hj)
      exact hmarks
    · -- the scan stops at the entry it picks
      obtain ⟨before, behind, hsplit, -, -, hp, hc⟩ := picked_split hpick
      have hover := hpass i (by
        rw [hsplit]
        exact List.mem_append_right _ List.mem_cons_self)
      rcases hover.settled with hdone | hdone
      · exact absurd (hp.symm.trans hdone) Bool.false_ne_true
      · exact absurd (hc.symm.trans hdone) Bool.false_ne_true
  · exact fun h => h.marks i hpick

/-- A call that picks none. -/
theorem settlesWhen_of_none (hnone : pickedEntry env t = none) :
    SettlesWhen env t ↔ (0 ≤ getTableNumEntries t →
      (∀ j ∈ entryIndices (getTableNumEntries t), PassedOver env t j) →
      ∀ j, 0 ≤ j → j < t.tableNumEntries → Settled (t.entry j)) := by
  constructor
  · intro h hcount hpast j hj0 hj
    rcases lt_or_ge j (getTableNumEntries t) with hseen | hbeyond
    · exact (hpast j (mem_entryIndices.mpr ⟨hj0, hseen⟩)).settled
    · exact h.counted hcount hpast j hbeyond hj
  · intro h
    refine ⟨fun i hi => ?_, fun hcount hpast j hbeyond => h hcount hpast j (hcount.trans hbeyond)⟩
    rw [hnone] at hi
    cases hi

/-- The call, from its start. -/
theorem processEntry_decides (debugOn : Bool) (env : ProcessEnv) {t : UuidTable}
    (hdistinct : t.Distinct) :
    Decides env t (SettlesWhen env t) (processEntry debugOn env) ⟨t, []⟩ := by
  refine wp_processEntry debugOn (fun i hi => ?_) (fun hnone hcount hpast => ?_)
    (fun hnone hneg => ?_) fun hnone j hj b hblames => ?_
  · have hbody := processPicked_decides debugOn hdistinct hi (pickedEntry_firstUnsettled hi)
    exact hbody.congr (settlesWhen_of_picked hi)
  · rw [settles_zero_iff, settlesWhen_of_none hnone]
    exact ⟨fun hall _ _ => hall, fun hall => hall hcount hpast⟩
  · rw [settlesWhen_of_none hnone]
    exact iff_of_true (settles_bug hnone _ _) fun hcount => absurd hneg (not_lt.mpr hcount)
  · rw [settlesWhen_of_none hnone]
    refine iff_of_true (settles_bug hnone b _) fun _ hpast => ?_
    exact absurd hblames (hpast j hj).not_blames

end Call

/-- **`process_entry` settles what it picks** exactly when no call fails in a branch that
forgets the mark, and no entry is hidden behind the count. -/
theorem processEntry_settles_iff (debugOn : Bool) (env : ProcessEnv) (t : UuidTable)
    (hdistinct : t.Distinct) :
    Settles env t (runProcessEntry debugOn env t).value
        ((runProcessEntry debugOn env t).final ⟨t, []⟩) ↔ SettlesWhen env t :=
  ((Program.wp_value_iff _).mp (processEntry_decides debugOn env hdistinct)).2

/-- Everything succeeds and the guest halts, but `KVM_GET_SREGS` answers `getSregs`. -/
def sregsEnv (getSregs : ℤ) : ProcessEnv := { okEnv with getSregs := getSregs }

theorem sregsEnv_marks (numRegions : ℤ) : MarksFailures (sregsEnv 0) numRegions := by
  intro _ _
  refine ⟨rfl, fun _ => ⟨rfl, fun _ _ => ?_⟩⟩
  exact ⟨by decide, fun h => (by cases h), le_refl 0, le_refl 0, rfl, le_refl 0,
    .hlt (le_refl 0) (fun h => by cases h) rfl⟩

/-- With nothing in the way the one entry is settled. -/
theorem processEntry_settles_one : Settles (sregsEnv 0) oneEntryTable
    (runProcessEntry true (sregsEnv 0) oneEntryTable).value
    ((runProcessEntry true (sregsEnv 0) oneEntryTable).final ⟨oneEntryTable, []⟩) := by
  refine (processEntry_settles_iff true (sregsEnv 0) oneEntryTable
    oneEntryTable_distinct).mpr ⟨fun i _ => sregsEnv_marks _, fun _ _ j hbeyond hj => ?_⟩
  -- there is no entry beyond the count
  have hone : getTableNumEntries oneEntryTable = oneEntryTable.tableNumEntries := rfl
  exact absurd hj (not_lt.mpr (hone ▸ hbeyond))

/-- `KVM_GET_SREGS` fails, and the entry is left without a mark. -/
theorem sregs_failure_unmarked : ¬ ∀ (debugOn : Bool) (env : ProcessEnv) (t : UuidTable),
    t.Distinct →
    (∀ j, 0 ≤ j → j < t.tableNumEntries →
      ¬ ((t.entry j).processed = true ∧ (t.entry j).couldNotProcess = true)) →
    Settles env t (runProcessEntry debugOn env t).value
      ((runProcessEntry debugOn env t).final ⟨t, []⟩) := by
  intro h
  have hsettles := h true (sregsEnv (-1)) oneEntryTable oneEntryTable_distinct
    fun j _ _ hboth => by cases hboth.1
  have hwhen := ((Program.wp_value_iff _).mp
    (processEntry_decides true (sregsEnv (-1)) oneEntryTable_distinct)).2.mp hsettles
  have hmemory : (sregsEnv (-1)).memory.NoError 0 := by
    refine ⟨rfl, Or.inl ⟨?_, rfl, rfl⟩⟩
    rintro (_ | _ | _)
    · exact ⟨rfl, le_refl 0⟩
    · exact ⟨rfl, le_refl 0⟩
    · exact ⟨rfl, le_refl 0⟩
  have hmarks := hwhen.marks 0 rfl (by decide) hmemory
  have hruns := (hmarks.2 (by decide)).2 (by decide) (by decide)
  exact absurd hruns.getSregs (by decide)

end LxcUio.Server
