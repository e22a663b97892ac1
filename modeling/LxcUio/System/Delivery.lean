import LxcUio.Foundation.LabelledRun
import LxcUio.Proxy.Cdev

/-!
# Delivery of pending modules to many clients

Any number of clients issue `kvm_host_server_get_pending_module`, interleaved with
each other and with puts. The atomic steps are the sections of `table_mutex` and
the `copy_to_user` between them; the read of `mt->uuid` goes with the pop before
it. `returned` records the entries that an ioctl returned with value 1.

The ledger `Ledger` says that every entry the cursor has passed is accounted for
exactly once: it was returned, or one ioctl still holds it. `table_pop_reverse`
moves the cursor back by one, whichever entry the failing client held, so the
ledger survives it only when that entry is the one the cursor stands on, and not
entry 0, where the cursor stays.
-/

namespace LxcUio.System

open LxcUio.Foundation LxcUio.Proxy

/-! ## The system -/

/-- Where a client stands in the ioctl. -/
inductive ClientPhase where
  | idle
  | holds (i : ℤ) (uuid : Uuid)
  | copyFailed (i : ℤ) (retval : ℤ)
  | oopsed

/-- The entry that a client popped and has not finished with. -/
def ClientPhase.entry : ClientPhase → Option ℤ
  | .holds i _ => some i
  | .copyFailed i _ => some i
  | .idle => none
  | .oopsed => none

@[simp] theorem entry_idle : ClientPhase.idle.entry = none := rfl

@[simp] theorem entry_oopsed : ClientPhase.oopsed.entry = none := rfl

@[simp] theorem entry_holds (i : ℤ) (uuid : Uuid) :
    (ClientPhase.holds i uuid).entry = some i := rfl

@[simp] theorem entry_copyFailed (i retval : ℤ) :
    (ClientPhase.copyFailed i retval).entry = some i := rfl

structure DeliveryState where
  table : ModuleTable
  client : ℕ → ClientPhase
  returned : List (ℤ × Uuid)

inductive DeliveryLabel where
  | put (mt : ModuleTableStruct) (krealloc : Option (ℤ → ModuleTableStruct))
  | pop (c : ℕ)
  | copy (c : ℕ) (notCopied : ℕ)
  | unpop (c : ℕ)

/-- The proxy after a successful `table_init`, no client in the ioctl. -/
def DeliveryState.init (mem kmem : ℤ → ModuleTableStruct) : DeliveryState :=
  ⟨(UsableTable.fresh mem kmem).table, fun _ => .idle, []⟩

def deliveryStep (s : DeliveryState) : DeliveryLabel → Option DeliveryState
  | .put mt krealloc => some { s with table := (tablePut s.table mt krealloc).2 }
  | .pop c =>
      match s.client c with
      | .idle =>
          match popEntry s.table with
          | (.noEntry, t) => some { s with table := t }
          | (.oops, t) =>
              some { s with table := t, client := Function.update s.client c .oopsed }
          | (.entry i uuid, t) =>
              some { s with
                table := t
                client := Function.update s.client c (.holds i uuid) }
      | _ => none
  | .copy c notCopied =>
      match s.client c with
      | .holds i uuid =>
          if notCopied = 0 then
            some { s with
              client := Function.update s.client c .idle
              returned := (i, uuid) :: s.returned }
          else
            some { s with
              client := Function.update s.client c
                (.copyFailed i (copiedRetval notCopied)) }
      | _ => none
  | .unpop c =>
      match s.client c with
      | .copyFailed _ _ =>
          some { s with
            table := (tablePopReverse s.table).2
            client := Function.update s.client c .idle }
      | _ => none

/-- The indices of the entries returned so far. -/
def DeliveryState.delivered (s : DeliveryState) : List ℤ := s.returned.map Prod.fst

/-- **Exactly once**: no entry was returned by two ioctls, and every entry the
cursor has passed was returned or is held by an ioctl that has not finished. -/
structure ExactlyOnce (s : DeliveryState) : Prop where
  once : s.delivered.Nodup
  accounted : ∀ i, 0 ≤ i → i ≤ s.table.tableIndex →
    i ∈ s.delivered ∨ ∃ c, (s.client c).entry = some i

/-- The guard: `table_pop` takes an entry only from an allocated table, and a
failed client calls `table_pop_reverse` only while the cursor stands on the entry
it popped, which is not the first entry of the table. -/
def DeliveryGuard (s : DeliveryState) : DeliveryLabel → Prop
  | .pop _ => s.table.Pending → s.table.moduleTable.isNull = false
  | .unpop c => ∀ i, (s.client c).entry = some i →
      s.table.tableIndex = i ∧ i ≠ 0
  | .put _ _ => True
  | .copy _ _ => True

/-! ## The ledger -/

structure Ledger (s : DeliveryState) : Prop where
  sound : s.table.Sound
  once : s.delivered.Nodup
  delivered_le : ∀ i ∈ s.delivered, 0 ≤ i ∧ i ≤ s.table.tableIndex
  held_le : ∀ c i, (s.client c).entry = some i → 0 ≤ i ∧ i ≤ s.table.tableIndex
  held_once : ∀ c d i, (s.client c).entry = some i → (s.client d).entry = some i →
    c = d
  held_fresh : ∀ c i, (s.client c).entry = some i → i ∉ s.delivered
  accounted : ∀ i, 0 ≤ i → i ≤ s.table.tableIndex →
    i ∈ s.delivered ∨ ∃ c, (s.client c).entry = some i

theorem Ledger.exactlyOnce {s : DeliveryState} (h : Ledger s) : ExactlyOnce s :=
  ⟨h.once, h.accounted⟩

theorem init_ledger (mem kmem : ℤ → ModuleTableStruct) :
    Ledger (DeliveryState.init mem kmem) where
  sound := (UsableTable.fresh mem kmem).sound
  once := List.nodup_nil
  delivered_le := fun _ hi => absurd hi List.not_mem_nil
  held_le := fun _ _ hc => by cases hc
  held_once := fun _ _ _ hc => by cases hc
  held_fresh := fun _ _ hc => by cases hc
  accounted := by
    intro i h0 hi
    have : i ≤ -1 := hi
    omega

/-- A client that moves on without touching its entry leaves every entry where it
was. -/
theorem entry_update {f : ℕ → ClientPhase} {c d : ℕ} {p : ClientPhase} :
    (Function.update f c p d).entry = if d = c then p.entry else (f d).entry := by
  by_cases h : d = c
  · subst h
    simp
  · simp [h]

/-- The table may grow and lose its memory: the ledger reads the cursor only. -/
theorem Ledger.of_table {s : DeliveryState} (h : Ledger s) {t : ModuleTable}
    (hsound : t.Sound) (hindex : t.tableIndex = s.table.tableIndex) :
    Ledger { s with table := t } where
  sound := hsound
  once := h.once
  delivered_le := fun i hi => by
    have := h.delivered_le i hi
    show 0 ≤ i ∧ i ≤ t.tableIndex
    omega
  held_le := fun c i hc => by
    have := h.held_le c i hc
    show 0 ≤ i ∧ i ≤ t.tableIndex
    omega
  held_once := h.held_once
  held_fresh := h.held_fresh
  accounted := fun i h0 hi => h.accounted i h0 (by
    have : i ≤ t.tableIndex := hi
    omega)

theorem tablePut_index (t : ModuleTable) (mt : ModuleTableStruct)
    (krealloc : Option (ℤ → ModuleTableStruct)) :
    (tablePut t mt krealloc).2.tableIndex = t.tableIndex := by
  unfold tablePut
  split
  · rfl
  · split
    · rfl
    · split
      · cases krealloc <;> rfl
      · rfl

/-- A pop moves the cursor onto the entry and gives it to one client. -/
theorem Ledger.popped {s : DeliveryState} (h : Ledger s) {c : ℕ}
    (hc : (s.client c).entry = none) (hp : s.table.Pending) (uuid : Uuid) :
    Ledger { s with
      table := { s.table with tableIndex := s.table.tableIndex + 1 }
      client := Function.update s.client c (.holds (s.table.tableIndex + 1) uuid) }
    where
  sound := by
    have hs := tablePop_sound h.sound
    rwa [tablePop_of_pending hp] at hs
  once := h.once
  delivered_le := fun i hi => by
    have := h.delivered_le i hi
    show 0 ≤ i ∧ i ≤ s.table.tableIndex + 1
    omega
  held_le := by
    intro d i hd
    have hge := h.sound.index_ge
    simp only [entry_update, entry_holds] at hd
    show 0 ≤ i ∧ i ≤ s.table.tableIndex + 1
    split at hd
    · obtain rfl : s.table.tableIndex + 1 = i := Option.some.inj hd
      omega
    · have := h.held_le d i hd
      omega
  held_once := by
    intro d e i hd he
    simp only [entry_update, entry_holds] at hd he
    split at hd <;> split at he
    · simp_all
    · have hnew : s.table.tableIndex + 1 = i := Option.some.inj hd
      have := (h.held_le e i he).2
      omega
    · have hnew : s.table.tableIndex + 1 = i := Option.some.inj he
      have := (h.held_le d i hd).2
      omega
    · exact h.held_once d e i hd he
  held_fresh := by
    intro d i hd hmem
    simp only [entry_update, entry_holds] at hd
    split at hd
    · have hnew : s.table.tableIndex + 1 = i := Option.some.inj hd
      have := (h.delivered_le i hmem).2
      omega
    · exact h.held_fresh d i hd hmem
  accounted := by
    intro i h0 hi
    have hi' : i ≤ s.table.tableIndex + 1 := hi
    by_cases hlast : i = s.table.tableIndex + 1
    · exact Or.inr ⟨c, by simp [hlast]⟩
    · rcases h.accounted i h0 (by omega) with hmem | ⟨d, hd⟩
      · exact Or.inl hmem
      · refine Or.inr ⟨d, ?_⟩
        have hdc : d ≠ c := by
          rintro rfl
          rw [hc] at hd
          cases hd
        simpa [entry_update, hdc] using hd

/-- A successful copy hands the entry over. -/
theorem Ledger.returned {s : DeliveryState} (h : Ledger s) {c : ℕ} {i : ℤ}
    (hc : (s.client c).entry = some i) (uuid : Uuid) :
    Ledger { s with
      client := Function.update s.client c .idle
      returned := (i, uuid) :: s.returned } where
  sound := h.sound
  once := List.nodup_cons.mpr ⟨h.held_fresh c i hc, h.once⟩
  delivered_le := by
    intro j hj
    rcases List.mem_cons.mp hj with rfl | hj
    · exact h.held_le c _ hc
    · exact h.delivered_le j hj
  held_le := by
    intro d j hd
    simp only [entry_update, entry_idle] at hd
    split at hd
    · cases hd
    · exact h.held_le d j hd
  held_once := by
    intro d e j hd he
    simp only [entry_update, entry_idle] at hd he
    split at hd
    · cases hd
    · split at he
      · cases he
      · exact h.held_once d e j hd he
  held_fresh := by
    intro d j hd hmem
    simp only [entry_update, entry_idle] at hd
    split at hd
    · cases hd
    · rename_i hdc
      rcases List.mem_cons.mp hmem with rfl | hmem
      · exact hdc (h.held_once d c _ hd hc)
      · exact h.held_fresh d j hd hmem
  accounted := by
    intro j h0 hj
    rcases h.accounted j h0 hj with hmem | ⟨d, hd⟩
    · exact Or.inl (List.mem_cons_of_mem _ hmem)
    · by_cases hdc : d = c
      · subst hdc
        obtain rfl : i = j := Option.some.inj (hc.symm.trans hd)
        exact Or.inl List.mem_cons_self
      · exact Or.inr ⟨d, by simpa [entry_update, hdc] using hd⟩

/-- A failed copy leaves the entry with its client. -/
theorem Ledger.copyFailed {s : DeliveryState} (h : Ledger s) {c : ℕ} {i : ℤ}
    (hc : (s.client c).entry = some i) (retval : ℤ) :
    Ledger { s with client := Function.update s.client c (.copyFailed i retval) } := by
  have hsame : ∀ d, (Function.update s.client c (.copyFailed i retval) d).entry =
      (s.client d).entry := by
    intro d
    rw [entry_update]
    split
    · rename_i hdc
      rw [hdc, hc]
      rfl
    · rfl
  exact
    { sound := h.sound
      once := h.once
      delivered_le := h.delivered_le
      held_le := fun d j hd => h.held_le d j ((hsame d).symm.trans hd)
      held_once := fun d e j hd he =>
        h.held_once d e j ((hsame d).symm.trans hd) ((hsame e).symm.trans he)
      held_fresh := fun d j hd => h.held_fresh d j ((hsame d).symm.trans hd)
      accounted := fun j h0 hj => by
        rcases h.accounted j h0 hj with hmem | ⟨d, hd⟩
        · exact Or.inl hmem
        · exact Or.inr ⟨d, (hsame d).trans hd⟩ }

/-- The un-pop of the entry the cursor stands on makes it pending again. -/
theorem Ledger.unpopped {s : DeliveryState} (h : Ledger s) {c : ℕ} {i : ℤ}
    (hc : (s.client c).entry = some i) (hi : s.table.tableIndex = i) (h0 : i ≠ 0) :
    Ledger { s with
      table := (tablePopReverse s.table).2
      client := Function.update s.client c .idle } := by
  have hnonneg := (h.held_le c i hc).1
  have hindex : (tablePopReverse s.table).2.tableIndex = s.table.tableIndex - 1 := by
    have : ¬ s.table.tableIndex ≤ 0 := by omega
    simp [tablePopReverse, this]
  refine
    { sound := tablePopReverse_sound h.sound
      once := h.once
      delivered_le := ?_
      held_le := ?_
      held_once := ?_
      held_fresh := ?_
      accounted := ?_ }
  · intro j hj
    have hle := h.delivered_le j hj
    have hne : j ≠ i := by
      rintro rfl
      exact h.held_fresh c _ hc hj
    rw [hindex]
    omega
  · intro d j hd
    simp only [entry_update, entry_idle] at hd
    split at hd
    · cases hd
    · rename_i hdc
      have hle := h.held_le d j hd
      have hne : j ≠ i := by
        rintro rfl
        exact hdc (h.held_once d c _ hd hc)
      rw [hindex]
      omega
  · intro d e j hd he
    simp only [entry_update, entry_idle] at hd he
    split at hd
    · cases hd
    · split at he
      · cases he
      · exact h.held_once d e j hd he
  · intro d j hd
    simp only [entry_update, entry_idle] at hd
    split at hd
    · cases hd
    · exact h.held_fresh d j hd
  · intro j hj0 hj
    rw [hindex] at hj
    rcases h.accounted j hj0 (by omega) with hmem | ⟨d, hd⟩
    · exact Or.inl hmem
    · refine Or.inr ⟨d, ?_⟩
      have hdc : d ≠ c := by
        rintro rfl
        obtain rfl : i = j := Option.some.inj (hc.symm.trans hd)
        omega
      simpa [entry_update, hdc] using hd

/-! ## Guarded steps keep the ledger -/

theorem ledger_step (s : DeliveryState) (a : DeliveryLabel) (t : DeliveryState)
    (h : Ledger s) (hg : DeliveryGuard s a) (hs : deliveryStep s a = some t) :
    Ledger t := by
  cases a with
  | put mt krealloc =>
      obtain rfl := Option.some.inj hs
      exact h.of_table (tablePut_sound h.sound mt krealloc)
        (tablePut_index s.table mt krealloc)
  | pop c =>
      cases hc : s.client c with
      | idle =>
          by_cases hp : s.table.Pending
          · simp only [deliveryStep, hc, popEntry_pending hp (hg hp)] at hs
            obtain rfl := Option.some.inj hs
            exact h.popped (by rw [hc]; rfl) hp _
          · simp only [deliveryStep, hc, popEntry_not_pending hp] at hs
            obtain rfl := Option.some.inj hs
            exact h
      | holds i uuid => simp [deliveryStep, hc] at hs
      | copyFailed i retval => simp [deliveryStep, hc] at hs
      | oopsed => simp [deliveryStep, hc] at hs
  | copy c notCopied =>
      cases hc : s.client c with
      | holds i uuid =>
          have hentry : (s.client c).entry = some i := by rw [hc]; rfl
          by_cases hn : notCopied = 0
          · simp only [deliveryStep, hc, hn, if_true] at hs
            obtain rfl := Option.some.inj hs
            exact h.returned hentry uuid
          · simp only [deliveryStep, hc, hn, if_false] at hs
            obtain rfl := Option.some.inj hs
            exact h.copyFailed hentry _
      | idle => simp [deliveryStep, hc] at hs
      | copyFailed i retval => simp [deliveryStep, hc] at hs
      | oopsed => simp [deliveryStep, hc] at hs
  | unpop c =>
      cases hc : s.client c with
      | copyFailed i retval =>
          have hentry : (s.client c).entry = some i := by rw [hc]; rfl
          simp only [deliveryStep, hc] at hs
          obtain rfl := Option.some.inj hs
          exact h.unpopped hentry (hg i hentry).1 (hg i hentry).2
      | idle => simp [deliveryStep, hc] at hs
      | holds i uuid => simp [deliveryStep, hc] at hs
      | oopsed => simp [deliveryStep, hc] at hs

/-! ## A step outside the guard loses an entry -/

/-- On a NULL table the pop moves the cursor over an entry nobody gets. -/
theorem pop_null_loses {s t : DeliveryState} {c : ℕ} (h : Ledger s)
    (hp : s.table.Pending) (hnull : s.table.moduleTable.isNull = true)
    (hs : deliveryStep s (.pop c) = some t) : ¬ ExactlyOnce t := by
  intro hex
  have hge := h.sound.index_ge
  obtain ⟨htable, hret⟩ := popEntry_null hp hnull
  have hfacts : t.table.tableIndex = s.table.tableIndex + 1 ∧
      t.delivered = s.delivered ∧
      ∀ d i, (t.client d).entry = some i → (s.client d).entry = some i := by
    cases hc : s.client c with
    | idle =>
        rcases hret with hret | hret
        · have hpop : popEntry s.table =
              (.noEntry, { s.table with tableIndex := s.table.tableIndex + 1 }) :=
            Prod.ext hret htable
          simp only [deliveryStep, hc, hpop] at hs
          obtain rfl := Option.some.inj hs
          exact ⟨rfl, rfl, fun _ _ hd => hd⟩
        · have hpop : popEntry s.table =
              (.oops, { s.table with tableIndex := s.table.tableIndex + 1 }) :=
            Prod.ext hret htable
          simp only [deliveryStep, hc, hpop] at hs
          obtain rfl := Option.some.inj hs
          refine ⟨rfl, rfl, fun d i hd => ?_⟩
          simp only [entry_update, entry_oopsed] at hd
          split at hd
          · cases hd
          · exact hd
    | holds i uuid => simp [deliveryStep, hc] at hs
    | copyFailed i retval => simp [deliveryStep, hc] at hs
    | oopsed => simp [deliveryStep, hc] at hs
  obtain ⟨hindex, hdeliv, hheld⟩ := hfacts
  rcases hex.accounted (s.table.tableIndex + 1) (by omega) (by omega) with hmem | ⟨d, hd⟩
  · rw [hdeliv] at hmem
    have := (h.delivered_le _ hmem).2
    omega
  · have := (h.held_le d _ (hheld d _ hd)).2
    omega

/-- An un-pop by a client whose entry is not under the cursor, or is the first
entry, leaves that entry behind the cursor with nobody to hand it out. -/
theorem unpop_loses {s t : DeliveryState} {c : ℕ} {i : ℤ} (h : Ledger s)
    (hc : (s.client c).entry = some i)
    (hbad : ¬ (s.table.tableIndex = i ∧ i ≠ 0))
    (hs : deliveryStep s (.unpop c) = some t) : ¬ ExactlyOnce t := by
  intro hex
  obtain ⟨h0, hle⟩ := h.held_le c i hc
  have hfacts : i ≤ t.table.tableIndex ∧ t.delivered = s.delivered ∧
      ∀ d j, (t.client d).entry = some j → d ≠ c ∧ (s.client d).entry = some j := by
    cases hcl : s.client c with
    | copyFailed j retval =>
        simp only [deliveryStep, hcl] at hs
        obtain rfl := Option.some.inj hs
        refine ⟨?_, rfl, fun d j hd => ?_⟩
        · show i ≤ (tablePopReverse s.table).2.tableIndex
          unfold tablePopReverse
          split
          · exact hle
          · show i ≤ s.table.tableIndex - 1
            omega
        · simp only [entry_update, entry_idle] at hd
          split at hd
          · cases hd
          · rename_i hdc
            exact ⟨hdc, hd⟩
    | idle => simp [deliveryStep, hcl] at hs
    | holds j uuid => simp [deliveryStep, hcl] at hs
    | oopsed => simp [deliveryStep, hcl] at hs
  obtain ⟨hindex, hdeliv, hheld⟩ := hfacts
  rcases hex.accounted i h0 hindex with hmem | ⟨d, hd⟩
  · rw [hdeliv] at hmem
    exact h.held_fresh c i hc hmem
  · obtain ⟨hdc, hd'⟩ := hheld d i hd
    exact hdc (h.held_once d c i hd' hc)

theorem unguarded_loses (s : DeliveryState) (a : DeliveryLabel) (t : DeliveryState)
    (h : Ledger s) (hg : ¬ DeliveryGuard s a) (hs : deliveryStep s a = some t) :
    ¬ ExactlyOnce t := by
  cases a with
  | put mt krealloc => exact absurd trivial hg
  | copy c notCopied => exact absurd trivial hg
  | pop c =>
      simp only [DeliveryGuard, Classical.not_imp] at hg
      exact pop_null_loses h hg.1 (by simpa using hg.2) hs
  | unpop c =>
      simp only [DeliveryGuard, not_forall] at hg
      obtain ⟨i, hc, hbad⟩ := hg
      exact unpop_loses h hc hbad hs

/-- **Delivery is exactly once in a run iff the run keeps to the guard.** The runs
are all interleavings of puts and of the ioctls of any number of clients, with any
outcome of the copies and of `krealloc`, from a freshly loaded proxy. -/
theorem exactlyOnce_iff_guarded (mem kmem : ℤ → ModuleTableStruct)
    (run : List DeliveryLabel) :
    StatesMeet deliveryStep ExactlyOnce (DeliveryState.init mem kmem) run ↔
      StepsMeet deliveryStep DeliveryGuard (DeliveryState.init mem kmem) run :=
  statesMeet_iff_stepsMeet (fun _ h => h.exactlyOnce) ledger_step unguarded_loses
    run _ (init_ledger mem kmem)

/-- The copy of the very first module fails: `table_pop_reverse` refuses to move
the cursor below 0, and the module is lost. -/
theorem first_copy_failure_loses_module :
    ¬ ∀ (mem kmem : ℤ → ModuleTableStruct) (run : List DeliveryLabel),
      StatesMeet deliveryStep ExactlyOnce (DeliveryState.init mem kmem) run := by
  intro hall
  have hrun := hall (fun _ => default) (fun _ => default)
    [.put default none, .pop 0, .copy 0 16, .unpop 0]
  have hlast := (((hrun.2 _ rfl).2 _ rfl).2 _ rfl).2 _ rfl
  rcases hlast.accounted 0 (by decide) (by decide) with hmem | ⟨c, hc⟩
  · exact absurd hmem (by decide)
  · change (Function.update (Function.update (Function.update
      (fun _ => ClientPhase.idle) 0 (.holds 0 0)) 0 (.copyFailed 0 (-16))) 0
      ClientPhase.idle c).entry = some 0 at hc
    by_cases h : c = 0 <;> simp [h] at hc

/-- Two overlapping ioctls, the earlier copy fails: entry 2 is handed out twice. -/
example : (exec deliveryStep (DeliveryState.init (fun _ => default) fun _ => default)
    [.put default none, .put default none, .put default none,
      .pop 0, .copy 0 0, .pop 1, .pop 2, .copy 1 16, .unpop 1, .copy 2 0,
      .pop 3, .copy 3 0]).map DeliveryState.delivered = some [2, 2, 0] := by
  decide

end LxcUio.System
