import LxcUio.Server.WorkDone

/-!
# The entries served

Through a run of `main` the entries that are processed are the first ones, in the order in
which they were received, and each `process_entry` that returns 1 adds the next of them.

`Serving m` says so at each value of the program counter. A call in progress has stored the
flag before it returns, so in the middle of a call `m` is the number from before it, and what
is said is what the table will be in its last state.
-/

namespace LxcUio.Server

open LxcUio.Foundation

/-- The uuids of the entries that are processed. -/
def servedUuids (t : UuidTable) : List Uuid :=
  ((t.uuidTable.slice 0 t.tableNumEntries).filter UuidTableEntry.processed).map
    UuidTableEntry.uuid

/-- The uuid of the entry that a step of `main` finishes: `process_entry` returned 1, and the
last entry processed is the one it ran. -/
def finishedUuid (s : MainState) : MainLabel → Option Uuid
  | .processReturn =>
      match s.pc with
      | .inProcess _ [] (.returned ret) =>
          if ret = 1 then (servedUuids s.table).getLast? else none
      | _ => none
  | _ => none

/-- `m` entries are served. -/
def Serving (m : ℤ) (t : UuidTable) : Pc → Prop
  | .drain => Progress m t
  | .process _ => Progress m t
  | .inProcess _ todo (.returned ret) => 0 ≤ ret → Progress (m + ret) (todo.getLastD t)
  | .inProcess _ _ _ => True
  | .select => Progress m t
  | .getNew => Progress m t
  | .readEventfd => Progress m t
  | .outTable => True
  | .outDeregister => True
  | .outEfd => True
  | .returned => True
  | .killed => True
  | _ => m = 0

/-! ## What is served are the first entries -/

theorem filter_processed {t : UuidTable} {m : ℤ} (h : Progress m t) :
    (t.uuidTable.slice 0 t.tableNumEntries).filter UuidTableEntry.processed =
      t.uuidTable.slice 0 m := by
  have hdone : (t.uuidTable.slice 0 m).filter UuidTableEntry.processed =
      t.uuidTable.slice 0 m := by
    apply List.filter_eq_self.mpr
    intro e he
    obtain ⟨j, h0, hj, rfl⟩ := HeapArray.mem_slice.mp he
    exact (h.done j h0 hj).1
  have htodo : (t.uuidTable.slice m t.tableNumEntries).filter UuidTableEntry.processed = [] := by
    apply List.filter_eq_nil_iff.mpr
    intro e he
    obtain ⟨j, hm, hj, rfl⟩ := HeapArray.mem_slice.mp he
    have hclear := (h.todo j hm hj).1
    change (t.uuidTable.cells j).processed = false at hclear
    rw [hclear]
    exact Bool.false_ne_true
  rw [HeapArray.slice_append _ h.nonneg h.le_num, List.filter_append, hdone, htodo,
    List.append_nil]

theorem servedUuids_eq {t : UuidTable} {m : ℤ} {popped : List Uuid} (ht : Holds popped t)
    (h : Progress m t) : servedUuids t = popped.take m.toNat := by
  have hlength : ((t.uuidTable.slice 0 m).map UuidTableEntry.uuid).length = m.toNat := by
    rw [List.length_map, HeapArray.length_slice, sub_zero]
  rw [servedUuids, filter_processed h, ← ht.uuids,
    HeapArray.slice_append _ h.nonneg h.le_num, List.map_append, ← hlength, List.take_left]

/-- When one more entry is served, the last uuid served is its uuid. -/
theorem getLast_servedUuids {t : UuidTable} {m : ℤ} {popped : List Uuid} (ht : Holds popped t)
    (h0 : 0 ≤ m) (h : Progress (m + 1) t) :
    ∃ uuid, (servedUuids t).getLast? = some uuid ∧ popped[m.toNat]? = some uuid := by
  have hnum := ht.num_eq
  have hle := h.le_num
  have hlt : m.toNat < popped.length := by omega
  have hsucc : (m + 1).toNat = m.toNat + 1 := by omega
  refine ⟨popped[m.toNat], ?_, List.getElem?_eq_getElem hlt⟩
  rw [servedUuids_eq ht h, hsucc, List.take_add_one, List.getElem?_eq_getElem hlt]
  exact List.getLast?_concat ..

/-! ## What a step of `main` serves -/

/-- The call that is about to begin. -/
theorem CallDoes.serving {env : ProcessEnv} {t0 t : UuidTable} {m ret : ℤ} (hm : Progress m t0)
    (h : CallDoes env t0 (.returned ret) t) (hret : 0 ≤ ret) : Progress (m + ret) t := by
  rcases h.returned_cases with ⟨rfl, rfl, -⟩ | ⟨rfl, i, hfirst, htouch, hp, hc⟩ | hneg
  · rw [add_zero]
    exact hm
  · obtain rfl := hm.eq_of_firstUnsettled hfirst
    exact Ended.progress hm hfirst htouch hp hc
  · exact absurd hret (not_le.mpr hneg)

theorem Serving.disturb {popped : List Uuid} {t : UuidTable} {m : ℤ} {pc : Pc}
    (hpc : ∀ site todo result, pc ≠ .inProcess site todo result) (hat : AtPc popped t pc)
    (h : Serving m t pc) (mem : ℤ → UuidTableEntry) :
    Serving m { t with uuidTable := t.uuidTable.disturb mem } pc := by
  cases pc with
  | drain => exact Progress.disturb hat.1 h mem
  | process site => exact Progress.disturb hat.1 h mem
  | inProcess site todo result => exact absurd rfl (hpc site todo result)
  | select => exact Progress.disturb hat.1 h mem
  | getNew => exact Progress.disturb hat.1 h mem
  | readEventfd => exact Progress.disturb hat.1 h mem
  | _ => exact h

/-- Without a return of `process_entry` the number served stays. -/
theorem serving_same {debugOn : Bool} {s t : MainState} {l : MainLabel} {m : ℤ}
    (hl : l ≠ .processReturn) (hmain : MainInv s) (h : Serving m s.table s.pc)
    (hg : InPlaceRuns s l) (hs : mainStep debugOn s l = some t) : Serving m t.table t.pc := by
  have hat := hmain.atPc
  cases mainStep_move hs with
  | majorNumber hpc hret =>
      rw [hpc] at h
      exact h
  | kvm hpc hfd =>
      rw [hpc] at h
      exact h
  | extension hpc hret =>
      rw [hpc] at h
      exact h
  | eventfd hpc hfd =>
      rw [hpc] at h
      exact h
  | cdev hpc hfd =>
      rw [hpc] at h
      exact h
  | registered hpc hret =>
      rw [hpc] at h
      exact h
  | tableInit hpc hret =>
      obtain ⟨hnull, hsize, -⟩ := hmain.before (by rw [hpc]; rfl)
      obtain ⟨-, -, hm⟩ := tableInit_holds hnull hsize hg.1.1
      rw [hpc] at h
      obtain rfl : m = 0 := h
      exact hm
  | @drained ioctlRet uuid env hpc =>
      rw [hpc] at h hat
      rcases received_inv hg hat.1 h with ⟨rfl, hret, -, -, hm⟩ | ⟨-, hsame⟩
      · rw [MainState.drained, if_pos (by omega)]
        show Serving m (s.received 1 uuid env).table s.pc
        rw [hpc]
        exact hm
      · rw [hsame, MainState.drained]
        split
        · show Serving m s.table s.pc
          rw [hpc]
          exact h
        · split
          · exact h
          · trivial
  | @callProcess site env hpc =>
      rw [hpc] at h hat
      obtain ⟨-, hdoes⟩ := runProcessEntry_does debugOn env hat.1.countFits
      show Serving m s.table (.inProcess site _ (runProcessEntry debugOn env s.table).value)
      cases hvalue : (runProcessEntry debugOn env s.table).value with
      | returned ret =>
          rw [hvalue] at hdoes
          exact fun hret => hdoes.serving h hret
      | _ => trivial
  | @processStep site u todo result hpc =>
      rw [hpc] at h
      cases result with
      | returned ret =>
          intro hret
          have hlast := h hret
          rwa [List.getLastD_cons] at hlast
      | _ => trivial
  | processReturn => exact absurd rfl hl
  | bug => exact absurd rfl hl
  | crashed => exact absurd rfl hl
  | readable hpc hret =>
      rw [hpc] at h
      exact h
  | @notReadable ret hpc hret =>
      show Serving m s.table s.pc
      exact h
  | @woken ioctlRet uuid env hpc =>
      rw [hpc] at h hat
      rcases received_inv hg hat.1 h with ⟨rfl, hret, -, -, hm⟩ | ⟨-, hsame⟩
      · rw [MainState.woken, if_neg (by omega), if_pos hret]
        exact hm
      · rw [hsame, MainState.woken]
        split
        · trivial
        · split
          · exact h
          · split <;> trivial
  | eventfdRead hpc =>
      rw [hpc] at h
      exact h
  | scribble hpc => exact h.disturb hpc hat _
  | _ => trivial

/-- After an answer that is not positive, what is served stays. -/
theorem serving_processed {s : MainState} {site : Site} {ret : ℤ} {m : ℤ} (hret : ret ≤ 0)
    (h : 0 ≤ ret → Progress (m + ret) s.table) :
    Serving m (s.processed site ret).table (s.processed site ret).pc := by
  have hpos : ¬ ret > 0 := not_lt.mpr hret
  by_cases hzero : ret = 0
  · have hm := h (le_of_eq hzero.symm)
    rw [hzero, add_zero] at hm
    subst hzero
    cases site with
    | first => exact hm
    | event => trivial
  · have hneg : ret < 0 := lt_of_le_of_ne hret hzero
    have hone : ¬ ret = 1 := by omega
    cases site with
    | first =>
        simp only [MainState.processed, if_neg hpos, if_neg hzero, if_pos hneg]
        trivial
    | event =>
        simp only [MainState.processed, if_neg hone, if_neg hzero, if_pos hneg]
        trivial

/-- **What a step serves**: nothing, or the next of the entries received. -/
theorem serving_step {debugOn : Bool} {s t : MainState} {l : MainLabel} {m : ℤ} (h0 : 0 ≤ m)
    (hmain : MainInv s) (h : Serving m s.table s.pc) (hg : InPlaceRuns s l)
    (hs : mainStep debugOn s l = some t) :
    (finishedUuid s l = none ∧ Serving m t.table t.pc) ∨
      ∃ uuid, finishedUuid s l = some uuid ∧ s.popped[m.toNat]? = some uuid ∧
        Serving (m + 1) t.table t.pc := by
  by_cases hl : l = .processReturn
  · subst hl
    have hat := hmain.atPc
    cases mainStep_move hs with
    | @processReturn site ret hpc =>
        rw [hpc] at h hat
        obtain ⟨env, t0, -, ht0, -, hduring, -, hdoes⟩ := hat
        have hfinished : finishedUuid s .processReturn =
            if ret = 1 then (servedUuids s.table).getLast? else none := by
          simp only [finishedUuid, hpc]
        rw [hfinished]
        by_cases hone : ret = 1
        · subst hone
          right
          have hm : Progress (m + 1) s.table := h Int.one_nonneg
          obtain ⟨uuid, hlast, hget⟩ :=
            getLast_servedUuids (hduring.frame.holds ht0) h0 hm
          refine ⟨uuid, hlast, hget, ?_⟩
          cases site with
          | first => exact hm
          | event => exact hm
        · left
          refine ⟨if_neg hone, serving_processed ?_ h⟩
          rcases hdoes.returned_cases with ⟨hzero, -⟩ | ⟨hret, -⟩ | hneg
          · exact le_of_eq hzero
          · exact absurd hret hone
          · exact le_of_lt hneg
    | @bug site b hpc =>
        left
        refine ⟨by simp only [finishedUuid, hpc], ?_⟩
        exact serving_processed (by decide) fun hneg => absurd hneg (by decide)
    | @crashed site hpc => exact Or.inl ⟨by simp only [finishedUuid, hpc], trivial⟩
  · left
    refine ⟨?_, serving_same hl hmain h hg hs⟩
    cases l with
    | processReturn => exact absurd rfl hl
    | _ => rfl

end LxcUio.Server
