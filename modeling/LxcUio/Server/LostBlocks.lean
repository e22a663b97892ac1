import LxcUio.Server.HeapRuns
import LxcUio.Server.Serving

/-!
# What the lost blocks add up to

The scan of `process_entry` makes a copy of each entry and frees the last one only. A call that
serves the entry at index `m` has passed over `m` entries, and so loses that many copies and the
one it picked. Over a run of `main` in which nothing fails that is a sum of all numbers up to
the number of modules served; the buffers of the layouts and the arrays of the errors come on
top of it.

`soon` is 1 while the call that serves the next entry is being shown: its blocks are counted
when it is called, and the entry when it returns.
-/

namespace LxcUio.Server.Heap

open LxcUio.Foundation HeapProgram

/-! ## One call -/

section Call

variable {debugOn : Bool} {env : ProcessEnv} {i : ℤ} {s : ProcState}

theorem scanLost_picked : ∀ {is : List ℤ}, picked env s.table is = some i →
    ∃ before behind, is = before ++ i :: behind ∧
      scanLost debugOn env s is = before.length + pickedLost debugOn env i s := by
  intro is
  induction is with
  | nil =>
      intro h
      cases h
  | cons j is ih =>
      intro h
      unfold picked at h
      unfold scanLost
      cases hcopy : Server.tableEntryAtIndexCopy s.table j (env.mallocScan j) with
      | none =>
          rw [hcopy] at h
          cases h
      | some ptr =>
          rw [hcopy] at h
          dsimp only at h ⊢
          by_cases hboth : ptr.processed = true ∧ ptr.couldNotProcess = true
          · rw [if_pos hboth] at h
            cases h
          rw [if_neg hboth] at h ⊢
          by_cases hclear : ptr.processed = false ∧ ptr.couldNotProcess = false
          · rw [if_pos hclear] at h ⊢
            obtain rfl := Option.some.inj h
            exact ⟨[], is, rfl, (Nat.zero_add _).symm⟩
          · rw [if_neg hclear] at h ⊢
            obtain ⟨before, behind, rfl, hlost⟩ := ih h
            have hmore : ¬ before ++ i :: behind = [] := by simp
            refine ⟨j :: before, behind, rfl, ?_⟩
            rw [if_neg hmore, hlost, List.length_cons]
            omega

/-- A call that picks entry `i` has passed over `i` entries. -/
theorem processLost_picked {t : UuidTable} (h : pickedEntry env t = some i) :
    (processLost debugOn env t : ℤ) = i + pickedLost debugOn env i ⟨t, []⟩ := by
  obtain ⟨before, behind, hsplit, hlost⟩ := @scanLost_picked debugOn env i ⟨t, []⟩ _ h
  have hindex : (entryIndices (getTableNumEntries t))[before.length]? = some i := by
    rw [hsplit]
    simp
  have hi : (before.length : ℤ) = i := by
    obtain ⟨hlt, heq⟩ := List.getElem?_eq_some_iff.mp hindex
    rw [← heq]
    simp [entryIndices]
  have hnotneg : ¬ getTableNumEntries t < 0 := by
    intro hneg
    rw [entryIndices_of_nonpos (le_of_lt hneg)] at hindex
    cases hindex
  rw [processLost, if_neg hnotneg, hlost, Nat.cast_add, hi]

/-- The error, or the copy of the scan behind a VM that was created. -/
theorem pickedLost_pos (debugOn : Bool) (env : ProcessEnv) (i : ℤ) (s : ProcState) :
    1 ≤ pickedLost debugOn env i s := by
  unfold pickedLost
  by_cases hvm : env.createVm < 0
  · rw [if_pos hvm]
  · rw [if_neg hvm]
    dsimp only
    omega

/-- **What serving an entry costs**: a call that serves the entry at `m` loses more than `m`
blocks. -/
theorem processLost_served {m : ℤ} {t : UuidTable} (hm : Progress m t)
    (hserved : (runProcessEntry debugOn env t).value = .returned 1) :
    m + 1 ≤ processLost debugOn env t := by
  have hcall : (Server.processEntry debugOn env).wp (fun _ => True)
      (fun r _ => r = .returned 1 → m + 1 ≤ processLost debugOn env t)
      (fun r _ => r = .returned 1 → m + 1 ≤ processLost debugOn env t) ⟨t, []⟩ := by
    refine wp_processEntry debugOn (fun i hi => ?_) (fun _ _ _ h => absurd h (by decide))
      (fun _ _ h => ProcessResult.noConfusion h) fun _ _ _ _ _ h => ProcessResult.noConfusion h
    have hlost : (processLost debugOn env t : ℤ) = i + pickedLost debugOn env i ⟨t, []⟩ :=
      processLost_picked hi
    obtain rfl := hm.eq_of_firstUnsettled (pickedEntry_firstUnsettled hi)
    have hcosts : i + 1 ≤ processLost debugOn env t := by
      have hone := pickedLost_pos debugOn env i ⟨t, []⟩
      rw [hlost]
      omega
    exact Program.wp_weaken (Program.wp_ran _ _) (fun _ _ => trivial) (fun _ _ _ _ => hcosts)
      fun _ _ _ _ => hcosts
  exact ((Program.wp_value_iff _).mp hcall).2 hserved

end Call

/-! ## Runs -/

/-- The call that is being shown serves an entry. -/
def soon : Pc → ℤ
  | .inProcess _ _ (.returned ret) => if ret = 1 then 1 else 0
  | _ => 0

/-- Twice the sum of the numbers up to that of the entries served. -/
def charged (m : ℤ) (pc : Pc) : ℤ := (m + soon pc) * (m + soon pc + 1)

section Runs

variable {debugOn : Bool} {s t : MainState} {l : MainLabel} {m : ℤ}

theorem charged_of_idle {pc : Pc} (h : inCall pc = false) : charged m pc = m * (m + 1) := by
  have hsoon : soon pc = 0 := by
    cases pc with
    | inProcess site todo result => cases h
    | _ => rfl
  rw [charged, hsoon, add_zero]

theorem soon_eq (pc : Pc) : soon pc = 0 ∨ soon pc = 1 := by
  cases pc with
  | inProcess site todo result =>
      cases result with
      | returned ret =>
          by_cases hret : ret = 1
          · exact Or.inr (if_pos hret)
          · exact Or.inl (if_neg hret)
      | _ => exact Or.inl rfl
  | _ => exact Or.inl rfl

theorem le_charged (h0 : 0 ≤ m) (pc : Pc) : m * (m + 1) ≤ charged m pc := by
  unfold charged
  rcases soon_eq pc with hsoon | hsoon
  · rw [hsoon, add_zero]
  · rw [hsoon]
    exact mul_le_mul (by omega) (by omega) (by omega) (by omega)

theorem processed_idle (s : MainState) (site : Site) (ret : ℤ) :
    inCall (s.processed site ret).pc = false := by
  rcases processed_cases s site ret with ⟨pc, retVal, rfl | rfl, heq⟩ | ⟨stop, retVal, -, heq⟩
  · rw [heq]
    rfl
  · rw [heq]
    rfl
  · rw [heq]
    rfl

theorem inCall_after (hmove : MainMove debugOn s l t) (h : inCall t.pc = true) :
    (∃ env, l = .callProcess env) ∨ l = .processStep := by
  cases hmove with
  | callProcess => exact Or.inl ⟨_, rfl⟩
  | processStep => exact Or.inr rfl
  | @drained ioctlRet uuid env hpc =>
      rw [(@drained_working (s.received ioctlRet uuid env) hpc).1.idle] at h
      cases h
  | woken =>
      rw [(woken_working _).1.idle] at h
      cases h
  | processReturn =>
      rw [processed_idle] at h
      cases h
  | bug =>
      rw [processed_idle] at h
      cases h
  | notReadable hpc =>
      change inCall s.pc = true at h
      rw [hpc] at h
      cases h
  | scribble hpc =>
      change inCall s.pc = true at h
      cases heq : s.pc with
      | inProcess site todo result => exact absurd heq (hpc site todo result)
      | _ =>
          rw [heq] at h
          cases h
  | _ => cases h

theorem charged_call {env : ProcessEnv} {site : Site} {todo : List UuidTable}
    {u : UuidTable} (hm : Progress m u) :
    charged m (.inProcess site todo (runProcessEntry debugOn env u).value) ≤
      2 * callLost debugOn u (.callProcess env) + m * (m + 1) := by
  have hpaid : (processLost debugOn env u : ℤ) ≤ callLost debugOn u (.callProcess env) := by
    exact_mod_cast Nat.le_add_right _ (held (runProcessEntry debugOn env u).value)
  by_cases hserved : (runProcessEntry debugOn env u).value = .returned 1
  · have hcost : m + 1 ≤ processLost debugOn env u := processLost_served hm hserved
    have hcharged : charged m (.inProcess site todo (.returned 1)) = (m + 1) * (m + 1 + 1) := rfl
    have hsum : (m + 1) * (m + 1 + 1) = 2 * (m + 1) + m * (m + 1) := by ring
    rw [hserved, hcharged, hsum]
    omega
  · have hsoon : soon (.inProcess site todo (runProcessEntry debugOn env u).value) = 0 := by
      cases hvalue : (runProcessEntry debugOn env u).value with
      | returned ret =>
          refine if_neg fun hret => hserved ?_
          rw [hvalue, hret]
      | _ => rfl
    rw [charged, hsoon, add_zero]
    omega

/-- **One step**: the entry that a call serves is paid for when the call begins. -/
theorem charged_step (h0 : 0 ≤ m) (hmain : MainInv s) (hm : Serving m s.table s.pc)
    (hg : InPlaceRuns s l) (hs : mainStep debugOn s l = some t) :
    ∃ m', 0 ≤ m' ∧ Serving m' t.table t.pc ∧
      charged m' t.pc ≤ 2 * stepLost debugOn s l + charged m s.pc := by
  have hlost : callLost debugOn s.table l ≤ stepLost debugOn s l := by
    rw [stepLost, if_pos (Option.isSome_iff_exists.mpr ⟨t, hs⟩)]
    exact Nat.le_add_right _ _
  have hmove := mainStep_move hs
  rcases serving_step h0 hmain hm hg hs with ⟨-, hserving⟩ | ⟨uuid, hfinished, -, hserving⟩
  · refine ⟨m, h0, hserving, ?_⟩
    by_cases hcall : inCall t.pc = true
    · rcases inCall_after hmove hcall with ⟨env, rfl⟩ | rfl
      · cases hmove with
        | @callProcess site _ hpc =>
            have hidle : charged m s.pc = m * (m + 1) := by
              rw [hpc]
              exact charged_of_idle rfl
            rw [hpc] at hm
            rw [hidle]
            refine le_trans (charged_call hm) ?_
            omega
      · cases hmove with
        | @processStep site u todo result hpc =>
            have hsame : charged m (.inProcess site todo result) = charged m s.pc := by
              rw [hpc]
              cases result <;> rfl
            show charged m (.inProcess site todo result) ≤ _
            rw [hsame]
            omega
    · have hle := le_charged h0 s.pc
      rw [charged_of_idle (Bool.eq_false_of_not_eq_true hcall)]
      omega
  · refine ⟨m + 1, by omega, hserving, ?_⟩
    cases hmove with
    | @processReturn site ret hpc =>
        have hone : ret = 1 := by
          by_contra hne
          simp only [finishedUuid, hpc, if_neg hne] at hfinished
          cases hfinished
        have hbefore : charged m s.pc = (m + 1) * (m + 1 + 1) := by
          rw [charged, hpc, hone]
          rfl
        rw [charged_of_idle (processed_idle s site ret), hbefore]
        omega
    | @bug site b hpc =>
        simp only [finishedUuid, hpc] at hfinished
        cases hfinished
    | @crashed site hpc =>
        simp only [finishedUuid, hpc] at hfinished
        cases hfinished
    | _ => cases hfinished

theorem charged_run : ∀ (ls : List MainLabel) (s t : MainState) (m : ℤ), 0 ≤ m → MainInv s →
    Serving m s.table s.pc → StepsMeet (mainStep debugOn) InPlaceRuns s ls →
    exec (mainStep debugOn) s ls = some t →
    ∃ m', 0 ≤ m' ∧ MainInv t ∧ Serving m' t.table t.pc ∧ charged m' t.pc ≤
      2 * lostOn (orStay (mainStep debugOn)) (stepLost debugOn) s ls + charged m s.pc := by
  intro ls
  induction ls with
  | nil =>
      intro s t m h0 hmain hm _ hexec
      obtain rfl := Option.some.inj hexec
      refine ⟨m, h0, hmain, hm, ?_⟩
      show charged m s.pc ≤ 2 * ((0 : ℕ) : ℤ) + charged m s.pc
      omega
  | cons l ls ih =>
      intro s t m h0 hmain hm hguard hexec
      obtain ⟨u, hu, hrest⟩ := Option.bind_eq_some_iff.mp hexec
      obtain ⟨hg, hguard'⟩ := hguard u hu
      obtain ⟨m₁, h0₁, hm₁, hstep⟩ := charged_step h0 hmain hm hg hu
      obtain ⟨m', h0', hmain', hm', hlater⟩ :=
        ih u t m₁ h0₁ (mainInv_step debugOn s l u hmain hg hu) hm₁ hguard' hrest
      refine ⟨m', h0', hmain', hm', ?_⟩
      show charged m' t.pc ≤ 2 * ((stepLost debugOn s l +
        lostOn (orStay (mainStep debugOn)) (stepLost debugOn) (orStay (mainStep debugOn) s l) ls :
          ℕ) : ℤ) + charged m s.pc
      rw [orStay_some hu]
      omega

end Runs

/-- A table that grows in place is not moved. -/
theorem inPlace_stays {s : MainState} {l : MainLabel} (h : InPlaceRuns s l) : ¬ MovesTable s l := by
  cases l with
  | gotEntry ioctlRet uuid env =>
      rintro ⟨-, -, -, hfull, mem, hmoved⟩
      obtain ⟨mem', hinPlace⟩ := h.2 hfull
      rw [hmoved] at hinPlace
      cases hinPlace
  | _ => exact id

/-- **Memory grows with the square of the number of modules served.** Whenever `main` waits,
after a run in which nothing it allocates fails and the table grows in place, the blocks it
has lost are at least the sum of the numbers up to that of the modules it has served. -/
theorem waiting_server_has_lost (debugOn : Bool) (mem : ℤ → UuidTableEntry)
    (ls : List MainLabel) (s : MainState)
    (hrun : exec (mainStep debugOn) (MainState.init mem) ls = some s)
    (hguard : StepsMeet (mainStep debugOn) InPlaceRuns (MainState.init mem) ls)
    (hpc : s.pc = .select) :
    ∃ u heap, ls.foldlM (heapStep debugOn) ⟨MainState.init mem, none⟩ BlockHeap.empty =
        some (u, heap) ∧ u.main = s ∧
      s.table.tableNumEntries * (s.table.tableNumEntries + 1) ≤ 2 * (heap.live.card : ℤ) := by
  obtain ⟨u, heap, lost, hheap, hmain, howns, hlost⟩ :=
    run_accounts debugOn mem ls s hrun (hguard.mono fun _ _ => inPlace_stays)
  obtain ⟨m, h0, hinv, hm, hcharged⟩ := charged_run ls _ s 0 (le_refl 0) (init_mainInv mem) rfl
    hguard hrun
  refine ⟨u, heap, hheap, hmain, ?_⟩
  have hat := hinv.atPc
  rw [hpc] at hat hm hcharged
  have hall : m = s.table.tableNumEntries := by
    refine hm.all_of_settled fun j hj hlt => Or.inl (hat.2.done j hj hlt).1
  have hcard := howns.card
  rw [List.length_append, hlost] at hcard
  have hwaiting : charged m .select = m * (m + 1) := charged_of_idle rfl
  have hstart : charged 0 (MainState.init mem).pc = 0 := rfl
  rw [hwaiting, hstart] at hcharged
  rw [← hall]
  omega

/-- The server that has served two modules waits with three blocks allocated, or more. -/
theorem two_modules_have_lost :
    ∃ s u heap, exec (mainStep true) (MainState.init fun _ => default) (bootRun ++ servedRun) =
        some s ∧ s.pc = .select ∧ s.table.tableNumEntries = 2 ∧
      (bootRun ++ servedRun).foldlM (heapStep true)
        (⟨MainState.init fun _ => default, none⟩ : HeapMain) BlockHeap.empty = some (u, heap) ∧
      u.main = s ∧ 3 ≤ heap.live.card := by
  obtain ⟨s, hserved, hpc, hnum⟩ := servedRun_waits
  have hrun : exec (mainStep true) (MainState.init fun _ => default) (bootRun ++ servedRun) =
      some s :=
    (exec_append _ _ _).trans (Option.bind_eq_some_iff.mpr ⟨drainStart, bootRun_exec true, hserved⟩)
  have hguard := (bootRun_inPlace true).append (bootRun_exec true) servedRun_inPlace
  obtain ⟨u, heap, hheap, hmain, hlost⟩ := waiting_server_has_lost true _ _ s hrun hguard hpc
  refine ⟨s, u, heap, hrun, hpc, hnum, hheap, hmain, ?_⟩
  rw [hnum] at hlost
  omega

end LxcUio.Server.Heap
