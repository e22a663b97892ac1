import LxcUio.Server.Settles

/-!
# How far the server got

What `main` leaves behind at `out_table`. The entries before some index are processed. If a call
of `process_entry` failed, the entry at that index is the one it failed on, and it is marked
unless the branch that failed forgets the mark; the entries behind it were never tried.
-/

namespace LxcUio.Server

open LxcUio.Foundation

/-! ## A call that returns an error -/

def ErrorMarks (i : ℤ) (r : ProcessResult) (t : UuidTable) : Prop :=
  ∀ v, v < 0 → r = .returned v → (t.entry i).couldNotProcess = true

/-- From `s` on the call marks entry `i` if it fails. -/
def EndsMarked (i : ℤ) (x : ProcOut ProcessResult) (s : ProcState) : Prop :=
  x.wp (fun _ => True) (fun r u => ErrorMarks i r u.table) (fun r u => ErrorMarks i r u.table) s

section Rules

variable {α : Type} {i : ℤ} {s : ProcState} {k : α → ProcOut ProcessResult}

theorem errorMarks_of_nonneg {t : UuidTable} {v : ℤ} (hv : 0 ≤ v) :
    ErrorMarks i (.returned v) t := by
  intro w hneg hw
  rw [← ProcessResult.returned.inj hw] at hneg
  exact absurd hneg (not_lt.mpr hv)

theorem endsMarked_emit {e : Event} {k : Unit → ProcOut ProcessResult}
    (hk : EndsMarked i (k ()) (s.emit e)) : EndsMarked i (emit e >>= k) s :=
  (Program.wp_bind _ _).mpr ((wp_emit e).mpr ⟨trivial, hk⟩)

theorem endsMarked_setXxx {k : ℤ → ProcOut ProcessResult} {f : UuidTableEntry → UuidTableEntry}
    (hi : i ≤ s.table.tableNumEntries - 1) (hk : EndsMarked i (k 0) (s.modify i f)) :
    EndsMarked i (setXxx i f >>= k) s :=
  (Program.wp_bind _ _).mpr ((wp_setXxx hi f).mpr ⟨trivial, hk⟩)

/-- A branch that is not taken. -/
theorem endsMarked_skip {k : Unit → ProcOut ProcessResult} {c : Prop} [Decidable c]
    {x : ProcOut Unit} (hc : ¬ c) (hk : EndsMarked i (k ()) s) :
    EndsMarked i (Program.onlyIf c x >>= k) s :=
  (Program.wp_bind _ _).mpr ((Program.wp_onlyIf _ _).mpr ⟨fun h => absurd h hc, fun _ => hk⟩)

/-- A branch that marks the entry. -/
theorem endsMarked_giveUp {k : Unit → ProcOut ProcessResult} {c : Prop} [Decidable c] {v : ℤ}
    (hi : i ≤ s.table.tableNumEntries - 1) (hk : ¬ c → EndsMarked i (k ()) s) :
    EndsMarked i (Program.onlyIf c (do giveUp i; out v) >>= k) s := by
  refine (Program.wp_bind _ _).mpr ((Program.wp_onlyIf _ _).mpr ⟨fun _ => ?_, hk⟩)
  refine (Program.wp_bind _ _).mpr ((wp_giveUp hi).mpr ⟨trivial, (wp_out v).mpr ?_⟩)
  intro w _ _
  rw [procModify_table, modify_entry_same]
  rfl

theorem endsMarked_reload {k : UuidTableEntry → ProcOut ProcessResult} {malloc : Bool}
    (hi : i ≤ s.table.tableNumEntries - 1) (hm : malloc = true)
    (hk : EndsMarked i (k (s.table.entry i)) s) : EndsMarked i (reload i malloc >>= k) s := by
  refine (Program.wp_bind _ _).mpr ((wp_reload hi malloc).mpr ⟨fun _ => hk, fun hfail => ?_⟩)
  exact absurd (hm.symm.trans hfail) (by decide)

end Rules

section Body

variable {env : ProcessEnv} {i : ℤ}

theorem runVcpu_endsMarked (vcpufd : ℤ) {mmapRun : RunMapping} {exits : List VcpuExit}
    (h : GuestHalts mmapRun exits) : ∀ s : ProcState, i ≤ s.table.tableNumEntries - 1 →
      EndsMarked i (runVcpu i vcpufd mmapRun exits) s := by
  induction h with
  | running =>
      intro s _
      refine (Program.wp_exit _).mpr fun v _ hv => ?_
      cases hv
  | @hlt x rest hret hmap hreason =>
      intro s hi
      apply endsMarked_emit
      apply endsMarked_skip (not_lt.mpr hret)
      apply endsMarked_skip hmap
      simp only [hreason]
      apply endsMarked_setXxx (s := s.emit _) hi
      rw [if_neg (lt_irrefl _)]
      exact (Program.wp_pure _).mpr (errorMarks_of_nonneg (by decide))
  | @next x rest hgo hmap hrest ih =>
      intro s hi
      apply endsMarked_emit
      apply endsMarked_skip (not_lt.mpr hgo.1)
      apply endsMarked_skip hmap
      have hgoes := hgo.2
      cases hreason : x.reason with
      | io direction size port count data =>
          refine (Program.wp_bind _ _).mpr ((Program.wp_onlyIf _ _).mpr ⟨fun _ => ?_, fun _ => ?_⟩)
          · exact (wp_emit _).mpr ⟨trivial, ih _ hi⟩
          · exact ih _ hi
      | other reason => exact ih _ hi
      | _ =>
          rw [hreason] at hgoes
          cases hgoes

theorem startVcpu_endsMarked {s : ProcState} (hi : i ≤ s.table.tableNumEntries - 1)
    (hruns : 0 ≤ env.createVcpu → 0 ≤ env.vcpuMmapSize → RunsGuest env) :
    EndsMarked i (startVcpu env i env.createVm) s := by
  apply endsMarked_emit
  refine endsMarked_giveUp (s := s.emit _) hi fun hvcpu => ?_
  apply endsMarked_setXxx (s := s.emit _) hi
  refine endsMarked_giveUp hi fun _ => endsMarked_giveUp hi fun hsize => ?_
  have h := hruns (not_lt.mp hvcpu) (not_lt.mp hsize)
  apply endsMarked_skip (not_lt.mpr h.mmapSize)
  apply endsMarked_skip h.mapped
  apply endsMarked_skip (not_lt.mpr h.getSregs)
  apply endsMarked_emit
  apply endsMarked_skip (not_lt.mpr h.setSregs)
  apply endsMarked_reload (s := ((s.emit _).modify _ _).emit _) hi h.mallocRegs
  apply endsMarked_emit
  apply endsMarked_skip (not_lt.mpr h.setRegs)
  exact runVcpu_endsMarked env.createVcpu h.halts _ hi

/-- The set-up comes back without an error only if it can for an entry without regions,
whichever entries have the uuid. -/
theorem scanUuid_noError (debugOn : Bool) (env : MemoryEnv) (uuid : Uuid) (vmfd : ℤ) :
    ∀ (is : List ℤ) (found : Bool) (s : ProcState), (found = true → env.NoError 0) →
      (scanUuid debugOn env uuid vmfd is found).wp (fun _ => True)
        (fun found _ => found = true → env.NoError 0) (fun r _ => 0 ≤ r → env.NoError 0) s := by
  have hzero : ∀ n, env.NoError n → env.NoError 0 := by
    rintro n ⟨rfl, h⟩
    exact ⟨rfl, h⟩
  intro is
  induction is with
  | nil => exact fun found s hfound => (Program.wp_pure _).mpr hfound
  | cons i is ih =>
      intro found s hfound
      simp only [scanUuid, Program.wp_bind, Program.wp_read, Program.wp_ite, Program.wp_onlyIf,
        Program.wp_exit, Program.wp_pure]
      refine ⟨fun _ => ⟨fun _ hneg => absurd hneg (by decide), fun _ => ?_⟩,
        fun _ => ih found s hfound⟩
      refine Program.wp_mono (initializeEntry_sign env vmfd i s) (fun _ u hnone => ?_)
        fun r u hsign hr => hzero _ (hsign.mp hr)
      exact ⟨fun _ => ih true u fun _ => hzero _ hnone, fun _ _ => hzero _ hnone⟩

theorem initializeMemoryUuid_noError (debugOn : Bool) (env : MemoryEnv) (uuid : Uuid)
    (vmfd : ℤ) (s : ProcState) :
    (initializeMemoryUuid debugOn env uuid vmfd).wp (fun _ => True)
      (fun r _ => 0 ≤ r → env.NoError 0) (fun r _ => 0 ≤ r → env.NoError 0) s := by
  simp only [initializeMemoryUuid, Program.wp_bind, Program.wp_read]
  refine Program.wp_mono (scanUuid_noError debugOn env uuid vmfd _ false s fun hf => by cases hf)
    (fun found u hfound => ?_) fun _ _ h => h
  simp only [Program.wp_ite, Program.wp_pure]
  exact ⟨fun hf _ => hfound hf, fun _ hneg => absurd hneg (by decide)⟩

theorem processPicked_endsMarked (debugOn : Bool) {s : ProcState} {ptr : UuidTableEntry}
    (hi : i ≤ s.table.tableNumEntries - 1) (hmarks : MarksFailures env 0) :
    EndsMarked i (processPicked debugOn env i ptr) s := by
  apply endsMarked_emit
  refine endsMarked_giveUp (s := s.emit _) hi fun hvm => ?_
  apply endsMarked_setXxx (s := s.emit _) hi
  refine endsMarked_giveUp hi fun _ => ?_
  let u := (s.emit (.createVm env.createVm)).modify i (setVmfd env.createVm)
  have hmemory := Program.wp_and
    (initializeMemoryUuid_noError debugOn env.memory ptr.uuid env.createVm u)
    (initializeMemoryUuid_only debugOn env.memory ptr.uuid env.createVm u)
  refine Program.wp_seq ((Program.wp_call _).mpr (Program.wp_weaken hmemory (fun _ _ => trivial)
    (fun _ _ h => h) fun _ _ h => h)) fun r u hset => ?_
  obtain ⟨hsign, honly⟩ := hset
  have hu : i ≤ u.table.tableNumEntries - 1 := by
    rw [honly.num]
    exact hi
  refine endsMarked_giveUp hu fun hpos => ?_
  obtain ⟨hpacket, hrest⟩ := hmarks (not_lt.mp hvm) (hsign (not_lt.mp hpos))
  apply endsMarked_reload hu hpacket
  apply endsMarked_emit
  refine endsMarked_giveUp (s := u.emit _) hu fun hsent => ?_
  obtain ⟨hreload, hruns⟩ := hrest (not_lt.mp hsent)
  apply endsMarked_reload (s := u.emit _) hu hreload
  exact startVcpu_endsMarked hu hruns

theorem FirstUnsettled.unique {t : UuidTable} {j : ℤ} (hi : FirstUnsettled t i)
    (hj : FirstUnsettled t j) : i = j := by
  have hnot : ∀ {k l : ℤ}, FirstUnsettled t k → FirstUnsettled t l → ¬ k < l := by
    intro k l hk hl hlt
    rcases hl.before k hk.nonneg hlt with hp | hc
    · exact Bool.false_ne_true (hk.unprocessed.symm.trans hp)
    · exact Bool.false_ne_true (hk.notGivenUp.symm.trans hc)
  exact le_antisymm (not_lt.mp (hnot hj hi)) (not_lt.mp (hnot hi hj))

/-- **A failed call marks the entry it picked**, if no branch that forgets the mark is taken. -/
theorem processEntry_marks (debugOn : Bool) (hmarks : MarksFailures env 0) (t : UuidTable)
    (hi : FirstUnsettled t i) :
    ErrorMarks i (runProcessEntry debugOn env t).value
      ((runProcessEntry debugOn env t).final ⟨t, []⟩).table := by
  have hcall : EndsMarked i (processEntry debugOn env) ⟨t, []⟩ := by
    refine wp_processEntry debugOn (fun j hj => ?_) (fun _ _ _ => ?_) (fun _ _ => ?_)
      fun _ j _ b _ => ?_
    · obtain rfl := (pickedEntry_firstUnsettled hj).unique hi
      exact processPicked_endsMarked debugOn (Int.le_sub_one_of_lt hi.inRange) hmarks
    · exact errorMarks_of_nonneg (le_refl 0)
    · intro v _ hv
      cases hv
    · intro v _ hv
      cases hv
  exact ((Program.wp_value_iff _).mp hcall).2

end Body

/-! ## When the server stops -/

/-- Every uuid received has an entry that is processed or marked. -/
def NoneAbandoned (s : MainState) : Prop :=
  ∀ uuid ∈ s.popped, ∃ j, 0 ≤ j ∧ j < s.table.tableNumEntries ∧
    (s.table.entry j).uuid = uuid ∧ Settled (s.table.entry j)

/-- Two modules are drained and the first one fails: `main` quits, and the second one
was never tried. -/
theorem failure_abandons_the_rest :
    ¬ ∀ (debugOn : Bool) (mem : ℤ → UuidTableEntry) (s : MainState),
      Via (mainStep debugOn) anyStep (MainState.init mem) s → s.pc = .outTable →
        NoneAbandoned s := by
  intro hall
  have hrun : exec (mainStep true) drainStart failedRun = some _ := rfl
  have hnone := hall true _ _ (((boot_reaches_drain true).mono fun _ _ _ => trivial).trans
    (via_of_exec hrun)) rfl
  obtain ⟨j, h0, hj, huuid, hsettled⟩ := hnone 2 (by decide)
  have hj2 : j < 2 := hj
  obtain rfl | rfl : j = 0 ∨ j = 1 := by omega
  · exact absurd huuid (by decide)
  · rcases hsettled with hp | hc
    · exact absurd hp (by decide)
    · exact absurd hc (by decide)

/-- `main` left because a call of `process_entry` failed. -/
def Stop.OfProcess (stop : Stop) : Prop := stop = .processError ∨ stop = .eventProcessError

instance (stop : Stop) : Decidable stop.OfProcess :=
  inferInstanceAs (Decidable (_ ∨ _))

/-- No call leaves through a branch that forgets the mark. A new entry has no regions. -/
def FailuresMarked (s : MainState) (l : MainLabel) : Prop :=
  InPlaceRuns s l ∧ ∀ env, l = .callProcess env → MarksFailures env 0

/-- The server stopped at entry `m`: it was the one that failed, or none was being worked on. -/
structure StoppedAt (stop : Stop) (m : ℤ) (t : UuidTable) : Prop extends ProgressAround m t where
  failed : stop.OfProcess → m < t.tableNumEntries
  untried : ¬ stop.OfProcess → Progress m t

theorem Progress.stoppedAt {m : ℤ} {t : UuidTable} (h : Progress m t) {stop : Stop}
    (hstop : ¬ stop.OfProcess) : StoppedAt stop m t :=
  ⟨h.around, fun hof => absurd hof hstop, fun _ => h⟩

theorem StoppedAt.disturb {popped : List Uuid} {stop : Stop} {m : ℤ} {t : UuidTable}
    (ht : Holds popped t) (h : StoppedAt stop m t) (mem : ℤ → UuidTableEntry) :
    StoppedAt stop m { t with uuidTable := t.uuidTable.disturb mem } :=
  ⟨h.toProgressAround.disturb ht mem, h.failed, fun hnot => (h.untried hnot).disturb ht mem⟩

/-- A call that is on its way, with the mark it leaves if `marked`. -/
def InCall (marked : Prop) (s : MainState) (site : Site) (todo : List UuidTable)
    (result : ProcessResult) : Prop :=
  ∃ env t0, site.Progress t0 ∧ During t0 s.table ∧ (∀ u ∈ todo, During t0 u) ∧
    CallDoes env t0 result (todo.getLastD s.table) ∧
    (marked → ∀ i, FirstUnsettled t0 i → ErrorMarks i result (todo.getLastD s.table))

def Stopped (marked : Prop) (s : MainState) : Prop :=
  ∃ stop m, s.stop = some stop ∧ StoppedAt stop m s.table ∧
    (marked → stop.OfProcess → (s.table.entry m).couldNotProcess = true)

/-- What is known of a call until it has returned, and of the stop from then on. -/
def StopInv (marked : Prop) (s : MainState) : Prop :=
  match s.pc with
  | .inProcess site todo result => InCall marked s site todo result
  | .outTable => Stopped marked s
  | _ => True

section Step

variable {marked : Prop} {s : MainState}

/-- `main` leaves, and not from a call of `process_entry`. -/
theorem stopInv_leave {m : ℤ} (hm : Progress m s.table) {stop : Stop} (hstop : ¬ stop.OfProcess)
    (retVal : ℤ) : StopInv marked { s.leave stop with retVal := retVal } :=
  ⟨stop, m, rfl, hm.stoppedAt hstop, fun _ hof => absurd hof hstop⟩

/-- `main` leaves after a call that failed. -/
theorem InCall.stopped {site : Site} {ret : ℤ} (h : InCall marked s site [] (.returned ret))
    (hneg : ret < 0) {stop : Stop} (hstop : stop.OfProcess) (retVal : ℤ) :
    StopInv marked { s.leave stop with retVal := retVal } := by
  obtain ⟨env, t0, hsite, hduring, -, hdoes, hmarks⟩ := h
  obtain ⟨m, hm⟩ := hsite.some
  rcases hdoes with ⟨hr, -⟩ | ⟨i, hfirst, htouch, -⟩ | ⟨b, hr, -⟩
  · rw [ProcessResult.returned.inj hr] at hneg
    exact absurd hneg (lt_irrefl 0)
  · -- the entry that failed is the first one that was not settled
    obtain rfl := hm.eq_of_firstUnsettled hfirst
    have hlt : i < s.table.tableNumEntries := by
      rw [hduring.frame.num]
      exact hfirst.inRange
    refine ⟨stop, i, rfl, ⟨hduring.progressAround hm, fun _ => hlt, fun hnot => ?_⟩, ?_⟩
    · exact absurd hstop hnot
    · exact fun hmarked _ => hmarks hmarked i hfirst ret hneg rfl
  · cases hr

/-- What follows a call that has returned. -/
theorem InCall.processed {site : Site} {ret : ℤ} (h : InCall marked s site [] (.returned ret)) :
    StopInv marked (s.processed site ret) := by
  have hcall := h
  obtain ⟨env, t0, hsite, -, -, hdoes, -⟩ := h
  rcases hdoes.returned_cases with ⟨rfl, -, hall⟩ | ⟨rfl, -⟩ | hneg
  · cases site with
    | first => trivial
    | event =>
        -- the entry just received was not settled
        have hm := hsite.2.all_of_settled hall
        omega
  · cases site with
    | first => trivial
    | event => trivial
  · cases site with
    | first =>
        have hpos : ¬ ret > 0 := by omega
        have hzero : ¬ ret = 0 := by omega
        simp only [MainState.processed, if_neg hpos, if_neg hzero, if_pos hneg]
        exact hcall.stopped hneg (Or.inl rfl) ret
    | event =>
        have hone : ¬ ret = 1 := by omega
        have hzero : ¬ ret = 0 := by omega
        simp only [MainState.processed, if_neg hone, if_neg hzero, if_pos hneg]
        exact hcall.stopped hneg (Or.inr rfl) s.retVal

theorem stopInv_step (debugOn : Bool) {l : MainLabel} {t : MainState} (hinv : MainInv s)
    (h : StopInv marked s) (hg : InPlaceRuns s l)
    (hmarked : marked → ∀ env, l = .callProcess env → MarksFailures env 0)
    (hs : mainStep debugOn s l = some t) : StopInv marked t := by
  have hnext := mainInv_step debugOn s l t hinv hg hs
  have hat := hinv.atPc
  cases mainStep_move hs with
  | @drained ioctlRet uuid env hpc =>
      rw [hpc] at hat
      rcases received_inv hg hat.1 hat.2 with ⟨rfl, hret, -⟩ | ⟨-, hsame⟩
      · have hpos : (s.received 1 uuid env).retVal > 0 := by omega
        rw [MainState.drained, if_pos hpos]
        show StopInv marked (s.received 1 uuid env)
        simp only [StopInv, MainState.received, hpc]
      · rw [hsame, MainState.drained]
        split
        · simp only [StopInv, hpc]
        · split
          · trivial
          · exact stopInv_leave hat.2 (by decide) ioctlRet
  | @callProcess site env hpc =>
      rw [hpc] at hat
      obtain ⟨hduring, hdoes⟩ := runProcessEntry_does debugOn env hat.1.countFits
      refine ⟨env, s.table, hat.2, Or.inl rfl, hduring, hdoes, fun hm i hi => ?_⟩
      have hmarks := processEntry_marks debugOn (hmarked hm env rfl) s.table hi
      rwa [← runProcessEntry_last] at hmarks
  | @processStep site u todo result hpc =>
      simp only [StopInv, hpc] at h
      obtain ⟨env, t0, hsite, -, htodo, hdoes, hmarks⟩ := h
      rw [List.getLastD_cons] at hdoes hmarks
      refine ⟨env, t0, hsite, htodo u List.mem_cons_self, ?_, hdoes, hmarks⟩
      exact fun v hv => htodo v (List.mem_cons_of_mem u hv)
  | @processReturn site ret hpc =>
      simp only [StopInv, hpc] at h
      exact InCall.processed h
  | @bug site b hpc =>
      -- no bug check is ever reported
      have hnone := hnext.noBugs
      rcases processed_cases { s with bugs := s.bugs ++ [b] } site (-1) with
        ⟨pc, retVal, -, heq⟩ | ⟨stop, retVal, -, heq⟩
      · rw [heq] at hnone
        exact absurd hnone (List.append_ne_nil_of_right_ne_nil _ (List.cons_ne_nil _ _))
      · rw [heq] at hnone
        exact absurd hnone (List.append_ne_nil_of_right_ne_nil _ (List.cons_ne_nil _ _))
  | @selectError ret readable hpc hret =>
      rw [hpc] at hat
      exact stopInv_leave hat.2 (by decide) ret
  | @notReadable ret hpc hret => simp only [StopInv, hpc]
  | @woken ioctlRet uuid env hpc =>
      rw [hpc] at hat
      rcases received_inv hg hat.1 hat.2 with ⟨rfl, hret, -⟩ | ⟨-, hsame⟩
      · have hzero : ¬ (s.received 1 uuid env).retVal = 0 := by omega
        rw [MainState.woken, if_neg hzero, if_pos hret]
        trivial
      · rw [hsame, MainState.woken]
        split
        · exact stopInv_leave hat.2 (by decide) (-1)
        · split
          · trivial
          · split
            · exact stopInv_leave hat.2 (by decide) ioctlRet
            · exact stopInv_leave hat.2 (by decide) ioctlRet
  | readError hpc hret =>
      rw [hpc] at hat
      exact stopInv_leave hat.2.2 (by decide) s.retVal
  | @scribble mem hpc =>
      cases hpc' : s.pc with
      | outTable =>
          rw [hpc'] at hat
          simp only [StopInv, hpc'] at h ⊢
          obtain ⟨stop, m, hstop, hm, hmarks⟩ := h
          refine ⟨stop, m, hstop, hm.disturb hat.1 mem, fun hmarked hof => ?_⟩
          rw [disturb_entry hat.1.exact_table.toSound mem hm.nonneg (hm.failed hof)]
          exact hmarks hmarked hof
      | inProcess site todo result => exact absurd hpc' (hpc site todo result)
      | _ => simp only [StopInv]
  | _ => trivial

end Step

theorem stopInv_of_inPlace {debugOn : Bool} {mem : ℤ → UuidTableEntry} {s : MainState}
    (h : Via (mainStep debugOn) InPlaceRuns (MainState.init mem) s) : StopInv False s := by
  have hboth := h.invariant (fun u => MainInv u ∧ StopInv False u) ⟨init_mainInv mem, trivial⟩
    fun u a v hu hg hs => ⟨mainInv_step debugOn u a v hu.1 hg hs,
      stopInv_step debugOn hu.1 hu.2 hg False.elim hs⟩
  exact hboth.2

theorem stopInv_of_marked {debugOn : Bool} {mem : ℤ → UuidTableEntry} {s : MainState}
    (h : Via (mainStep debugOn) FailuresMarked (MainState.init mem) s) : StopInv True s := by
  have hboth := h.invariant (fun u => MainInv u ∧ StopInv True u) ⟨init_mainInv mem, trivial⟩
    fun u a v hu hg hs => ⟨mainInv_step debugOn u a v hu.1 hg.1 hs,
      stopInv_step debugOn hu.1 hu.2 hg.1 (fun _ => hg.2) hs⟩
  exact hboth.2

/-- **How far the server got.** When `main` leaves through `out_table`, every uuid it received
has its entry, in the order received; the entries before some index `m` are processed, and those
behind `m` are untouched. If `main` left because a call failed, entry `m` is the one it failed on,
and it is marked unless the branch that failed forgets the mark; else entry `m` is untouched too. -/
theorem stopped_progress (debugOn : Bool) (mem : ℤ → UuidTableEntry) (s : MainState)
    (h : Via (mainStep debugOn) InPlaceRuns (MainState.init mem) s)
    (hpc : s.pc = .outTable) :
    (s.table.uuidTable.slice 0 s.table.tableNumEntries).map UuidTableEntry.uuid =
        s.popped ∧
      ∃ stop m, s.stop = some stop ∧ StoppedAt stop m s.table ∧
        (Via (mainStep debugOn) FailuresMarked (MainState.init mem) s → stop.OfProcess →
          (s.table.entry m).couldNotProcess = true) := by
  have hat := (mainInv_of_inPlace h).atPc
  rw [hpc] at hat
  refine ⟨hat.1.uuids, ?_⟩
  by_cases hmarked : Via (mainStep debugOn) FailuresMarked (MainState.init mem) s
  · have hstop := stopInv_of_marked hmarked
    simp only [StopInv, hpc] at hstop
    obtain ⟨stop, m, hsome, hm, hmark⟩ := hstop
    exact ⟨stop, m, hsome, hm, fun _ hof => hmark trivial hof⟩
  · have hstop := stopInv_of_inPlace h
    simp only [StopInv, hpc] at hstop
    obtain ⟨stop, m, hsome, hm, -⟩ := hstop
    exact ⟨stop, m, hsome, hm, fun hmark => absurd hmark hmarked⟩

/-- `noVmEnv` fails in a branch that marks the entry. -/
theorem failedRun_marked {s : MainState}
    (hrun : exec (mainStep true) drainStart failedRun = some s) :
    Via (mainStep true) FailuresMarked (MainState.init fun _ => default) s := by
  have hlabels : ∀ l ∈ bootRun ++ failedRun, ∀ env, l = .callProcess env →
      MarksFailures env 0 := by
    rintro _ hl env rfl
    obtain rfl : env = noVmEnv := by simpa [bootRun, failedRun] using hl
    exact fun hvm => absurd hvm (by decide)
  have hboot := via_of_stepsMeet (bootRun_exec true) ((bootRun_inPlace true).and_labels
    fun l hl => hlabels l (List.mem_append_left _ hl))
  exact hboot.trans (via_of_stepsMeet hrun (failedRun_inPlace.and_labels
    fun l hl => hlabels l (List.mem_append_right _ hl)))

theorem stopped_progress_after_failure :
    ∃ s m, exec (mainStep true) drainStart failedRun = some s ∧
      (s.table.uuidTable.slice 0 s.table.tableNumEntries).map UuidTableEntry.uuid = [1, 2] ∧
      StoppedAt .processError m s.table ∧ (s.table.entry m).couldNotProcess = true := by
  have hrun : exec (mainStep true) drainStart failedRun = some _ := rfl
  obtain ⟨huuids, stop, m, hstop, hm, hmark⟩ := stopped_progress true (fun _ => default) _
    ((boot_reaches_drain true).trans (via_of_stepsMeet hrun failedRun_inPlace)) rfl
  obtain rfl : .processError = stop := Option.some.inj hstop
  exact ⟨_, m, hrun, huuids, hm, hmark (failedRun_marked hrun) (Or.inl rfl)⟩

end LxcUio.Server
