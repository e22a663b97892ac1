import LxcUio.Foundation.LabelledRun
import LxcUio.Tap.LoadModule

/-!
# The tap and the unloading of the proxy

Any number of insmod callers go through the tap while the proxy is loaded and unloaded.
The tap's check, its namespace copy and its call through `lxc_uio_proxy_put_module` are
separate steps, and so are the stores of `start` and `end` to the pointer and the
`kfree(module_table)`. The tap takes no reference on the proxy module; an unload begins
when nobody else holds one.

Loads are numbered; `pointer` and `table` name the load whose function the pointer
points to, and the load whose `module_table` is allocated.
-/

namespace LxcUio.System

open LxcUio.Foundation LxcUio.Proxy LxcUio.Tap

/-! ## The system -/

/-- Where the proxy module is: in `start`, before and after the pointer is set, and on the
way out of a failed `start`; live; and in `end`. -/
inductive ProxyPhase where
  | unloaded
  | allocated
  | exposed
  | outPutModule
  | outFree
  | live
  | going
  | cleared
deriving DecidableEq

/-- The module's state as Linux keeps it. -/
def ProxyPhase.moduleState : ProxyPhase → Option ModuleState
  | .unloaded => none
  | .allocated => some .coming
  | .exposed => some .coming
  | .outPutModule => some .coming
  | .outFree => some .coming
  | .live => some .live
  | .going => some .going
  | .cleared => some .going

/-- Where an insmod caller is in the tap: in the call of load `n`, or dead after a call
through a NULL pointer. -/
inductive TapPhase where
  | idle
  | checked
  | copied
  | calling (n : ℕ)
  | oops
deriving DecidableEq

variable {ι : Type}

structure TapSystem (ι : Type) where
  phase : ProxyPhase
  pointer : Option ℕ
  table : Option ℕ
  refs : ℕ
  loads : ℕ
  taps : ι → TapPhase

inductive TapLabel (ι : Type) where
  | tableInit (ok : Bool)
  | setPointer (findSymbol : Bool)
  | started (ok : Bool)
  | unload
  | clearPointer
  | freeTable
  | getRef
  | putRef
  | check (i : ι)
  | copy (i : ι) (o : NsOutcomes)
  | call (i : ι)
  | return_ (i : ι)

def TapSystem.init : TapSystem ι := ⟨.unloaded, none, none, 0, 0, fun _ => .idle⟩

section Step

variable [DecidableEq ι]

def TapSystem.tap (s : TapSystem ι) (i : ι) (p : TapPhase) : TapSystem ι :=
  { s with taps := Function.update s.taps i p }

def tapStep (s : TapSystem ι) : TapLabel ι → Option (TapSystem ι)
  | .tableInit ok =>
      if s.phase = .unloaded then
        if ok = true then
          some { s with phase := .allocated, table := some s.loads, loads := s.loads + 1 }
        else some s
      else none
  | .setPointer findSymbol =>
      if s.phase = .allocated then
        if findSymbol = false then some { s with phase := .outFree }
        else if s.pointer = none then some { s with phase := .exposed, pointer := s.table }
        else some { s with phase := .outFree }
      else none
  | .started ok =>
      if s.phase = .exposed then
        some { s with phase := if ok = true then .live else .outPutModule }
      else none
  | .unload => if s.phase = .live ∧ s.refs = 0 then some { s with phase := .going } else none
  | .clearPointer =>
      if s.phase = .going then some { s with phase := .cleared, pointer := none }
      else if s.phase = .outPutModule then some { s with phase := .outFree, pointer := none }
      else none
  | .freeTable =>
      if s.phase = .cleared ∨ s.phase = .outFree then
        some { s with phase := .unloaded, table := none }
      else none
  | .getRef => if s.phase = .live then some { s with refs := s.refs + 1 } else none
  | .putRef => if 0 < s.refs then some { s with refs := s.refs - 1 } else none
  | .check i =>
      if s.taps i = .idle then
        if lxcUioFinishedLoading s.phase.moduleState = true ∧ s.pointer ≠ none then
          some (s.tap i .checked)
        else some s
      else none
  | .copy i o =>
      if s.taps i = .checked then
        match (lxcUioNsproxyDeepCopy o []).1 with
        | none => some (s.tap i .idle)
        | some _ => some (s.tap i .copied)
      else none
  | .call i =>
      if s.taps i = .copied then
        match s.pointer with
        | none => some (s.tap i .oops)
        | some n => some (s.tap i (.calling n))
      else none
  | .return_ i =>
      match s.taps i with
      | .calling _ => some (s.tap i .idle)
      | _ => none

end Step

/-- **No call into an absent proxy**: no caller went through a NULL pointer, and while a call
into a load is under way, the `module_table` of that load has not been freed. -/
structure TapSafe (s : TapSystem ι) : Prop where
  notNull : ∀ i, s.taps i ≠ .oops
  notFreed : ∀ i n, s.taps i = .calling n → s.table = some n

/-- The guard: the pointer is cleared only while no caller is between the check and the
call, and the table is freed only while no caller is in the call. -/
def ApartFromTaps (s : TapSystem ι) : TapLabel ι → Prop
  | .clearPointer => ∀ i, s.taps i ≠ .checked ∧ s.taps i ≠ .copied
  | .freeTable => ∀ i n, s.taps i ≠ .calling n
  | _ => True

/-! ## Apart from the tap, unloading is safe -/

/-- Phases in which the pointer is set. -/
def ProxyPhase.Exposed : ProxyPhase → Prop
  | .exposed => True
  | .outPutModule => True
  | .live => True
  | .going => True
  | _ => False

/-- The invariant: the pointer is that of the load in place, and callers that have passed
the check can rely on it. -/
structure TapInv (s : TapSystem ι) : Prop where
  exposed : s.phase.Exposed → s.pointer = s.table
  hidden : ¬ s.phase.Exposed → s.pointer = none
  waiting : ∀ i, s.taps i = .checked ∨ s.taps i = .copied → s.pointer ≠ none
  calling : ∀ i n, s.taps i = .calling n → s.table = some n
  notNull : ∀ i, s.taps i ≠ .oops
  present : s.phase ≠ .unloaded ↔ s.table ≠ none

theorem TapInv.tapSafe {s : TapSystem ι} (h : TapInv s) : TapSafe s := ⟨h.notNull, h.calling⟩

theorem init_tapInv : TapInv (TapSystem.init : TapSystem ι) where
  exposed := fun h => h.elim
  hidden := fun _ => rfl
  waiting := by
    rintro i (h | h) <;> cases h
  calling := by
    intro i n h
    cases h
  notNull := by
    intro i h
    cases h
  present := iff_of_false (fun h => h rfl) fun h => h rfl

/-- The pointer of the load in place. -/
theorem TapInv.table_of_pointer {s : TapSystem ι} (h : TapInv s) {n : ℕ}
    (hn : s.pointer = some n) : s.table = some n := by
  by_cases hexp : s.phase.Exposed
  · rw [← h.exposed hexp]
    exact hn
  · rw [h.hidden hexp] at hn
    cases hn

/-- The proxy moves on; pointer, table and callers stay as they are. -/
theorem TapInv.phase {s : TapSystem ι} (h : TapInv s) {p : ProxyPhase}
    (hexp : p.Exposed ↔ s.phase.Exposed) (hloaded : p ≠ .unloaded) (hs : s.phase ≠ .unloaded) :
    TapInv { s with phase := p } where
  exposed := fun hp => h.exposed (hexp.mp hp)
  hidden := fun hp => h.hidden (mt hexp.mpr hp)
  waiting := h.waiting
  calling := h.calling
  notNull := h.notNull
  present := iff_of_true hloaded (h.present.mp hs)

/-- `start` sets the pointer. -/
theorem TapInv.setPointer {s : TapSystem ι} (h : TapInv s) (hphase : s.phase = .allocated) :
    TapInv { s with phase := .exposed, pointer := s.table } := by
  have hloaded : s.phase ≠ .unloaded := by
    rw [hphase]
    decide
  have htable := h.present.mp hloaded
  exact ⟨fun _ => rfl, fun hno => absurd trivial hno, fun _ _ => htable, h.calling, h.notNull,
    iff_of_true (fun hun => by cases hun) htable⟩

/-- The pointer is cleared while nobody is about to use it. -/
theorem TapInv.clearPointer {s : TapSystem ι} (h : TapInv s)
    (hg : ∀ i, s.taps i ≠ .checked ∧ s.taps i ≠ .copied) {p : ProxyPhase} (hp : ¬ p.Exposed)
    (hloaded : p ≠ .unloaded) (hs : s.phase ≠ .unloaded) :
    TapInv { s with phase := p, pointer := none } where
  exposed := fun hexp => absurd hexp hp
  hidden := fun _ => rfl
  waiting := by
    rintro i (hi | hi)
    · exact absurd hi (hg i).1
    · exact absurd hi (hg i).2
  calling := h.calling
  notNull := h.notNull
  present := iff_of_true hloaded (h.present.mp hs)

/-- The table is freed while nobody uses it. -/
theorem TapInv.freeTable {s : TapSystem ι} (h : TapInv s) (hg : ∀ i n, s.taps i ≠ .calling n)
    (hs : ¬ s.phase.Exposed) : TapInv { s with phase := .unloaded, table := none } where
  exposed := fun hexp => hexp.elim
  hidden := fun _ => h.hidden hs
  waiting := h.waiting
  calling := fun i n hi => absurd hi (hg i n)
  notNull := h.notNull
  present := iff_of_false (fun hne => hne rfl) fun hne => hne rfl

/-- A new load, while nothing is left of the one before. -/
theorem TapInv.tableInit {s : TapSystem ι} (h : TapInv s) (hphase : s.phase = .unloaded) :
    TapInv { s with phase := .allocated, table := some s.loads, loads := s.loads + 1 } := by
  have hnone : s.table = none := by
    by_contra hsome
    exact h.present.mpr hsome hphase
  have hpointer : s.pointer = none := h.hidden (by rw [hphase]; exact id)
  refine ⟨fun hexp => hexp.elim, fun _ => hpointer, h.waiting, fun i n hi => ?_, h.notNull,
    iff_of_true (fun hun => by cases hun) (Option.some_ne_none _)⟩
  have hold := h.calling i n hi
  rw [hnone] at hold
  cases hold

section Kept

variable [DecidableEq ι]

/-- A caller moves on; the proxy stays as it is. -/
theorem TapInv.tap {s : TapSystem ι} (h : TapInv s) (i : ι) {p : TapPhase}
    (hwaiting : p = .checked ∨ p = .copied → s.pointer ≠ none)
    (hcalling : ∀ n, p = .calling n → s.table = some n) (hnull : p ≠ .oops) :
    TapInv (s.tap i p) where
  exposed := h.exposed
  hidden := h.hidden
  waiting := by
    intro j hj
    change Function.update s.taps i p j = _ ∨ Function.update s.taps i p j = _ at hj
    by_cases hji : j = i
    · subst hji
      rw [Function.update_self] at hj
      exact hwaiting hj
    · rw [Function.update_of_ne hji] at hj
      exact h.waiting j hj
  calling := by
    intro j n hj
    change Function.update s.taps i p j = _ at hj
    by_cases hji : j = i
    · subst hji
      rw [Function.update_self] at hj
      exact hcalling n hj
    · rw [Function.update_of_ne hji] at hj
      exact h.calling j n hj
  notNull := by
    intro j hj
    change Function.update s.taps i p j = _ at hj
    by_cases hji : j = i
    · subst hji
      rw [Function.update_self] at hj
      exact hnull hj
    · rw [Function.update_of_ne hji] at hj
      exact h.notNull j hj
  present := h.present

/-- A caller that leaves the tap. -/
theorem TapInv.idle {s : TapSystem ι} (h : TapInv s) (i : ι) : TapInv (s.tap i .idle) := by
  refine h.tap i ?_ ?_ ?_
  · rintro (h | h) <;> cases h
  · intro n h
    cases h
  · intro h
    cases h

theorem tapStep_keeps {s t : TapSystem ι} {l : TapLabel ι} (h : TapInv s)
    (hg : ApartFromTaps s l) (hstep : tapStep s l = some t) : TapInv t := by
  cases l with
  | tableInit ok =>
      simp only [tapStep] at hstep
      split at hstep
      · rename_i hphase
        split at hstep
        · obtain rfl := Option.some.inj hstep
          exact h.tableInit hphase
        · obtain rfl := Option.some.inj hstep
          exact h
      · cases hstep
  | setPointer findSymbol =>
      simp only [tapStep] at hstep
      split at hstep
      · rename_i hphase
        have hloaded : s.phase ≠ .unloaded := by rw [hphase]; decide
        have hout : TapInv { s with phase := .outFree } :=
          h.phase (by rw [hphase]; exact Iff.rfl) (by decide) hloaded
        split at hstep
        · obtain rfl := Option.some.inj hstep
          exact hout
        · split at hstep
          · obtain rfl := Option.some.inj hstep
            exact h.setPointer hphase
          · obtain rfl := Option.some.inj hstep
            exact hout
      · cases hstep
  | started ok =>
      simp only [tapStep] at hstep
      split at hstep
      · rename_i hphase
        have hloaded : s.phase ≠ .unloaded := by rw [hphase]; decide
        obtain rfl := Option.some.inj hstep
        cases ok with
        | true => exact h.phase (by rw [hphase]; exact Iff.rfl) (by decide) hloaded
        | false => exact h.phase (by rw [hphase]; exact Iff.rfl) (by decide) hloaded
      · cases hstep
  | unload =>
      simp only [tapStep] at hstep
      split at hstep
      · rename_i hlive
        obtain rfl := Option.some.inj hstep
        exact h.phase (by rw [hlive.1]; exact Iff.rfl) (by decide) (by rw [hlive.1]; decide)
      · cases hstep
  | clearPointer =>
      simp only [tapStep] at hstep
      split at hstep
      · rename_i hphase
        obtain rfl := Option.some.inj hstep
        exact h.clearPointer hg id (by decide) (by rw [hphase]; decide)
      · split at hstep
        · rename_i hphase
          obtain rfl := Option.some.inj hstep
          exact h.clearPointer hg id (by decide) (by rw [hphase]; decide)
        · cases hstep
  | freeTable =>
      simp only [tapStep] at hstep
      split at hstep
      · rename_i hphase
        obtain rfl := Option.some.inj hstep
        apply h.freeTable hg
        -- both ways here cleared the pointer before
        rcases hphase with hphase | hphase
        all_goals
          rw [hphase]
          exact id
      · cases hstep
  | getRef =>
      simp only [tapStep] at hstep
      split at hstep
      · obtain rfl := Option.some.inj hstep
        exact ⟨h.exposed, h.hidden, h.waiting, h.calling, h.notNull, h.present⟩
      · cases hstep
  | putRef =>
      simp only [tapStep] at hstep
      split at hstep
      · obtain rfl := Option.some.inj hstep
        exact ⟨h.exposed, h.hidden, h.waiting, h.calling, h.notNull, h.present⟩
      · cases hstep
  | check i =>
      simp only [tapStep] at hstep
      split at hstep
      · split at hstep
        · rename_i hgate
          obtain rfl := Option.some.inj hstep
          exact h.tap i (fun _ => hgate.2) (fun n hn => by cases hn) (by decide)
        · obtain rfl := Option.some.inj hstep
          exact h
      · cases hstep
  | copy i o =>
      simp only [tapStep] at hstep
      split at hstep
      · rename_i hchecked
        split at hstep
        · obtain rfl := Option.some.inj hstep
          exact h.idle i
        · obtain rfl := Option.some.inj hstep
          exact h.tap i (fun _ => h.waiting i (Or.inl hchecked)) (fun n hn => by cases hn)
            (by decide)
      · cases hstep
  | call i =>
      simp only [tapStep] at hstep
      split at hstep
      · rename_i hcopied
        split at hstep
        · -- NULL: the pointer was cleared behind the check
          rename_i hnone
          exact absurd hnone (h.waiting i (Or.inr hcopied))
        · rename_i n hn
          obtain rfl := Option.some.inj hstep
          refine h.tap i ?_ (fun m hm => ?_) (fun hoops => by cases hoops)
          · rintro (hm | hm) <;> cases hm
          · cases hm
            exact h.table_of_pointer hn
      · cases hstep
  | return_ i =>
      simp only [tapStep] at hstep
      split at hstep
      · obtain rfl := Option.some.inj hstep
        exact h.idle i
      · cases hstep

/-! ## Not apart from the tap, it is not -/

/-- Copies that all succeed. -/
def succeedingCopies : NsOutcomes := ⟨some 0, .ok 0, .ok 0, .ok 0, .ok 0, .ok 0, .ok 0⟩

/-- A caller that is on its way to the call while the pointer is NULL gets there. -/
theorem reaches_null_call {s : TapSystem ι} (hnull : s.pointer = none) {i : ι}
    (hi : s.taps i = .checked ∨ s.taps i = .copied) :
    ∃ ls t, exec tapStep s ls = some t ∧ ¬ TapSafe t := by
  have hcall : ∀ u : TapSystem ι, u.pointer = none → u.taps i = .copied →
      tapStep u (.call i) = some (u.tap i .oops) ∧ ¬ TapSafe (u.tap i .oops) := by
    intro u hu hcopied
    refine ⟨by simp only [tapStep, hcopied, if_true, hu], fun hsafe => hsafe.notNull i ?_⟩
    exact Function.update_self i _ u.taps
  rcases hi with hchecked | hcopied
  · -- the copies in between do not look at the pointer again
    have hcopy : tapStep s (.copy i succeedingCopies) = some (s.tap i .copied) := by
      simp only [tapStep, hchecked, if_true]
      rfl
    obtain ⟨hstep, hunsafe⟩ := hcall (s.tap i .copied) hnull (Function.update_self i _ s.taps)
    refine ⟨[.copy i succeedingCopies, .call i], _, ?_, hunsafe⟩
    rw [exec, hcopy, Option.bind_some, exec, hstep]
    rfl
  · obtain ⟨hstep, hunsafe⟩ := hcall s hnull hcopied
    refine ⟨[.call i], _, ?_, hunsafe⟩
    rw [exec, hstep]
    rfl

/-- After a step that is not apart from the tap an unsafe state can be reached, if it has not
been reached already. -/
theorem unsafe_of_not_apart {s t : TapSystem ι} {l : TapLabel ι} (hg : ¬ ApartFromTaps s l)
    (hstep : tapStep s l = some t) : ∃ ls u, exec tapStep t ls = some u ∧ ¬ TapSafe u := by
  cases l with
  | clearPointer =>
      simp only [ApartFromTaps, not_forall, not_and_or, not_not] at hg
      obtain ⟨i, hi⟩ := hg
      simp only [tapStep] at hstep
      split at hstep
      · obtain rfl := Option.some.inj hstep
        exact reaches_null_call rfl hi
      · split at hstep
        · obtain rfl := Option.some.inj hstep
          exact reaches_null_call rfl hi
        · cases hstep
  | freeTable =>
      simp only [ApartFromTaps, not_forall, not_not] at hg
      obtain ⟨i, n, hi⟩ := hg
      simp only [tapStep] at hstep
      split at hstep
      · obtain rfl := Option.some.inj hstep
        refine ⟨[], _, rfl, fun hsafe => ?_⟩
        have hfreed := hsafe.notFreed i n hi
        cases hfreed
      · cases hstep
  | tableInit ok => exact absurd trivial hg
  | setPointer findSymbol => exact absurd trivial hg
  | started ok => exact absurd trivial hg
  | unload => exact absurd trivial hg
  | getRef => exact absurd trivial hg
  | putRef => exact absurd trivial hg
  | check i => exact absurd trivial hg
  | copy i o => exact absurd trivial hg
  | call i => exact absurd trivial hg
  | return_ i => exact absurd trivial hg

/-- **When the tap never calls into an absent proxy**: in all runs that keep the clearing of the
pointer and the freeing of the table apart from the callers in the tap. A run that does
not can be continued to a call through NULL, or has freed the table under a call. -/
theorem tapSafe_of_apart :
    (∀ s : TapSystem ι, Via tapStep ApartFromTaps TapSystem.init s → TapSafe s) ∧
      ∀ (s t : TapSystem ι) (l : TapLabel ι), Via tapStep ApartFromTaps TapSystem.init s →
        tapStep s l = some t → ¬ ApartFromTaps s l →
          ∃ ls u, exec tapStep t ls = some u ∧ ¬ TapSafe u := by
  refine ⟨fun s hs => ?_, fun s t l _ hstep hg => unsafe_of_not_apart hg hstep⟩
  exact (hs.invariant TapInv init_tapInv fun _ _ _ hu hg hstep => tapStep_keeps hu hg hstep).tapSafe

end Kept

/-- The unload begins while a caller is in the tap, and waits for it twice. -/
theorem tapSafe_of_patient_unload : ∃ s : TapSystem ℕ, s.table = none ∧ TapSafe s := by
  let ls : List (TapLabel ℕ) :=
    [.tableInit true, .setPointer true, .started true, .check 0, .copy 0 succeedingCopies,
      .unload, .call 0, .clearPointer, .return_ 0, .freeTable]
  have hsteps : StepsMeet tapStep ApartFromTaps TapSystem.init ls := by
    iterate 7
      rintro _ ⟨⟩
      refine ⟨trivial, ?_⟩
    rintro _ ⟨⟩
    refine ⟨fun i => ?_, ?_⟩
    · by_cases hi : i = 0 <;> simp [hi, TapSystem.tap, TapSystem.init]
    rintro _ ⟨⟩
    refine ⟨trivial, ?_⟩
    rintro _ ⟨⟩
    refine ⟨fun i n => ?_, trivial⟩
    by_cases hi : i = 0 <;> simp [hi, TapSystem.tap, TapSystem.init]
  have hrun : ∃ s : TapSystem ℕ, exec tapStep TapSystem.init ls = some s ∧ s.table = none :=
    ⟨_, rfl, rfl⟩
  obtain ⟨s, hs, hfreed⟩ := hrun
  exact ⟨s, hfreed, tapSafe_of_apart.1 s (via_of_stepsMeet hs hsteps)⟩

/-- The proxy is unloaded between a caller's check and its call. -/
theorem tap_calls_null :
    ¬ ∀ s : TapSystem ℕ, Via tapStep anyStep TapSystem.init s → TapSafe s := by
  intro hall
  have hrun : ∃ s : TapSystem ℕ, exec tapStep TapSystem.init
      [.tableInit true, .setPointer true, .started true, .check 0, .unload, .clearPointer,
        .copy 0 succeedingCopies, .call 0] = some s ∧ s.taps 0 = .oops := ⟨_, rfl, rfl⟩
  obtain ⟨s, hs, hoops⟩ := hrun
  exact (hall s (via_of_exec hs)).notNull 0 hoops

end LxcUio.System
