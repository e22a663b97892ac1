import LxcUio.Foundation.Ranking
import LxcUio.Server.Serving
import LxcUio.System.Mirror
import LxcUio.System.Wakeup

/-!
# The host at rest

Modules are put from outside. What follows a put is the host's own work: the three sections of
`send_event`, the pops and copies of the server's ioctl, and `main` with its calls of
`process_entry`. That work ends, whichever way its steps interleave: the event loop has no turn
that takes no entry, and the loop before it none that processes none.

The exits of a guest come from outside too. A call of `process_entry` has the finitely many of
`ProcessEnv.exits`, and when its guest runs on behind them the host is at rest inside it.

`unserved` counts what the entries still cost: a pop, a copy and a call that returns 1 for each
of them. Between two of these `main` goes forward in its text, which `ahead` counts, and a put
comes nearer to the end of its `send_event`.
-/

namespace LxcUio.System

open LxcUio.Foundation LxcUio.Proxy LxcUio.Server

/-! ## The host by itself -/

/-- A module is put, `select` reports an error, or a freed block of the server changes. -/
def fromOutside : HostLabel → Bool
  | .put _ _ => true
  | .selectError _ => true
  | .server (.scribble _) => true
  | _ => false

/-- The steps the host takes when it is left alone. -/
def ByItself (s : HostState) (a : HostLabel) : Prop :=
  MirrorInPlaceRuns s a ∧ fromOutside a = false

/-- Left alone, the host does nothing more. -/
def AtRest (debugOn : Bool) (s : HostState) : Prop :=
  ∀ a t, ByItself s a → hostStep debugOn s a ≠ some t

/-! ## Ranks -/

/-- How far `main` is from the end of its text, when no loop takes another turn. -/
def ahead : Pc → ℕ
  | .getMajorNumber => 18
  | .openKvm => 17
  | .checkExtension => 16
  | .eventfd => 15
  | .openCdev => 14
  | .registerServer => 13
  | .tableInit => 12
  | .drain => 11
  | .process .first => 10
  | .inProcess .first _ _ => 9
  | .select => 8
  | .getNew => 7
  | .readEventfd => 6
  | .process .event => 5
  | .inProcess .event _ _ => 4
  | .outTable => 3
  | .outDeregister => 2
  | .outEfd => 1
  | .returned => 0
  | .killed => 0

/-- What `process_entry` has still to do to the table. -/
def todoLength : Pc → ℕ
  | .inProcess _ todo _ => todo.length
  | _ => 0

/-- What is left of the `send_event` that holds `ks_mutex`. -/
def Sender.sections : Sender → ℕ
  | .idle => 0
  | .locked _ => 2
  | .peeked _ => 1

/-- What the entries still cost when `m` of those received are processed: three steps for one
that is pending, two for the one that the ioctl holds, one for one that is received. -/
def HostState.unserved (m : ℤ) (s : HostState) : ℤ :=
  3 * s.behind + 2 * window s.client + ((s.main.popped.length : ℤ) - m)

/-- First the entries, then the place in the text, then what is left of a call of
`process_entry` and of the puts on their way. -/
def rank (m : ℤ) (s : HostState) : ℕ ×ₗ ℕ ×ₗ ℕ :=
  toLex ((s.unserved m).toNat, toLex (ahead s.main.pc,
    todoLength s.main.pc + (3 * s.queued.length + s.sender.sections)))

/-- `m` of the entries received are processed. -/
structure Counted (k m : ℤ) (s : HostState) : Prop where
  mirror : MirrorInv k s
  nonneg : 0 ≤ m
  le_popped : m ≤ s.main.popped.length
  serving : Serving m s.main.table s.main.pc

/-! ### `main` goes forward -/

/-- The labels at which `main` may stay where it is or go back: an entry was received, the
answer of `select` was that nothing is readable, a call of `process_entry` goes on or returns,
or nothing of `main`'s own happened. -/
def mayStay : MainLabel → Bool
  | .gotEntry ret _ _ => ret ≠ 0
  | .selected _ readable => !readable
  | .processStep => true
  | .processReturn => true
  | .scribble _ => true
  | _ => false

/-- Everything else brings `main` forward. -/
theorem ahead_step {debugOn : Bool} {s t : MainState} {l : MainLabel} (hl : mayStay l = false)
    (hs : mainStep debugOn s l = some t) : ahead t.pc < ahead s.pc := by
  have hgot : ∀ {ret uuid env}, l = .gotEntry ret uuid env →
      (s.received ret uuid env).retVal = 0 := by
    rintro ret uuid env rfl
    have hzero : ret = 0 := not_not.mp (of_decide_eq_false hl)
    exact (getNewEntry_eq_zero s.table ret uuid env).mpr hzero
  cases mainStep_move hs with
  | drained hpc =>
      have hret := hgot rfl
      rw [MainState.drained, if_neg (by omega), if_pos hret, hpc]
      simp only [ahead]
      decide
  | woken hpc =>
      rw [MainState.woken, if_pos (hgot rfl), hpc]
      simp only [ahead, MainState.leave]
      decide
  | @callProcess site env hpc =>
      rw [hpc]
      cases site with
      | first => exact Nat.lt_succ_self 9
      | event => exact Nat.lt_succ_self 4
  | processStep => cases hl
  | processReturn => cases hl
  | bug => cases hl
  | crashed => cases hl
  | scribble => cases hl
  | notReadable => cases hl
  | _ hpc =>
      rw [hpc]
      simp only [ahead, MainState.leave]
      decide

/-- After a call that did not return 1 `main` does not come back to it. -/
theorem ahead_processed (s : MainState) (site : Site) {ret : ℤ} (hret : ret ≤ 0)
    (todo : List UuidTable) (result : ProcessResult) :
    ahead (s.processed site ret).pc < ahead (.inProcess site todo result) := by
  have hpos : ¬ ret > 0 := not_lt.mpr hret
  have hone : ¬ ret = 1 := by omega
  cases site with
  | first =>
      simp only [MainState.processed, if_neg hpos]
      split
      · simp only [ahead]
        decide
      · split <;> simp only [ahead, MainState.leave] <;> decide
  | event =>
      simp only [MainState.processed, if_neg hone]
      split
      · simp only [ahead, MainState.leave]
        decide
      · split <;> simp only [ahead, MainState.leave] <;> decide

/-- **What a step of `main` does** by itself: it finishes an entry, or it goes forward, or the
call of `process_entry` that it is in does. -/
theorem served_or_ahead {debugOn : Bool} {s t : MainState} {l : MainLabel} {m : ℤ} (h0 : 0 ≤ m)
    (hmain : MainInv s) (h : Serving m s.table s.pc) (hg : InPlaceRuns s l)
    (hl : isLocal l = true) (hown : fromOutside (.server l) = false)
    (hs : mainStep debugOn s l = some t) :
    (m + 1 ≤ s.popped.length ∧ Serving (m + 1) t.table t.pc) ∨
      Serving m t.table t.pc ∧ (ahead t.pc < ahead s.pc ∨
        ahead t.pc = ahead s.pc ∧ todoLength t.pc < todoLength s.pc) := by
  rcases serving_step h0 hmain h hg hs with ⟨hnone, hsame⟩ | ⟨uuid, -, hget, hnext⟩
  · right
    refine ⟨hsame, ?_⟩
    by_cases hstay : mayStay l = false
    · exact Or.inl (ahead_step hstay hs)
    · have hat := hmain.atPc
      cases mainStep_move hs with
      | @processStep site u todo result hpc =>
          right
          rw [hpc]
          cases site with
          | first => exact ⟨rfl, Nat.lt_succ_self _⟩
          | event => exact ⟨rfl, Nat.lt_succ_self _⟩
      | @processReturn site ret hpc =>
          left
          rw [hpc] at h hat ⊢
          obtain ⟨env, t0, -, ht0, -, hduring, -, hdoes⟩ := hat
          apply ahead_processed
          rcases hdoes.returned_cases with ⟨hzero, -⟩ | ⟨hone, -⟩ | hneg
          · exact le_of_eq hzero
          · -- an entry is finished, and `finishedUuid` tells which
            subst hone
            obtain ⟨uuid, hlast, -⟩ :=
              getLast_servedUuids (hduring.frame.holds ht0) h0 (h Int.one_nonneg)
            simp only [finishedUuid, hpc, if_true, hlast] at hnone
            cases hnone
          · exact le_of_lt hneg
      | @bug site b hpc =>
          left
          rw [hpc]
          exact ahead_processed _ site (by decide) _ _
      | @crashed site hpc =>
          left
          rw [hpc]
          cases site with
          | first => exact Nat.succ_pos 8
          | event => exact Nat.succ_pos 3
      | drained => cases hl
      | woken => cases hl
      | selectError => cases hl
      | notReadable => cases hl
      | scribble => cases hown
      | _ => exact absurd rfl hstay
  · left
    obtain ⟨hlt, -⟩ := List.getElem?_eq_some_iff.mp hget
    exact ⟨by omega, hnext⟩

/-! ### The host comes nearer to rest -/

section Ranks

variable {s t : HostState} {m n : ℤ}

theorem rank_of_unserved (h0 : 0 < s.unserved m) (h : t.unserved n < s.unserved m) :
    rank n t < rank m s := by
  apply Prod.Lex.toLex_lt_toLex.mpr
  left
  exact (Int.toNat_lt_toNat h0).mpr h

theorem rank_of_ahead (h : t.unserved m = s.unserved m)
    (hahead : ahead t.main.pc < ahead s.main.pc) : rank m t < rank m s := by
  apply Prod.Lex.toLex_lt_toLex.mpr
  right
  refine ⟨congrArg Int.toNat h, ?_⟩
  apply Prod.Lex.toLex_lt_toLex.mpr
  left
  exact hahead

theorem rank_of_steps (h : t.unserved m = s.unserved m)
    (hahead : ahead t.main.pc = ahead s.main.pc)
    (hsteps : todoLength t.main.pc + (3 * t.queued.length + t.sender.sections) <
      todoLength s.main.pc + (3 * s.queued.length + s.sender.sections)) :
    rank m t < rank m s := by
  apply Prod.Lex.toLex_lt_toLex.mpr
  right
  refine ⟨congrArg Int.toNat h, ?_⟩
  apply Prod.Lex.toLex_lt_toLex.mpr
  right
  exact ⟨hahead, hsteps⟩

end Ranks

/-- The number of entries behind the cursor, and of those received, is not negative. -/
theorem MirrorInv.behind_nonneg {k : ℤ} {s : HostState} (h : MirrorInv k s) : 0 ≤ s.behind := by
  have hlt := h.healthy.sound.index_lt
  unfold HostState.behind
  omega

/-- **Each step that the host takes by itself lowers its rank.** -/
theorem rank_step {debugOn : Bool} {k m : ℤ} {s t : HostState} {a : HostLabel}
    (h : Counted k m s) (hg : ByItself s a) (hs : hostStep debugOn s a = some t) :
    ∃ n, Counted k n t ∧ rank n t < rank m s := by
  obtain ⟨hmirror, h0, hle, hserving⟩ := h
  have hmirror' := mirrorInv_step debugOn k s a t hmirror hg.1 hs
  have hbehind := hmirror.behind_nonneg
  have hranked : ∀ n : ℤ, 0 ≤ n → n ≤ t.main.popped.length → Serving n t.main.table t.main.pc →
      rank n t < rank m s → ∃ n, Counted k n t ∧ rank n t < rank m s :=
    fun n hn hle hserving hlt => ⟨n, ⟨hmirror', hn, hle, hserving⟩, hlt⟩
  have hserving' : (∀ l, a ≠ .server l) → Serving m t.main.table t.main.pc := fun ha =>
    serving_hostStep ha hmirror.healthy hmirror.main hserving hg.1 hs
  have hsame : ∀ {l : MainLabel} {u : MainState}, mainStep debugOn s.main l = some u →
      receivedUuid l = [] → u.popped = s.main.popped := by
    intro l u hu hnone
    rw [mainStep_popped hu, hnone, List.append_nil]
  -- a step of `main` that takes it forward, and nothing else
  have hforward : ∀ {l : MainLabel}, mainStep debugOn s.main l = some t.main →
      mayStay l = false → receivedUuid l = [] → t.behind = s.behind → t.client = s.client →
      (∀ l, a ≠ .server l) → ∃ n, Counted k n t ∧ rank n t < rank m s := by
    intro l hm hl hnone hbehind hclient ha
    have hpopped := hsame hm hnone
    refine hranked m h0 (by rwa [hpopped]) (hserving' ha) (rank_of_ahead ?_ (ahead_step hl hm))
    unfold HostState.unserved
    rw [hbehind, hclient, hpopped]
  cases hostStep_move hs with
  | put => cases hg.2
  | putFailed => cases hg.2
  | @notRegistered i hidle hks hi =>
      refine hranked m h0 hle (hserving' (by rintro l ⟨⟩)) (rank_of_steps rfl rfl ?_)
      have hpos := List.length_pos_of_mem hi
      simp only [List.length_erase_of_mem hi]
      omega
  | @locked i server hidle hks hi =>
      refine hranked m h0 hle (hserving' (by rintro l ⟨⟩)) (rank_of_steps rfl rfl ?_)
      have hpos := List.length_pos_of_mem hi
      simp only [List.length_erase_of_mem hi, hidle, Sender.sections]
      omega
  | peekedNone hsender hpeek =>
      refine hranked m h0 hle (hserving' (by rintro l ⟨⟩)) (rank_of_steps rfl rfl ?_)
      simp only [hsender, Sender.sections]
      omega
  | peeked hsender hpeek =>
      refine hranked m h0 hle (hserving' (by rintro l ⟨⟩)) (rank_of_steps rfl rfl ?_)
      simp only [hsender, Sender.sections]
      omega
  | signalled hsender hks hfp =>
      refine hranked m h0 hle (hserving' (by rintro l ⟨⟩)) (rank_of_steps rfl rfl ?_)
      simp only [hsender, Sender.sections]
      omega
  | signalledOther hsender hks hfp =>
      refine hranked m h0 hle (hserving' (by rintro l ⟨⟩)) (rank_of_steps rfl rfl ?_)
      simp only [hsender, Sender.sections]
      omega
  | popNone hclient hpop hm =>
      obtain ⟨-, rfl⟩ := popEntry_noEntry_allocated hmirror.healthy.allocated hpop
      exact hforward hm rfl rfl rfl rfl (by rintro l ⟨⟩)
  | popOops hclient hask hpop => exact absurd hpop (popEntry_ne_oops hmirror.healthy.allocated)
  | @popped env i uuid u hclient hask hpop =>
      obtain ⟨hp, -, -, -, rfl⟩ := popEntry_entry hpop
      unfold ModuleTable.Pending at hp
      refine hranked m h0 hle (hserving' (by rintro l ⟨⟩)) (rank_of_unserved ?_ ?_)
      · simp only [HostState.unserved, HostState.behind, hclient, window]
        omega
      · simp only [HostState.unserved, HostState.behind, hclient, window]
        omega
  | @copied env i uuid u hclient hm =>
      have hpopped : u.popped = s.main.popped ++ [uuid] := mainStep_popped hm
      have hlength : u.popped.length = s.main.popped.length + 1 := by
        rw [hpopped, List.length_append, List.length_singleton]
      refine hranked m h0 ?_ (hserving' (by rintro l ⟨⟩)) (rank_of_unserved ?_ ?_)
      · show m ≤ (u.popped.length : ℤ)
        omega
      · simp only [HostState.unserved, hclient, window]
        omega
      · simp only [HostState.unserved, HostState.behind, hclient, window, hlength]
        omega
  | copyFailed hclient hn => exact absurd hg.1.1.1.1 hn
  | unpopped hclient hm => exact absurd hclient hmirror.healthy.not_copyFailed
  | registered hidle hret hm => exact hforward hm rfl rfl rfl rfl (by rintro l ⟨⟩)
  | deRegistered hidle hm => exact hforward hm rfl rfl rfl rfl (by rintro l ⟨⟩)
  | selected hcounter hm => exact hforward hm rfl rfl rfl rfl (by rintro l ⟨⟩)
  | selectError => cases hg.2
  | read hcounter hm => exact hforward hm rfl rfl rfl rfl (by rintro l ⟨⟩)
  | readFailed hm => exact hforward hm rfl rfl rfl rfl (by rintro l ⟨⟩)
  | @server l u hl hm =>
      have hnone : receivedUuid l = [] := by
        cases l with
        | gotEntry => cases hl
        | _ => rfl
      have hpopped := hsame hm hnone
      obtain ⟨hfew, hin⟩ := few_of_isLocal (s := s.main) hl
      rcases served_or_ahead h0 hmirror.main hserving ⟨⟨hg.1.1.1, hfew⟩, hin⟩ hl hg.2 hm with
        ⟨hnext, hserving⟩ | ⟨hserving, hahead | ⟨hahead, htodo⟩⟩
      · refine hranked (m + 1) (by omega) (by rwa [hpopped]) hserving (rank_of_unserved ?_ ?_)
        · have hwindow := window_nonneg s.client
          unfold HostState.unserved
          omega
        · simp only [HostState.unserved, HostState.behind, hpopped]
          omega
      · refine hranked m h0 (by rwa [hpopped]) hserving (rank_of_ahead ?_ hahead)
        simp only [HostState.unserved, HostState.behind, hpopped]
      · refine hranked m h0 (by rwa [hpopped]) hserving (rank_of_steps ?_ hahead ?_)
        · simp only [HostState.unserved, HostState.behind, hpopped]
        · exact Nat.add_lt_add_right htodo _

/-! ## The work ends -/

/-- What was received stays received. -/
theorem popped_hostStep {debugOn : Bool} {s t : HostState} {a : HostLabel}
    (hs : hostStep debugOn s a = some t) :
    ∃ more, t.main.popped = s.main.popped ++ more := by
  cases hostStep_move hs with
  | popNone hclient hpop hm => exact ⟨_, mainStep_popped hm⟩
  | copied hclient hm => exact ⟨_, mainStep_popped hm⟩
  | unpopped hclient hm => exact ⟨_, mainStep_popped hm⟩
  | registered hidle hret hm => exact ⟨_, mainStep_popped hm⟩
  | deRegistered hidle hm => exact ⟨_, mainStep_popped hm⟩
  | selected hcounter hm => exact ⟨_, mainStep_popped hm⟩
  | selectError hret hm => exact ⟨_, mainStep_popped hm⟩
  | read hcounter hm => exact ⟨_, mainStep_popped hm⟩
  | readFailed hm => exact ⟨_, mainStep_popped hm⟩
  | server hl hm => exact ⟨_, mainStep_popped hm⟩
  | _ => exact ⟨[], (List.append_nil _).symm⟩

theorem counted_step {debugOn : Bool} {k m : ℤ} {s t : HostState} {a : HostLabel}
    (h : Counted k m s) (hg : MirrorInPlaceRuns s a) (hs : hostStep debugOn s a = some t) :
    ∃ n, Counted k n t := by
  have hmirror := mirrorInv_step debugOn k s a t h.mirror hg hs
  obtain ⟨more, hpopped⟩ := popped_hostStep hs
  have hlength : t.main.popped.length = s.main.popped.length + more.length := by
    rw [hpopped, List.length_append]
  have h0 := h.nonneg
  have hle := h.le_popped
  by_cases ha : ∃ l, a = .server l
  · obtain ⟨l, rfl⟩ := ha
    cases hostStep_move hs with
    | server hl hm =>
        obtain ⟨hfew, hin⟩ := few_of_isLocal (s := s.main) hl
        rcases serving_step h0 h.mirror.main h.serving ⟨⟨hg.1.1, hfew⟩, hin⟩ hm with
          ⟨-, hserving⟩ | ⟨uuid, -, hget, hserving⟩
        · exact ⟨m, hmirror, h0, by omega, hserving⟩
        · obtain ⟨hlt, -⟩ := List.getElem?_eq_some_iff.mp hget
          exact ⟨m + 1, hmirror, by omega, by omega, hserving⟩
  · have hserving := serving_hostStep (fun l hl => ha ⟨l, hl⟩) h.mirror.healthy h.mirror.main
      h.serving hg hs
    exact ⟨m, hmirror, h0, by omega, hserving⟩

theorem counted_of_run {debugOn : Bool} {proxy : UsableTable} {efd : FilePtr}
    {mem : ℤ → UuidTableEntry} {s : HostState}
    (h : Via (hostStep debugOn) MirrorInPlaceRuns (HostState.init proxy.table efd mem) s) :
    ∃ m, Counted proxy.table.tableIndex m s := by
  apply h.invariant fun u => ∃ m, Counted proxy.table.tableIndex m u
  · exact ⟨0, init_mirrorInv proxy efd mem, le_refl 0, Int.natCast_nonneg _, rfl⟩
  · rintro u a v ⟨m, hm⟩ hg hs
    exact counted_step hm hg hs

/-- **The host comes to rest.** In the runs in which nothing fails and the server's table grows
in place, however the senders, the ioctls and `main` take turns, the host takes only finitely
many steps between two that come from outside. Of the loop around `KVM_RUN` this says nothing:
it turns as often as the guest exits. -/
theorem host_comes_to_rest (debugOn : Bool) (proxy : UsableTable) (efd : FilePtr)
    (mem : ℤ → UuidTableEntry) :
    ComesToRest (hostStep debugOn)
      (Via (hostStep debugOn) MirrorInPlaceRuns (HostState.init proxy.table efd mem)) ByItself := by
  apply wellFounded_of_ranks (R := fun s r =>
    ∃ m, Counted proxy.table.tableIndex m s ∧ rank m s = r)
  · intro s hrun
    obtain ⟨m, hm⟩ := counted_of_run hrun
    exact ⟨rank m s, m, hm, rfl⟩
  · rintro s a t r ⟨m, hm, rfl⟩ hg hs
    obtain ⟨n, hn, hlt⟩ := rank_step hm hg hs
    exact ⟨rank n t, ⟨n, hn, rfl⟩, hlt⟩

/-! ## What is done at rest -/

/-- Who is in the middle of something: a `send_event` that goes on has a server to signal, and
an ioctl that holds an entry is one that `get_new_entry` asked for. -/
structure Engaged (s : HostState) : Prop where
  sender : s.sender ≠ .idle → s.ks.isSome = true
  client : s.client ≠ .idle → asksEntry s.main.pc = true

section Resting

variable {debugOn : Bool} {s : HostState} {a : HostLabel}

theorem AtRest.not_taken (h : AtRest debugOn s) (hg : ByItself s a) : hostStep debugOn s a = none :=
  Option.eq_none_iff_forall_ne_some.mpr fun t => h a t hg

/-- Nor does `main`, where it needs nobody else. -/
theorem AtRest.local (h : AtRest debugOn s) {l : MainLabel} (hl : isLocal l = true)
    (hown : fromOutside (.server l) = false) (hsucceeds : AllocationsSucceed s.main l) :
    mainStep debugOn s.main l = none := by
  have hnone := h.not_taken (a := .server l) ⟨⟨⟨hsucceeds, trivial⟩, trivial⟩, hown⟩
  rw [hostStep, if_pos hl] at hnone
  exact Option.map_eq_none_iff.mp hnone

theorem AtRest.sender (h : AtRest debugOn s) (hengaged : Engaged s) : s.sender = .idle := by
  cases hsender : s.sender with
  | idle => rfl
  | locked i =>
      have hnone := h.not_taken (a := .sendPeek) ⟨⟨⟨trivial, trivial⟩, trivial⟩, rfl⟩
      simp only [hostStep, hsender] at hnone
      split at hnone <;> cases hnone
  | peeked i =>
      have hsome := hengaged.sender (by rw [hsender]; rintro ⟨⟩)
      obtain ⟨server, hks⟩ := Option.isSome_iff_exists.mp hsome
      have hnone := h.not_taken (a := .sendSignal) ⟨⟨⟨trivial, trivial⟩, trivial⟩, rfl⟩
      simp only [hostStep, hsender, hks] at hnone
      split at hnone <;> cases hnone

theorem AtRest.queued (h : AtRest debugOn s) (hidle : s.sender = .idle) : s.queued = [] := by
  by_contra hne
  obtain ⟨i, hi⟩ := List.exists_mem_of_ne_nil _ hne
  have hnone := h.not_taken (a := .sendLock i) ⟨⟨⟨trivial, trivial⟩, trivial⟩, rfl⟩
  cases hks : s.ks with
  | none =>
      simp only [hostStep, hidle, hks, if_pos hi] at hnone
      cases hnone
  | some server =>
      simp only [hostStep, hidle, hks, if_pos hi] at hnone
      cases hnone

/-- An answer of `get_new_entry` is always taken. -/
theorem gotEntry_taken {main : MainState} (hask : asksEntry main.pc = true) (ret : ℤ)
    (uuid : Uuid) (env : NewEntryEnv) :
    mainStep debugOn main (.gotEntry ret uuid env) ≠ Option.none := by
  cases hpc : main.pc with
  | drain => simp [mainStep, hpc]
  | getNew => simp [mainStep, hpc]
  | _ =>
      rw [hpc] at hask
      cases hask

/-- The uuids received and the one being received are in the proxy's table. -/
theorem MirrorInv.length_popped {k : ℤ} (h : MirrorInv k s) :
    (s.main.popped.length : ℤ) = s.received - k := by
  have hle := h.k_le
  rw [h.popped, proxyUuids, List.length_map, HeapArray.length_slice]
  omega

theorem AtRest.client {k : ℤ} (h : AtRest debugOn s) (hmirror : MirrorInv k s)
    (hengaged : Engaged s) (hfew : s.proxy.tableNumEntries < 2 ^ 22) : s.client = .idle := by
  rcases hmirror.healthy.client with hidle | ⟨i, uuid, hholds⟩
  · exact hidle
  · exfalso
    have hask := hengaged.client (by rw [hholds]; rintro ⟨⟩)
    have hlength := hmirror.length_popped
    have hlt := hmirror.healthy.sound.index_lt
    have hge := hmirror.k_ge
    rw [received_holds hholds, (hmirror.held i uuid hholds).1] at hlength
    have hpopped : s.main.popped.length + 1 < 2 ^ 22 := by omega
    have hnone := h.not_taken (a := .ioctlCopy 0 entryEnv)
      ⟨⟨⟨⟨rfl, rfl, entryEnv_granted _⟩, hpopped⟩, fun _ => ⟨_, rfl⟩⟩, rfl⟩
    simp only [hostStep, hholds, if_true] at hnone
    exact gotEntry_taken hask _ _ _ (Option.map_eq_none_iff.mp hnone)

/-- Nor is `main` about to ask for an entry. -/
theorem AtRest.asks (h : AtRest debugOn s) (hidle : s.client = .idle) :
    asksEntry s.main.pc = false := by
  by_contra hask
  rw [Bool.not_eq_false] at hask
  have hnone := h.not_taken (a := .ioctlPop entryEnv) ⟨⟨⟨trivial, trivial⟩, trivial⟩, rfl⟩
  simp only [hostStep, hidle, hask] at hnone
  split at hnone
  · exact gotEntry_taken hask _ _ _ (Option.map_eq_none_iff.mp hnone)
  · cases hnone
  · cases hnone

/-- Where `main` is when nothing more happens. -/
theorem AtRest.pc (h : AtRest debugOn s) (hsender : s.sender = .idle)
    (hclient : s.client = .idle) :
    s.main.pc = .returned ∨ s.main.pc = .killed ∨
      (∃ site, s.main.pc = .inProcess site [] .running) ∨
        s.main.pc = .select ∧ s.counter = 0 := by
  have hask := h.asks hclient
  cases hpc : s.main.pc with
  | getMajorNumber =>
      have hnone := h.local (l := .majorNumber 0) rfl rfl trivial
      simp [mainStep, hpc] at hnone
  | openKvm =>
      have hnone := h.local (l := .kvmOpened 0) rfl rfl trivial
      simp [mainStep, hpc] at hnone
  | checkExtension =>
      have hnone := h.local (l := .extension 1) rfl rfl trivial
      simp [mainStep, hpc] at hnone
  | eventfd =>
      have hnone := h.local (l := .eventfdCreated 0) rfl rfl trivial
      simp [mainStep, hpc] at hnone
  | openCdev =>
      have hnone := h.local (l := .cdevOpened 0) rfl rfl trivial
      simp [mainStep, hpc] at hnone
  | registerServer =>
      have hnone := h.not_taken (a := .register 0 0 (some 0))
        ⟨⟨⟨rfl, trivial⟩, trivial⟩, rfl⟩
      simp only [hostStep, hsender, serverStep, mainStep, hpc] at hnone
      split at hnone <;> cases hnone
  | tableInit =>
      have hnone := h.local (l := .initTable (.ok fun _ => default)) rfl rfl rfl
      simp only [mainStep, hpc] at hnone
      split at hnone <;> cases hnone
  | drain =>
      rw [hpc] at hask
      cases hask
  | process site =>
      have hnone := h.local (l := .callProcess okEnv) rfl rfl okEnv_mallocSucceeds
      simp [mainStep, hpc] at hnone
  | inProcess site todo result =>
      cases todo with
      | cons u todo =>
          have hnone := h.local (l := .processStep) rfl rfl trivial
          simp [mainStep, hpc] at hnone
      | nil =>
          cases result with
          | running => exact Or.inr (Or.inr (Or.inl ⟨site, rfl⟩))
          | _ =>
              have hnone := h.local (l := .processReturn) rfl rfl trivial
              simp [mainStep, hpc] at hnone
  | select =>
      refine Or.inr (Or.inr (Or.inr ⟨rfl, ?_⟩))
      by_contra hcounter
      have hnone := h.not_taken (a := .selectReady) ⟨⟨⟨trivial, trivial⟩, trivial⟩, rfl⟩
      simp [hostStep, serverStep, mainStep, hpc, if_pos (Nat.pos_of_ne_zero hcounter)] at hnone
  | getNew =>
      rw [hpc] at hask
      cases hask
  | readEventfd =>
      have hnone := h.not_taken (a := .readEventfd false) ⟨⟨⟨trivial, trivial⟩, trivial⟩, rfl⟩
      simp [hostStep, serverStep, mainStep, hpc] at hnone
  | outTable =>
      have hnone := h.local (l := .deleteTable) rfl rfl trivial
      simp [mainStep, hpc] at hnone
  | outDeregister =>
      have hnone := h.not_taken (a := .deRegister) ⟨⟨⟨trivial, trivial⟩, trivial⟩, rfl⟩
      simp [hostStep, serverStep, mainStep, hpc, hsender] at hnone
  | outEfd =>
      have hnone := h.local (l := .closed) rfl rfl trivial
      simp [mainStep, hpc] at hnone
  | returned => exact Or.inl rfl
  | killed => exact Or.inr (Or.inl rfl)

end Resting

/-- While the server waits, everything that the cursor has passed is served. -/
theorem MirrorInv.served {k : ℤ} {s : HostState} (h : MirrorInv k s) (hpc : s.main.pc = .select)
    (hclient : s.client = .idle) :
    servedUuids s.main.table = proxyUuids s.proxy (k + 1) (s.proxy.tableIndex + 1) := by
  have hat := h.main.atPc
  rw [hpc] at hat
  obtain ⟨hholds, hprogress⟩ := hat
  rw [servedUuids_eq hholds hprogress, hholds.num_eq, Int.toNat_natCast, List.take_length,
    h.popped, received_idle hclient]

end LxcUio.System
