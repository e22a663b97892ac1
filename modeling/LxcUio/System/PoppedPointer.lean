import LxcUio.Foundation.ForwardSimulation
import LxcUio.Proxy.TableLog
import LxcUio.System.Delivery

/-!
# The pointer that `table_pop` returns

`Delivery` takes the pop and the read of `mt->uuid` as one step. In `cdev_ioctl` the read
comes after `table_mutex` has been released, through a pointer into the block that
`module_table` pointed to. Here they are two steps, and each allocation of the table is a
block of its own: a `krealloc` that moves the table frees the block it was in.

- A pointer is a block with the index of a cell; `none` is one computed from NULL.
- `krealloc` answers also whether it moves the table.
- What is read of a freed block is anything.
-/

namespace LxcUio.System

open LxcUio.Foundation LxcUio.Proxy

/-! ## The system -/

/-- Where a client stands in the ioctl, from `table_pop` on. -/
inductive ReaderPhase where
  | idle
  | points (block : Option ℕ) (i : ℤ)
  | read (i : ℤ) (uuid : Uuid)
  | copyFailed (i : ℤ) (retval : ℤ)
  | oopsed

structure PointerState where
  table : ModuleTable
  block : ℕ
  freed : List ℕ
  reader : ℕ → ReaderPhase
  returned : List (ℤ × Uuid)

inductive PointerLabel where
  | put (mt : ModuleTableStruct) (krealloc : Option (Bool × (ℤ → ModuleTableStruct)))
  | pop (c : ℕ)
  | readUuid (c : ℕ) (garbage : Uuid)
  | copy (c : ℕ) (notCopied : ℕ)
  | unpop (c : ℕ)

def PointerState.init (mem kmem : ℤ → ModuleTableStruct) : PointerState :=
  ⟨(UsableTable.fresh mem kmem).table, 0, [], fun _ => .idle, []⟩

/-- `table_put` calls `krealloc`. -/
def grows (t : ModuleTable) : Prop :=
  t.moduleTable.isNull = false ∧ t.tableNumEntries = t.tableSize

instance (t : ModuleTable) : Decidable (grows t) := inferInstanceAs (Decidable (_ ∧ _))

/-- The put is given a new block, and the old one is freed. -/
def moves (t : ModuleTable) (krealloc : Option (Bool × (ℤ → ModuleTableStruct))) : Prop :=
  grows t ∧ krealloc.map Prod.fst = some true

instance (t : ModuleTable) (krealloc : Option (Bool × (ℤ → ModuleTableStruct))) :
    Decidable (moves t krealloc) :=
  inferInstanceAs (Decidable (_ ∧ _))

def PointerState.setReader (s : PointerState) (c : ℕ) (p : ReaderPhase) : PointerState :=
  { s with reader := Function.update s.reader c p }

def pointerStep (s : PointerState) : PointerLabel → Option PointerState
  | .put mt krealloc =>
      let t := (tablePut s.table mt (krealloc.map Prod.snd)).2
      if moves s.table krealloc then
        some { s with table := t, block := s.block + 1, freed := s.block :: s.freed }
      else some { s with table := t }
  | .pop c =>
      match s.reader c with
      | .idle =>
          match tablePop s.table with
          | (none, t) => some { s with table := t }
          | (some i, t) =>
              let block := if t.moduleTable.isNull = true then none else some s.block
              some ({ s with table := t }.setReader c (.points block i))
      | _ => none
  | .readUuid c garbage =>
      match s.reader c with
      | .points none _ => some (s.setReader c .oopsed)
      | .points (some b) i =>
          -- the current block keeps its cells when `module_table` is overwritten with NULL
          if b ∈ s.freed then some (s.setReader c (.read i garbage))
          else some (s.setReader c (.read i (s.table.moduleTable.cells i).uuid))
      | _ => none
  | .copy c notCopied =>
      match s.reader c with
      | .read i uuid =>
          if notCopied = 0 then
            some { s.setReader c .idle with returned := (i, uuid) :: s.returned }
          else some (s.setReader c (.copyFailed i (copiedRetval notCopied)))
      | _ => none
  | .unpop c =>
      match s.reader c with
      | .copyFailed _ _ =>
          some { s.setReader c .idle with table := (tablePopReverse s.table).2 }
      | _ => none

/-- **No client is about to read freed memory.** -/
def PointersLive (s : PointerState) : Prop :=
  ∀ c b i, s.reader c = .points (some b) i → b ∉ s.freed

/-- The guard: the table is moved only while no client is between its pop and its read. -/
def MovesAlone (s : PointerState) : PointerLabel → Prop
  | .put _ krealloc => moves s.table krealloc → ∀ c b i, s.reader c ≠ .points (some b) i
  | _ => True

/-! ## What a step does -/

theorem setReader_self (s : PointerState) (c : ℕ) (p : ReaderPhase) :
    (s.setReader c p).reader c = p := Function.update_self ..

theorem setReader_of_ne (s : PointerState) {c d : ℕ} (p : ReaderPhase) (h : d ≠ c) :
    (s.setReader c p).reader d = s.reader d := Function.update_of_ne h ..

/-- Every step, with what it found. -/
inductive PointerMove (s : PointerState) : PointerLabel → PointerState → Prop
  | putMoves {mt krealloc} (hmoves : moves s.table krealloc) :
      PointerMove s (.put mt krealloc)
        { s with
          table := (tablePut s.table mt (krealloc.map Prod.snd)).2
          block := s.block + 1
          freed := s.block :: s.freed }
  | put {mt krealloc} (hstays : ¬ moves s.table krealloc) :
      PointerMove s (.put mt krealloc)
        { s with table := (tablePut s.table mt (krealloc.map Prod.snd)).2 }
  | popNone {c t} (hidle : s.reader c = .idle) (hpop : tablePop s.table = (none, t)) :
      PointerMove s (.pop c) { s with table := t }
  | popNull {c i t} (hidle : s.reader c = .idle) (hpop : tablePop s.table = (some i, t))
      (hnull : t.moduleTable.isNull = true) :
      PointerMove s (.pop c) ({ s with table := t }.setReader c (.points none i))
  | pop {c i t} (hidle : s.reader c = .idle) (hpop : tablePop s.table = (some i, t))
      (hnull : t.moduleTable.isNull = false) :
      PointerMove s (.pop c) ({ s with table := t }.setReader c (.points (some s.block) i))
  | oops {c garbage i} (hpoints : s.reader c = .points none i) :
      PointerMove s (.readUuid c garbage) (s.setReader c .oopsed)
  | readFreed {c garbage b i} (hpoints : s.reader c = .points (some b) i) (hfreed : b ∈ s.freed) :
      PointerMove s (.readUuid c garbage) (s.setReader c (.read i garbage))
  | read {c garbage b i} (hpoints : s.reader c = .points (some b) i) (hlive : b ∉ s.freed) :
      PointerMove s (.readUuid c garbage)
        (s.setReader c (.read i (s.table.moduleTable.cells i).uuid))
  | copied {c i uuid} (hread : s.reader c = .read i uuid) :
      PointerMove s (.copy c 0) { s.setReader c .idle with returned := (i, uuid) :: s.returned }
  | copyFailed {c n i uuid} (hread : s.reader c = .read i uuid) (hn : n ≠ 0) :
      PointerMove s (.copy c n) (s.setReader c (.copyFailed i (copiedRetval n)))
  | unpop {c i retval} (hfailed : s.reader c = .copyFailed i retval) :
      PointerMove s (.unpop c) { s.setReader c .idle with table := (tablePopReverse s.table).2 }

theorem pointerStep_move {s t : PointerState} {a : PointerLabel}
    (hs : pointerStep s a = some t) : PointerMove s a t := by
  cases a with
  | put mt krealloc =>
      simp only [pointerStep] at hs
      split at hs <;> obtain rfl := Option.some.inj hs
      · exact .putMoves ‹_›
      · exact .put ‹_›
  | pop c =>
      simp only [pointerStep] at hs
      split at hs
      · rename_i hidle
        split at hs
        · obtain rfl := Option.some.inj hs
          exact .popNone hidle ‹_›
        · rename_i i u hpop
          obtain rfl := Option.some.inj hs
          cases hnull : u.moduleTable.isNull with
          | true => exact .popNull hidle hpop hnull
          | false => exact .pop hidle hpop hnull
      · cases hs
  | readUuid c garbage =>
      simp only [pointerStep] at hs
      split at hs
      · obtain rfl := Option.some.inj hs
        exact .oops ‹_›
      · split at hs <;> obtain rfl := Option.some.inj hs
        · exact .readFreed ‹_› ‹_›
        · exact .read ‹_› ‹_›
      · cases hs
  | copy c n =>
      simp only [pointerStep] at hs
      split at hs
      · split at hs
        · rename_i hn
          subst hn
          obtain rfl := Option.some.inj hs
          exact .copied ‹_›
        · obtain rfl := Option.some.inj hs
          exact .copyFailed ‹_› ‹_›
      · cases hs
  | unpop c =>
      simp only [pointerStep] at hs
      split at hs
      · obtain rfl := Option.some.inj hs
        exact .unpop ‹_›
      · cases hs

/-! ## When the pointers are live -/

/-- Every pointer to be read is one into the current block, and that block is not freed. -/
structure PointerInv (s : PointerState) : Prop where
  sound : s.table.Sound
  freed_lt : ∀ b ∈ s.freed, b < s.block
  points : ∀ c b i, s.reader c = .points (some b) i →
    b = s.block ∧ 0 ≤ i ∧ i < s.table.tableNumEntries

theorem PointerInv.live {s : PointerState} (h : PointerInv s) : PointersLive s := by
  intro c b i hc hfreed
  have hlt := h.freed_lt b hfreed
  have hblock := (h.points c b i hc).1
  omega

theorem init_pointerInv (mem kmem : ℤ → ModuleTableStruct) :
    PointerInv (PointerState.init mem kmem) where
  sound := (UsableTable.fresh mem kmem).sound
  freed_lt := fun _ hb => absurd hb List.not_mem_nil
  points := fun _ _ _ hc => by cases hc

/-- A client that goes on to a phase without a pointer. -/
theorem PointerInv.goOn {s t : PointerState} (h : PointerInv s) {c : ℕ} {p : ReaderPhase}
    (hp : ∀ b i, p ≠ .points (some b) i) (hsound : t.table.Sound)
    (hnum : s.table.tableNumEntries ≤ t.table.tableNumEntries) (hblock : t.block = s.block)
    (hfreed : t.freed = s.freed) (hreader : t.reader = Function.update s.reader c p) :
    PointerInv t := by
  refine ⟨hsound, ?_, fun d b i hd => ?_⟩
  · rw [hfreed, hblock]
    exact h.freed_lt
  · rw [hreader] at hd
    by_cases hdc : d = c
    · subst hdc
      rw [Function.update_self] at hd
      exact absurd hd (hp b i)
    · rw [Function.update_of_ne hdc] at hd
      obtain ⟨hb, h0, hi⟩ := h.points d b i hd
      exact ⟨hb.trans hblock.symm, h0, by omega⟩

theorem tablePut_num_le {t : ModuleTable} (h : t.Sound) (mt : ModuleTableStruct)
    (krealloc : Option (ℤ → ModuleTableStruct)) :
    t.tableNumEntries ≤ (tablePut t mt krealloc).2.tableNumEntries := by
  rcases tablePut_cases h mt krealloc with ⟨-, happ, -, -⟩ | ⟨-, -, hsame⟩ | ⟨-, -, -, hlost⟩
  · rw [happ.num]
    omega
  · rw [hsame]
  · rw [hlost]
    exact le_refl _

/-- What `table_pop` returns is the index of an entry. -/
theorem tablePop_some {t t' : ModuleTable} {i : ℤ} (h : t.Sound)
    (hpop : tablePop t = (some i, t')) :
    t.Pending ∧ i = t.tableIndex + 1 ∧ 0 ≤ i ∧ i < t.tableNumEntries ∧
      t' = { t with tableIndex := t.tableIndex + 1 } := by
  have hge := h.index_ge
  by_cases hp : t.Pending
  · rw [tablePop_of_pending hp] at hpop
    obtain ⟨haddr, rfl⟩ := Prod.mk.inj hpop
    have hi : i = t.tableIndex + 1 := by
      unfold ModuleTable.address at haddr
      split at haddr
      · cases haddr
      · exact (Option.some.inj haddr).symm
    have hlt : t.tableIndex + 1 ≤ t.tableNumEntries - 1 := hp
    exact ⟨hp, hi, by omega, by omega, rfl⟩
  · rw [tablePop_of_not_pending hp] at hpop
    cases (Prod.mk.inj hpop).1

theorem pointerInv_step (s : PointerState) (a : PointerLabel) (t : PointerState)
    (h : PointerInv s) (hg : MovesAlone s a) (hs : pointerStep s a = some t) :
    PointerInv t := by
  cases pointerStep_move hs with
  | @putMoves mt krealloc hmoves =>
      refine ⟨tablePut_sound h.sound mt _, ?_, fun c b i hc => absurd hc (hg hmoves c b i)⟩
      intro b hb
      rcases List.mem_cons.mp hb with rfl | hb
      · exact Nat.lt_succ_self _
      · exact (h.freed_lt b hb).trans (Nat.lt_succ_self _)
  | @put mt krealloc hstays =>
      refine ⟨tablePut_sound h.sound mt _, h.freed_lt, fun c b i hc => ?_⟩
      obtain ⟨hb, h0, hi⟩ := h.points c b i hc
      exact ⟨hb, h0, hi.trans_le (tablePut_num_le h.sound mt _)⟩
  | @popNone c u hidle hpop =>
      have hsound := tablePop_sound h.sound
      have hnum := tablePop_num s.table
      rw [hpop] at hsound hnum
      refine ⟨hsound, h.freed_lt, fun d b i hd => ?_⟩
      obtain ⟨hb, h0, hi⟩ := h.points d b i hd
      exact ⟨hb, h0, hi.trans_eq hnum.symm⟩
  | @popNull c i u hidle hpop hnull =>
      have hsound := tablePop_sound h.sound
      have hnum := tablePop_num s.table
      rw [hpop] at hsound hnum
      exact h.goOn (by rintro b j ⟨⟩) hsound hnum.ge rfl rfl rfl
  | @pop c i u hidle hpop hnull =>
      have hsound := tablePop_sound h.sound
      rw [hpop] at hsound
      obtain ⟨-, -, h0, hi, rfl⟩ := tablePop_some h.sound hpop
      refine ⟨hsound, h.freed_lt, fun d b j hd => ?_⟩
      by_cases hdc : d = c
      · subst hdc
        rw [setReader_self] at hd
        injection hd with hb hj
        obtain rfl := Option.some.inj hb
        subst hj
        exact ⟨rfl, h0, hi⟩
      · rw [setReader_of_ne _ _ hdc] at hd
        exact h.points d b j hd
  | oops hpoints => exact h.goOn (by rintro b j ⟨⟩) h.sound le_rfl rfl rfl rfl
  | readFreed hpoints hfreed => exact absurd hfreed (h.live _ _ _ hpoints)
  | read hpoints hlive => exact h.goOn (by rintro b j ⟨⟩) h.sound le_rfl rfl rfl rfl
  | copied hread => exact h.goOn (by rintro b j ⟨⟩) h.sound le_rfl rfl rfl rfl
  | copyFailed hread hn => exact h.goOn (by rintro b j ⟨⟩) h.sound le_rfl rfl rfl rfl
  | unpop hfailed =>
      exact h.goOn (by rintro b j ⟨⟩) (tablePopReverse_sound h.sound)
        (tablePopReverse_num s.table).ge rfl rfl rfl

/-- The block that is moved away is the one the client points into. -/
theorem unguarded_move_frees (s : PointerState) (a : PointerLabel) (t : PointerState)
    (h : PointerInv s) (hg : ¬ MovesAlone s a) (hs : pointerStep s a = some t) :
    ¬ PointersLive t := by
  cases pointerStep_move hs with
  | @putMoves mt krealloc hmoves =>
      simp only [MovesAlone, not_forall, not_not] at hg
      obtain ⟨-, c, b, i, hc⟩ := hg
      intro hlive
      obtain rfl := (h.points c b i hc).1
      exact hlive c s.block i hc List.mem_cons_self
  | put hstays => exact absurd (fun hmoves => absurd hmoves hstays) hg
  | _ => exact absurd trivial hg

/-- **When no client is about to read freed memory**: in exactly the runs in which the table is
moved only while no client is between its pop and its read. -/
theorem pointersLive_iff (mem kmem : ℤ → ModuleTableStruct) (as : List PointerLabel) :
    StatesMeet pointerStep PointersLive (PointerState.init mem kmem) as ↔
      StepsMeet pointerStep MovesAlone (PointerState.init mem kmem) as :=
  statesMeet_iff_stepsMeet (fun _ h => h.live) pointerInv_step unguarded_move_frees as _
    (init_pointerInv mem kmem)

/-! ## The pop and the read as one step -/

/-- What `Delivery` sees: a client that has popped has read already. -/
def ReaderPhase.coarse (t : ModuleTable) : ReaderPhase → ClientPhase
  | .idle => .idle
  | .points none _ => .oopsed
  | .points (some _) i => .holds i (t.moduleTable.cells i).uuid
  | .read i uuid => .holds i uuid
  | .copyFailed i retval => .copyFailed i retval
  | .oopsed => .oopsed

def PointerState.coarse (s : PointerState) : DeliveryState :=
  ⟨s.table, fun c => (s.reader c).coarse s.table, s.returned⟩

/-- The read happens with the pop. -/
def coarseLabel : PointerLabel → Option DeliveryLabel
  | .put mt krealloc => some (.put mt (krealloc.map Prod.snd))
  | .pop c => some (.pop c)
  | .readUuid _ _ => none
  | .copy c notCopied => some (.copy c notCopied)
  | .unpop c => some (.unpop c)

theorem coarse_setReader (s : PointerState) (c : ℕ) (p : ReaderPhase) :
    (s.setReader c p).coarse =
      { s.coarse with client := Function.update s.coarse.client c (p.coarse s.table) } := by
  have hclient : (fun d => ((s.setReader c p).reader d).coarse s.table) =
      Function.update s.coarse.client c (p.coarse s.table) := by
    funext d
    by_cases hd : d = c
    · subst hd
      rw [setReader_self, Function.update_self]
    · rw [setReader_of_ne _ _ hd, Function.update_of_ne hd]
      rfl
  exact congrArg (fun f => DeliveryState.mk s.table f s.returned) hclient

/-- A client that is seen where it was. -/
theorem coarse_setReader_same {s : PointerState} {c : ℕ} {p : ReaderPhase}
    (h : p.coarse s.table = (s.reader c).coarse s.table) : (s.setReader c p).coarse = s.coarse := by
  rw [coarse_setReader, h]
  have hsame : Function.update s.coarse.client c ((s.reader c).coarse s.table) =
      s.coarse.client := Function.update_eq_self c s.coarse.client
  rw [hsame]

/-- `table_put` keeps the entries there are, also when it fails. -/
theorem tablePut_keeps_cells {t : ModuleTable} (h : t.Sound) (mt : ModuleTableStruct)
    (krealloc : Option (ℤ → ModuleTableStruct)) {i : ℤ} (h0 : 0 ≤ i) (hi : i < t.tableNumEntries) :
    (tablePut t mt krealloc).2.moduleTable.cells i = t.moduleTable.cells i := by
  rcases tablePut_cases h mt krealloc with ⟨-, happ, -, -⟩ | ⟨-, -, hsame⟩ | ⟨-, -, -, hlost⟩
  · exact happ.kept i h0 hi
  · rw [hsame]
  · rw [hlost]
    rfl

/-- A change of the table that keeps the entries pointed to. -/
theorem PointerInv.coarse_table {s : PointerState} (h : PointerInv s) {t : ModuleTable}
    (hcells : ∀ i, 0 ≤ i → i < s.table.tableNumEntries →
      t.moduleTable.cells i = s.table.moduleTable.cells i) (block : ℕ) (freed : List ℕ) :
    ({ s with table := t, block := block, freed := freed } : PointerState).coarse =
      { s.coarse with table := t } := by
  have hclient : (fun c => (s.reader c).coarse t) = fun c => (s.reader c).coarse s.table := by
    funext c
    cases hc : s.reader c with
    | points b i =>
        cases b with
        | none => rfl
        | some b =>
            obtain ⟨-, h0, hi⟩ := h.points c b i hc
            simp only [ReaderPhase.coarse, hcells i h0 hi]
    | _ => rfl
  exact congrArg (fun f => DeliveryState.mk t f s.returned) hclient

/-- The cursor makes no difference. -/
theorem coarse_moduleTable (s : PointerState) {t : ModuleTable}
    (h : t.moduleTable = s.table.moduleTable) :
    ({ s with table := t } : PointerState).coarse = { s.coarse with table := t } := by
  have hclient : (fun c => (s.reader c).coarse t) = fun c => (s.reader c).coarse s.table := by
    funext c
    rcases s.reader c with _ | ⟨_ | b, i⟩ | _ | _ | _ <;> simp only [ReaderPhase.coarse, h]
  exact congrArg (fun f => DeliveryState.mk t f s.returned) hclient

theorem tablePopReverse_moduleTable (t : ModuleTable) :
    (tablePopReverse t).2.moduleTable = t.moduleTable := by
  unfold tablePopReverse
  split <;> rfl

theorem coarse_idle {s : PointerState} {c : ℕ} (h : s.reader c = .idle) :
    s.coarse.client c = .idle := by
  show (s.reader c).coarse s.table = .idle
  rw [h]
  rfl

theorem readUuid_same (s : PointerState) (a : PointerLabel) (t : PointerState)
    (h : PointerInv s) (hs : pointerStep s a = some t) (hlabel : coarseLabel a = none) :
    t.coarse = s.coarse := by
  cases pointerStep_move hs with
  | oops hpoints => exact coarse_setReader_same (by rw [hpoints]; rfl)
  | readFreed hpoints hfreed => exact absurd hfreed (h.live _ _ _ hpoints)
  | read hpoints hlive => exact coarse_setReader_same (by rw [hpoints]; rfl)
  | _ => cases hlabel

theorem pop_coarse {s : PointerState} (h : PointerInv s) {c : ℕ} {i : ℤ} {t : ModuleTable}
    (hidle : s.reader c = .idle) (hpop : tablePop s.table = (some i, t)) :
    deliveryStep s.coarse (.pop c) = some (({ s with table := t }.setReader c
      (.points (if t.moduleTable.isNull = true then none else some s.block) i)).coarse) := by
  obtain ⟨-, -, -, -, rfl⟩ := tablePop_some h.sound hpop
  have htable : s.coarse.table = s.table := rfl
  have hcoarse : ({ s with table := { s.table with tableIndex := s.table.tableIndex + 1 } } :
      PointerState).coarse =
      { s.coarse with table := { s.table with tableIndex := s.table.tableIndex + 1 } } := rfl
  rw [coarse_setReader, hcoarse]
  cases hnull : s.table.moduleTable.isNull with
  | true =>
      simp only [deliveryStep, coarse_idle hidle, popEntry, htable, hpop, ModuleTable.deref, hnull,
        if_true]
      rfl
  | false =>
      simp only [deliveryStep, coarse_idle hidle, popEntry, htable, hpop, ModuleTable.deref, hnull,
        Bool.false_eq_true, if_false]
      rfl

theorem coarse_step (s : PointerState) (a : PointerLabel) (t : PointerState) (b : DeliveryLabel)
    (h : PointerInv s) (hs : pointerStep s a = some t) (hlabel : coarseLabel a = some b) :
    deliveryStep s.coarse b = some t.coarse := by
  cases pointerStep_move hs with
  | @putMoves mt krealloc hmoves =>
      obtain rfl := Option.some.inj hlabel
      rw [h.coarse_table fun i h0 hi => tablePut_keeps_cells h.sound mt _ h0 hi]
      rfl
  | @put mt krealloc hstays =>
      obtain rfl := Option.some.inj hlabel
      have hput := h.coarse_table (fun i h0 hi =>
        tablePut_keeps_cells h.sound mt (krealloc.map Prod.snd) h0 hi) s.block s.freed
      exact congrArg some hput.symm
  | @popNone c u hidle hpop =>
      obtain rfl := Option.some.inj hlabel
      have htable : s.coarse.table = s.table := rfl
      have hmodule := tablePop_moduleTable s.table
      rw [hpop] at hmodule
      have hkeep := coarse_moduleTable s hmodule
      simp only [deliveryStep, coarse_idle hidle, popEntry, htable, hpop]
      exact congrArg some hkeep.symm
  | @popNull c i u hidle hpop hnull =>
      obtain rfl := Option.some.inj hlabel
      have hstep := pop_coarse h hidle hpop
      rwa [if_pos hnull] at hstep
  | @pop c i u hidle hpop hnull =>
      obtain rfl := Option.some.inj hlabel
      have hstep := pop_coarse h hidle hpop
      rwa [if_neg (by rw [hnull]; decide)] at hstep
  | @copied c i uuid hread =>
      obtain rfl := Option.some.inj hlabel
      have hclient : s.coarse.client c = .holds i uuid := by
        show (s.reader c).coarse s.table = _
        rw [hread]
        rfl
      have hset := coarse_setReader s c .idle
      simp only [deliveryStep, hclient, if_true]
      exact congrArg (fun d : DeliveryState => some { d with returned := (i, uuid) :: s.returned })
        hset.symm
  | @copyFailed c n i uuid hread hn =>
      obtain rfl := Option.some.inj hlabel
      have hclient : s.coarse.client c = .holds i uuid := by
        show (s.reader c).coarse s.table = _
        rw [hread]
        rfl
      simp only [deliveryStep, hclient, if_neg hn]
      rw [coarse_setReader]
      rfl
  | @unpop c i retval hfailed =>
      obtain rfl := Option.some.inj hlabel
      have hclient : s.coarse.client c = .copyFailed i retval := by
        show (s.reader c).coarse s.table = _
        rw [hfailed]
        rfl
      have hset := coarse_setReader s c .idle
      have hpop := coarse_moduleTable (s.setReader c .idle) (tablePopReverse_moduleTable s.table)
      simp only [deliveryStep, hclient]
      rw [hset] at hpop
      exact congrArg some hpop.symm
  | _ => cases hlabel

theorem pointer_simulated :
    ForwardSim pointerStep MovesAlone deliveryStep anyStep
      fun s u => PointerInv s ∧ u = s.coarse :=
  ForwardSim.of_map (fun _ a => coarseLabel a) pointerInv_step
    (fun s a t h _ hs hlabel => readUuid_same s a t h hs hlabel)
    fun s a t b h _ hs hlabel => ⟨trivial, coarse_step s a t b h hs hlabel⟩

/-! ### What the clients receive -/

/-- The uuid is the one of entry `i`. -/
def IsEntry (t : ModuleTable) (i : ℤ) (uuid : Uuid) : Prop :=
  0 ≤ i ∧ i < t.tableNumEntries ∧ uuid = (t.moduleTable.cells i).uuid

structure UuidsRight (s : DeliveryState) : Prop where
  sound : s.table.Sound
  held : ∀ c i uuid, s.client c = .holds i uuid → IsEntry s.table i uuid
  returned : ∀ p ∈ s.returned, IsEntry s.table p.1 p.2

/-- Entries stay what they are. -/
theorem UuidsRight.goOn {s t : DeliveryState} (h : UuidsRight s) {c : ℕ} {p : ClientPhase}
    (hsound : t.table.Sound)
    (hkept : ∀ i uuid, IsEntry s.table i uuid → IsEntry t.table i uuid)
    (hclient : t.client = Function.update s.client c p)
    (hp : ∀ i uuid, p = .holds i uuid → IsEntry t.table i uuid)
    (hreturned : ∀ q ∈ t.returned, q ∈ s.returned ∨ s.client c = .holds q.1 q.2) :
    UuidsRight t := by
  refine ⟨hsound, fun d i uuid hd => ?_, fun q hq => ?_⟩
  · rw [hclient] at hd
    by_cases hdc : d = c
    · subst hdc
      rw [Function.update_self] at hd
      exact hp i uuid hd
    · rw [Function.update_of_ne hdc] at hd
      exact hkept i uuid (h.held d i uuid hd)
  · rcases hreturned q hq with hold | hnew
    · exact hkept q.1 q.2 (h.returned q hold)
    · exact hkept q.1 q.2 (h.held c q.1 q.2 hnew)

theorem uuidsRight_step (s : DeliveryState) (a : DeliveryLabel) (t : DeliveryState)
    (h : UuidsRight s) (_ : anyStep s a) (hs : deliveryStep s a = some t) : UuidsRight t := by
  cases a with
  | put mt krealloc =>
      obtain rfl := Option.some.inj hs
      have hkept : ∀ i uuid, IsEntry s.table i uuid →
          IsEntry (tablePut s.table mt krealloc).2 i uuid := by
        rintro i uuid ⟨h0, hi, huuid⟩
        refine ⟨h0, hi.trans_le (tablePut_num_le h.sound mt krealloc), ?_⟩
        rw [tablePut_keeps_cells h.sound mt krealloc h0 hi]
        exact huuid
      exact ⟨tablePut_sound h.sound mt krealloc,
        fun c i uuid hc => hkept i uuid (h.held c i uuid hc),
        fun q hq => hkept q.1 q.2 (h.returned q hq)⟩
  | pop c =>
      have hsound := popEntry_sound h.sound
      have hkept : ∀ i uuid, IsEntry s.table i uuid → IsEntry (popEntry s.table).2 i uuid := by
        rintro i uuid ⟨h0, hi, huuid⟩
        refine ⟨h0, by rwa [popEntry_num], ?_⟩
        rw [popEntry_snd_eq_tablePop, tablePop_moduleTable]
        exact huuid
      simp only [deliveryStep] at hs
      split at hs
      · split at hs
        · rename_i u hpop
          rw [hpop] at hsound hkept
          obtain rfl := Option.some.inj hs
          exact ⟨hsound, fun d i uuid hd => hkept i uuid (h.held d i uuid hd),
            fun q hq => hkept q.1 q.2 (h.returned q hq)⟩
        · rename_i u hpop
          rw [hpop] at hsound hkept
          obtain rfl := Option.some.inj hs
          exact h.goOn hsound hkept rfl (by rintro i uuid ⟨⟩) fun q hq => Or.inl hq
        · rename_i i uuid u hpop
          rw [hpop] at hsound hkept
          obtain ⟨hp, -, hi, huuid, rfl⟩ := popEntry_entry hpop
          obtain rfl := Option.some.inj hs
          refine h.goOn hsound hkept rfl ?_ fun q hq => Or.inl hq
          rintro j uuid' hj
          injection hj with hj huuid'
          subst hj huuid'
          have hge := h.sound.index_ge
          have hlt : s.table.tableIndex + 1 ≤ s.table.tableNumEntries - 1 := hp
          refine ⟨by omega, ?_, huuid⟩
          show i < s.table.tableNumEntries
          omega
      · cases hs
  | copy c n =>
      simp only [deliveryStep] at hs
      split at hs
      · rename_i i uuid hc
        split at hs <;> obtain rfl := Option.some.inj hs
        · refine h.goOn h.sound (fun _ _ h => h) rfl (by rintro i uuid ⟨⟩) fun q hq => ?_
          rcases List.mem_cons.mp hq with rfl | hq
          · exact Or.inr hc
          · exact Or.inl hq
        · exact h.goOn h.sound (fun _ _ h => h) rfl (by rintro i uuid ⟨⟩) fun q hq => Or.inl hq
      · cases hs
  | unpop c =>
      simp only [deliveryStep] at hs
      split at hs
      · obtain rfl := Option.some.inj hs
        refine h.goOn (tablePopReverse_sound h.sound) ?_ rfl (by rintro i uuid ⟨⟩)
          fun q hq => Or.inl hq
        rintro i uuid ⟨h0, hi, huuid⟩
        refine ⟨h0, by rwa [tablePopReverse_num], ?_⟩
        rw [tablePopReverse_moduleTable]
        exact huuid
      · cases hs

/-- **Then the pop and the read may be taken as one step**: what is reached is reached in
`Delivery`, and every uuid that a client has read is the one of the entry it popped, before the
client has copied it to its caller and after. -/
theorem pointer_refines_delivery (mem kmem : ℤ → ModuleTableStruct) {s : PointerState}
    (h : Via pointerStep MovesAlone (PointerState.init mem kmem) s) :
    Via deliveryStep anyStep (DeliveryState.init mem kmem) s.coarse ∧
      (∀ c i uuid, s.reader c = .read i uuid → IsEntry s.table i uuid) ∧
      ∀ p ∈ s.returned, IsEntry s.table p.1 p.2 := by
  obtain ⟨u, hrun, -, rfl⟩ :=
    pointer_simulated.via h ⟨init_pointerInv mem kmem, rfl⟩
  have hinit : UuidsRight (DeliveryState.init mem kmem) :=
    ⟨(UsableTable.fresh mem kmem).sound, fun _ _ _ hc => (by cases hc),
      fun _ hq => absurd hq List.not_mem_nil⟩
  have hright := hrun.invariant UuidsRight hinit uuidsRight_step
  refine ⟨hrun, ?_, hright.returned⟩
  intro c i uuid hread
  apply hright.held c i uuid
  show (s.reader c).coarse s.table = .holds i uuid
  rw [hread]
  rfl

/-- Two clients pop, a put comes in between, and both read afterwards. A third one has read the
entry of that put and not copied it. -/
theorem pointer_refines_delivery_late_reads : ∃ s : PointerState,
    s.returned = [(1, 8), (0, 7)] ∧ s.reader 2 = .read 2 9 ∧
      Via deliveryStep anyStep (DeliveryState.init (fun _ => default) fun _ => default) s.coarse ∧
      (∀ c i uuid, s.reader c = .read i uuid → IsEntry s.table i uuid) ∧
      ∀ p ∈ s.returned, IsEntry s.table p.1 p.2 := by
  let run : List PointerLabel := [.put ⟨7, 0, default⟩ none, .put ⟨8, 0, default⟩ none, .pop 0,
    .pop 1, .put ⟨9, 0, default⟩ none, .readUuid 0 0, .copy 0 0, .readUuid 1 0, .copy 1 0, .pop 2,
    .readUuid 2 0]
  obtain ⟨s, hrun, hreturned, hread⟩ : ∃ s, exec pointerStep
      (PointerState.init (fun _ => default) fun _ => default) run = some s ∧
      s.returned = [(1, 8), (0, 7)] ∧ s.reader 2 = .read 2 9 := ⟨_, rfl, rfl, rfl⟩
  have hguard : StepsMeet pointerStep MovesAlone
      (PointerState.init (fun _ => default) fun _ => default) run := by
    apply stepsMeet_of_forall
    simp [run, MovesAlone, moves]
  exact ⟨s, hreturned, hread, pointer_refines_delivery _ _ (via_of_stepsMeet hrun hguard)⟩

end LxcUio.System
