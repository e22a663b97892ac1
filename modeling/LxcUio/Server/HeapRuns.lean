import LxcUio.Server.ServerHeap
import LxcUio.Server.WorkDone

/-!
# The blocks of `main`

A run of `main` with the blocks of the table, which `table_init` allocates, `table_put` grows
and `table_delete` frees, of each call on the way, and of the errors that `main` prints.
`realloc` is given the block; its result is dropped, so that after a growth that moves the block
`uuid_table` points to a freed one, and the next thing `table_put` does is to store the entry
there.

The run begins behind `get_major_number`: the line it allocates is freed before it returns, and
the errors it prints are not counted.
-/

namespace LxcUio.Server.Heap

open LxcUio.Foundation HeapProgram

/-! ## The functions -/

def tableInit (uuidTable : Option ℕ) (malloc : Except ℤ (ℤ → UuidTableEntry)) :
    HeapProgram (Option ℕ) :=
  match uuidTable, malloc with
  | some b, _ => do
      printError
      pure (some b)
  | none, .error _ => do
      printError
      pure none
  | none, .ok _ => do
      let b ← alloc
      pure (some b)

def tableDelete : Option ℕ → HeapProgram Unit
  | none => printError
  | some b => free b

/-- The address that `realloc` returns is not stored. -/
def tablePut (uuidTable : Option ℕ) (t : UuidTable) (answer : ℤ → Realloc UuidTableEntry) :
    HeapProgram Unit :=
  match uuidTable with
  | none => printError
  | some b =>
      if t.tableNumEntries = t.uuidTableSize then
        match answer t.newSizeBytes with
        | .failed _ => do
            access b
            printError
        | .inPlace _ => do
            let _ ← realloc b false
            access b
        | .moved _ => do
            let _ ← realloc b true
            access b
      else if t.tableNumEntries > t.uuidTableSize then printError
      else access b

/-- The record of `new_memory`: it is filled in, copied and freed. -/
def newMemory : HeapProgram Unit := do
  let mptr ← alloc
  access mptr
  free mptr

def getNewEntry (uuidTable : Option ℕ) (t : UuidTable) (ioctlRet : ℤ) (env : NewEntryEnv) :
    HeapProgram Unit :=
  if ioctlRet < 0 then printError
  else if ioctlRet = 0 then pure ()
  else if ioctlRet = 1 then
    match env.malloc with
    | none => printError
    | some _ => do
        newMemory
        tablePut uuidTable t env.realloc
  else printError

/-! ## `main` -/

structure HeapMain where
  main : MainState
  uuidTable : Option ℕ

/-- What `main` prints about the value that `process_entry` returned. -/
def processErrors : Site → ℤ → ℕ
  | .first, ret => if ret < 0 then 1 else 0
  | .event, ret => if ret = 1 then 0 else 1

/-- What `main` prints itself, and `register_server` and `deregister_server` for it. -/
def mainErrors (s : MainState) : MainLabel → ℕ
  | .majorNumber ret => if ret < 0 then 1 else 0
  | .kvmOpened fd => if fd < 0 then 1 else 0
  | .extension ret => if ret ≤ 0 then 1 else 0
  | .eventfdCreated fd => if fd < 0 then 1 else 0
  | .cdevOpened fd => if fd < 0 then 1 else 0
  | .registered ret => if ret < 0 then 1 else 0
  | .gotEntry ioctlRet uuid env =>
      match s.pc with
      | .getNew => if (s.received ioctlRet uuid env).retVal = 1 then 0 else 1
      | _ => 0
  | .processReturn =>
      match s.pc with
      | .inProcess site _ (.returned ret) => processErrors site ret
      | .inProcess site _ (.bug _) => processErrors site (-1)
      | _ => 0
  | .selected ret _ => if ret < 0 then 1 else 0
  | .eventfdRead ret => if ret = 8 then 0 else 1
  | .deregistered ret => if ret < 0 then 2 else 0
  | _ => 0

def printErrors : ℕ → HeapProgram Unit
  | 0 => pure ()
  | n + 1 => do
      printError
      printErrors n

/-- What the functions called in a step do with the blocks; the pointer afterwards. -/
def blocksStep (debugOn : Bool) (s : HeapMain) : MainLabel → HeapProgram (Option ℕ)
  | .initTable malloc => tableInit s.uuidTable malloc
  | .gotEntry ioctlRet _ env => do
      getNewEntry s.uuidTable s.main.table ioctlRet env
      pure s.uuidTable
  | .callProcess env => do
      let _ ← processEntry s.uuidTable debugOn env ⟨s.main.table, []⟩
      pure s.uuidTable
  | .deleteTable => do
      tableDelete s.uuidTable
      pure s.uuidTable
  | _ => pure s.uuidTable

/-- A step of `main`; one that is not enabled is none. -/
def heapStep (debugOn : Bool) (s : HeapMain) (l : MainLabel) : HeapProgram HeapMain :=
  match mainStep debugOn s.main l with
  | none => pure s
  | some main => do
      let uuidTable ← blocksStep debugOn s l
      printErrors (mainErrors s.main l)
      pure ⟨main, uuidTable⟩

/-! ## What a run loses -/

def tableInitLost (t : UuidTable) (malloc : Except ℤ (ℤ → UuidTableEntry)) : ℕ :=
  if t.uuidTable.isNull = false then 1
  else
    match malloc with
    | .error _ => 1
    | .ok _ => 0

def tablePutLost (t : UuidTable) (answer : ℤ → Realloc UuidTableEntry) : ℕ :=
  if t.uuidTable.isNull = true then 1
  else if t.tableNumEntries = t.uuidTableSize then
    match answer t.newSizeBytes with
    | .failed _ => 1
    | _ => 0
  else if t.tableNumEntries > t.uuidTableSize then 1
  else 0

def newEntryLost (t : UuidTable) (ioctlRet : ℤ) (env : NewEntryEnv) : ℕ :=
  if ioctlRet < 0 then 1
  else if ioctlRet = 0 then 0
  else if ioctlRet = 1 then
    if env.malloc.isSome = true then tablePutLost t env.realloc else 1
  else 1

/-- The blocks that the functions called in a step lose. -/
def callLost (debugOn : Bool) (t : UuidTable) : MainLabel → ℕ
  | .initTable malloc => tableInitLost t malloc
  | .gotEntry ioctlRet _ env => newEntryLost t ioctlRet env
  | .callProcess env => processLost debugOn env t + held (runProcessEntry debugOn env t).value
  | .deleteTable => if t.uuidTable.isNull = true then 1 else 0
  | _ => 0

def stepLost (debugOn : Bool) (s : MainState) (l : MainLabel) : ℕ :=
  if (mainStep debugOn s l).isSome = true then callLost debugOn s.table l + mainErrors s l else 0

/-- `realloc` moves the block of a full table. -/
def GrowthMoves (t : UuidTable) (answer : ℤ → Realloc UuidTableEntry) : Prop :=
  t.tableNumEntries = t.uuidTableSize ∧ ∃ mem, answer t.newSizeBytes = .moved mem

/-- The step puts an entry into a full table that `realloc` moves. -/
def MovesTable (s : MainState) : MainLabel → Prop
  | .gotEntry ioctlRet _ env =>
      ioctlRet = 1 ∧ env.malloc.isSome = true ∧ s.table.uuidTable.isNull = false ∧
        GrowthMoves s.table env.realloc
  | _ => False

/-- `table_delete` is behind. -/
def tableGone : Pc → Bool
  | .outDeregister => true
  | .outEfd => true
  | .returned => true
  | _ => false

/-- `table_init` is ahead. -/
def tableAhead : Pc → Bool
  | .getMajorNumber => true
  | .openKvm => true
  | .checkExtension => true
  | .eventfd => true
  | .openCdev => true
  | .registerServer => true
  | .tableInit => true
  | _ => false

def inCall : Pc → Bool
  | .inProcess _ _ _ => true
  | _ => false

/-- The block of the table, from `table_init` to `table_delete`. -/
def HeapMain.pointers (s : HeapMain) : List ℕ :=
  if tableGone s.main.pc = true then [] else s.uuidTable.toList

/-! ## The invariant -/

/-- The pointer is NULL when the model without a heap says so, and a table that is NULL has no
entries. The tables that a call still has to show are like the one it found. -/
structure HeapInv (s : HeapMain) : Prop where
  pointer : s.uuidTable.isNone = s.main.table.uuidTable.isNull
  empty : s.main.table.uuidTable.isNull = true → s.main.table.tableNumEntries = 0
  ahead : tableAhead s.main.pc = true → s.uuidTable = none
  visiting : ∀ site todo result, s.main.pc = .inProcess site todo result →
    ∀ u ∈ todo, u.uuidTable.isNull = s.main.table.uuidTable.isNull ∧
      u.tableNumEntries = s.main.table.tableNumEntries

/-- Outside `process_entry` no table is left to show. -/
theorem nothing_to_show {pc : Pc} (h : inCall pc = false) (t : UuidTable) :
    ∀ site todo result, pc = .inProcess site todo result →
      ∀ u ∈ todo, u.uuidTable.isNull = t.uuidTable.isNull ∧
        u.tableNumEntries = t.tableNumEntries := by
  intro site todo result hpc
  rw [hpc] at h
  cases h

section Steps

variable {debugOn : Bool} {s : HeapMain}

/-- The counter moves on, and neither the table nor its block does. -/
theorem HeapInv.goes (h : HeapInv s) {t : MainState}
    (hnull : t.table.uuidTable.isNull = s.main.table.uuidTable.isNull)
    (hnum : t.table.tableNumEntries = s.main.table.tableNumEntries)
    (hahead : tableAhead t.pc = true → tableAhead s.main.pc = true)
    (hgone : tableGone t.pc = tableGone s.main.pc ∨ tableAhead s.main.pc = true)
    (hvisiting : ∀ site todo result, t.pc = .inProcess site todo result →
      ∀ u ∈ todo, u.uuidTable.isNull = s.main.table.uuidTable.isNull ∧
        u.tableNumEntries = s.main.table.tableNumEntries) :
    HeapInv ⟨t, s.uuidTable⟩ ∧ HeapMain.pointers ⟨t, s.uuidTable⟩ = s.pointers := by
  refine ⟨⟨h.pointer.trans hnull.symm, fun ht => ?_, fun ht => h.ahead (hahead ht), ?_⟩, ?_⟩
  · exact hnum.trans (h.empty (hnull.symm.trans ht))
  · intro site todo result hpc u hu
    obtain ⟨hu1, hu2⟩ := hvisiting site todo result hpc u hu
    exact ⟨hu1.trans hnull.symm, hu2.trans hnum.symm⟩
  · unfold HeapMain.pointers
    rcases hgone with hgone | hearly
    · dsimp only
      rw [hgone]
    · rw [h.ahead hearly]
      dsimp only [Option.toList_none]
      split <;> split <;> rfl

/-- A step to a counter outside `process_entry`. -/
theorem HeapInv.goesTo (h : HeapInv s) {t : MainState} (htable : t.table = s.main.table)
    (hahead : tableAhead t.pc = true → tableAhead s.main.pc = true)
    (hgone : tableGone t.pc = tableGone s.main.pc ∨ tableAhead s.main.pc = true)
    (hcall : inCall t.pc = false) :
    HeapInv ⟨t, s.uuidTable⟩ ∧ HeapMain.pointers ⟨t, s.uuidTable⟩ = s.pointers := by
  exact h.goes (congrArg (fun t => t.uuidTable.isNull) htable)
    (congrArg UuidTable.tableNumEntries htable) hahead hgone (nothing_to_show hcall _)

/-- A step before `table_init`, which may be the last one. -/
theorem HeapInv.goesEarly (h : HeapInv s) {pc : Pc} (hpc : s.main.pc = pc)
    (hahead : tableAhead pc = true) {t : MainState} (htable : t.table = s.main.table)
    (hcall : inCall t.pc = false) :
    HeapInv ⟨t, s.uuidTable⟩ ∧ HeapMain.pointers ⟨t, s.uuidTable⟩ = s.pointers := by
  have hearly : tableAhead s.main.pc = true := hpc ▸ hahead
  exact h.goesTo htable (fun _ => hearly) (Or.inr hearly) hcall

/-- A step behind it. -/
theorem HeapInv.goesLate (h : HeapInv s) {pc : Pc} (hpc : s.main.pc = pc) {t : MainState}
    (htable : t.table = s.main.table) (hahead : tableAhead t.pc = false)
    (hgone : tableGone t.pc = tableGone pc) (hcall : inCall t.pc = false) :
    HeapInv ⟨t, s.uuidTable⟩ ∧ HeapMain.pointers ⟨t, s.uuidTable⟩ = s.pointers := by
  refine h.goesTo htable (fun hc => ?_) (Or.inl (hgone.trans (congrArg tableGone hpc.symm))) hcall
  rw [hahead] at hc
  cases hc

/-- What follows a call is a loop of `main`, or `out_table`. -/
theorem HeapInv.processed (h : HeapInv s) {site : Site} {todo : List UuidTable}
    {result : ProcessResult} (hpc : s.main.pc = .inProcess site todo result) (m : MainState)
    (htable : m.table = s.main.table) (ret : ℤ) :
    HeapInv ⟨m.processed site ret, s.uuidTable⟩ ∧
      HeapMain.pointers ⟨m.processed site ret, s.uuidTable⟩ = s.pointers := by
  rcases processed_cases m site ret with ⟨pc, retVal, hloop, heq⟩ | ⟨stop, retVal, -, heq⟩
  · rw [heq]
    rcases hloop with rfl | rfl
    · exact h.goesLate hpc htable rfl rfl rfl
    · exact h.goesLate hpc htable rfl rfl rfl
  · rw [heq]
    exact h.goesLate hpc htable rfl rfl rfl

/-- The labels of the steps that work with blocks. -/
def TouchesBlocks : MainLabel → Prop
  | .initTable _ => True
  | .gotEntry _ _ _ => True
  | .callProcess _ => True
  | .deleteTable => True
  | _ => False

theorem HeapInv.quiet (h : HeapInv s) {l : MainLabel} {t : MainState}
    (hmove : MainMove debugOn s.main l t) (hl : ¬ TouchesBlocks l) :
    HeapInv ⟨t, s.uuidTable⟩ ∧ HeapMain.pointers ⟨t, s.uuidTable⟩ = s.pointers := by
  cases hmove with
  | noMajorNumber hpc => exact h.goesEarly hpc rfl rfl rfl
  | majorNumber hpc => exact h.goesEarly hpc rfl rfl rfl
  | noKvm hpc => exact h.goesEarly hpc rfl rfl rfl
  | kvm hpc => exact h.goesEarly hpc rfl rfl rfl
  | extensionError hpc => exact h.goesEarly hpc rfl rfl rfl
  | noExtension hpc => exact h.goesEarly hpc rfl rfl rfl
  | extension hpc => exact h.goesEarly hpc rfl rfl rfl
  | noEventfd hpc => exact h.goesEarly hpc rfl rfl rfl
  | eventfd hpc => exact h.goesEarly hpc rfl rfl rfl
  | noCdev hpc => exact h.goesEarly hpc rfl rfl rfl
  | cdev hpc => exact h.goesEarly hpc rfl rfl rfl
  | notRegistered hpc => exact h.goesEarly hpc rfl rfl rfl
  | registered hpc => exact h.goesEarly hpc rfl rfl rfl
  | noTable => exact absurd trivial hl
  | tableInit => exact absurd trivial hl
  | drained => exact absurd trivial hl
  | callProcess => exact absurd trivial hl
  | processStep hpc =>
      obtain ⟨hnull, hnum⟩ := h.visiting _ _ _ hpc _ List.mem_cons_self
      refine h.goes hnull hnum (fun hc => absurd hc Bool.false_ne_true) (Or.inl ?_) ?_
      · rw [hpc]
        rfl
      · rintro site todo result heq u hu
        cases heq
        exact h.visiting _ _ _ hpc u (List.mem_cons_of_mem _ hu)
  | processReturn hpc => exact h.processed hpc s.main rfl _
  | @bug site b hpc => exact h.processed hpc { s.main with bugs := s.main.bugs ++ [b] } rfl (-1)
  | crashed hpc => exact h.goesLate hpc rfl rfl rfl rfl
  | selectError hpc => exact h.goesLate hpc rfl rfl rfl rfl
  | readable hpc => exact h.goesLate hpc rfl rfl rfl rfl
  | @notReadable ret hpc _ =>
      exact h.goesLate hpc (t := { s.main with retVal := ret }) rfl (congrArg tableAhead hpc)
        (congrArg tableGone hpc) (congrArg inCall hpc)
  | woken => exact absurd trivial hl
  | eventfdRead hpc => exact h.goesLate hpc rfl rfl rfl rfl
  | readError hpc => exact h.goesLate hpc rfl rfl rfl rfl
  | deleteTable => exact absurd trivial hl
  | deregistered hpc => exact h.goesLate hpc rfl rfl rfl rfl
  | closed hpc => exact h.goesLate hpc rfl rfl rfl rfl
  | scribble hpc =>
      exact h.goes rfl rfl id (Or.inl rfl) fun site todo result heq =>
        absurd heq (hpc site todo result)

/-- A call changes nothing of the table that counts here. -/
theorem processEntry_frame (debugOn : Bool) (env : ProcessEnv) (u : ProcState) :
    Visits (fun t => Frame u.table t.table) (Server.processEntry debugOn env) u :=
  visits_processEntry debugOn env fun _ hi =>
    Program.wp_weaken (processPicked_ends debugOn env _ hi.picked) (fun _ ht => ht.toFrame)
      (fun _ _ _ => trivial) fun _ _ _ => trivial

/-! ## The steps that work with blocks -/

theorem printErrors_safe : ∀ (n : ℕ) {pre : List ℕ},
    Safe (printErrors n) pre fun _ blocks => Lost n pre blocks := by
  intro n
  induction n with
  | zero => exact fun {pre} => .pure .nothing
  | succ n ih =>
      intro pre
      refine printError_safe.bind fun _ mid hone => ih.weaken fun _ blocks hrest => ?_
      rw [Nat.add_comm]
      exact hone.trans hrest

/-- What a step that loses `n` blocks leaves. -/
def StepLeaves (rest : List ℕ) (t : MainState) (n : ℕ) (p : Option ℕ) (blocks : List ℕ) : Prop :=
  Accounts HeapInv HeapMain.main HeapMain.pointers rest t n ⟨t, p⟩ blocks

/-- The pointers stay what they are. -/
theorem stepLeaves_of_lost {t : MainState} {n : ℕ} {p : Option ℕ} {rest blocks : List ℕ}
    (hinv : HeapInv ⟨t, p⟩) (hlost : Lost n (HeapMain.pointers ⟨t, p⟩ ++ rest) blocks) :
    StepLeaves rest t n p blocks := by
  have hstart : StepLeaves rest t 0 p (HeapMain.pointers ⟨t, p⟩ ++ rest) :=
    ⟨hinv, rfl, [], rfl, .refl _⟩
  have hleaves := hstart.lose hlost
  rwa [Nat.zero_add] at hleaves

theorem initTable_leaves (h : HeapInv s) (hpc : s.main.pc = .tableInit)
    (malloc : Except ℤ (ℤ → UuidTableEntry)) (rest : List ℕ) {t : MainState}
    (hmove : MainMove debugOn s.main (.initTable malloc) t) :
    Safe (tableInit s.uuidTable malloc) (s.pointers ++ rest)
      (StepLeaves rest t (tableInitLost s.main.table malloc)) := by
  have hnone : s.uuidTable = none := h.ahead (by rw [hpc]; rfl)
  have hnull : s.main.table.uuidTable.isNull = true := by rw [← h.pointer, hnone]; rfl
  have hempty := h.empty hnull
  have hpointers : s.pointers = [] := by
    rw [HeapMain.pointers, hpc, hnone]
    rfl
  have hkeep : ¬ s.main.table.uuidTable.isNull = false := by
    rw [hnull]
    exact Bool.noConfusion
  unfold tableInitLost
  rw [hpointers, hnone, if_neg hkeep]
  cases malloc with
  | error errno =>
      have hinit : Server.tableInit s.main.table (.error errno) = (-errno, s.main.table) :=
        if_neg hkeep
      refine printError_safe.bind fun _ blocks hlost => .pure ?_
      cases hmove with
      | noTable _ hret =>
          rw [hinit]
          exact stepLeaves_of_lost ⟨hnull.symm, fun _ => hempty, fun _ => rfl,
            nothing_to_show rfl _⟩ hlost
      | tableInit _ hret =>
          rw [hinit]
          exact stepLeaves_of_lost ⟨hnull.symm, fun _ => hempty, fun _ => rfl,
            nothing_to_show rfl _⟩ hlost
  | ok mem =>
      have hinit : (Server.tableInit s.main.table (.ok mem)).1 = 0 ∧
          (Server.tableInit s.main.table (.ok mem)).2.uuidTable.isNull = false := by
        rw [Server.tableInit, if_neg hkeep]
        exact ⟨rfl, rfl⟩
      cases hmove with
      | noTable _ hret =>
          rw [hinit.1] at hret
          exact absurd hret (lt_irrefl 0)
      | tableInit _ hret =>
          refine .bind (m := fun b blocks => blocks = b :: rest) (.alloc fun b _ => rfl) ?_
          rintro b _ rfl
          refine .pure ⟨⟨hinit.2.symm, fun hc => ?_, fun hc => absurd hc Bool.false_ne_true,
            nothing_to_show rfl _⟩, rfl, [], rfl, .refl _⟩
          rw [hinit.2] at hc
          cases hc

/-! ### `get_new_entry` -/

section NewEntry

variable {p : Option ℕ} {t : UuidTable} {pre : List ℕ}

theorem tablePut_safe (hpointer : p.isNone = t.uuidTable.isNull) (hp : ∀ b ∈ p, b ∈ pre)
    {answer : ℤ → Realloc UuidTableEntry} (hstay : p.isSome = true → ¬ GrowthMoves t answer) :
    Safe (tablePut p t answer) pre fun _ blocks => Lost (tablePutLost t answer) pre blocks := by
  unfold tablePutLost
  rw [← hpointer]
  cases p with
  | none =>
      rw [Option.isNone_none, if_pos rfl]
      exact printError_safe
  | some b =>
      have hb : b ∈ pre := hp b rfl
      rw [Option.isNone_some, if_neg Bool.false_ne_true]
      unfold tablePut
      dsimp only
      by_cases hfull : t.tableNumEntries = t.uuidTableSize
      · rw [if_pos hfull, if_pos hfull]
        cases hanswer : answer t.newSizeBytes with
        | failed errno =>
            refine .bind (m := fun _ blocks => pre = blocks) (.access hb rfl) ?_
            rintro - _ rfl
            exact printError_safe
        | inPlace mem =>
            refine .bind (m := fun _ blocks => pre = blocks) (.realloc_inPlace hb rfl) ?_
            rintro _ _ rfl
            exact .access hb .nothing
        | moved mem => exact absurd ⟨hfull, mem, hanswer⟩ (hstay rfl)
      · rw [if_neg hfull, if_neg hfull]
        by_cases hover : t.tableNumEntries > t.uuidTableSize
        · rw [if_pos hover, if_pos hover]
          exact printError_safe
        · rw [if_neg hover, if_neg hover]
          exact .access hb .nothing

theorem newMemory_safe : Safe newMemory pre fun _ blocks => pre = blocks := by
  refine .bind (m := fun b blocks => blocks = b :: pre) (.alloc fun b _ => rfl) ?_
  rintro b _ rfl
  refine .bind (m := fun _ blocks => blocks = b :: pre) (.access List.mem_cons_self rfl) ?_
  rintro - _ rfl
  exact .free List.mem_cons_self (List.erase_cons_head ..).symm

theorem getNewEntry_safe (hpointer : p.isNone = t.uuidTable.isNull) (hp : ∀ b ∈ p, b ∈ pre)
    {ioctlRet : ℤ} {env : NewEntryEnv}
    (hstay : ioctlRet = 1 → env.malloc.isSome = true → p.isSome = true →
      ¬ GrowthMoves t env.realloc) :
    Safe (getNewEntry p t ioctlRet env) pre fun _ blocks =>
      Lost (newEntryLost t ioctlRet env) pre blocks := by
  unfold getNewEntry newEntryLost
  by_cases hneg : ioctlRet < 0
  · rw [if_pos hneg, if_pos hneg]
    exact printError_safe
  rw [if_neg hneg, if_neg hneg]
  by_cases hzero : ioctlRet = 0
  · rw [if_pos hzero, if_pos hzero]
    exact .pure .nothing
  rw [if_neg hzero, if_neg hzero]
  by_cases hone : ioctlRet = 1
  · rw [if_pos hone, if_pos hone]
    cases hmalloc : env.malloc with
    | none => exact printError_safe
    | some m =>
        refine newMemory_safe.bind ?_
        rintro - _ rfl
        refine tablePut_safe hpointer hp (hstay hone ?_)
        rw [hmalloc]
        rfl
  · rw [if_neg hone, if_neg hone]
    exact printError_safe

/-- The store after the growth goes to the freed block. -/
theorem getNewEntry_wrong {b : ℕ} {ioctlRet : ℤ} {env : NewEntryEnv} (hone : ioctlRet = 1)
    (hmalloc : env.malloc.isSome = true) (hmoves : GrowthMoves t env.realloc) :
    Wrong (getNewEntry (some b) t ioctlRet env) pre := by
  obtain ⟨hfull, mem, hanswer⟩ := hmoves
  obtain ⟨m, hm⟩ := Option.isSome_iff_exists.mp hmalloc
  have hneg : ¬ ioctlRet < 0 := by omega
  have hzero : ¬ ioctlRet = 0 := by omega
  unfold getNewEntry tablePut
  rw [if_neg hneg, if_neg hzero, if_pos hone, hm]
  dsimp only
  rw [if_pos hfull, hanswer]
  exact .after newMemory_safe fun _ blocks _ => .stale b

end NewEntry

/-- What an entry that is received does to the parts of the table that count here. -/
theorem received_table (h : HeapInv s) (ioctlRet : ℤ) (uuid : Uuid) (env : NewEntryEnv) :
    (s.main.received ioctlRet uuid env).table.uuidTable.isNull = s.main.table.uuidTable.isNull ∧
      (s.main.table.uuidTable.isNull = true →
        (s.main.received ioctlRet uuid env).table.tableNumEntries = 0) := by
  show (Server.getNewEntry s.main.table ioctlRet uuid env).2.uuidTable.isNull = _ ∧
    (_ → (Server.getNewEntry s.main.table ioctlRet uuid env).2.tableNumEntries = 0)
  have hsame := h.empty
  unfold Server.getNewEntry
  split
  · exact ⟨rfl, hsame⟩
  split
  · exact ⟨rfl, hsame⟩
  split
  · split
    · exact ⟨rfl, hsame⟩
    · rename_i memory _
      rcases tablePut_cases s.main.table (newEntry uuid memory) env.realloc with
        ⟨retVal, hput⟩ | ⟨hnull, -, hput⟩ | ⟨hnull, -, answer, hok, -, hput⟩
      · rw [hput]
        exact ⟨rfl, hsame⟩
      · rw [hput]
        refine ⟨rfl, fun hc => ?_⟩
        rw [hnull] at hc
        cases hc
      · rw [hput]
        refine ⟨?_, fun hc => ?_⟩
        · cases answer with
          | failed errno => exact absurd rfl (hok errno)
          | inPlace mem => exact hnull.symm
          | moved mem => rfl
        · rw [hnull] at hc
          cases hc
  · exact ⟨rfl, hsame⟩

/-- Counters between `table_init` and `table_delete`, outside `process_entry`. -/
structure Working (pc : Pc) : Prop where
  inside : tableAhead pc = false
  kept : tableGone pc = false
  idle : inCall pc = false

theorem drained_working {m : MainState} (hpc : m.pc = .drain) :
    Working m.drained.pc ∧ m.drained.table = m.table := by
  unfold MainState.drained
  split
  · rw [hpc]
    exact ⟨⟨rfl, rfl, rfl⟩, rfl⟩
  · split
    · exact ⟨⟨rfl, rfl, rfl⟩, rfl⟩
    · exact ⟨⟨rfl, rfl, rfl⟩, rfl⟩

theorem woken_working (m : MainState) : Working m.woken.pc ∧ m.woken.table = m.table := by
  unfold MainState.woken
  split
  · exact ⟨⟨rfl, rfl, rfl⟩, rfl⟩
  · split
    · exact ⟨⟨rfl, rfl, rfl⟩, rfl⟩
    · split
      · exact ⟨⟨rfl, rfl, rfl⟩, rfl⟩
      · exact ⟨⟨rfl, rfl, rfl⟩, rfl⟩

theorem gotEntry_leaves (h : HeapInv s) {ioctlRet : ℤ} {uuid : Uuid} {env : NewEntryEnv}
    (rest : List ℕ) {t : MainState}
    (hmove : MainMove debugOn s.main (.gotEntry ioctlRet uuid env) t)
    (hstay : ¬ MovesTable s.main (.gotEntry ioctlRet uuid env)) :
    Safe (do getNewEntry s.uuidTable s.main.table ioctlRet env; pure s.uuidTable)
      (s.pointers ++ rest) (StepLeaves rest t (newEntryLost s.main.table ioctlRet env)) := by
  obtain ⟨hnull, hempty⟩ := received_table h ioctlRet uuid env
  have hwork : tableGone s.main.pc = false ∧ Working t.pc ∧
      t.table = (s.main.received ioctlRet uuid env).table := by
    cases hmove with
    | drained hpc => exact ⟨congrArg tableGone hpc, drained_working hpc⟩
    | woken hpc => exact ⟨congrArg tableGone hpc, woken_working _⟩
  obtain ⟨hgone, hworking, htable⟩ := hwork
  have hpointers : s.pointers = s.uuidTable.toList := if_neg (by rw [hgone]; exact Bool.noConfusion)
  have hp : ∀ b ∈ s.uuidTable, b ∈ s.pointers ++ rest := by
    intro b hb
    rw [hpointers]
    exact List.mem_append_left _ (Option.mem_toList.mpr hb)
  refine (getNewEntry_safe h.pointer hp fun hone hmalloc hsome hmoves =>
    hstay ⟨hone, hmalloc, ?_, hmoves⟩).bind fun _ blocks hlost => ?_
  · rw [← h.pointer]
    exact Option.isNone_eq_false_iff.mpr hsome
  have hafter : HeapMain.pointers ⟨t, s.uuidTable⟩ = s.uuidTable.toList :=
    if_neg (by rw [hworking.kept]; exact Bool.noConfusion)
  rw [hpointers, ← hafter] at hlost
  refine .pure (stepLeaves_of_lost ⟨?_, ?_, ?_, ?_⟩ hlost)
  · rw [htable, hnull]
    exact h.pointer
  · rw [htable, hnull]
    exact hempty
  · intro hc
    rw [hworking.inside] at hc
    cases hc
  · exact nothing_to_show hworking.idle _

theorem callProcess_leaves (h : HeapInv s) {env : ProcessEnv} (rest : List ℕ) {t : MainState}
    (hmove : MainMove debugOn s.main (.callProcess env) t) :
    Safe (do
        let _ ← processEntry s.uuidTable debugOn env ⟨s.main.table, []⟩
        pure s.uuidTable) (s.pointers ++ rest)
      (StepLeaves rest t (processLost debugOn env s.main.table +
        held (runProcessEntry debugOn env s.main.table).value)) := by
  cases hmove with
  | @callProcess site _ hpc =>
      have hpointers : s.pointers = s.uuidTable.toList := by
        rw [HeapMain.pointers, hpc]
        rfl
      have hp : 0 < getTableNumEntries s.main.table →
          PointsInto s.uuidTable (s.pointers ++ rest) := by
        intro hpos
        cases hblock : s.uuidTable with
        | none =>
            -- a table that is NULL has no entries
            have hnull : s.main.table.uuidTable.isNull = true := by rw [← h.pointer, hblock]; rfl
            rw [getTableNumEntries, h.empty hnull] at hpos
            exact absurd hpos (by decide)
        | some b =>
            refine ⟨b, ?_, rfl⟩
            rw [hpointers, hblock]
            exact List.mem_cons_self
      refine (processEntry_safe debugOn env s.main.table hp).bind fun r blocks hr => ?_
      obtain ⟨-, -, more, hmore, hperm⟩ := hr
      have hframe := processEntry_frame debugOn env ⟨s.main.table, []⟩
      refine .pure ⟨⟨h.pointer, h.empty, fun hc => absurd hc Bool.false_ne_true, ?_⟩, rfl, more,
        hmore, ?_⟩
      · rintro site' todo result heq u hu
        cases heq
        obtain ⟨v, hv, rfl⟩ := List.mem_map.mp hu
        have hv := hframe.1 v hv
        exact ⟨hv.isNull, hv.num⟩
      · rw [hpointers] at hperm
        exact hperm.trans (List.perm_append_comm_assoc more s.uuidTable.toList rest)

theorem tableDelete_safe {p : Option ℕ} {t : UuidTable} {rest : List ℕ}
    (hpointer : p.isNone = t.uuidTable.isNull) :
    Safe (tableDelete p) (p.toList ++ rest) fun _ blocks =>
      Lost (if t.uuidTable.isNull = true then 1 else 0) rest blocks := by
  rw [← hpointer]
  cases p with
  | none => exact printError_safe
  | some b =>
      refine .free List.mem_cons_self ?_
      rw [Option.toList_some, List.cons_append, List.erase_cons_head]
      exact .nothing

theorem deleteTable_leaves (h : HeapInv s) (rest : List ℕ) {t : MainState}
    (hmove : MainMove debugOn s.main .deleteTable t) :
    Safe (do tableDelete s.uuidTable; pure s.uuidTable) (s.pointers ++ rest)
      (StepLeaves rest t (if s.main.table.uuidTable.isNull = true then 1 else 0)) := by
  cases hmove with
  | deleteTable hpc =>
      have hpointers : s.pointers = s.uuidTable.toList := by
        rw [HeapMain.pointers, hpc]
        rfl
      have hkeeps : (Server.tableDelete s.main.table).2.uuidTable.isNull =
            s.main.table.uuidTable.isNull ∧
          (Server.tableDelete s.main.table).2.tableNumEntries = s.main.table.tableNumEntries := by
        unfold Server.tableDelete
        split <;> exact ⟨rfl, rfl⟩
      rw [hpointers]
      refine (tableDelete_safe h.pointer).bind fun _ blocks hlost =>
        .pure (stepLeaves_of_lost ⟨h.pointer.trans hkeeps.1.symm, fun hc => ?_, fun hc =>
          absurd hc Bool.false_ne_true, nothing_to_show rfl _⟩ hlost)
      exact hkeeps.2.trans (h.empty (hkeeps.1.symm.trans hc))

/-- The functions called in a step lose what is counted for them. -/
theorem blocksStep_leaves (h : HeapInv s) (l : MainLabel) (rest : List ℕ) {t : MainState}
    (hmove : MainMove debugOn s.main l t) (hstay : ¬ MovesTable s.main l) :
    Safe (blocksStep debugOn s l) (s.pointers ++ rest)
      (StepLeaves rest t (callLost debugOn s.main.table l)) := by
  by_cases hl : TouchesBlocks l
  · cases l with
    | initTable malloc =>
        refine initTable_leaves h ?_ malloc rest hmove
        cases hmove with
        | noTable hpc => exact hpc
        | tableInit hpc => exact hpc
    | gotEntry ioctlRet uuid env => exact gotEntry_leaves h rest hmove hstay
    | callProcess env => exact callProcess_leaves h rest hmove
    | deleteTable => exact deleteTable_leaves h rest hmove
    | _ => exact absurd hl id
  · obtain ⟨hinv, hpointers⟩ := h.quiet hmove hl
    have hquiet : blocksStep debugOn s l = pure s.uuidTable ∧
        callLost debugOn s.main.table l = 0 := by
      cases l with
      | initTable malloc => exact absurd trivial hl
      | gotEntry ioctlRet uuid env => exact absurd trivial hl
      | callProcess env => exact absurd trivial hl
      | deleteTable => exact absurd trivial hl
      | _ => exact ⟨rfl, rfl⟩
    rw [hquiet.1, hquiet.2, ← hpointers]
    exact .pure (stepLeaves_of_lost hinv .nothing)

/-! ## Runs -/

/-- Every step loses that, and what it prints. -/
theorem heapStep_leaves (h : HeapInv s) (l : MainLabel) (rest : List ℕ)
    (hstay : whenEnabled (mainStep debugOn) (fun t l => ¬ MovesTable t l) s.main l) :
    Safe (heapStep debugOn s l) (s.pointers ++ rest)
      (Accounts HeapInv HeapMain.main HeapMain.pointers rest (orStay (mainStep debugOn) s.main l)
        (stepLost debugOn s.main l)) := by
  unfold heapStep orStay stepLost
  cases hstep : mainStep debugOn s.main l with
  | none => exact .pure ⟨h, rfl, [], rfl, .refl _⟩
  | some t =>
      have hmove := mainStep_move hstep
      replace hstay := hstay (Option.isSome_iff_exists.mpr ⟨t, hstep⟩)
      rw [Option.isSome_some, if_pos rfl, Option.getD_some]
      exact (blocksStep_leaves h l rest hmove hstay).bind fun _ _ hleaves =>
        (printErrors_safe _).bind fun _ _ hlost => .pure (hleaves.lose hlost)

theorem heapStep_wrong (h : HeapInv s) (l : MainLabel) (rest : List ℕ)
    (hmoves : ¬ whenEnabled (mainStep debugOn) (fun t l => ¬ MovesTable t l) s.main l) :
    Wrong (heapStep debugOn s l) (s.pointers ++ rest) := by
  obtain ⟨henabled, hnot⟩ := Classical.not_imp.mp hmoves
  replace hmoves := not_not.mp hnot
  obtain ⟨t, hstep⟩ := Option.isSome_iff_exists.mp henabled
  unfold heapStep
  rw [hstep]
  cases l with
  | gotEntry ioctlRet uuid env =>
      obtain ⟨hone, hmalloc, hnull, hgrowth⟩ := hmoves
      obtain ⟨b, hb⟩ : ∃ b, s.uuidTable = some b := by
        refine Option.ne_none_iff_exists'.mp fun hnone => ?_
        have hisNull := h.pointer
        rw [hnone, hnull] at hisNull
        cases hisNull
      show Wrong ((do getNewEntry s.uuidTable s.main.table ioctlRet env; pure s.uuidTable) >>= _) _
      rw [hb]
      exact .bind (.bind (getNewEntry_wrong hone hmalloc hgrowth))
  | _ => exact hmoves.elim

end Steps

theorem start_heapInv (mem : ℤ → UuidTableEntry) : HeapInv ⟨MainState.init mem, none⟩ :=
  ⟨rfl, fun _ => rfl, fun _ => rfl, nothing_to_show rfl _⟩

section Runs

variable (debugOn : Bool) (mem : ℤ → UuidTableEntry) (ls : List MainLabel) (s : MainState)
  (hrun : exec (mainStep debugOn) (MainState.init mem) ls = some s)

include hrun

/-- While the table stays where it is, allocated are its block and those that were lost. -/
theorem run_accounts
    (hstay : StepsMeet (mainStep debugOn) (fun t l => ¬ MovesTable t l) (MainState.init mem) ls) :
    ∃ u heap lost, ls.foldlM (heapStep debugOn) ⟨MainState.init mem, none⟩ BlockHeap.empty =
        some (u, heap) ∧ u.main = s ∧ heap.Owns (u.pointers ++ lost) ∧
      lost.length =
        lostOn (orStay (mainStep debugOn)) (stepLost debugOn) (MainState.init mem) ls := by
  obtain ⟨u, heap, blocks, hheap, howns, -, hmain, lost, hlost, hperm⟩ :=
    Safe.foldlM (fun _ l rest ht hguard => heapStep_leaves ht l rest hguard) ls
      ⟨MainState.init mem, none⟩ [] (start_heapInv mem)
      ((along_iff_stepsMeet ls _ s hrun).mpr hstay) BlockHeap.empty BlockHeap.empty_owns
  rw [List.append_nil] at hperm
  exact ⟨u, heap, lost, hheap, hmain.trans (foldl_orStay ls _ s hrun), howns.perm hperm, hlost⟩

/-- Once it moves, a freed block is written to. -/
theorem run_wrong
    (hmoves : ¬ StepsMeet (mainStep debugOn) (fun t l => ¬ MovesTable t l)
      (MainState.init mem) ls) :
    ls.foldlM (heapStep debugOn) ⟨MainState.init mem, none⟩ BlockHeap.empty = none :=
  Wrong.foldlM (fun _ l rest ht hguard => heapStep_leaves ht l rest hguard)
    (fun _ l rest ht hguard => heapStep_wrong ht l rest hguard) ls ⟨MainState.init mem, none⟩ []
    (start_heapInv mem) (mt (along_iff_stepsMeet ls _ s hrun).mp hmoves) BlockHeap.empty
    BlockHeap.empty_owns

/-- **The blocks of a run of `main`.** The run misuses no block exactly if no growth moves the
table. Then allocated are the block of the table, from `table_init` to `table_delete`, and the
blocks lost: the copies and the buffers of `process_entry`, and one for each error printed. -/
theorem server_heap_accounted :
    (∃ u heap lost, ls.foldlM (heapStep debugOn) ⟨MainState.init mem, none⟩ BlockHeap.empty =
        some (u, heap) ∧ u.main = s ∧ heap.Owns (u.pointers ++ lost) ∧
      lost.length =
        lostOn (orStay (mainStep debugOn)) (stepLost debugOn) (MainState.init mem) ls) ↔
    StepsMeet (mainStep debugOn) (fun t l => ¬ MovesTable t l) (MainState.init mem) ls := by
  constructor
  · rintro ⟨u, heap, lost, hheap, -⟩
    by_contra hmoves
    have hnone := run_wrong debugOn mem ls s hrun hmoves
    rw [hheap] at hnone
    cases hnone
  · exact run_accounts debugOn mem ls s hrun

end Runs

theorem failedRun_stays (debugOn : Bool) :
    StepsMeet (mainStep debugOn) (fun t l => ¬ MovesTable t l) (MainState.init fun _ => default)
      (bootRun ++ failedRun) := by
  refine stepsMeet_of_forall fun l hl s => ?_
  simp only [bootRun, failedRun, List.mem_append, List.mem_cons, List.not_mem_nil, or_false] at hl
  rcases hl with (rfl | rfl | rfl | rfl | rfl | rfl | rfl) | rfl | rfl | rfl | rfl | rfl | rfl | rfl
  all_goals simp [MovesTable, GrowthMoves, entryEnv]

/-- The run in which no VM can be created leaves, beside the table, the arrays of the two errors
about it, that of `process_entry` and that of `main`. -/
theorem failed_server_accounted :
    ∃ u heap lost, (bootRun ++ failedRun).foldlM (heapStep true)
        (⟨MainState.init fun _ => default, none⟩ : HeapMain) BlockHeap.empty = some (u, heap) ∧
      u.main.table.tableNumEntries = 2 ∧ heap.Owns (u.uuidTable.toList ++ lost) ∧
      lost.length = 2 := by
  obtain ⟨s, hrun, hgone, hnum, htwo⟩ : ∃ s, exec (mainStep true) (MainState.init fun _ => default)
        (bootRun ++ failedRun) = some s ∧ tableGone s.pc = false ∧ s.table.tableNumEntries = 2 ∧
      lostOn (orStay (mainStep true)) (stepLost true) (MainState.init fun _ => default)
        (bootRun ++ failedRun) = 2 :=
    ⟨_, rfl, rfl, rfl, rfl⟩
  obtain ⟨u, heap, lost, hheap, rfl, howns, hlost⟩ :=
    (server_heap_accounted true _ (bootRun ++ failedRun) s hrun).mpr (failedRun_stays true)
  refine ⟨u, heap, lost, hheap, hnum, ?_, hlost.trans htwo⟩
  rwa [HeapMain.pointers, hgone, if_neg Bool.false_ne_true] at howns

end LxcUio.Server.Heap
