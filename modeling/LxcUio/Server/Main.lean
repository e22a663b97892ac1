import LxcUio.Foundation.LabelledRun
import LxcUio.Server.ProcessEntry

/-!
# `get_new_entry` and `main`

`kvm-host-server.c`. `main` is a machine over a program counter: each label is a
step that the counter allows, with what the environment answers. `process_entry`
is run when it is called; the states it passes through are then shown one by one.

- `popped` records the uuids that `get_new_entry` was given, in order.
- `stop` records the branch that led to `out_table`, `bugs` the bug checks.
- `scribble` is a write by another owner of the heap; it reaches only memory that
  the table's block does not own.
-/

namespace LxcUio.Server

open LxcUio.Foundation

/-! ## `get_new_entry` -/

/-- `new_memory`: `malloc` delivers a record with stale contents. -/
def newMemory (malloc : Option VmMemory) : Option VmMemory :=
  malloc.map fun m => { m with numRegions := 0, baseIDT := 0, sizeIDT := 0 }

/-- What the allocations of `get_new_entry` answer. -/
structure NewEntryEnv where
  malloc : Option VmMemory
  realloc : ℤ → Realloc UuidTableEntry

/-- The entry that is put for a uuid. -/
def newEntry (uuid : Uuid) (memory : VmMemory) : UuidTableEntry where
  uuid := uuid
  vmfd := -1
  vcpufd := -1
  memory := memory
  processed := false
  couldNotProcess := false

/-- `get_new_entry`, on what the ioctl returned and the uuid it delivered: the
value returned and the table. The result of `table_put` is not looked at. -/
def getNewEntry (t : UuidTable) (ioctlRet : ℤ) (uuid : Uuid) (env : NewEntryEnv) :
    ℤ × UuidTable :=
  if ioctlRet < 0 then (ioctlRet, t)
  else if ioctlRet = 0 then (0, t)
  else if ioctlRet = 1 then
    match newMemory env.malloc with
    | none => (-1, t)
    | some memory => (1, (tablePut t (newEntry uuid memory) env.realloc).2)
  else (ioctlRet, t)

/-! ## `main` -/

/-- The two places that call `process_entry`: the loop before the event loop, and
the event loop. -/
inductive Site where
  | first
  | event
deriving DecidableEq

inductive Pc where
  | getMajorNumber
  | openKvm
  | checkExtension
  | eventfd
  | openCdev
  | registerServer
  | tableInit
  | drain
  | process (site : Site)
  | inProcess (site : Site) (todo : List UuidTable) (result : ProcessResult)
  | select
  | getNew
  | readEventfd
  | outTable
  | outDeregister
  | outEfd
  | returned
  | killed

/-- The branches of `main` that go to `out_table`. -/
inductive Stop where
  | drainError
  | processError
  | processUnexpected
  | selectError
  | noNewEntry
  | newEntryError
  | newEntryUnexpected
  | readError
  | zeroEvents
  | eventProcessError
  | eventProcessUnexpected
deriving DecidableEq

structure MainState where
  pc : Pc
  table : UuidTable
  retVal : ℤ
  popped : List Uuid
  stop : Option Stop
  bugs : List BugCheck

inductive MainLabel where
  | majorNumber (ret : ℤ)
  | kvmOpened (fd : ℤ)
  | extension (ret : ℤ)
  | eventfdCreated (fd : ℤ)
  | cdevOpened (fd : ℤ)
  | registered (ret : ℤ)
  | initTable (malloc : Except ℤ (ℤ → UuidTableEntry))
  | gotEntry (ioctlRet : ℤ) (uuid : Uuid) (env : NewEntryEnv)
  | callProcess (env : ProcessEnv)
  | processStep
  | processReturn
  | selected (ret : ℤ) (readable : Bool)
  | eventfdRead (ret : ℤ)
  | deleteTable
  | deregistered (ret : ℤ)
  | closed
  | scribble (mem : ℤ → UuidTableEntry)

def MainState.init (mem : ℤ → UuidTableEntry) : MainState where
  pc := .getMajorNumber
  table := UuidTable.atStart mem
  retVal := -1
  popped := []
  stop := none
  bugs := []

/-- `goto out_table`. -/
def MainState.leave (s : MainState) (stop : Stop) : MainState :=
  { s with pc := .outTable, stop := some stop }

/-- The state after `get_new_entry` returned. -/
def MainState.received (s : MainState) (ioctlRet : ℤ) (uuid : Uuid) (env : NewEntryEnv) :
    MainState :=
  { s with
    table := (getNewEntry s.table ioctlRet uuid env).2
    retVal := (getNewEntry s.table ioctlRet uuid env).1
    popped := if ioctlRet = 1 then s.popped ++ [uuid] else s.popped }

/-- What the drain loop does with the result of `get_new_entry`. -/
def MainState.drained (s : MainState) : MainState :=
  if s.retVal > 0 then s
  else if s.retVal = 0 then { s with pc := .process .first }
  else s.leave .drainError

/-- What the event loop does with the result of `get_new_entry`. -/
def MainState.woken (s : MainState) : MainState :=
  if s.retVal = 0 then { s.leave .noNewEntry with retVal := -1 }
  else if s.retVal = 1 then { s with pc := .readEventfd }
  else if s.retVal < 0 then s.leave .newEntryError
  else s.leave .newEntryUnexpected

/-- What follows a call of `process_entry` that returned `ret`. -/
def MainState.processed (s : MainState) : Site → ℤ → MainState
  | .first, ret =>
      let s := { s with retVal := ret }
      if ret > 0 then { s with pc := .process .first }
      else if ret = 0 then { s with pc := .select }
      else if ret < 0 then s.leave .processError
      else s.leave .processUnexpected
  | .event, ret =>
      if ret = 0 then s.leave .zeroEvents
      else if ret = 1 then { s with pc := .select }
      else if ret < 0 then s.leave .eventProcessError
      else s.leave .eventProcessUnexpected

/-- The branches taken on what `process_entry` returned. -/
def processStops : List Stop :=
  [.processError, .processUnexpected, .zeroEvents, .eventProcessError, .eventProcessUnexpected]

/-- After a call of `process_entry` the server goes back to one of the loops, or leaves. -/
theorem processed_cases (s : MainState) (site : Site) (ret : ℤ) :
    (∃ pc retVal, (pc = .process .first ∨ pc = .select) ∧
      s.processed site ret = { s with pc := pc, retVal := retVal }) ∨
    ∃ stop retVal, stop ∈ processStops ∧
      s.processed site ret = { s.leave stop with retVal := retVal } := by
  cases site with
  | first =>
      simp only [MainState.processed]
      split
      · exact Or.inl ⟨_, ret, Or.inl rfl, rfl⟩
      · split
        · exact Or.inl ⟨_, ret, Or.inr rfl, rfl⟩
        · split
          · exact Or.inr ⟨.processError, ret, by decide, rfl⟩
          · exact Or.inr ⟨.processUnexpected, ret, by decide, rfl⟩
  | event =>
      simp only [MainState.processed]
      split
      · exact Or.inr ⟨.zeroEvents, s.retVal, by decide, rfl⟩
      · split
        · exact Or.inl ⟨_, s.retVal, Or.inr rfl, rfl⟩
        · split
          · exact Or.inr ⟨.eventProcessError, s.retVal, by decide, rfl⟩
          · exact Or.inr ⟨.eventProcessUnexpected, s.retVal, by decide, rfl⟩

def mainStep (debugOn : Bool) (s : MainState) (l : MainLabel) : Option MainState :=
  match s.pc, l with
  | .getMajorNumber, .majorNumber ret =>
      if ret < 0 then some { s with pc := .returned, retVal := -1 }
      else some { s with pc := .openKvm }
  | .openKvm, .kvmOpened fd =>
      if fd < 0 then some { s with pc := .returned } else some { s with pc := .checkExtension }
  | .checkExtension, .extension ret =>
      if ret < 0 then some { s with pc := .returned, retVal := ret }
      else if ret = 0 then some { s with pc := .returned, retVal := ret }
      else some { s with pc := .eventfd, retVal := ret }
  | .eventfd, .eventfdCreated fd =>
      if fd < 0 then some { s with pc := .returned, retVal := -1 }
      else some { s with pc := .openCdev }
  | .openCdev, .cdevOpened fd =>
      if fd < 0 then some { s with pc := .outEfd, retVal := -1 }
      else some { s with pc := .registerServer }
  | .registerServer, .registered ret =>
      if ret < 0 then some { s with pc := .outEfd, retVal := ret }
      else some { s with pc := .tableInit, retVal := ret }
  | .tableInit, .initTable malloc =>
      let r := tableInit s.table malloc
      let s := { s with table := r.2, retVal := r.1 }
      if r.1 < 0 then some { s with pc := .outDeregister } else some { s with pc := .drain }
  | .drain, .gotEntry ioctlRet uuid env => some (s.received ioctlRet uuid env).drained
  | .process site, .callProcess env =>
      let r := runProcessEntry debugOn env s.table
      some { s with pc := .inProcess site (r.visited.map ProcState.table) r.value }
  | .inProcess site (t :: todo) result, .processStep =>
      some { s with pc := .inProcess site todo result, table := t }
  | .inProcess site [] (.returned ret), .processReturn => some (s.processed site ret)
  | .inProcess site [] (.bug b), .processReturn =>
      some ({ s with bugs := s.bugs ++ [b] }.processed site (-1))
  | .inProcess _ [] .crashed, .processReturn => some { s with pc := .killed }
  | .select, .selected ret readable =>
      if ret < 0 then some { s.leave .selectError with retVal := ret }
      else if readable = true then some { s with pc := .getNew, retVal := ret }
      else some { s with retVal := ret }
  | .getNew, .gotEntry ioctlRet uuid env => some (s.received ioctlRet uuid env).woken
  | .readEventfd, .eventfdRead ret =>
      if ret = 8 then some { s with pc := .process .event } else some (s.leave .readError)
  | .outTable, .deleteTable =>
      let r := tableDelete s.table
      some { s with pc := .outDeregister, table := r.2, retVal := r.1 }
  | .outDeregister, .deregistered ret => some { s with pc := .outEfd, retVal := ret }
  | .outEfd, .closed => some { s with pc := .returned }
  | .inProcess _ _ _, .scribble _ => none
  | _, .scribble mem =>
      some { s with table := { s.table with uuidTable := s.table.uuidTable.disturb mem } }
  | _, _ => none

/-! ## What a step can do -/

/-- The branches of `main`, each with what it tests. -/
inductive MainMove (debugOn : Bool) (s : MainState) : MainLabel → MainState → Prop where
  | noMajorNumber {ret : ℤ} (hpc : s.pc = .getMajorNumber) (hret : ret < 0) :
      MainMove debugOn s (.majorNumber ret) { s with pc := .returned, retVal := -1 }
  | majorNumber {ret : ℤ} (hpc : s.pc = .getMajorNumber) (hret : ¬ ret < 0) :
      MainMove debugOn s (.majorNumber ret) { s with pc := .openKvm }
  | noKvm {fd : ℤ} (hpc : s.pc = .openKvm) (hfd : fd < 0) :
      MainMove debugOn s (.kvmOpened fd) { s with pc := .returned }
  | kvm {fd : ℤ} (hpc : s.pc = .openKvm) (hfd : ¬ fd < 0) :
      MainMove debugOn s (.kvmOpened fd) { s with pc := .checkExtension }
  | extensionError {ret : ℤ} (hpc : s.pc = .checkExtension) (hret : ret < 0) :
      MainMove debugOn s (.extension ret) { s with pc := .returned, retVal := ret }
  | noExtension (hpc : s.pc = .checkExtension) :
      MainMove debugOn s (.extension 0) { s with pc := .returned, retVal := 0 }
  | extension {ret : ℤ} (hpc : s.pc = .checkExtension) (hret : 0 < ret) :
      MainMove debugOn s (.extension ret) { s with pc := .eventfd, retVal := ret }
  | noEventfd {fd : ℤ} (hpc : s.pc = .eventfd) (hfd : fd < 0) :
      MainMove debugOn s (.eventfdCreated fd) { s with pc := .returned, retVal := -1 }
  | eventfd {fd : ℤ} (hpc : s.pc = .eventfd) (hfd : ¬ fd < 0) :
      MainMove debugOn s (.eventfdCreated fd) { s with pc := .openCdev }
  | noCdev {fd : ℤ} (hpc : s.pc = .openCdev) (hfd : fd < 0) :
      MainMove debugOn s (.cdevOpened fd) { s with pc := .outEfd, retVal := -1 }
  | cdev {fd : ℤ} (hpc : s.pc = .openCdev) (hfd : ¬ fd < 0) :
      MainMove debugOn s (.cdevOpened fd) { s with pc := .registerServer }
  | notRegistered {ret : ℤ} (hpc : s.pc = .registerServer) (hret : ret < 0) :
      MainMove debugOn s (.registered ret) { s with pc := .outEfd, retVal := ret }
  | registered {ret : ℤ} (hpc : s.pc = .registerServer) (hret : ¬ ret < 0) :
      MainMove debugOn s (.registered ret) { s with pc := .tableInit, retVal := ret }
  | noTable {malloc : Except ℤ (ℤ → UuidTableEntry)} (hpc : s.pc = .tableInit)
      (hret : (Server.tableInit s.table malloc).1 < 0) :
      MainMove debugOn s (.initTable malloc)
        { s with
          pc := .outDeregister
          table := (Server.tableInit s.table malloc).2
          retVal := (Server.tableInit s.table malloc).1 }
  | tableInit {malloc : Except ℤ (ℤ → UuidTableEntry)} (hpc : s.pc = .tableInit)
      (hret : ¬ (Server.tableInit s.table malloc).1 < 0) :
      MainMove debugOn s (.initTable malloc)
        { s with
          pc := .drain
          table := (Server.tableInit s.table malloc).2
          retVal := (Server.tableInit s.table malloc).1 }
  | drained {ioctlRet : ℤ} {uuid : Uuid} {env : NewEntryEnv} (hpc : s.pc = .drain) :
      MainMove debugOn s (.gotEntry ioctlRet uuid env) (s.received ioctlRet uuid env).drained
  | callProcess {site : Site} {env : ProcessEnv} (hpc : s.pc = .process site) :
      MainMove debugOn s (.callProcess env)
        { s with
          pc := .inProcess site ((runProcessEntry debugOn env s.table).visited.map ProcState.table)
            (runProcessEntry debugOn env s.table).value }
  | processStep {site : Site} {u : UuidTable} {todo : List UuidTable} {result : ProcessResult}
      (hpc : s.pc = .inProcess site (u :: todo) result) :
      MainMove debugOn s .processStep { s with pc := .inProcess site todo result, table := u }
  | processReturn {site : Site} {ret : ℤ} (hpc : s.pc = .inProcess site [] (.returned ret)) :
      MainMove debugOn s .processReturn (s.processed site ret)
  | bug {site : Site} {b : BugCheck} (hpc : s.pc = .inProcess site [] (.bug b)) :
      MainMove debugOn s .processReturn ({ s with bugs := s.bugs ++ [b] }.processed site (-1))
  | crashed {site : Site} (hpc : s.pc = .inProcess site [] .crashed) :
      MainMove debugOn s .processReturn { s with pc := .killed }
  | selectError {ret : ℤ} {readable : Bool} (hpc : s.pc = .select) (hret : ret < 0) :
      MainMove debugOn s (.selected ret readable) { s.leave .selectError with retVal := ret }
  | readable {ret : ℤ} (hpc : s.pc = .select) (hret : ¬ ret < 0) :
      MainMove debugOn s (.selected ret true) { s with pc := .getNew, retVal := ret }
  | notReadable {ret : ℤ} (hpc : s.pc = .select) (hret : ¬ ret < 0) :
      MainMove debugOn s (.selected ret false) { s with retVal := ret }
  | woken {ioctlRet : ℤ} {uuid : Uuid} {env : NewEntryEnv} (hpc : s.pc = .getNew) :
      MainMove debugOn s (.gotEntry ioctlRet uuid env) (s.received ioctlRet uuid env).woken
  | eventfdRead (hpc : s.pc = .readEventfd) :
      MainMove debugOn s (.eventfdRead 8) { s with pc := .process .event }
  | readError {ret : ℤ} (hpc : s.pc = .readEventfd) (hret : ret ≠ 8) :
      MainMove debugOn s (.eventfdRead ret) (s.leave .readError)
  | deleteTable (hpc : s.pc = .outTable) :
      MainMove debugOn s .deleteTable
        { s with
          pc := .outDeregister
          table := (tableDelete s.table).2
          retVal := (tableDelete s.table).1 }
  | deregistered {ret : ℤ} (hpc : s.pc = .outDeregister) :
      MainMove debugOn s (.deregistered ret) { s with pc := .outEfd, retVal := ret }
  | closed (hpc : s.pc = .outEfd) : MainMove debugOn s .closed { s with pc := .returned }
  | scribble {mem : ℤ → UuidTableEntry}
      (hpc : ∀ site todo result, s.pc ≠ .inProcess site todo result) :
      MainMove debugOn s (.scribble mem)
        { s with table := { s.table with uuidTable := s.table.uuidTable.disturb mem } }

/-- A step is one of these, in the order in which `mainStep` tries them. -/
theorem mainStep_move {debugOn : Bool} {s t : MainState} {l : MainLabel}
    (hs : mainStep debugOn s l = some t) : MainMove debugOn s l t := by
  unfold mainStep at hs
  split at hs
  case h_1 ret hpc =>
    split at hs <;> obtain rfl := Option.some.inj hs
    · exact .noMajorNumber hpc ‹_›
    · exact .majorNumber hpc ‹_›
  case h_2 fd hpc =>
    split at hs <;> obtain rfl := Option.some.inj hs
    · exact .noKvm hpc ‹_›
    · exact .kvm hpc ‹_›
  case h_3 ret hpc =>
    split at hs
    · obtain rfl := Option.some.inj hs
      exact .extensionError hpc ‹_›
    · split at hs <;> obtain rfl := Option.some.inj hs
      · rename_i hzero
        subst hzero
        exact .noExtension hpc
      · exact .extension hpc (by omega)
  case h_4 fd hpc =>
    split at hs <;> obtain rfl := Option.some.inj hs
    · exact .noEventfd hpc ‹_›
    · exact .eventfd hpc ‹_›
  case h_5 fd hpc =>
    split at hs <;> obtain rfl := Option.some.inj hs
    · exact .noCdev hpc ‹_›
    · exact .cdev hpc ‹_›
  case h_6 ret hpc =>
    split at hs <;> obtain rfl := Option.some.inj hs
    · exact .notRegistered hpc ‹_›
    · exact .registered hpc ‹_›
  case h_7 malloc hpc =>
    dsimp only at hs
    split at hs <;> obtain rfl := Option.some.inj hs
    · exact .noTable hpc ‹_›
    · exact .tableInit hpc ‹_›
  case h_8 ioctlRet uuid env hpc =>
    obtain rfl := Option.some.inj hs
    exact .drained hpc
  case h_9 site env hpc =>
    obtain rfl := Option.some.inj hs
    exact .callProcess hpc
  case h_10 site u todo result hpc =>
    obtain rfl := Option.some.inj hs
    exact .processStep hpc
  case h_11 site ret hpc =>
    obtain rfl := Option.some.inj hs
    exact .processReturn hpc
  case h_12 site b hpc =>
    obtain rfl := Option.some.inj hs
    exact .bug hpc
  case h_13 site hpc =>
    obtain rfl := Option.some.inj hs
    exact .crashed hpc
  case h_14 ret readable hpc =>
    split at hs
    · obtain rfl := Option.some.inj hs
      exact .selectError hpc ‹_›
    · split at hs <;> obtain rfl := Option.some.inj hs
      · rename_i hread
        subst hread
        exact .readable hpc ‹_›
      · rename_i hread
        obtain rfl : readable = false := Bool.eq_false_of_not_eq_true hread
        exact .notReadable hpc ‹_›
  case h_15 ioctlRet uuid env hpc =>
    obtain rfl := Option.some.inj hs
    exact .woken hpc
  case h_16 ret hpc =>
    split at hs <;> obtain rfl := Option.some.inj hs
    · rename_i hret
      subst hret
      exact .eventfdRead hpc
    · exact .readError hpc ‹_›
  case h_17 hpc =>
    obtain rfl := Option.some.inj hs
    exact .deleteTable hpc
  case h_18 ret hpc =>
    obtain rfl := Option.some.inj hs
    exact .deregistered hpc
  case h_19 hpc =>
    obtain rfl := Option.some.inj hs
    exact .closed hpc
  case h_20 => cases hs
  case h_21 mem hpc =>
    obtain rfl := Option.some.inj hs
    exact .scribble fun site todo result heq => hpc site todo result heq
  case h_22 => cases hs

end LxcUio.Server
