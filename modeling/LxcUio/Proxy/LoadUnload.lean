import LxcUio.Foundation.LabelledRun
import LxcUio.Proxy.ModuleTable

/-!
# Loading and unloading the proxy

`start` and `end` (`lxc-uio-proxy.c`), `create_chardev` and `remove_chardev` (`cdev.c`), as
far as they acquire and release. `held` lists what is held, each resource with the number
of the load that acquired it; a load begins with a fresh data segment. `debugOn` is the
build with `debug_on`.
-/

namespace LxcUio.Proxy

open LxcUio.Foundation

inductive Resource where
  | chrdevRegion
  | cdevClass
  | cdevDevice
  | cdevAdded
  | procEntry
  | putModulePointer
  | moduleTable
deriving DecidableEq

abbrev Held : Type := List (ℕ × Resource)

/-- An error pointer, by its `PTR_ERR`. -/
abbrev PtrErr : Type := { err : ℤ // err < 0 }

/-- What the calls of one `start` answer. -/
structure StartOutcomes where
  mem : ℤ → ModuleTableStruct
  kmalloc : Option (ℤ → ModuleTableStruct)
  findSymbol : Bool
  allocChrdevRegion : ℤ
  classCreate : Except PtrErr Unit
  deviceCreate : Except PtrErr Unit
  cdevAlloc : Bool
  cdevAdd : ℤ
  procCreate : Bool

/-! ## `cdev.c` -/

def createChardev (o : StartOutcomes) (n : ℕ) (held : Held) : ℤ × Held :=
  if o.allocChrdevRegion < 0 then (o.allocChrdevRegion, held)
  else
    let held := (n, .chrdevRegion) :: held
    match o.classCreate with
    | .error err => (err, held.erase (n, .chrdevRegion))
    | .ok _ =>
      let held := (n, .cdevClass) :: held
      match o.deviceCreate with
      | .error err => (err, (held.erase (n, .cdevClass)).erase (n, .chrdevRegion))
      | .ok _ =>
        let held := (n, .cdevDevice) :: held
        let undone :=
          ((held.erase (n, .cdevDevice)).erase (n, .cdevClass)).erase (n, .chrdevRegion)
        if o.cdevAlloc = false then (-1, undone)
        else if o.cdevAdd < 0 then (-1, undone)
        else (0, (n, .cdevAdded) :: held)

/-- There is no `cdev_del`. -/
def removeChardev (n : ℕ) (held : Held) : Held :=
  ((held.erase (n, .cdevDevice)).erase (n, .cdevClass)).erase (n, .chrdevRegion)

/-! ## `lxc-uio-proxy.c` -/

/-- `lxc_uio_proxy_put_module!=NULL`; the variable is the kernel's. -/
def pointerSet (held : Held) : Bool := held.any fun p => p.2 = .putModulePointer

/-- `lxc_uio_proxy_put_module=NULL`, whoever set it. -/
def clearPointer (held : Held) : Held := held.filter fun p => p.2 ≠ .putModulePointer

/-! The labels of `start`; each falls through to the next. -/

def outFree (n : ℕ) (held : Held) : Held := held.erase (n, .moduleTable)

def outPutModule (n : ℕ) (held : Held) : Held := outFree n (clearPointer held)

def outChardev (n : ℕ) (held : Held) : Held := outPutModule n (removeChardev n held)

def start (o : StartOutcomes) (n : ℕ) (held : Held) : ℤ × Held :=
  if (tableInit (ModuleTable.atLoad o.mem) o.kmalloc).1 < 0 then (-1, held)
  else
    let held := (n, .moduleTable) :: held
    if o.findSymbol = false then (-1, outFree n held)
    else if pointerSet held = true then (-1, outFree n held)
    else
      let held := (n, .putModulePointer) :: held
      let chardev := createChardev o n held
      if chardev.1 < 0 then (-1, outPutModule n chardev.2)
      else if o.procCreate = false then (negENOMEM, outChardev n chardev.2)
      else (0, (n, .procEntry) :: chardev.2)

/-- `end`: the entry in `/proc` is removed only in the build with `debug_on`. -/
def end_ (debugOn : Bool) (n : ℕ) (held : Held) : Held :=
  let held := outFree n (clearPointer (removeChardev n held))
  if debugOn = true then held.erase (n, .procEntry) else held

/-! ## Sequences of loads and unloads -/

/-- `current` is the load that is in place, `loads` the number of loads so far. -/
structure LoadState where
  held : Held
  current : Option ℕ
  loads : ℕ

inductive LoadLabel where
  | load (o : StartOutcomes)
  | unload

def LoadState.init : LoadState := ⟨[], none, 0⟩

/-- A module is loaded once at a time, and stays when `start` returns 0. -/
def loadStep (debugOn : Bool) (s : LoadState) : LoadLabel → Option LoadState
  | .load o =>
      match s.current with
      | some _ => none
      | none =>
          let r := start o s.loads s.held
          some ⟨r.2, if r.1 = 0 then some s.loads else none, s.loads + 1⟩
  | .unload =>
      match s.current with
      | none => none
      | some n => some { s with held := end_ debugOn n s.held, current := none }

/-- **Balanced**: whatever is held was acquired by the load that is in place. After a failed
`start`, and after `end`, nothing of that load is held. -/
def Balanced (s : LoadState) : Prop := ∀ p ∈ s.held, s.current = some p.1

/-- `create_chardev` gets as far as `cdev_add`, and `proc_create` fails. -/
structure FailsAtProc (o : StartOutcomes) : Prop where
  kmalloc : o.kmalloc.isSome = true
  findSymbol : o.findSymbol = true
  region : 0 ≤ o.allocChrdevRegion
  cdevClass : o.classCreate.isOk = true
  device : o.deviceCreate.isOk = true
  cdevAlloc : o.cdevAlloc = true
  cdevAdd : 0 ≤ o.cdevAdd
  proc : o.procCreate = false

/-- The guard: the proxy is never unloaded, and no `start` fails behind `cdev_add`. -/
def KeepsCdev (_ : LoadState) : LoadLabel → Prop
  | .load o => ¬ FailsAtProc o
  | .unload => False

/-! ## What a load leaves -/

/-- All that a load acquires, the last first. -/
def acquired (n : ℕ) : Held :=
  [(n, .procEntry), (n, .cdevAdded), (n, .cdevDevice), (n, .cdevClass), (n, .chrdevRegion),
    (n, .putModulePointer), (n, .moduleTable)]

/-- `create_chardev` undoes what it did, or gets everything. -/
theorem createChardev_cases (o : StartOutcomes) (n : ℕ) (held : Held) :
    ((createChardev o n held).1 < 0 ∧ (createChardev o n held).2 = held ∧
      ¬ (0 ≤ o.allocChrdevRegion ∧ o.classCreate.isOk = true ∧ o.deviceCreate.isOk = true ∧
        o.cdevAlloc = true ∧ 0 ≤ o.cdevAdd)) ∨
    (createChardev o n held = (0, (n, .cdevAdded) :: (n, .cdevDevice) :: (n, .cdevClass) ::
        (n, .chrdevRegion) :: held) ∧
      0 ≤ o.allocChrdevRegion ∧ o.classCreate.isOk = true ∧ o.deviceCreate.isOk = true ∧
        o.cdevAlloc = true ∧ 0 ≤ o.cdevAdd) := by
  unfold createChardev
  by_cases hregion : o.allocChrdevRegion < 0
  · left
    rw [if_pos hregion]
    exact ⟨hregion, rfl, fun h => absurd h.1 (not_le.mpr hregion)⟩
  · rw [if_neg hregion]
    cases hclass : o.classCreate with
    | error err =>
        -- the region is the only thing to give back
        left
        refine ⟨err.2, List.erase_cons_head .., ?_⟩
        rintro ⟨-, hok, -⟩
        cases hok
    | ok _ =>
        cases hdevice : o.deviceCreate with
        | error err =>
            left
            refine ⟨err.2, by simp, ?_⟩
            rintro ⟨-, -, hok, -⟩
            cases hok
        | ok _ =>
            by_cases halloc : o.cdevAlloc = false
            · left
              simp [halloc]
            · by_cases hadd : o.cdevAdd < 0
              · left
                simp [halloc, hadd]
              · right
                simp [halloc, hadd, not_lt.mp hregion, not_lt.mp hadd, Except.isOk,
                  Except.toBool]

theorem tableInit_atLoad_neg (mem : ℤ → ModuleTableStruct)
    (kmalloc : Option (ℤ → ModuleTableStruct)) :
    (tableInit (ModuleTable.atLoad mem) kmalloc).1 < 0 ↔ kmalloc = none := by
  cases kmalloc with
  | none =>
      have hneg : (-1 : ℤ) < 0 := by decide
      exact iff_of_true hneg rfl
  | some kmem => exact iff_of_false (lt_irrefl (0 : ℤ)) fun h => by cases h

/-- What `start` leaves when nothing was held before: nothing, or the cdev that was added,
or, when it succeeds, everything. -/
theorem start_cases (o : StartOutcomes) (n : ℕ) :
    (¬ FailsAtProc o ∧ (start o n []).1 ≠ 0 ∧ (start o n []).2 = []) ∨
    (FailsAtProc o ∧ start o n [] = (negENOMEM, [(n, .cdevAdded)])) ∨
    (¬ FailsAtProc o ∧ start o n [] = (0, acquired n)) := by
  unfold start
  by_cases hinit : (tableInit (ModuleTable.atLoad o.mem) o.kmalloc).1 < 0
  · left
    rw [if_pos hinit]
    refine ⟨fun h => ?_, by decide, rfl⟩
    have hsome := h.kmalloc
    rw [(tableInit_atLoad_neg o.mem o.kmalloc).mp hinit] at hsome
    cases hsome
  · rw [if_neg hinit]
    have hkmalloc : o.kmalloc.isSome = true :=
      Option.isSome_iff_ne_none.mpr (mt (tableInit_atLoad_neg o.mem o.kmalloc).mpr hinit)
    have hpointer : pointerSet [(n, .moduleTable)] = false := rfl
    cases hsymbol : o.findSymbol with
    | false =>
      left
      simp only [if_true]
      refine ⟨fun h => ?_, by decide, by simp [outFree]⟩
      have hsome := h.findSymbol
      rw [hsymbol] at hsome
      cases hsome
    | true =>
      simp only [hpointer, Bool.true_eq_false, Bool.false_eq_true, if_false]
      rcases createChardev_cases o n [(n, .putModulePointer), (n, .moduleTable)] with
        ⟨hneg, hheld, hfails⟩ | ⟨hrun, hregion, hclass, hdevice, halloc, hadd⟩
      · -- `create_chardev` undid its part, `out_put_module` the rest
        left
        simp only [hneg, if_true, hheld]
        refine ⟨fun h => hfails ⟨h.region, h.cdevClass, h.device, h.cdevAlloc, h.cdevAdd⟩,
          by decide, by simp [outPutModule, clearPointer, outFree]⟩
      · right
        simp only [hrun]
        by_cases hproc : o.procCreate = false
        · -- `remove_chardev` leaves the added cdev behind
          left
          have hfails : FailsAtProc o :=
            ⟨hkmalloc, hsymbol, hregion, hclass, hdevice, halloc, hadd, hproc⟩
          refine ⟨hfails, ?_⟩
          simp [hproc, outChardev, outPutModule, clearPointer, outFree, removeChardev]
        · right
          refine ⟨fun h => hproc h.proc, ?_⟩
          simp [hproc, acquired]

/-- After `end` the cdev of the load is still added. -/
theorem cdevAdded_mem_end (debugOn : Bool) (n : ℕ) :
    (n, Resource.cdevAdded) ∈ end_ debugOn n (acquired n) := by
  cases debugOn <;>
    simp [end_, acquired, removeChardev, clearPointer, outFree]

/-! ## Runs -/

/-- Nothing is held, or the proxy is loaded and holds all that a load acquires. -/
def AllHeld (s : LoadState) : Prop :=
  (s.current = none ∧ s.held = []) ∨ ∃ n, s.current = some n ∧ s.held = acquired n

theorem AllHeld.balanced {s : LoadState} (h : AllHeld s) : Balanced s := by
  intro p hp
  rcases h with ⟨-, hheld⟩ | ⟨n, hcurrent, hheld⟩
  · rw [hheld] at hp
    cases hp
  · rw [hheld] at hp
    rw [hcurrent]
    simp only [acquired, List.mem_cons, List.not_mem_nil, or_false] at hp
    rcases hp with rfl | rfl | rfl | rfl | rfl | rfl | rfl <;> rfl

theorem loadStep_keeps {debugOn : Bool} {s t : LoadState} {l : LoadLabel} (hs : AllHeld s)
    (hg : KeepsCdev s l) (h : loadStep debugOn s l = some t) : AllHeld t := by
  cases l with
  | load o =>
      rcases hs with ⟨hcurrent, hheld⟩ | ⟨n, hcurrent, -⟩
      · simp only [loadStep, hcurrent, hheld] at h
        obtain rfl := Option.some.inj h
        rcases start_cases o s.loads with ⟨-, hret, hnone⟩ | ⟨hfails, -⟩ | ⟨-, hrun⟩
        · exact Or.inl ⟨if_neg hret, hnone⟩
        · exact absurd hfails hg
        · exact Or.inr ⟨s.loads, by rw [hrun]; rfl, by rw [hrun]⟩
      · simp [loadStep, hcurrent] at h
  | unload => exact hg.elim

theorem loadStep_breaks {debugOn : Bool} {s t : LoadState} {l : LoadLabel} (hs : AllHeld s)
    (hg : ¬ KeepsCdev s l) (h : loadStep debugOn s l = some t) : ¬ Balanced t := by
  intro hbal
  cases l with
  | load o =>
      rcases hs with ⟨hcurrent, hheld⟩ | ⟨n, hcurrent, -⟩
      · simp only [loadStep, hcurrent, hheld] at h
        obtain rfl := Option.some.inj h
        rcases start_cases o s.loads with ⟨hno, -⟩ | ⟨-, hrun⟩ | ⟨hno, -⟩
        · exact hg hno
        · -- the cdev stays added, and no load is in place
          have hcdev := hbal (s.loads, .cdevAdded) (by rw [hrun]; exact List.mem_singleton.mpr rfl)
          rw [hrun] at hcdev
          cases hcdev
        · exact hg hno
      · simp [loadStep, hcurrent] at h
  | unload =>
      rcases hs with ⟨hcurrent, -⟩ | ⟨n, hcurrent, hheld⟩
      · simp [loadStep, hcurrent] at h
      · simp only [loadStep, hcurrent, hheld] at h
        obtain rfl := Option.some.inj h
        have hcdev := hbal (n, .cdevAdded) (cdevAdded_mem_end debugOn n)
        cases hcdev

/-- **When loading and unloading is balanced**, in either build: as long as the proxy is not
unloaded, and no `start` fails at `proc_create`. -/
theorem balanced_iff (debugOn : Bool) (ls : List LoadLabel) :
    StatesMeet (loadStep debugOn) Balanced LoadState.init ls ↔
      StepsMeet (loadStep debugOn) KeepsCdev LoadState.init ls :=
  statesMeet_iff_stepsMeet (I := AllHeld) (fun _ hs => hs.balanced)
    (fun _ _ _ hs hg h => loadStep_keeps hs hg h)
    (fun _ _ _ hs hg h => loadStep_breaks hs hg h) ls LoadState.init (Or.inl ⟨rfl, rfl⟩)

/-- All steps of a load succeed. -/
def StartOutcomes.allSucceed : StartOutcomes :=
  ⟨fun _ => default, some fun _ => default, true, 0, .ok (), .ok (), true, 0, true⟩

/-- One load and one unload leave the cdev behind. -/
theorem unload_leaks_cdev :
    ¬ ∀ (debugOn : Bool) (ls : List LoadLabel),
      StatesMeet (loadStep debugOn) Balanced LoadState.init ls := by
  intro hall
  have hrun := hall true [.load .allSucceed, .unload]
  have hlast := ((hrun.2 _ rfl).2 _ rfl).head
  exact absurd (hlast (0, .cdevAdded) (by decide)) (by decide)

end LxcUio.Proxy
