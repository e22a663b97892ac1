import LxcUio.Foundation.BlockHeap
import LxcUio.Proxy.DeviceRuns
import LxcUio.Proxy.LoadUnload

/-!
# The blocks of the proxy

The same functions with the blocks that they allocate, free and access: the array of
`module_table`, the record `ks`, the copies of `table_get_copy` and what `cdev_alloc` returns.
What a function answers is taken from its model without a heap; here stands when it calls
`kmalloc`, `krealloc`, `cdev_alloc` and `kfree`, and which of these blocks it reads and writes.
Where a `module` pointer out of an old block leads is not part of it.

No sequence of calls frees or accesses a block that is not allocated. The blocks in use are
those of the three globals and those that were given up: by `process_packet`, by a `krealloc`
that failed, by a lookup that faulted, by `end` (the device, and the record while a server was
registered), and by a `start` that failed behind `cdev_alloc`.
-/

namespace LxcUio.Proxy.Heap

open LxcUio.Foundation LxcUio.Proxy.Locks HeapProgram

/-! ## The globals and their blocks -/

/-- The globals, and the blocks that `module_table` and `ks` point to. -/
structure HeapGlobals where
  globals : Globals
  moduleTable : Option ℕ
  ks : Option ℕ

namespace HeapGlobals

def pointers (g : HeapGlobals) : List ℕ := g.moduleTable.toList ++ g.ks.toList

/-- A pointer is NULL when the model without a heap says so. -/
structure Consistent (g : HeapGlobals) : Prop where
  moduleTable : g.moduleTable.isNone = g.globals.table.moduleTable.isNull
  ks : g.ks.isSome = g.globals.ks.isSome

def withTable (g : HeapGlobals) (t : ModuleTable) (p : Option ℕ) : HeapGlobals :=
  { g with globals := { g.globals with table := t }, moduleTable := p }

def withRecord (g : HeapGlobals) (ks : Option KvmHostServer) (p : Option ℕ) : HeapGlobals :=
  { g with globals := { g.globals with ks := ks }, ks := p }

end HeapGlobals

/-- What `krealloc` delivers: the contents of the new part, and whether the block moved. -/
structure Krealloc where
  mem : ℤ → ModuleTableStruct
  moved : Bool

/-! ## The functions -/

def tablePut (g : HeapGlobals) (mt : ModuleTableStruct) (krealloc : Option Krealloc) :
    HeapProgram HeapGlobals :=
  let t := g.globals.table
  match g.moduleTable with
  | none => pure g
  | some b =>
      if t.tableNumEntries > t.tableSize then pure g
      else if t.tableNumEntries = t.tableSize then
        match krealloc with
        | none => pure (g.withTable t.lost none)
        | some k => do
            let b ← realloc b k.moved
            access b
            pure (g.withTable ((t.doubled k.mem).store mt) (some b))
      else do
        access b
        pure (g.withTable (t.store mt) (some b))

/-- `send_event` reads `ks->fp` when there is an entry. -/
def sendEvent (g : HeapGlobals) : HeapProgram Unit :=
  match g.ks, tablePeek g.globals.table with
  | some b, some _ => access b
  | _, _ => pure ()

def lxcUioProxyPutModule1 (g : HeapGlobals) (mt : ModuleTableStruct)
    (krealloc : Option Krealloc) : HeapProgram HeapGlobals := do
  let g' ← tablePut g mt krealloc
  if (Proxy.tablePut g.globals.table mt (krealloc.map Krealloc.mem)).1 = 0 then sendEvent g'
  pure g'

/-- The block that `table_get_copy` allocates, if it does; the loop reads the table. -/
def tableGetCopy (g : HeapGlobals) (kmalloc : Option CopyBlock) :
    HeapProgram (Option ℕ) :=
  match kmalloc with
  | none => pure none
  | some _ => do
      let b ← alloc
      if 0 < g.globals.table.tableNumEntries then accessPtr g.moduleTable
      pure (some b)

/-- The block is read and, at `end2` and `end3`, freed, unless the lookup faulted before, in
`table_get_copy` or on the `module` found in the block. -/
def kvmHostServerLookup (g : HeapGlobals) (ptr : UserAddr) (env : LookupEnv) (mem : UserMem) :
    HeapProgram Unit := do
  if env.notRead = 0 then
    let entry ← tableGetCopy g env.kmalloc
    match Proxy.tableGetCopy g.globals.table (loadUuid mem ptr) env.kmalloc with
    | none => pure ()
    | some (some none) => accessPtr entry
    | some _ => do
        accessPtr entry
        freePtr entry

/-- `process_packet` reads the copy and does not free it. -/
def processPacket (g : HeapGlobals) (kmalloc : Option CopyBlock) :
    HeapProgram Unit := do
  let mts ← tableGetCopy g kmalloc
  accessPtr mts

def cdevWrite (g : HeapGlobals) (buff : UserAddr) (env : WriteEnv) (user : UserSpace) :
    HeapProgram Unit :=
  if bytesNotCopied user buff = 0 then processPacket g env.kmalloc else pure ()

/-- The previous record is freed first; the new one is written whatever follows. -/
def kvmHostServerRegister (g : HeapGlobals) (ioctlParam : ℤ) (env : IoctlEnv) :
    HeapProgram HeapGlobals := do
  freePtr g.ks
  let ks := (Proxy.kvmHostServerRegister g.globals.ks env.pid ioctlParam env.kmalloc
    env.fcheck).2
  match env.kmalloc with
  | none => pure (g.withRecord ks none)
  | some _ => do
      let b ← alloc
      access b
      pure (g.withRecord ks (some b))

def kvmHostServerDeRegister (g : HeapGlobals) : HeapProgram HeapGlobals := do
  freePtr g.ks
  pure (g.withRecord none none)

/-- `uuid=mt->uuid`, when an entry was popped. -/
def readPopped (g : HeapGlobals) : HeapProgram Unit :=
  match (popEntry g.globals.table).1 with
  | .entry _ _ => accessPtr g.moduleTable
  | _ => pure ()

def kvmHostServerGetPendingModule (g : HeapGlobals) (dst notCopied : ℕ) (mem : UserMem) :
    HeapProgram HeapGlobals := do
  readPopped g
  -- when it faults, the pop has happened
  let t := ((getPendingModuleUser g.globals.table dst notCopied mem).map fun r => r.2.1).getD
    (tablePop g.globals.table).2
  pure (g.withTable t g.moduleTable)

def cdevIoctl (lxcUioCdevMajorNumber : ℕ) (g : HeapGlobals) (ioctlNum ioctlParam : ℕ)
    (env : IoctlEnv) (mem : UserMem) : HeapProgram HeapGlobals :=
  if ioctlNum = Word.kvmHostServerRegister lxcUioCdevMajorNumber then
    kvmHostServerRegister g ioctlParam env
  else if ioctlNum = Word.kvmHostServerDeRegister lxcUioCdevMajorNumber then
    kvmHostServerDeRegister g
  else if ioctlNum = Word.kvmHostServerGetPendingModule lxcUioCdevMajorNumber then
    kvmHostServerGetPendingModule g ioctlParam env.notCopied mem
  else if ioctlNum = Word.kvmHostServerGetUuidSize lxcUioCdevMajorNumber ∨
      ioctlNum = Word.kvmHostServerGetInitLayout lxcUioCdevMajorNumber ∨
      ioctlNum = Word.kvmHostServerGetCoreLayout lxcUioCdevMajorNumber then do
    kvmHostServerLookup g ioctlParam env.lookup mem
    pure g
  else pure g

/-- The proxy while it is loaded, with the block of `cdev_cdev`. -/
structure LoadedProxy where
  state : HeapGlobals
  cdevCdev : ℕ

/-- The block that `cdev_alloc` returns, if `create_chardev` gets that far; `cdev_init` writes to
it, and nothing ever frees it. -/
def createChardev (o : StartOutcomes) : HeapProgram (Option ℕ) :=
  if o.allocChrdevRegion < 0 then pure none
  else
    match o.classCreate, o.deviceCreate with
    | .ok _, .ok _ =>
        if o.cdevAlloc = false then pure none
        else do
          let b ← alloc
          access b
          pure (some b)
    | _, _ => pure none

/-- `start`, from `table_init` to its labels; the globals are those of a fresh load. -/
def start (o : StartOutcomes) : HeapProgram (Option LoadedProxy) :=
  match o.kmalloc with
  | none => pure none
  | some kmem => do
      let b ← alloc
      let outFree : HeapProgram (Option LoadedProxy) := do
        free b
        pure none
      if o.findSymbol = false then outFree
      else do
        let cdevCdev ← createChardev o
        if (Proxy.createChardev o 0 []).1 < 0 then outFree
        else if o.procCreate = false then outFree
        else
          pure (cdevCdev.map fun c =>
            ⟨⟨⟨(UsableTable.fresh o.mem kmem).table, none⟩, some b, none⟩, c⟩)

/-- `end` frees the table, and nothing else. -/
def end_ (g : HeapGlobals) : HeapProgram Unit := freePtr g.moduleTable

/-! ## Calls -/

inductive KernelCall where
  | load (o : StartOutcomes)
  | unload
  | putModule (mt : ModuleTableStruct) (krealloc : Option Krealloc)
  | ioctl (ioctlNum ioctlParam : ℕ) (env : IoctlEnv) (mem : UserMem)
  | write (buff : UserAddr) (env : WriteEnv) (user : UserSpace)

/-- The proxy, if it is loaded, after a call. -/
def kernelCall (lxcUioCdevMajorNumber : ℕ) (p : Option LoadedProxy) (c : KernelCall) :
    HeapProgram (Option LoadedProxy) :=
  match p, c with
  | none, .load o => start o
  | some p, .unload => do
      end_ p.state
      pure none
  | some p, .putModule mt krealloc => do
      let g ← lxcUioProxyPutModule1 p.state mt krealloc
      pure (some ⟨g, p.cdevCdev⟩)
  | some p, .ioctl ioctlNum ioctlParam env mem => do
      let g ← cdevIoctl lxcUioCdevMajorNumber p.state ioctlNum ioctlParam env mem
      pure (some ⟨g, p.cdevCdev⟩)
  | some p, .write buff env user => do
      cdevWrite p.state buff env user
      pure (some p)
  | p, _ => pure p

/-- The same without a heap. -/
def globalsAfter (lxcUioCdevMajorNumber : ℕ) : Option Globals → KernelCall → Option Globals
  | none, .load o =>
      if (Proxy.start o 0 []).1 = 0 then
        o.kmalloc.map fun kmem => ⟨(UsableTable.fresh o.mem kmem).table, none⟩
      else none
  | some _, .unload => none
  | some s, .putModule mt krealloc =>
      some { s with table := (Proxy.tablePut s.table mt (krealloc.map Krealloc.mem)).2 }
  | some s, .ioctl ioctlNum ioctlParam env mem =>
      match Proxy.cdevIoctl lxcUioCdevMajorNumber s ioctlNum ioctlParam env mem with
      | none => some (oopsed lxcUioCdevMajorNumber s ioctlNum)
      | some r => some r.2.1
  | s, _ => s

/-- The word of one of the three lookups. -/
def IsLookup (lxcUioCdevMajorNumber ioctlNum : ℕ) : Prop :=
  ioctlNum = Word.kvmHostServerGetUuidSize lxcUioCdevMajorNumber ∨
    ioctlNum = Word.kvmHostServerGetInitLayout lxcUioCdevMajorNumber ∨
    ioctlNum = Word.kvmHostServerGetCoreLayout lxcUioCdevMajorNumber

instance (major ioctlNum : ℕ) : Decidable (IsLookup major ioctlNum) :=
  inferInstanceAs (Decidable (_ ∨ _ ∨ _))

/-- A lookup that got a block dies with it: the loop runs through a NULL table, or there is no
entry and no module in the block. -/
def LookupFaults (t : ModuleTable) (uuid : Uuid) (kmalloc : Option CopyBlock) : Prop :=
  kmalloc.isSome = true ∧
    (t.Faults ∨ (t.entryOf uuid).isSome = false ∧ kmalloc.map Option.isSome = some false)

instance (t : ModuleTable) (uuid : Uuid) (kmalloc : Option CopyBlock) :
    Decidable (LookupFaults t uuid kmalloc) :=
  inferInstanceAs (Decidable (_ ∧ _))

/-- The call of a loaded proxy gives up its last pointer to a block. -/
def Forgets (lxcUioCdevMajorNumber : ℕ) (s : Globals) : KernelCall → Prop
  | .putModule _ krealloc =>
      s.table.moduleTable.isNull = false ∧ s.table.tableNumEntries = s.table.tableSize ∧
        krealloc.isNone = true
  | .ioctl ioctlNum ioctlParam env mem =>
      IsLookup lxcUioCdevMajorNumber ioctlNum ∧ env.lookup.notRead = 0 ∧
        LookupFaults s.table (loadUuid mem ioctlParam) env.lookup.kmalloc
  | .write buff env user => bytesNotCopied user buff = 0 ∧ env.kmalloc.isSome = true
  | _ => False

instance (major : ℕ) (s : Globals) : ∀ c, Decidable (Forgets major s c)
  | .putModule _ _ => inferInstanceAs (Decidable (_ ∧ _))
  | .ioctl _ _ _ _ => inferInstanceAs (Decidable (_ ∧ _))
  | .write _ _ _ => inferInstanceAs (Decidable (_ ∧ _))
  | .load _ => isFalse id
  | .unload => isFalse id

/-- `create_chardev` gets as far as `cdev_alloc`, and has its block. -/
def AllocatesCdev (o : StartOutcomes) : Prop :=
  0 ≤ o.allocChrdevRegion ∧ o.classCreate.isOk = true ∧ o.deviceCreate.isOk = true ∧
    o.cdevAlloc = true

instance (o : StartOutcomes) : Decidable (AllocatesCdev o) := inferInstanceAs (Decidable (_ ∧ _))

/-- `start` fails behind `cdev_alloc`. -/
def LosesCdev (o : StartOutcomes) : Prop :=
  (o.kmalloc.isSome = true ∧ o.findSymbol ≠ false ∧ AllocatesCdev o) ∧
    (o.cdevAdd < 0 ∨ o.procCreate = false)

instance (o : StartOutcomes) : Decidable (LosesCdev o) := inferInstanceAs (Decidable (_ ∧ _))

/-- The blocks that a call leaves without a pointer. -/
def forgotten (lxcUioCdevMajorNumber : ℕ) : Option Globals → KernelCall → ℕ
  | none, .load o => if LosesCdev o then 1 else 0
  | none, _ => 0
  | some s, .unload => (if s.ks.isSome = true then 1 else 0) + 1
  | some s, c => if Forgets lxcUioCdevMajorNumber s c then 1 else 0

/-! ## What each function does with its blocks -/

section Functions

variable {g : HeapGlobals} {rest : List ℕ} {major : ℕ}

/-- `n` blocks were given up. -/
def GivesUp (g : HeapGlobals) (rest : List ℕ) (n : ℕ) (blocks : List ℕ) : Prop :=
  ∃ more : List ℕ, more.length = n ∧ blocks.Perm (g.pointers ++ (more ++ rest))

/-- The globals are `s`, and `n` blocks were given up. -/
def Leaves (rest : List ℕ) (s : Globals) (n : ℕ) (g : HeapGlobals) (blocks : List ℕ) : Prop :=
  Accounts HeapGlobals.Consistent HeapGlobals.globals HeapGlobals.pointers rest s n g blocks

theorem GivesUp.nothing : GivesUp g rest 0 (g.pointers ++ rest) := ⟨[], rfl, .refl _⟩

theorem mem_pointers {b : ℕ} (h : b ∈ g.moduleTable) : b ∈ g.pointers ++ rest := by
  refine List.mem_append_left _ (List.mem_append_left _ ?_)
  rw [Option.mem_toList]
  exact h

/-- A call that forgets nothing. -/
theorem forgotten_eq_zero {s : Globals} {c : KernelCall} (hc : c ≠ .unload)
    (h : ¬ Forgets major s c) : forgotten major (some s) c = 0 := by
  cases c with
  | load o => rfl
  | unload => exact absurd rfl hc
  | putModule mt krealloc => exact if_neg h
  | ioctl ioctlNum ioctlParam env mem => exact if_neg h
  | write buff env user => exact if_neg h

theorem forgotten_eq_one {s : Globals} {c : KernelCall} (h : Forgets major s c) :
    forgotten major (some s) c = 1 := by
  cases c with
  | load o => exact h.elim
  | unload => exact h.elim
  | putModule mt krealloc => exact if_pos h
  | ioctl ioctlNum ioctlParam env mem => exact if_pos h
  | write buff env user => exact if_pos h

variable (major) in
theorem tablePut_leaves (hg : g.Consistent) (mt : ModuleTableStruct)
    (krealloc : Option Krealloc) :
    Safe (tablePut g mt krealloc) (g.pointers ++ rest) (Leaves rest
      { g.globals with
        table := (Proxy.tablePut g.globals.table mt (krealloc.map Krealloc.mem)).2 }
      (forgotten major (some g.globals) (.putModule mt krealloc))) := by
  obtain ⟨⟨t, ks⟩, p, q⟩ := g
  have htable := hg.moduleTable
  cases p with
  | none =>
      have hnull : t.moduleTable.isNull = true := htable.symm
      have hput : Proxy.tablePut t mt (krealloc.map Krealloc.mem) = (-1, t) := if_pos hnull
      have hkeeps : ¬ Forgets major ⟨t, ks⟩ (.putModule mt krealloc) := by
        rintro ⟨hallocated, -⟩
        rw [hnull] at hallocated
        cases hallocated
      rw [forgotten_eq_zero (by simp) hkeeps, hput]
      exact .pure ⟨hg, rfl, [], rfl, .refl _⟩
  | some b =>
      have hnull : t.moduleTable.isNull = false := htable.symm
      have hallocated : ¬ t.moduleTable.isNull = true := by
        rw [hnull]
        exact Bool.false_ne_true
      by_cases hover : t.tableNumEntries > t.tableSize
      · have hkeeps : ¬ Forgets major ⟨t, ks⟩ (.putModule mt krealloc) :=
          fun hforgets => absurd hforgets.2.1 (ne_of_gt hover)
        rw [forgotten_eq_zero (by simp) hkeeps]
        simp only [tablePut, Proxy.tablePut, if_neg hallocated, if_pos hover]
        exact .pure ⟨hg, rfl, [], rfl, .refl _⟩
      · by_cases hfull : t.tableNumEntries = t.tableSize
        · cases krealloc with
          | none =>
              -- the old block stays where it is, and nothing points to it
              have hforgets : Forgets major ⟨t, ks⟩ (.putModule mt none) :=
                ⟨hnull, hfull, rfl⟩
              rw [forgotten_eq_one hforgets]
              simp only [tablePut, Proxy.tablePut, if_neg hallocated, if_neg hover, if_pos hfull,
                Option.map_none]
              exact .pure ⟨⟨rfl, hg.ks⟩, rfl, [b], rfl, List.perm_middle.symm⟩
          | some k =>
              have hkeeps : ¬ Forgets major ⟨t, ks⟩ (.putModule mt (some k)) :=
                fun hforgets => Bool.false_ne_true hforgets.2.2
              rw [forgotten_eq_zero (by simp) hkeeps]
              simp only [tablePut, Proxy.tablePut, if_neg hallocated, if_neg hover, if_pos hfull,
                Option.map_some]
              refine .bind (m := fun c blocks => blocks = c :: (q.toList ++ rest))
                (.realloc fun c => rfl) ?_
              rintro c _ rfl
              refine .bind (m := fun _ blocks => blocks = c :: (q.toList ++ rest))
                (.access List.mem_cons_self rfl) ?_
              rintro - _ rfl
              exact .pure ⟨⟨rfl, hg.ks⟩, rfl, [], rfl, .refl _⟩
        · have hkeeps : ¬ Forgets major ⟨t, ks⟩ (.putModule mt krealloc) :=
            fun hforgets => hfull hforgets.2.1
          rw [forgotten_eq_zero (by simp) hkeeps]
          simp only [tablePut, Proxy.tablePut, if_neg hallocated, if_neg hover, if_neg hfull]
          refine .bind (m := fun _ blocks => blocks = b :: (q.toList ++ rest))
            (.access List.mem_cons_self rfl) ?_
          rintro - _ rfl
          exact .pure ⟨⟨htable, hg.ks⟩, rfl, [], rfl, .refl _⟩

theorem sendEvent_safe {post : Unit → List ℕ → Prop} (h : post () (g.pointers ++ rest)) :
    Safe (sendEvent g) (g.pointers ++ rest) post := by
  unfold sendEvent
  split
  · rename_i b _ hks _
    refine .access ?_ h
    rw [HeapGlobals.pointers, hks]
    simp
  · exact .pure h

variable (major) in
theorem putModule_leaves (hg : g.Consistent) (mt : ModuleTableStruct)
    (krealloc : Option Krealloc) :
    Safe (lxcUioProxyPutModule1 g mt krealloc) (g.pointers ++ rest) (Leaves rest
      { g.globals with
        table := (Proxy.tablePut g.globals.table mt (krealloc.map Krealloc.mem)).2 }
      (forgotten major (some g.globals) (.putModule mt krealloc))) := by
  refine (tablePut_leaves major hg mt krealloc).bind fun g' blocks hleaves => ?_
  obtain ⟨hg', hglobals, more, hmore, hperm⟩ := hleaves
  refine .perm ?_ hperm
  have hdone : Leaves rest g'.globals more.length g' (g'.pointers ++ (more ++ rest)) :=
    ⟨hg', rfl, more, rfl, .refl _⟩
  rw [hglobals, hmore] at hdone
  split
  · refine .bind (m := fun _ blocks => blocks = g'.pointers ++ (more ++ rest))
      (sendEvent_safe rfl) ?_
    rintro - _ rfl
    exact .pure hdone
  · exact .pure hdone

/-- `table_get_copy` returns its block, if it got one, and the caller owns it. -/
theorem tableGetCopy_safe (kmalloc : Option CopyBlock) :
    Safe (tableGetCopy g kmalloc) (g.pointers ++ rest) fun entry blocks =>
      entry.isSome = kmalloc.isSome ∧ blocks = entry.toList ++ (g.pointers ++ rest) := by
  cases kmalloc with
  | none => exact .pure ⟨rfl, rfl⟩
  | some stale =>
      refine .bind (m := fun b blocks => blocks = b :: (g.pointers ++ rest))
        (.alloc fun b _ => rfl) ?_
      rintro b _ rfl
      split
      · refine .bind (m := fun _ blocks => blocks = b :: (g.pointers ++ rest))
          (.accessPtr (fun c hc => List.mem_cons_of_mem b (mem_pointers hc)) rfl) ?_
        rintro - _ rfl
        exact .pure ⟨rfl, rfl⟩
      · exact .pure ⟨rfl, rfl⟩

theorem toList_givesUp (entry : Option ℕ) :
    GivesUp g rest entry.toList.length (entry.toList ++ (g.pointers ++ rest)) := by
  refine ⟨entry.toList, rfl, ?_⟩
  rw [← List.append_assoc, ← List.append_assoc]
  exact (List.perm_append_comm).append_right rest

variable (major) in
theorem cdevWrite_safe (buff : UserAddr) (env : WriteEnv) (user : UserSpace) :
    Safe (cdevWrite g buff env user) (g.pointers ++ rest) fun _ =>
      GivesUp g rest (forgotten major (some g.globals) (.write buff env user)) := by
  unfold cdevWrite
  split
  · rename_i hread
    refine (tableGetCopy_safe env.kmalloc).bind fun entry blocks hentry => ?_
    obtain ⟨hsome, rfl⟩ := hentry
    refine .accessPtr (fun b hb => List.mem_append_left _ (Option.mem_toList.mpr hb)) ?_
    have hlength : forgotten major (some g.globals) (.write buff env user) =
        entry.toList.length := by
      cases entry with
      | none =>
          refine forgotten_eq_zero (by simp) fun hforgets => ?_
          have hmemory : env.kmalloc.isSome = true := hforgets.2
          rw [← hsome] at hmemory
          cases hmemory
      | some b => exact forgotten_eq_one (⟨hread, hsome.symm⟩ : _ ∧ _)
    rw [hlength]
    exact toList_givesUp entry
  · rename_i hread
    have hkeeps : ¬ Forgets major g.globals (.write buff env user) := fun hforgets =>
      hread hforgets.1
    rw [forgotten_eq_zero (by simp) hkeeps]
    exact .pure .nothing

/-- When the block of a lookup is not freed. -/
theorem lookupFaults_iff (t : ModuleTable) (uuid : Uuid) (kmalloc : Option CopyBlock) :
    LookupFaults t uuid kmalloc ↔ Proxy.tableGetCopy t uuid kmalloc = none ∨
      Proxy.tableGetCopy t uuid kmalloc = some (some none) := by
  cases kmalloc with
  | none => exact iff_of_false (fun h => Bool.false_ne_true h.1) (by rintro (⟨⟨⟩⟩ | ⟨⟨⟩⟩))
  | some stale =>
      cases hentry : t.entryOf uuid with
      | some mts =>
          have hallocated : ¬ t.Faults := by
            intro hfault
            rw [ModuleTable.entryOf, if_pos hfault.1] at hentry
            cases hentry
          rw [tableGetCopy_of_entry hentry]
          refine iff_of_false ?_ (by rintro (⟨⟨⟩⟩ | ⟨⟨⟩⟩))
          rintro ⟨-, hfault | ⟨hnone, -⟩⟩
          · exact hallocated hfault
          · rw [hentry] at hnone
            cases hnone
      | none =>
          rw [tableGetCopy_of_unknown hentry]
          unfold LookupFaults
          by_cases hfault : t.Faults
          · rw [if_pos hfault]
            exact iff_of_true ⟨rfl, Or.inl hfault⟩ (Or.inl rfl)
          · rw [if_neg hfault, hentry]
            cases stale <;> simp [hfault]

theorem lookup_safe {ioctlNum : ℕ} (hword : IsLookup major ioctlNum) (ioctlParam : ℕ)
    (env : IoctlEnv) (mem : UserMem) :
    Safe (kvmHostServerLookup g ioctlParam env.lookup mem) (g.pointers ++ rest) fun _ =>
      GivesUp g rest (forgotten major (some g.globals) (.ioctl ioctlNum ioctlParam env mem)) := by
  unfold kvmHostServerLookup
  split
  · rename_i hread
    refine (tableGetCopy_safe env.lookup.kmalloc).bind fun entry blocks hentry => ?_
    obtain ⟨hsome, rfl⟩ := hentry
    have hfaults := lookupFaults_iff g.globals.table (loadUuid mem ioctlParam)
      env.lookup.kmalloc
    -- a thread that is gone has lost its pointer
    have hgone : LookupFaults g.globals.table (loadUuid mem ioctlParam) env.lookup.kmalloc →
        GivesUp g rest (forgotten major (some g.globals) (.ioctl ioctlNum ioctlParam env mem))
          (entry.toList ++ (g.pointers ++ rest)) := by
      intro hfault
      have hforgets : Forgets major g.globals (.ioctl ioctlNum ioctlParam env mem) :=
        ⟨hword, hread, hfault⟩
      rw [forgotten_eq_one hforgets]
      rw [hfault.1] at hsome
      obtain ⟨b, rfl⟩ := Option.isSome_iff_exists.mp hsome
      exact toList_givesUp (some b)
    split
    · rename_i hnone
      exact .pure (hgone (hfaults.mpr (Or.inl hnone)))
    · rename_i hwild
      exact .accessPtr (fun b hb => List.mem_append_left _ (Option.mem_toList.mpr hb))
        (hgone (hfaults.mpr (Or.inr hwild)))
    · rename_i copy hwild hcopy
      have hkeeps : ¬ Forgets major g.globals (.ioctl ioctlNum ioctlParam env mem) := by
        rintro ⟨-, -, hfault⟩
        rcases hfaults.mp hfault with hnone | hnull
        · rw [hnone] at hcopy
          cases hcopy
        · rw [hnull] at hcopy
          exact hwild (Option.some.inj hcopy).symm
      rw [forgotten_eq_zero (by simp) hkeeps]
      refine .bind (m := fun _ blocks => blocks = entry.toList ++ (g.pointers ++ rest))
        (.accessPtr (fun b hb => List.mem_append_left _ (Option.mem_toList.mpr hb)) rfl) ?_
      rintro - _ rfl
      exact .freePtr .nothing
  · rename_i hread
    have hkeeps : ¬ Forgets major g.globals (.ioctl ioctlNum ioctlParam env mem) :=
      fun hforgets => hread hforgets.2.1
    rw [forgotten_eq_zero (by simp) hkeeps]
    exact .pure .nothing

/-- The record is the second of the two globals. -/
theorem pointers_perm : (g.pointers ++ rest).Perm
    (g.ks.toList ++ (g.moduleTable.toList ++ rest)) := by
  rw [HeapGlobals.pointers, List.append_assoc]
  exact List.perm_append_comm_assoc _ _ _

theorem register_leaves (hg : g.Consistent) (ioctlParam : ℤ) (env : IoctlEnv) :
    Safe (kvmHostServerRegister g ioctlParam env) (g.pointers ++ rest) (Leaves rest
      { g.globals with
        ks := (Proxy.kvmHostServerRegister g.globals.ks env.pid ioctlParam env.kmalloc
          env.fcheck).2 } 0) := by
  refine .perm ?_ pointers_perm
  refine .bind (m := fun _ blocks => blocks = g.moduleTable.toList ++ rest) (.freePtr rfl) ?_
  rintro - _ rfl
  cases hmemory : env.kmalloc with
  | none =>
      refine .pure ⟨⟨hg.moduleTable, rfl⟩, rfl, [], rfl, ?_⟩
      rw [HeapGlobals.withRecord, HeapGlobals.pointers, Option.toList_none, List.append_nil]
      exact .refl _
  | some stale =>
      refine .bind (m := fun b blocks => blocks = b :: (g.moduleTable.toList ++ rest))
        (.alloc fun b _ => rfl) ?_
      rintro b _ rfl
      refine .bind (m := fun _ blocks => blocks = b :: (g.moduleTable.toList ++ rest))
        (.access List.mem_cons_self rfl) ?_
      rintro - _ rfl
      have hks : (Proxy.kvmHostServerRegister g.globals.ks env.pid ioctlParam (some stale)
          env.fcheck).2.isSome = true := by
        unfold Proxy.kvmHostServerRegister
        dsimp only
        split
        · rfl
        · split <;> rfl
      refine .pure ⟨⟨hg.moduleTable, hks.symm⟩, rfl, [], rfl, ?_⟩
      exact (pointers_perm (g := g.withRecord _ (some b))).symm

theorem deRegister_leaves (hg : g.Consistent) :
    Safe (kvmHostServerDeRegister g) (g.pointers ++ rest)
      (Leaves rest { g.globals with ks := none } 0) := by
  refine .perm ?_ pointers_perm
  refine .bind (m := fun _ blocks => blocks = g.moduleTable.toList ++ rest) (.freePtr rfl) ?_
  rintro - _ rfl
  refine .pure ⟨⟨hg.moduleTable, rfl⟩, rfl, [], rfl, ?_⟩
  rw [HeapGlobals.withRecord, HeapGlobals.pointers, Option.toList_none, List.append_nil]
  exact .refl _

/-- The cursor's operations leave the array where it is. -/
theorem getPendingModuleUser_moduleTable {t : ModuleTable} {dst notCopied : ℕ} {mem : UserMem}
    {r : ℤ × ModuleTable × UserMem} (h : getPendingModuleUser t dst notCopied mem = some r) :
    r.2.1.moduleTable = t.moduleTable := by
  have hpop : (popEntry t).2.moduleTable = t.moduleTable := by
    rw [popEntry_snd_eq_tablePop, tablePop_moduleTable]
  unfold getPendingModuleUser at h
  split at h
  · rename_i u hentry
    rw [hentry] at hpop
    obtain rfl := Option.some.inj h
    exact hpop
  · cases h
  · rename_i u hentry
    rw [hentry] at hpop
    dsimp only at h
    split at h <;> obtain rfl := Option.some.inj h
    · exact hpop
    · refine Eq.trans ?_ hpop
      dsimp only
      unfold tablePopReverse
      split <;> rfl

/-- The table after `kvm_host_server_get_pending_module`, whether or not it faulted. -/
theorem getPendingModule_leaves (hg : g.Consistent) (dst notCopied : ℕ) (mem : UserMem) :
    Safe (kvmHostServerGetPendingModule g dst notCopied mem) (g.pointers ++ rest) (Leaves rest
      { g.globals with
        table := ((getPendingModuleUser g.globals.table dst notCopied mem).map
          fun r => r.2.1).getD (tablePop g.globals.table).2 } 0) := by
  refine .bind (m := fun _ blocks => blocks = g.pointers ++ rest) ?_ ?_
  · unfold readPopped
    split
    · exact .accessPtr (fun b hb => mem_pointers hb) rfl
    · exact .pure rfl
  · rintro - _ rfl
    have hsame : (((getPendingModuleUser g.globals.table dst notCopied mem).map
        fun r => r.2.1).getD (tablePop g.globals.table).2).moduleTable =
          g.globals.table.moduleTable := by
      cases hrun : getPendingModuleUser g.globals.table dst notCopied mem with
      | none => rw [Option.map_none, Option.getD_none, tablePop_moduleTable]
      | some r =>
          rw [Option.map_some, Option.getD_some, getPendingModuleUser_moduleTable hrun]
    exact .pure ⟨⟨hg.moduleTable.trans (congrArg HeapArray.isNull hsame).symm, hg.ks⟩, rfl, [],
      rfl, .refl _⟩

/-! ### Calls -/

def LoadedProxy.globals (p : LoadedProxy) : Globals := p.state.globals

/-- The blocks that the globals point to, while the proxy is loaded. -/
def pointersOf (p : Option LoadedProxy) : List ℕ :=
  (p.map fun l => l.state.pointers ++ [l.cdevCdev]).getD []

/-- What a call leaves of the proxy, if it is loaded. -/
def LoadedLeaves (rest : List ℕ) : Option Globals → ℕ → Option LoadedProxy → List ℕ → Prop :=
  Accounts (fun p => ∀ l ∈ p, HeapGlobals.Consistent l.state) (Option.map LoadedProxy.globals)
    pointersOf rest

/-- The functions know nothing of the block of `cdev_cdev`. -/
theorem Leaves.loaded {s : Globals} {n cdevCdev : ℕ} {blocks : List ℕ}
    (h : Leaves (cdevCdev :: rest) s n g blocks) :
    LoadedLeaves rest (some s) n (some ⟨g, cdevCdev⟩) blocks := by
  obtain ⟨hg, rfl, more, hmore, hperm⟩ := h
  refine ⟨fun l hl => ?_, rfl, more, hmore, hperm.trans ?_⟩
  · obtain rfl := Option.some.inj hl
    exact hg
  · show (g.pointers ++ (more ++ cdevCdev :: rest)).Perm
      (g.pointers ++ [cdevCdev] ++ (more ++ rest))
    rw [List.append_assoc]
    exact List.perm_middle.append_left g.pointers

/-- The call leaves the proxy loaded. -/
def LeavesSome (rest : List ℕ) (u : Option Globals) (n : ℕ) (g : HeapGlobals)
    (blocks : List ℕ) : Prop :=
  ∃ s, u = some s ∧ Leaves rest s n g blocks

theorem GivesUp.leaves (hg : g.Consistent) {n : ℕ} {blocks : List ℕ}
    (h : GivesUp g rest n blocks) : Leaves rest g.globals n g blocks :=
  ⟨hg, rfl, h⟩

/-- Other words than those of the lookups forget nothing. -/
theorem not_lookup_forgets {ioctlNum ioctlParam : ℕ} {env : IoctlEnv} {mem : UserMem}
    {s : Globals} (h : ¬ IsLookup major ioctlNum) :
    forgotten major (some s) (.ioctl ioctlNum ioctlParam env mem) = 0 :=
  forgotten_eq_zero (by simp) fun hforgets => h hforgets.1

theorem isLookup_word (kind : LookupKind) : IsLookup major ((Request.lookup kind).word major) := by
  cases kind with
  | uuidSize => exact Or.inl rfl
  | initLayout => exact Or.inr (Or.inl rfl)
  | coreLayout => exact Or.inr (Or.inr rfl)

theorem not_isLookup_word {r : Request} (h : ∀ kind, r ≠ .lookup kind) :
    ¬ IsLookup major (r.word major) := by
  rintro (hword | hword | hword)
  · exact h .uuidSize (Request.eq_of_word_eq hword)
  · exact h .initLayout (Request.eq_of_word_eq hword)
  · exact h .coreLayout (Request.eq_of_word_eq hword)

theorem globalsAfter_some {s : Globals} {ioctlNum ioctlParam : ℕ} {env : IoctlEnv} {mem : UserMem}
    {r : ℤ × Globals × UserMem}
    (h : Proxy.cdevIoctl major s ioctlNum ioctlParam env mem = some r) :
    globalsAfter major (some s) (.ioctl ioctlNum ioctlParam env mem) = some r.2.1 := by
  simp only [globalsAfter, h]

theorem globalsAfter_none {s : Globals} {ioctlNum ioctlParam : ℕ} {env : IoctlEnv} {mem : UserMem}
    (h : Proxy.cdevIoctl major s ioctlNum ioctlParam env mem = none) :
    globalsAfter major (some s) (.ioctl ioctlNum ioctlParam env mem) =
      some (oopsed major s ioctlNum) := by
  simp only [globalsAfter, h]

variable (major) in
/-- Each word reaches the same branch in both models. -/
theorem cdevIoctl_leaves (hg : g.Consistent) (ioctlNum ioctlParam : ℕ) (env : IoctlEnv)
    (mem : UserMem) :
    Safe (cdevIoctl major g ioctlNum ioctlParam env mem) (g.pointers ++ rest)
      (LeavesSome rest (globalsAfter major (some g.globals) (.ioctl ioctlNum ioctlParam env mem))
        (forgotten major (some g.globals) (.ioctl ioctlNum ioctlParam env mem))) := by
  have hne : ∀ r r' : Request, r ≠ r' → r.word major ≠ r'.word major :=
    fun r r' hr hword => hr (Request.eq_of_word_eq hword)
  by_cases hword : ∃ r : Request, ioctlNum = r.word major
  · obtain ⟨r, rfl⟩ := hword
    have hplain := cdevIoctl_word major g.globals ioctlParam env mem r
    cases r with
    | register =>
        rw [not_lookup_forgets (not_isLookup_word fun _ => by simp), globalsAfter_some hplain]
        have hbranch : cdevIoctl major g (Request.register.word major) ioctlParam env mem =
            kvmHostServerRegister g ioctlParam env := if_pos rfl
        rw [hbranch]
        exact (register_leaves hg ioctlParam env).weaken fun _ _ h => ⟨_, rfl, h⟩
    | deRegister =>
        have h1 := hne .deRegister .register (by decide)
        rw [not_lookup_forgets (not_isLookup_word fun _ => by simp), globalsAfter_some hplain]
        have hbranch : cdevIoctl major g (Request.deRegister.word major) ioctlParam env mem =
            kvmHostServerDeRegister g := (if_neg h1).trans (if_pos rfl)
        rw [hbranch]
        exact (deRegister_leaves hg).weaken fun _ _ h => ⟨_, rfl, h⟩
    | getPendingModule =>
        have h1 := hne .getPendingModule .register (by decide)
        have h2 := hne .getPendingModule .deRegister (by decide)
        rw [not_lookup_forgets (not_isLookup_word fun _ => by simp)]
        have hbranch : cdevIoctl major g (Request.getPendingModule.word major) ioctlParam env mem =
            kvmHostServerGetPendingModule g ioctlParam env.notCopied mem :=
          (if_neg h1).trans ((if_neg h2).trans (if_pos rfl))
        rw [hbranch]
        refine (getPendingModule_leaves hg ioctlParam env.notCopied mem).weaken
          fun g' blocks h => ?_
        cases hrun : getPendingModuleUser g.globals.table ioctlParam env.notCopied mem with
        | none =>
            -- the thread is gone, and the pop has happened
            have hfault : Proxy.cdevIoctl major g.globals (Request.getPendingModule.word major)
                ioctlParam env mem = none := by
              rw [hplain, Request.handler, ioctlGetPendingModule, hrun, Option.map_none]
            have hoopsed : oopsed major g.globals (Request.getPendingModule.word major) =
                { g.globals with table := (tablePop g.globals.table).2 } := if_pos rfl
            rw [globalsAfter_none hfault, hoopsed]
            rw [hrun] at h
            exact ⟨_, rfl, h⟩
        | some r =>
            have hanswer : Proxy.cdevIoctl major g.globals (Request.getPendingModule.word major)
                ioctlParam env mem = some (r.1, { g.globals with table := r.2.1 }, r.2.2) := by
              rw [hplain, Request.handler, ioctlGetPendingModule, hrun, Option.map_some]
            rw [globalsAfter_some hanswer]
            rw [hrun] at h
            exact ⟨_, rfl, h⟩
    | lookup kind =>
        have h1 := hne (.lookup kind) .register (by simp)
        have h2 := hne (.lookup kind) .deRegister (by simp)
        have h3 := hne (.lookup kind) .getPendingModule (by simp)
        have hbranch : cdevIoctl major g ((Request.lookup kind).word major) ioctlParam env mem =
            (do kvmHostServerLookup g ioctlParam env.lookup mem; pure g) :=
          (if_neg h1).trans ((if_neg h2).trans ((if_neg h3).trans (if_pos (isLookup_word kind))))
        rw [hbranch]
        have hword : IsLookup major ((Request.lookup kind).word major) := isLookup_word kind
        refine (lookup_safe hword ioctlParam env mem).bind fun _ blocks h => ?_
        refine .pure ?_
        have hglobals : globalsAfter major (some g.globals)
            (.ioctl ((Request.lookup kind).word major) ioctlParam env mem) = some g.globals := by
          cases hrun : Proxy.kvmHostServerLookup env.rest kind g.globals.table ioctlParam
            env.lookup mem with
          | none =>
              have hfault : Proxy.cdevIoctl major g.globals ((Request.lookup kind).word major)
                  ioctlParam env mem = none := by
                rw [hplain, Request.handler, ioctlLookup, hrun, Option.map_none]
              exact (globalsAfter_none hfault).trans (congrArg some (if_neg h3))
          | some r =>
              have hanswer : Proxy.cdevIoctl major g.globals ((Request.lookup kind).word major)
                  ioctlParam env mem = some (r.1, g.globals, r.2) := by
                rw [hplain, Request.handler, ioctlLookup, hrun, Option.map_some]
              exact globalsAfter_some hanswer
        rw [hglobals]
        exact ⟨_, rfl, h.leaves hg⟩
  · have hother : ∀ r : Request, ioctlNum ≠ r.word major := fun r hr => hword ⟨r, hr⟩
    have hlookup : ¬ IsLookup major ioctlNum := by
      rintro (h | h | h)
      · exact hother (.lookup .uuidSize) h
      · exact hother (.lookup .initLayout) h
      · exact hother (.lookup .coreLayout) h
    have hbranch : cdevIoctl major g ioctlNum ioctlParam env mem = pure g :=
      (if_neg (hother .register)).trans ((if_neg (hother .deRegister)).trans
        ((if_neg (hother .getPendingModule)).trans (if_neg hlookup)))
    have hplain := cdevIoctl_other major g.globals ioctlParam env mem hother
    rw [not_lookup_forgets hlookup, hbranch, globalsAfter_some hplain]
    exact .pure ⟨_, rfl, GivesUp.leaves hg .nothing⟩

/-! ### Loading and unloading -/

/-- What `create_chardev` returns does not depend on what is held. -/
theorem createChardev_ret (o : StartOutcomes) (n : ℕ) (held held' : Held) :
    (Proxy.createChardev o n held).1 = (Proxy.createChardev o n held').1 := by
  unfold Proxy.createChardev
  split
  · rfl
  · cases o.classCreate with
    | error err => rfl
    | ok _ =>
        cases o.deviceCreate with
        | error err => rfl
        | ok _ =>
            dsimp only
            split
            · rfl
            · split <;> rfl

/-- The ladder of `start`, as far as it decides over the table. -/
theorem start_eq_zero (o : StartOutcomes) :
    (Proxy.start o 0 []).1 = 0 ↔ o.kmalloc.isSome = true ∧ o.findSymbol ≠ false ∧
      ¬ (Proxy.createChardev o 0 []).1 < 0 ∧ o.procCreate ≠ false := by
  have hret := createChardev_ret o 0 [(0, .putModulePointer), (0, .moduleTable)] []
  have hpointer : ¬ pointerSet [(0, .moduleTable)] = true := Bool.false_ne_true
  unfold Proxy.start
  by_cases hinit : (tableInit (ModuleTable.atLoad o.mem) o.kmalloc).1 < 0
  · rw [if_pos hinit, (tableInit_atLoad_neg _ _).mp hinit]
    simp
  · have hkmalloc : o.kmalloc.isSome = true :=
      Option.isSome_iff_ne_none.mpr (mt (tableInit_atLoad_neg o.mem o.kmalloc).mpr hinit)
    rw [if_neg hinit]
    by_cases hsymbol : o.findSymbol = false
    · simp [hsymbol]
    · by_cases hchardev : (Proxy.createChardev o 0 []).1 < 0
      · simp [hsymbol, hpointer, hret, hchardev]
      · by_cases hproc : o.procCreate = false
        · simp [hsymbol, hpointer, hret, hchardev, hproc, negENOMEM]
        · simp [hsymbol, hpointer, hret, hchardev, hproc, hkmalloc]

theorem createChardev_neg (o : StartOutcomes) :
    (Proxy.createChardev o 0 []).1 < 0 ↔ ¬ (AllocatesCdev o ∧ 0 ≤ o.cdevAdd) := by
  unfold Proxy.createChardev AllocatesCdev
  by_cases hregion : o.allocChrdevRegion < 0
  · rw [if_pos hregion]
    exact iff_of_true hregion fun h => absurd h.1.1 (not_le.mpr hregion)
  · rw [if_neg hregion]
    cases o.classCreate with
    | error err => exact iff_of_true err.2 fun h => Bool.false_ne_true h.1.2.1
    | ok _ =>
        cases o.deviceCreate with
        | error err => exact iff_of_true err.2 fun h => Bool.false_ne_true h.1.2.2.1
        | ok _ =>
            dsimp only
            by_cases halloc : o.cdevAlloc = false
            · rw [if_pos halloc]
              refine iff_of_true (by decide : (-1 : ℤ) < 0) fun h => ?_
              rw [halloc] at h
              exact Bool.false_ne_true h.1.2.2.2
            · rw [if_neg halloc]
              by_cases hadd : o.cdevAdd < 0
              · rw [if_pos hadd]
                exact iff_of_true (by decide : (-1 : ℤ) < 0) fun h => absurd h.2 (not_le.mpr hadd)
              · rw [if_neg hadd]
                refine iff_of_false (lt_irrefl 0) (not_not.mpr ⟨⟨?_, rfl, rfl, ?_⟩, ?_⟩)
                · exact not_lt.mp hregion
                · exact Bool.eq_true_of_not_eq_false halloc
                · exact not_lt.mp hadd

/-- The caller owns the block of `cdev_alloc`. -/
theorem createChardev_safe (o : StartOutcomes) :
    Safe (createChardev o) rest fun cdevCdev blocks =>
      (cdevCdev.isSome = true ↔ AllocatesCdev o) ∧ blocks = cdevCdev.toList ++ rest := by
  have hnone : ¬ AllocatesCdev o →
      ((none : Option ℕ).isSome = true ↔ AllocatesCdev o) ∧ rest = Option.toList none ++ rest :=
    fun hnot => ⟨iff_of_false Bool.false_ne_true hnot, rfl⟩
  unfold createChardev
  split
  · rename_i hregion
    exact .pure (hnone fun h => absurd h.1 (not_le.mpr hregion))
  · rename_i hregion
    split
    · rename_i hclass hdevice
      split
      · rename_i halloc
        refine .pure (hnone fun h => ?_)
        rw [h.2.2.2] at halloc
        cases halloc
      · rename_i halloc
        have hallocates : AllocatesCdev o :=
          ⟨not_lt.mp hregion, by rw [hclass]; rfl, by rw [hdevice]; rfl,
            Bool.eq_true_of_not_eq_false halloc⟩
        refine .bind (m := fun b blocks => blocks = b :: rest) (.alloc fun b _ => rfl) ?_
        rintro b _ rfl
        refine .bind (m := fun _ blocks => blocks = b :: rest)
          (.access List.mem_cons_self rfl) ?_
        rintro - _ rfl
        exact .pure ⟨iff_of_true rfl hallocates, rfl⟩
    · rename_i hnot
      refine .pure (hnone fun h => ?_)
      obtain ⟨-, hclass, hdevice, -⟩ := h
      cases hc : o.classCreate with
      | error err =>
          rw [hc] at hclass
          cases hclass
      | ok _ =>
          cases hd : o.deviceCreate with
          | error err =>
              rw [hd] at hdevice
              cases hdevice
          | ok _ => exact hnot _ _ hc hd

theorem start_leaves (o : StartOutcomes) :
    Safe (start o) rest (LoadedLeaves rest (globalsAfter major none (.load o))
      (forgotten major none (.load o))) := by
  have hnone : ¬ (o.kmalloc.isSome = true ∧ o.findSymbol ≠ false ∧
      ¬ (Proxy.createChardev o 0 []).1 < 0 ∧ o.procCreate ≠ false) →
      globalsAfter major none (.load o) = none := fun h => if_neg (mt (start_eq_zero o).mp h)
  have hkeeps : ¬ LosesCdev o → forgotten major none (.load o) = 0 := fun h => if_neg h
  unfold start
  split
  · rename_i hmemory
    rw [hnone (by simp [hmemory]), hkeeps (by simp [LosesCdev, hmemory])]
    exact .pure ⟨by rintro l ⟨⟩, rfl, [], rfl, .refl _⟩
  · rename_i kmem hmemory
    refine .bind (m := fun b blocks => blocks = b :: rest) (.alloc fun b _ => rfl) ?_
    rintro b _ rfl
    -- every label frees the table, and what `cdev_alloc` returned stays
    have houtFree : ∀ cdevCdev : Option ℕ,
        Safe (do free b; pure none : HeapProgram (Option LoadedProxy))
          (cdevCdev.toList ++ b :: rest) (LoadedLeaves rest none cdevCdev.toList.length) := by
      intro cdevCdev
      refine .perm ?_ List.perm_middle
      refine .bind (m := fun _ blocks => blocks = cdevCdev.toList ++ rest)
        (.free List.mem_cons_self (List.erase_cons_head ..)) ?_
      rintro - _ rfl
      exact .pure ⟨by rintro l ⟨⟩, rfl, cdevCdev.toList, rfl, .refl _⟩
    dsimp only
    by_cases hsymbol : o.findSymbol = false
    · rw [if_pos hsymbol, hnone fun h => h.2.1 hsymbol, hkeeps fun h => h.1.2.1 hsymbol]
      exact houtFree none
    · rw [if_neg hsymbol]
      refine (createChardev_safe o).bind fun cdevCdev blocks hcdev => ?_
      obtain ⟨hsome, rfl⟩ := hcdev
      have hlost : o.cdevAdd < 0 ∨ o.procCreate = false →
          forgotten major none (.load o) = cdevCdev.toList.length := by
        intro hfails
        cases cdevCdev with
        | none => exact if_neg fun h => Bool.false_ne_true (hsome.mpr h.1.2.2)
        | some c =>
            have hmemory' : o.kmalloc.isSome = true := by rw [hmemory]; rfl
            exact if_pos ⟨⟨hmemory', hsymbol, hsome.mp rfl⟩, hfails⟩
      have hchardev := createChardev_neg o
      by_cases hneg : (Proxy.createChardev o 0 []).1 < 0
      · rw [if_pos hneg, hnone fun h => h.2.2.1 hneg]
        by_cases hadd : o.cdevAdd < 0
        · rw [hlost (Or.inl hadd)]
          exact houtFree cdevCdev
        · -- it did not get as far as `cdev_alloc`
          have hnot : ¬ AllocatesCdev o := fun h => hchardev.mp hneg ⟨h, not_lt.mp hadd⟩
          rw [hkeeps fun h => hnot h.1.2.2]
          cases cdevCdev with
          | none => exact houtFree none
          | some c => exact absurd (hsome.mp rfl) hnot
      · by_cases hproc : o.procCreate = false
        · rw [if_neg hneg, if_pos hproc, hnone fun h => h.2.2.2 hproc, hlost (Or.inr hproc)]
          exact houtFree cdevCdev
        · rw [if_neg hneg, if_neg hproc]
          obtain ⟨hallocates, hadd⟩ := not_not.mp (mt hchardev.mpr hneg)
          obtain ⟨c, rfl⟩ := Option.isSome_iff_exists.mp (hsome.mpr hallocates)
          have hloaded : globalsAfter major none (.load o) =
              some ⟨(UsableTable.fresh o.mem kmem).table, none⟩ := by
            refine (if_pos ((start_eq_zero o).mpr ⟨?_, hsymbol, hneg, hproc⟩)).trans ?_
            · rw [hmemory]
              rfl
            · rw [hmemory]
              rfl
          have hkept : ¬ LosesCdev o := by
            rintro ⟨-, hfails | hfails⟩
            · exact absurd hadd (not_le.mpr hfails)
            · exact hproc hfails
          rw [hloaded, hkeeps hkept]
          refine .pure ⟨?_, rfl, [], rfl, .swap _ _ _⟩
          rintro l hl
          obtain rfl := Option.some.inj hl
          exact ⟨rfl, rfl⟩

/-- The device is left behind, and a record too. -/
theorem end_leaves (hg : g.Consistent) (cdevCdev : ℕ) :
    Safe (do end_ g; pure none : HeapProgram (Option LoadedProxy))
      (g.pointers ++ cdevCdev :: rest)
      (LoadedLeaves rest none (forgotten major (some g.globals) .unload)) := by
  have hlength : forgotten major (some g.globals) .unload = (g.ks.toList ++ [cdevCdev]).length := by
    have hks := hg.ks
    rw [List.length_append, List.length_singleton]
    refine congrArg (· + 1) ?_
    rw [← hks]
    cases g.ks <;> rfl
  rw [hlength]
  refine .bind (m := fun _ blocks => blocks = g.ks.toList ++ cdevCdev :: rest) ?_ ?_
  · rw [HeapGlobals.pointers, List.append_assoc]
    exact .freePtr rfl
  · rintro - _ rfl
    refine .pure ⟨by rintro l ⟨⟩, rfl, g.ks.toList ++ [cdevCdev], rfl, ?_⟩
    show (g.ks.toList ++ cdevCdev :: rest).Perm (g.ks.toList ++ [cdevCdev] ++ rest)
    rw [List.append_assoc]
    exact .refl _

end Functions

/-! ## Sequences of calls -/

theorem kernelCall_leaves (major : ℕ) (p : Option LoadedProxy) (c : KernelCall) (rest : List ℕ)
    (hp : ∀ l ∈ p, HeapGlobals.Consistent l.state) :
    Safe (kernelCall major p c) (pointersOf p ++ rest) (LoadedLeaves rest
      (globalsAfter major (p.map LoadedProxy.globals) c)
      (forgotten major (p.map LoadedProxy.globals) c)) := by
  cases p with
  | none =>
      have hidle : LoadedLeaves rest none 0 none rest := ⟨hp, rfl, [], rfl, .refl _⟩
      cases c with
      | load o => exact start_leaves o
      | unload => exact .pure hidle
      | putModule mt krealloc => exact .pure hidle
      | ioctl ioctlNum ioctlParam env mem => exact .pure hidle
      | write buff env user => exact .pure hidle
  | some p =>
      have hg := hp p rfl
      have hpointers : pointersOf (some p) ++ rest = p.state.pointers ++ p.cdevCdev :: rest := by
        show p.state.pointers ++ [p.cdevCdev] ++ rest = _
        rw [List.append_assoc]
        rfl
      rw [hpointers]
      cases c with
      | load o =>
          have hidle : Leaves (p.cdevCdev :: rest) p.state.globals
              (forgotten major (some p.state.globals) (.load o)) p.state
              (p.state.pointers ++ p.cdevCdev :: rest) :=
            GivesUp.leaves hg .nothing
          exact .pure hidle.loaded
      | unload => exact end_leaves hg p.cdevCdev
      | putModule mt krealloc =>
          exact (putModule_leaves major hg mt krealloc).bind fun _ _ h => .pure h.loaded
      | ioctl ioctlNum ioctlParam env mem =>
          refine (cdevIoctl_leaves major hg ioctlNum ioctlParam env mem).bind fun _ _ h => ?_
          obtain ⟨s, hs, hleaves⟩ := h
          have hloaded := hleaves.loaded
          rw [← hs] at hloaded
          exact .pure hloaded
      | write buff env user =>
          exact (cdevWrite_safe major buff env user).bind fun _ _ h =>
            .pure (GivesUp.leaves hg h).loaded

/-- **The blocks of the proxy.** Whatever is called, in whatever order and with whatever
outcome of the allocations, only allocated blocks are freed or accessed; the globals are those
of the model without a heap; and allocated are the blocks that they point to and as many others
as calls left behind. -/
theorem kernel_heap_accounted (major : ℕ) (cs : List KernelCall) :
    ∃ p heap lost, cs.foldlM (kernelCall major) none BlockHeap.empty = some (p, heap) ∧
      p.map LoadedProxy.globals = cs.foldl (globalsAfter major) none ∧
      lost.length = lostOn (globalsAfter major) (forgotten major) none cs ∧
      heap.Owns (pointersOf p ++ lost) := by
  obtain ⟨p, heap, blocks, hrun, howns, -, hglobals, lost, hlost, hperm⟩ :=
    Safe.foldlM (G := fun _ _ => True) (fun p c rest hp _ => kernelCall_leaves major p c rest hp)
      cs none [] (by rintro l ⟨⟩) (along_trivial (fun _ _ => trivial) cs _) BlockHeap.empty
      BlockHeap.empty_owns
  rw [List.append_nil] at hperm
  exact ⟨p, heap, lost, hrun, hglobals, hlost, howns.perm hperm⟩

end LxcUio.Proxy.Heap
