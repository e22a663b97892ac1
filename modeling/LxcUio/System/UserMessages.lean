import LxcUio.Foundation.StructBytes
import LxcUio.Proxy.Lookup
import LxcUio.Proxy.WriteDevice
import LxcUio.System.VmImage

/-!
# The messages between the server and the proxy

`send_packet` and `get_uuid_layout` as the server's process runs them: they assign the fields of
a `packet` on the stack, or copy a uuid to a buffer of the heap, and the proxy's functions read
and write those bytes. What crosses is the packet, the uuid and the layout, whatever the padding
and the buffer held before.
-/

namespace LxcUio.System

open LxcUio.Foundation LxcUio.Proxy LxcUio.Server

/-! ## The layout of the structs -/

/-- The bits of an `int`. -/
def intBits (n : ℤ) : ℕ := (n % 2 ^ 32).toNat

def regionFields (r : KvmUserspaceMemoryRegion) : List StructField :=
  [⟨0, 4, r.slot.toNat⟩, ⟨4, 4, r.flags.toNat⟩, ⟨8, 8, r.guestPhysAddr.toNat⟩,
    ⟨16, 8, r.memorySize.toNat⟩, ⟨24, 8, r.userspaceAddr.toNat⟩]

def layoutFields (l : ModuleLayout) : List StructField :=
  [⟨0, 8, l.base.toNat⟩, ⟨8, 4, l.size.toNat⟩, ⟨12, 4, l.textSize.toNat⟩,
    ⟨16, 4, l.roSize.toNat⟩]

def memoryFields (m : VmMemory) : List StructField :=
  regionFields m.regionIDT ++
  (regionFields m.regionInit).map (StructField.shift 32) ++
  (regionFields m.regionCore).map (StructField.shift 64) ++
  [⟨96, 4, intBits m.numRegions⟩, ⟨104, 8, m.baseIDT.toNat⟩, ⟨112, 4, m.sizeIDT.toNat⟩] ++
  (layoutFields m.coreLayout).map (StructField.shift 120) ++
  (layoutFields m.initLayout).map (StructField.shift 200)

def packetFields (p : Packet) : List StructField :=
  ⟨0, 16, p.uuid.toNat⟩ :: (memoryFields p.memory).map (StructField.shift 16)

/-- No field of a packet overlaps another one, and all lie inside it. -/
theorem packetFields_places (p : Packet) :
    ((packetFields p).map StructField.place).Pairwise Apart ∧
      ∀ f ∈ packetFields p, f.offset + f.size ≤ 304 := by
  have hplaces : (packetFields p).map StructField.place =
      (packetFields default).map StructField.place := rfl
  have hends : ∀ q ∈ (packetFields default).map StructField.place, q.2 ≤ 304 := by decide
  refine ⟨by rw [hplaces]; decide, fun f hf => ?_⟩
  apply hends f.place
  rw [← hplaces]
  exact List.mem_map_of_mem hf

/-! ### Reading it back -/

section Load

variable {mem : UserMem} {a : UserAddr} {fs : List StructField} {o : ℕ}

theorem load_field32 {x : UInt32} (h : HoldsFields mem a fs) (hf : ⟨o, 4, x.toNat⟩ ∈ fs) :
    UInt32.ofNat (loadLE mem (a + o) 4) = x := by
  have hload : loadLE mem (a + o) 4 = x.toNat % 256 ^ 4 := h _ hf
  have hmod : x.toNat % 256 ^ 4 = x.toNat := Nat.mod_eq_of_lt x.toNat_lt
  rw [hload, hmod]
  exact UInt32.ofNat_toNat

theorem load_field64 {x : UInt64} (h : HoldsFields mem a fs) (hf : ⟨o, 8, x.toNat⟩ ∈ fs) :
    UInt64.ofNat (loadLE mem (a + o) 8) = x := by
  have hload : loadLE mem (a + o) 8 = x.toNat % 256 ^ 8 := h _ hf
  have hmod : x.toNat % 256 ^ 8 = x.toNat := Nat.mod_eq_of_lt x.toNat_lt
  rw [hload, hmod]
  exact UInt64.ofNat_toNat

theorem load_fieldInt {n : ℤ} (hlo : -2 ^ 31 ≤ n) (hhi : n < 2 ^ 31) (h : HoldsFields mem a fs)
    (hf : ⟨o, 4, intBits n⟩ ∈ fs) : toInt (loadLE mem (a + o) 4) = n := by
  have hload : loadLE mem (a + o) 4 = intBits n % 256 ^ 4 := h _ hf
  have hnonneg : 0 ≤ n % 2 ^ 32 := Int.emod_nonneg _ (by decide)
  have hlt : n % 2 ^ 32 < 2 ^ 32 := Int.emod_lt_of_pos _ (by decide)
  have hbits : intBits n % 256 ^ 4 = intBits n := by
    apply Nat.mod_eq_of_lt
    unfold intBits
    omega
  have hcast : ((intBits n : ℕ) : ℤ) = n % 2 ^ 32 := Int.toNat_of_nonneg hnonneg
  have hsame : toInt (n % 2 ^ 32) = toInt n := Int.emod_bmod n (2 ^ 32)
  rw [hload, hbits, hcast, hsame, toInt_of_bounds hlo hhi]

theorem loadRegion_of_fields {r : KvmUserspaceMemoryRegion}
    (h : HoldsFields mem a (regionFields r)) : loadRegion mem a = r := by
  have hslot : UInt32.ofNat (loadLE mem (a + 0) 4) = r.slot :=
    load_field32 h (by simp [regionFields])
  rw [Nat.add_zero] at hslot
  unfold loadRegion
  rw [hslot,
    load_field32 (x := r.flags) h (by simp [regionFields]),
    load_field64 (x := r.guestPhysAddr) h (by simp [regionFields]),
    load_field64 (x := r.memorySize) h (by simp [regionFields]),
    load_field64 (x := r.userspaceAddr) h (by simp [regionFields])]

theorem loadLayout_of_fields {l : ModuleLayout} (h : HoldsFields mem a (layoutFields l)) :
    loadLayout mem a = l := by
  have hbase : UInt64.ofNat (loadLE mem (a + 0) 8) = l.base :=
    load_field64 h (by simp [layoutFields])
  rw [Nat.add_zero] at hbase
  unfold loadLayout
  rw [hbase,
    load_field32 (x := l.size) h (by simp [layoutFields]),
    load_field32 (x := l.textSize) h (by simp [layoutFields]),
    load_field32 (x := l.roSize) h (by simp [layoutFields])]

theorem loadVmMemory_of_fields {m : VmMemory} (hlo : -2 ^ 31 ≤ m.numRegions)
    (hhi : m.numRegions < 2 ^ 31) (h : HoldsFields mem a (memoryFields m)) :
    loadVmMemory mem a = m := by
  have hidt : HoldsFields mem a (regionFields m.regionIDT) := h.subset fun f hf => by
    simp only [memoryFields, List.mem_append]
    tauto
  have hinit : HoldsFields mem (a + 32) (regionFields m.regionInit) := h.inside fun f hf => by
    simp only [memoryFields, List.mem_append]
    tauto
  have hcore : HoldsFields mem (a + 64) (regionFields m.regionCore) := h.inside fun f hf => by
    simp only [memoryFields, List.mem_append]
    tauto
  have hcoreLayout : HoldsFields mem (a + 120) (layoutFields m.coreLayout) :=
    h.inside fun f hf => by
      simp only [memoryFields, List.mem_append]
      tauto
  have hinitLayout : HoldsFields mem (a + 200) (layoutFields m.initLayout) :=
    h.inside fun f hf => by
      simp only [memoryFields, List.mem_append]
      tauto
  unfold loadVmMemory
  rw [loadRegion_of_fields hidt, loadRegion_of_fields hinit, loadRegion_of_fields hcore,
    load_fieldInt hlo hhi h (by simp [memoryFields]),
    load_field64 (x := m.baseIDT) h (by simp [memoryFields]),
    load_field32 (x := m.sizeIDT) h (by simp [memoryFields]),
    loadLayout_of_fields hcoreLayout, loadLayout_of_fields hinitLayout]

theorem loadPacket_of_fields {p : Packet} (hlo : -2 ^ 31 ≤ p.memory.numRegions)
    (hhi : p.memory.numRegions < 2 ^ 31) (h : HoldsFields mem a (packetFields p)) :
    loadPacket mem a = p := by
  have hmemory : HoldsFields mem (a + 16) (memoryFields p.memory) :=
    h.inside (List.subset_cons_self _ _)
  have hload : loadLE mem a 16 = p.uuid.toNat % 256 ^ 16 := h ⟨0, 16, _⟩ List.mem_cons_self
  have hmod : p.uuid.toNat % 256 ^ 16 = p.uuid.toNat := Nat.mod_eq_of_lt p.uuid.isLt
  have huuid : loadUuid mem a = p.uuid := by
    rw [loadUuid, hload, hmod, BitVec.ofNat_toNat, BitVec.setWidth_eq]
  unfold loadPacket
  rw [huuid, loadVmMemory_of_fields hlo hhi hmemory]

end Load

/-! ## The messages -/

/-- `packet1` on the stack: its fields are assigned, its padding is what was there. -/
def storePacket (mem : UserMem) (stack : UserAddr) (packet1 : Packet) : UserMem := fun a =>
  if stack ≤ a ∧ a < stack + 304 then
    structByte (fun i => mem (stack + i)) (packetFields packet1) (a - stack)
  else mem a

/-- `memcpy(buff,&uuid,sizeof(uuid))`. -/
def storeUuid (mem : UserMem) (buff : UserAddr) (uuid : Uuid) : UserMem := fun a =>
  if buff ≤ a ∧ a < buff + 16 then byteLE uuid.toNat (a - buff) else mem a

/-- The process after that, as the proxy's `write` finds it: the pages that can be read are
`readable`. -/
def packetSpace (readable : UserAddr → Bool) (stack : UserAddr) (packet1 : Packet)
    (mem : UserMem) : UserSpace :=
  ⟨storePacket mem stack packet1, readable⟩

/-- `send_packet` in the memory of the server's process. -/
def sendPacketUser (c : ProxyCall) (readable : UserAddr → Bool) (stack : UserAddr)
    (packet1 : Packet) (mem : UserMem) : OrOops (ℤ × UserMem) :=
  (cdevWriteUser c.table stack 304 ⟨c.kmalloc, c.notCopied⟩
    (packetSpace readable stack packet1 mem)).map fun r => (Server.sendPacket r.1, r.2)

/-- `get_uuid_layout` in that memory. `malloc` returns `buff`; the bytes of the layouts that
have no name here are `rest`. -/
def getUuidLayoutUser (rest : ℕ → UInt8) (c : ProxyCall) (kind : LayoutKind)
    (buff : Option UserAddr) (uuid : Uuid) (mem : UserMem) :
    OrOops (Option ModuleLayout × UserMem) :=
  match buff with
  | none => some (none, mem)
  | some buff =>
      (kvmHostServerLookup rest kind.request c.table buff ⟨c.notRead, c.kmalloc, c.notCopied⟩
        (storeUuid mem buff uuid)).map fun r =>
          (if r.1 = 0 then some (loadLayout r.2 buff) else none, r.2)

/-- What the proxy reads is the packet that was assigned. -/
theorem ofBytes_storePacket {packet1 : Packet} (hlo : -2 ^ 31 ≤ packet1.memory.numRegions)
    (hhi : packet1.memory.numRegions < 2 ^ 31) (mem : UserMem) (stack : UserAddr) :
    Packet.ofBytes (packetBytes (storePacket mem stack packet1) stack) = packet1 := by
  obtain ⟨hapart, hinside⟩ := packetFields_places packet1
  have hbyte : ∀ i < 304, (packetBytes (storePacket mem stack packet1) stack).getD (0 + i) 0 =
      structByte (fun i => mem (stack + i)) (packetFields packet1) i := by
    intro i hi
    have hin : stack ≤ stack + i ∧ stack + i < stack + 304 :=
      ⟨Nat.le_add_right _ _, Nat.add_lt_add_left hi _⟩
    have hrange : (List.range Proxy.sizeofPacket.toNat)[i]? = some i := List.getElem?_range hi
    rw [Nat.zero_add, packetBytes, List.getD_eq_getElem?_getD, List.getElem?_map, hrange]
    show storePacket mem stack packet1 (stack + i) = _
    rw [storePacket, if_pos hin, Nat.add_sub_cancel_left]
  exact loadPacket_of_fields hlo hhi (holds_of_bytes hapart hinside hbyte)

theorem loadUuid_storeUuid (mem : UserMem) (buff : ℕ) (uuid : Uuid) :
    loadUuid (storeUuid mem buff uuid) buff = uuid := by
  have hload : loadLE (storeUuid mem buff uuid) buff 16 = uuid.toNat := by
    apply loadLE_of_lt _ uuid.isLt
    intro i hi
    have hin : buff ≤ buff + i ∧ buff + i < buff + 16 := ⟨by omega, by omega⟩
    rw [storeUuid, if_pos hin, Nat.add_sub_cancel_left]
  rw [loadUuid, hload, BitVec.ofNat_toNat, BitVec.setWidth_eq]

/-- The layout ioctls on the caller's memory fault when their functions on the uuid do. -/
theorem lookup_faults (rest : ℕ → UInt8) (kind : LayoutKind) {t : ModuleTable} {ptr : UserAddr}
    {env : LookupEnv} {mem : UserMem}
    (h : kvmHostServerGetLayout kind t (loadUuid mem ptr) env.notRead env.kmalloc
      env.notCopied = none) :
    kvmHostServerLookup rest kind.request t ptr env mem = none := by
  unfold kvmHostServerGetLayout at h
  split at h
  · rename_i hread
    split at h
    · rename_i hcopy
      cases kind with
      | init => simp only [LayoutKind.request, kvmHostServerLookup, kvmHostServerGetInitLayout,
          lookupIoctl, hread, hcopy, if_true]
      | core => simp only [LayoutKind.request, kvmHostServerLookup, kvmHostServerGetCoreLayout,
          lookupIoctl, hread, hcopy, if_true]
    · cases h
    · rename_i hcopy
      cases kind with
      | init => simp only [LayoutKind.request, kvmHostServerLookup, kvmHostServerGetInitLayout,
          lookupIoctl, hread, hcopy, if_true]
      | core => simp only [LayoutKind.request, kvmHostServerLookup, kvmHostServerGetCoreLayout,
          lookupIoctl, hread, hcopy, if_true]
    · split at h <;> cases h
  · cases h

/-- A layout ioctl that returns 0 has sent a layout. -/
theorem getLayout_zero {kind : LayoutKind} {t : ModuleTable} {uuid : Uuid} {notRead : ℕ}
    {kmalloc : Option CopyBlock} {notCopied : ℕ} {l : Option ModuleLayout}
    (h : kvmHostServerGetLayout kind t uuid notRead kmalloc notCopied = some (0, l)) :
    ∃ l', l = some l' := by
  unfold kvmHostServerGetLayout at h
  split at h
  · split at h
    · cases h
    · cases h
    · cases h
    · split at h
      · exact ⟨_, (Prod.mk.inj (Option.some.inj h)).2.symm⟩
      · rename_i hleft
        have hzero := (Prod.mk.inj (Option.some.inj h)).1
        omega
  · rename_i hread
    have hzero := (Prod.mk.inj (Option.some.inj h)).1
    omega

/-- **What crosses between the server and the proxy** is what is meant: the packet that
`send_packet` was given is the packet that the proxy handles, and `get_uuid_layout` delivers
what the proxy's function on the uuid returns, for every content of the padding, of the buffer
and of the rest of the memory. -/
theorem messages_cross_exactly (rest : ℕ → UInt8) (c : ProxyCall) (kind : LayoutKind)
    (packet1 : Packet) (hlo : -2 ^ 31 ≤ packet1.memory.numRegions)
    (hhi : packet1.memory.numRegions < 2 ^ 31) (readable : UserAddr → Bool)
    (stack buff : UserAddr) (mem : UserMem) :
    sendPacketUser c readable stack packet1 mem =
        (({ c with notRead := bytesNotCopied (packetSpace readable stack packet1 mem) stack } :
          ProxyCall).write packet1 (storePacket mem stack packet1)).map
            (fun r => (Server.sendPacket r.1, r.2)) ∧
      (getUuidLayoutUser rest c kind (some buff) packet1.uuid mem).map Prod.fst =
        (c.layout kind packet1.uuid).map fun r =>
          getUuidLayout ⟨true, r.1, r.2.getD default⟩ := by
  constructor
  · have hpacket := ofBytes_storePacket hlo hhi mem stack
    rw [sendPacketUser, cdevWriteUser, packetSpace, hpacket]
    rfl
  · have huuid := loadUuid_storeUuid mem buff packet1.uuid
    let env : LookupEnv := ⟨c.notRead, c.kmalloc, c.notCopied⟩
    have hsame : kvmHostServerGetLayout kind c.table
        (loadUuid (storeUuid mem buff packet1.uuid) buff) env.notRead env.kmalloc env.notCopied =
        c.layout kind packet1.uuid := by rw [huuid]; rfl
    cases hlayout : c.layout kind packet1.uuid with
    | none =>
        have hfaults := lookup_faults rest kind (hsame.trans hlayout)
        rw [getUuidLayoutUser, hfaults]
        rfl
    | some r =>
        obtain ⟨ret, l⟩ := r
        obtain ⟨mem', hrun, hholds⟩ := lookup_getLayout rest kind (hsame.trans hlayout)
        rw [getUuidLayoutUser, hrun]
        by_cases hzero : ret = 0
        · subst hzero
          obtain ⟨l', rfl⟩ := getLayout_zero hlayout
          show some (some (loadLayout mem' buff)) = _
          rw [hholds l' rfl]
          rfl
        · simp [getUuidLayout, hzero]

/-! ### One packet -/

/-- The regions of a module of 9 bytes, all fields set. -/
def samplePacket : Packet where
  uuid := 1
  memory :=
    { regionIDT := ⟨1, 2, 0x5000, 0x1000, 0x10000⟩
      regionInit := ⟨2, 3, 0x3000, 0x2000, 0x20000⟩
      regionCore := ⟨3, 4, 0x1000, 9, 0x30000⟩
      numRegions := 3
      baseIDT := 0x6000
      sizeIDT := 0x100
      coreLayout := ⟨0x4000, 9, 8, 7⟩
      initLayout := ⟨0x8000, 0x2000, 6, 5⟩ }

/-- The padding and everything else holds 0xcc, the proxy knows the uuid, and nothing but the
packet itself can be read. -/
theorem samplePacket_crosses :
    (sendPacketUser (holdingCall storeModule) (fun a => 4096 ≤ a ∧ a < 4400) 4096 samplePacket
      fun _ => 0xcc).map (fun r => (r.1, r.2 0x30003)) = some (0, 0xa2) ∧
    (getUuidLayoutUser (fun _ => 0xdd) (holdingCall storeModule) .core (some 512)
      samplePacket.uuid fun _ => 0xcc).map Prod.fst = some (some storeModule.coreLayout) := by
  obtain ⟨hpacket, hlayout⟩ := messages_cross_exactly (fun _ => 0xdd) (holdingCall storeModule)
    .core samplePacket (by decide) (by decide) (fun a => 4096 ≤ a ∧ a < 4400) 4096 512
    fun _ => 0xcc
  rw [hpacket, hlayout]
  constructor
  · decide +kernel
  · rfl

end LxcUio.System
