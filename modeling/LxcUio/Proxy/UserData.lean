import LxcUio.Foundation.LittleEndian
import LxcUio.Proxy.Cdev

/-!
# The shared data in user memory

Where the fields of `__uint128_t`, `struct module_layout` and `packet` lie behind a user
pointer, on x86-64. The node of the module tree and the padding are bytes without a name.
-/

namespace LxcUio.Proxy

open LxcUio.Foundation

def loadUuid (mem : UserMem) (a : UserAddr) : Uuid := BitVec.ofNat 128 (loadLE mem a 16)

/-- `sizeof(struct module_layout)`. -/
def sizeofModuleLayout : ℕ := 80

def loadLayout (mem : UserMem) (a : UserAddr) : ModuleLayout where
  base := UInt64.ofNat (loadLE mem a 8)
  size := UInt32.ofNat (loadLE mem (a + 8) 4)
  textSize := UInt32.ofNat (loadLE mem (a + 12) 4)
  roSize := UInt32.ofNat (loadLE mem (a + 16) 4)

def loadRegion (mem : UserMem) (a : UserAddr) : KvmUserspaceMemoryRegion where
  slot := UInt32.ofNat (loadLE mem a 4)
  flags := UInt32.ofNat (loadLE mem (a + 4) 4)
  guestPhysAddr := UInt64.ofNat (loadLE mem (a + 8) 8)
  memorySize := UInt64.ofNat (loadLE mem (a + 16) 8)
  userspaceAddr := UInt64.ofNat (loadLE mem (a + 24) 8)

def loadVmMemory (mem : UserMem) (a : UserAddr) : VmMemory where
  regionIDT := loadRegion mem a
  regionInit := loadRegion mem (a + 32)
  regionCore := loadRegion mem (a + 64)
  numRegions := toInt (loadLE mem (a + 96) 4)
  baseIDT := UInt64.ofNat (loadLE mem (a + 104) 8)
  sizeIDT := UInt32.ofNat (loadLE mem (a + 112) 4)
  coreLayout := loadLayout mem (a + 120)
  initLayout := loadLayout mem (a + 200)

def loadPacket (mem : UserMem) (a : UserAddr) : Packet where
  uuid := loadUuid mem a
  memory := loadVmMemory mem (a + 16)

/-- Byte `i` of a layout; behind the four fields the bytes are `rest`. -/
def layoutByte (l : ModuleLayout) (rest : ℕ → UInt8) (i : ℕ) : UInt8 :=
  if i < 8 then byteLE l.base.toNat i
  else if i < 12 then byteLE l.size.toNat (i - 8)
  else if i < 16 then byteLE l.textSize.toNat (i - 12)
  else if i < 20 then byteLE l.roSize.toNat (i - 16)
  else rest i

theorem load_uint32 {mem : ℕ → UInt8} {a : ℕ} {x : UInt32}
    (h : ∀ i < 4, mem (a + i) = byteLE x.toNat i) : UInt32.ofNat (loadLE mem a 4) = x := by
  rw [loadLE_of_lt h x.toNat_lt]
  exact UInt32.ofNat_toNat

theorem load_uint64 {mem : ℕ → UInt8} {a : ℕ} {x : UInt64}
    (h : ∀ i < 8, mem (a + i) = byteLE x.toNat i) : UInt64.ofNat (loadLE mem a 8) = x := by
  rw [loadLE_of_lt h x.toNat_lt]
  exact UInt64.ofNat_toNat

/-- Memory that holds the bytes of a layout holds the layout. -/
theorem loadLayout_of_bytes {mem : ℕ → UInt8} {a : ℕ} {l : ModuleLayout}
    {rest : ℕ → UInt8} (h : ∀ i < 80, mem (a + i) = layoutByte l rest i) :
    loadLayout mem a = l := by
  have hbase : UInt64.ofNat (loadLE mem a 8) = l.base := by
    refine load_uint64 fun i hi => ?_
    rw [h i (by omega), layoutByte, if_pos hi]
  have hsize : UInt32.ofNat (loadLE mem (a + 8) 4) = l.size := by
    refine load_uint32 fun i hi => ?_
    rw [Nat.add_assoc, h _ (by omega), layoutByte, if_neg (by omega), if_pos (by omega),
      Nat.add_sub_cancel_left]
  have htext : UInt32.ofNat (loadLE mem (a + 12) 4) = l.textSize := by
    refine load_uint32 fun i hi => ?_
    rw [Nat.add_assoc, h _ (by omega), layoutByte, if_neg (by omega), if_neg (by omega),
      if_pos (by omega), Nat.add_sub_cancel_left]
  have hro : UInt32.ofNat (loadLE mem (a + 16) 4) = l.roSize := by
    refine load_uint32 fun i hi => ?_
    rw [Nat.add_assoc, h _ (by omega), layoutByte, if_neg (by omega), if_neg (by omega),
      if_neg (by omega), if_pos (by omega), Nat.add_sub_cancel_left]
  unfold loadLayout
  rw [hbase, hsize, htext, hro]

end LxcUio.Proxy
