import Mathlib.Data.Int.Init
import Mathlib.Data.Nat.Init

/-!
# The data both components share

`vm-memory.h`, `protocol.h`, the copied `struct module_layout` and the kernel's
`struct kvm_userspace_memory_region`. Of `struct module_layout` the node of the
kernel's module tree is left out: it is only copied.
-/

namespace LxcUio

/-- `__uint128_t uuid`. -/
abbrev Uuid := BitVec 128

/-- An address in the memory of a user process. -/
abbrev UserAddr := ℕ

/-- The memory of a user process. -/
abbrev UserMem := UserAddr → UInt8

structure ModuleLayout where
  base : UInt64
  size : UInt32
  textSize : UInt32
  roSize : UInt32
deriving DecidableEq, Inhabited

structure KvmUserspaceMemoryRegion where
  slot : UInt32
  flags : UInt32
  guestPhysAddr : UInt64
  memorySize : UInt64
  userspaceAddr : UInt64
deriving DecidableEq, Inhabited

structure VmMemory where
  regionIDT : KvmUserspaceMemoryRegion
  regionInit : KvmUserspaceMemoryRegion
  regionCore : KvmUserspaceMemoryRegion
  numRegions : ℤ
  baseIDT : UInt64
  sizeIDT : UInt32
  coreLayout : ModuleLayout
  initLayout : ModuleLayout
deriving DecidableEq, Inhabited

structure Packet where
  uuid : Uuid
  memory : VmMemory
deriving DecidableEq, Inhabited

/-- `-ENOMEM`. -/
def negENOMEM : ℤ := -12

end LxcUio
