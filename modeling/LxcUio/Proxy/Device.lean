import LxcUio.Foundation.IocWord
import LxcUio.Proxy.Locks
import LxcUio.Proxy.Lookup
import LxcUio.Proxy.TableLog
import LxcUio.Proxy.WriteDevice

/-!
# The device, from the system call

`chardev.h` and the whole of `cdev_ioctl`: command words are made of the major number, and
the branches are found by comparing words. Both the proxy and its callers make their words
from a major number of their own; the caller's word reaches the proxy as an `unsigned int`.

A word is never taken for another request, and it reaches its branch when the two major
numbers agree in the bits of the word that direction and size leave to them
(`cdevIoctl_request`).
-/

namespace LxcUio.Proxy

open LxcUio.Foundation Locks

/-! ## `chardev.h` -/

/-- `sizeof(int)` and `sizeof(void *)`. -/
def sizeofInt : ℕ := 4

def sizeofPointer : ℕ := 8

namespace Word

def kvmHostServerRegister (lxcUioCdevMajorNumber : ℕ) : ℕ :=
  iowr lxcUioCdevMajorNumber 1 sizeofInt

def kvmHostServerDeRegister (lxcUioCdevMajorNumber : ℕ) : ℕ := io lxcUioCdevMajorNumber 2

def kvmHostServerGetPendingModule (lxcUioCdevMajorNumber : ℕ) : ℕ :=
  iowr lxcUioCdevMajorNumber 3 sizeofPointer

def kvmHostServerGetUuidSize (lxcUioCdevMajorNumber : ℕ) : ℕ :=
  iowr lxcUioCdevMajorNumber 4 sizeofPointer

def kvmHostServerGetInitLayout (lxcUioCdevMajorNumber : ℕ) : ℕ :=
  iowr lxcUioCdevMajorNumber 5 sizeofPointer

def kvmHostServerGetCoreLayout (lxcUioCdevMajorNumber : ℕ) : ℕ :=
  iowr lxcUioCdevMajorNumber 6 sizeofPointer

end Word

/-! ## `cdev_ioctl` -/

/-- What the calls of an ioctl answer, whichever branch makes them. -/
structure IoctlEnv where
  pid : ℤ
  kmalloc : Option FilePtr
  fcheck : ℤ → Option FilePtr
  notCopied : ℕ
  lookup : LookupEnv
  rest : ℕ → UInt8

/-- `kvm_host_server_get_pending_module` on the memory of the caller: 16 bytes of uuid go to
`dst`. -/
def getPendingModuleUser (t : ModuleTable) (dst : UserAddr) (notCopied : ℕ) (mem : UserMem) :
    OrOops (ℤ × ModuleTable × UserMem) :=
  match popEntry t with
  | (.noEntry, t') => some (0, t', mem)
  | (.oops, _) => none
  | (.entry _ uuid, t') =>
      let mem' := copyToUser mem dst (byteLE uuid.toNat) 16 notCopied
      if notCopied = 0 then some (copiedRetval notCopied, t', mem')
      else some (copiedRetval notCopied, (tablePopReverse t').2, mem')

/-- What an ioctl does: the value returned, the globals and the memory of the caller. -/
abbrev IoctlResult : Type := OrOops (ℤ × Globals × UserMem)

def ioctlRegister (s : Globals) (ioctlParam : ℕ) (env : IoctlEnv) (mem : UserMem) : IoctlResult :=
  let r := Proxy.kvmHostServerRegister s.ks env.pid ioctlParam env.kmalloc env.fcheck
  some (r.1, { s with ks := r.2 }, mem)

def ioctlDeRegister (s : Globals) (mem : UserMem) : IoctlResult :=
  let r := Proxy.kvmHostServerDeRegister s.ks
  some (r.1, { s with ks := r.2 }, mem)

def ioctlGetPendingModule (s : Globals) (ioctlParam : ℕ) (env : IoctlEnv) (mem : UserMem) :
    IoctlResult :=
  (getPendingModuleUser s.table ioctlParam env.notCopied mem).map fun r =>
    (r.1, { s with table := r.2.1 }, r.2.2)

def ioctlLookup (kind : LookupKind) (s : Globals) (ioctlParam : ℕ) (env : IoctlEnv)
    (mem : UserMem) : IoctlResult :=
  (Proxy.kvmHostServerLookup env.rest kind s.table ioctlParam env.lookup mem).map fun r =>
    (r.1, s, r.2)

def cdevIoctl (lxcUioCdevMajorNumber : ℕ) (s : Globals) (ioctlNum ioctlParam : ℕ)
    (env : IoctlEnv) (mem : UserMem) : IoctlResult :=
  if ioctlNum = Word.kvmHostServerRegister lxcUioCdevMajorNumber then
    ioctlRegister s ioctlParam env mem
  else if ioctlNum = Word.kvmHostServerDeRegister lxcUioCdevMajorNumber then
    ioctlDeRegister s mem
  else if ioctlNum = Word.kvmHostServerGetPendingModule lxcUioCdevMajorNumber then
    ioctlGetPendingModule s ioctlParam env mem
  else if ioctlNum = Word.kvmHostServerGetUuidSize lxcUioCdevMajorNumber then
    ioctlLookup .uuidSize s ioctlParam env mem
  else if ioctlNum = Word.kvmHostServerGetInitLayout lxcUioCdevMajorNumber ∨
      ioctlNum = Word.kvmHostServerGetCoreLayout lxcUioCdevMajorNumber then
    if ioctlNum = Word.kvmHostServerGetInitLayout lxcUioCdevMajorNumber then
      ioctlLookup .initLayout s ioctlParam env mem
    else ioctlLookup .coreLayout s ioctlParam env mem
  else some (-1, s, mem)

/-! ## The requests -/

inductive Request where
  | register
  | deRegister
  | getPendingModule
  | lookup (kind : LookupKind)
deriving DecidableEq

namespace Request

def dir : Request → ℕ
  | .deRegister => 0
  | _ => 3

def nr : Request → ℕ
  | .register => 1
  | .deRegister => 2
  | .getPendingModule => 3
  | .lookup .uuidSize => 4
  | .lookup .initLayout => 5
  | .lookup .coreLayout => 6

/-- The size that the word carries. -/
def size : Request → ℕ
  | .register => sizeofInt
  | .deRegister => 0
  | _ => sizeofPointer

/-- The word of `chardev.h`. -/
def word (lxcUioCdevMajorNumber : ℕ) : Request → ℕ
  | .register => Word.kvmHostServerRegister lxcUioCdevMajorNumber
  | .deRegister => Word.kvmHostServerDeRegister lxcUioCdevMajorNumber
  | .getPendingModule => Word.kvmHostServerGetPendingModule lxcUioCdevMajorNumber
  | .lookup .uuidSize => Word.kvmHostServerGetUuidSize lxcUioCdevMajorNumber
  | .lookup .initLayout => Word.kvmHostServerGetInitLayout lxcUioCdevMajorNumber
  | .lookup .coreLayout => Word.kvmHostServerGetCoreLayout lxcUioCdevMajorNumber

/-- The branch that the request is meant for. -/
def handler : Request → Globals → ℕ → IoctlEnv → UserMem → IoctlResult
  | .register => ioctlRegister
  | .deRegister => fun s _ _ => ioctlDeRegister s
  | .getPendingModule => ioctlGetPendingModule
  | .lookup kind => ioctlLookup kind

theorem word_eq (major : ℕ) (r : Request) : r.word major = ioc r.dir major r.nr r.size := by
  rcases r with _ | _ | _ | (_ | _ | _) <;> rfl

theorem nr_lt (r : Request) : r.nr < 2 ^ 8 := by
  rcases r with _ | _ | _ | (_ | _ | _) <;> decide

theorem size_lt (r : Request) : r.size < 2 ^ 14 := by
  rcases r with _ | _ | _ | (_ | _ | _) <;> decide

theorem dir_lt (r : Request) : r.dir < 2 ^ 2 := by
  rcases r with _ | _ | _ | (_ | _ | _) <;> decide

theorem nr_injective {r r' : Request} (h : r.nr = r'.nr) : r = r' := by
  rcases r with _ | _ | _ | (_ | _ | _) <;> rcases r' with _ | _ | _ | (_ | _ | _) <;>
    first | rfl | exact absurd h (by decide)

/-- What the upper bits of the word tell of the major number. -/
def top (r : Request) (major : ℕ) : ℕ := iocTop r.dir major r.size % 2 ^ 24

/-- Words tell their requests, whatever the major numbers are. -/
theorem eq_of_word_eq {r r' : Request} {major major' : ℕ} (h : r.word major = r'.word major') :
    r = r' := by
  rw [word_eq, word_eq] at h
  have hnr := congrArg (· % 2 ^ 8) h
  rw [ioc_mod r.nr_lt, ioc_mod r'.nr_lt] at hnr
  exact nr_injective hnr

/-- Two words agree as `unsigned int`s when the request is the same and the major numbers agree
in what the word tells of them. -/
theorem word_inj {r r' : Request} {major major' : ℕ} :
    r.word major % 2 ^ 32 = r'.word major' % 2 ^ 32 ↔ r = r' ∧ r.top major = r.top major' := by
  rw [word_eq, word_eq, ioc_inj r.nr_lt r'.nr_lt]
  constructor
  · rintro ⟨htop, hnr⟩
    obtain rfl := nr_injective hnr
    exact ⟨rfl, htop⟩
  · rintro ⟨rfl, htop⟩
    exact ⟨htop, rfl⟩

/-- The proxy's words fit an `unsigned int`. -/
theorem word_mod {r : Request} {major : ℕ} (h : major < 2 ^ 22) :
    r.word major % 2 ^ 32 = r.word major := by
  refine Nat.mod_eq_of_lt ?_
  rw [word_eq]
  exact ioc_lt r.dir_lt r.nr_lt (h.trans (by decide)) r.size_lt

end Request

/-! ## Which branch a word reaches -/

section Dispatch

variable (major : ℕ) (s : Globals) (ioctlParam : ℕ) (env : IoctlEnv) (mem : UserMem)

/-- The ladder compares the word with those of the six requests. -/
theorem cdevIoctl_word (r : Request) :
    cdevIoctl major s (r.word major) ioctlParam env mem = r.handler s ioctlParam env mem := by
  have hne : ∀ r r' : Request, r ≠ r' → r.word major ≠ r'.word major :=
    fun r r' hr hword => hr (Request.eq_of_word_eq hword)
  -- each branch is reached past the words before it
  rcases r with _ | _ | _ | (_ | _ | _)
  · exact if_pos rfl
  · have h1 := hne .deRegister .register (by decide)
    exact (if_neg h1).trans (if_pos rfl)
  · have h1 := hne .getPendingModule .register (by decide)
    have h2 := hne .getPendingModule .deRegister (by decide)
    exact (if_neg h1).trans ((if_neg h2).trans (if_pos rfl))
  · have h1 := hne (.lookup .uuidSize) .register (by decide)
    have h2 := hne (.lookup .uuidSize) .deRegister (by decide)
    have h3 := hne (.lookup .uuidSize) .getPendingModule (by decide)
    exact (if_neg h1).trans ((if_neg h2).trans ((if_neg h3).trans (if_pos rfl)))
  · have h1 := hne (.lookup .initLayout) .register (by decide)
    have h2 := hne (.lookup .initLayout) .deRegister (by decide)
    have h3 := hne (.lookup .initLayout) .getPendingModule (by decide)
    have h4 := hne (.lookup .initLayout) (.lookup .uuidSize) (by decide)
    exact (if_neg h1).trans ((if_neg h2).trans ((if_neg h3).trans ((if_neg h4).trans
      ((if_pos (Or.inl rfl)).trans (if_pos rfl)))))
  · have h1 := hne (.lookup .coreLayout) .register (by decide)
    have h2 := hne (.lookup .coreLayout) .deRegister (by decide)
    have h3 := hne (.lookup .coreLayout) .getPendingModule (by decide)
    have h4 := hne (.lookup .coreLayout) (.lookup .uuidSize) (by decide)
    have h5 := hne (.lookup .coreLayout) (.lookup .initLayout) (by decide)
    exact (if_neg h1).trans ((if_neg h2).trans ((if_neg h3).trans ((if_neg h4).trans
      ((if_pos (Or.inr rfl)).trans (if_neg h5)))))

/-- Any other word is refused. -/
theorem cdevIoctl_other {ioctlNum : ℕ} (h : ∀ r : Request, ioctlNum ≠ r.word major) :
    cdevIoctl major s ioctlNum ioctlParam env mem = some (-1, s, mem) := by
  have hregister := h .register
  have hderegister := h .deRegister
  have hpending := h .getPendingModule
  have hsize := h (.lookup .uuidSize)
  have hinit := h (.lookup .initLayout)
  have hcore := h (.lookup .coreLayout)
  dsimp only [Request.word] at hregister hderegister hpending hsize hinit hcore
  rw [cdevIoctl, if_neg hregister, if_neg hderegister, if_neg hpending, if_neg hsize,
    if_neg (not_or.mpr ⟨hinit, hcore⟩)]

/-- **No word is taken for another request.** A caller with any major number reaches the branch
it means when the number and the proxy's agree in what the word tells of them, and is refused
otherwise. -/
theorem cdevIoctl_request {major : ℕ} (h : major < 2 ^ 22) (major' : ℕ) (r : Request) :
    cdevIoctl major s (r.word major' % 2 ^ 32) ioctlParam env mem =
      if r.top major' = r.top major then r.handler s ioctlParam env mem
      else some (-1, s, mem) := by
  by_cases htop : r.top major' = r.top major
  · have hword : r.word major' % 2 ^ 32 = r.word major % 2 ^ 32 :=
      Request.word_inj.mpr ⟨rfl, htop⟩
    rw [if_pos htop, hword, Request.word_mod h, cdevIoctl_word]
  · rw [if_neg htop]
    refine cdevIoctl_other _ _ _ _ _ fun r' hword => htop ?_
    rw [← Request.word_mod h] at hword
    obtain ⟨rfl, hsame⟩ := Request.word_inj.mp hword
    exact hsame

end Dispatch

end LxcUio.Proxy
