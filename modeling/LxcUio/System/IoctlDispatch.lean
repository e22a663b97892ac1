import LxcUio.Proxy.Device
import LxcUio.System.ProcFile

/-!
# A request on its way to its branch

The proxy prints its major number, the server reads it, and both make their command words of
the number they hold. What arrives is the branch that the server meant, or a refusal.
-/

namespace LxcUio.System

open LxcUio.Foundation LxcUio.Proxy LxcUio.Server
open LxcUio.Proxy.Locks (Globals)

/-- The major number that a run of `get_major_number` leaves in the global of the server. -/
def serverMajor (m : MajorNumberState) : ℕ := m.cdevMajorNumber.toNat

/-- With this major number the caller is refused. -/
def Refused (r : Request) (major serverNumber : ℕ) : Prop := r.top serverNumber ≠ r.top major

instance (r : Request) (major serverNumber : ℕ) : Decidable (Refused r major serverNumber) :=
  inferInstanceAs (Decidable (_ ≠ _))

/-- **Every request reaches its branch.** A server that has read the proxy's text is
understood in each of its six requests, whatever else the text says. A server with any other
number is refused, or understood as meant when the two agree in the bits of the word that
direction and size leave to the number. Words that are no request are refused and change
nothing. -/
theorem request_reaches_branch {major : ℕ} (h : major < 2 ^ 22) (s : Globals)
    (ioctlParam : ℕ) (env : IoctlEnv) (mem : UserMem) :
    (∀ (t : Proxy.ModuleTable) (address stale : List UInt8) (cdevMajorNumber : ℤ),
      ∃ m, getMajorNumber 0 cdevMajorNumber
          (.succeeding (lxcUioProcShow major t address) stale) = some m ∧
        ∀ r : Request, cdevIoctl major s (r.word (serverMajor m) % 2 ^ 32) ioctlParam env mem =
          r.handler s ioctlParam env mem) ∧
      (∀ (serverNumber : ℕ) (r : Request),
        cdevIoctl major s (r.word serverNumber % 2 ^ 32) ioctlParam env mem =
          if Refused r major serverNumber then some (-1, s, mem)
          else r.handler s ioctlParam env mem) ∧
      ∀ ioctlNum, (∀ r : Request, ioctlNum ≠ r.word major) →
        cdevIoctl major s ioctlNum ioctlParam env mem = some (-1, s, mem) := by
  refine ⟨fun t address stale cdevMajorNumber => ?_, fun serverNumber r => ?_,
    fun ioctlNum hother => cdevIoctl_other _ _ _ _ _ hother⟩
  · have hprinted : (((major : ℤ).natAbs : ℕ) : ℤ) ≤ largestInt := by
      rw [largestInt, Int.natAbs_natCast]
      omega
    obtain ⟨m, hrun, -, hnumber⟩ :=
      getMajorNumber_printed hprinted t address stale cdevMajorNumber
    refine ⟨m, hrun, fun r => ?_⟩
    have hserver : serverMajor m = major := by
      rw [serverMajor, hnumber, Int.natAbs_natCast, Int.toNat_natCast]
    rw [hserver, cdevIoctl_request _ _ _ _ h, if_pos rfl]
  · rw [cdevIoctl_request _ _ _ _ h]
    by_cases htop : r.top serverNumber = r.top major
    · have hheard : ¬ Refused r major serverNumber := not_not_intro htop
      rw [if_pos htop, if_neg hheard]
    · have hrefused : Refused r major serverNumber := htop
      rw [if_neg htop, if_pos hrefused]

/-- The device is 240. A server that holds 2288 cannot register, but is understood when it asks
for a module: the two numbers differ by the bit of `sizeof(void *)`, which is none of
`sizeof(int)`. One that holds 240 + 2^24 is taken for 240. -/
theorem request_reaches_branch_2288 :
    cdevIoctl 240 ⟨.atLoad fun _ => default, none⟩
        (Request.register.word 2288 % 2 ^ 32) 3
        ⟨7, some 0, fun _ => some 0, 0, ⟨0, none, 0⟩, fun _ => 0⟩ (fun _ => 0) =
      some (-1, ⟨.atLoad fun _ => default, none⟩, fun _ => 0) ∧
    cdevIoctl 240 ⟨.atLoad fun _ => default, none⟩
        (Request.getPendingModule.word 2288 % 2 ^ 32) 0
        ⟨7, some 0, fun _ => some 0, 0, ⟨0, none, 0⟩, fun _ => 0⟩ (fun _ => 0) =
      Request.getPendingModule.handler ⟨.atLoad fun _ => default, none⟩ 0
        ⟨7, some 0, fun _ => some 0, 0, ⟨0, none, 0⟩, fun _ => 0⟩ (fun _ => 0) ∧
    cdevIoctl 240 ⟨.atLoad fun _ => default, none⟩
        (Request.register.word (240 + 2 ^ 24) % 2 ^ 32) 3
        ⟨7, some 0, fun _ => some 0, 0, ⟨0, none, 0⟩, fun _ => 0⟩ (fun _ => 0) =
      Request.register.handler ⟨.atLoad fun _ => default, none⟩ 3
        ⟨7, some 0, fun _ => some 0, 0, ⟨0, none, 0⟩, fun _ => 0⟩ (fun _ => 0) := by
  have hrefused : Refused .register 240 2288 := by decide
  have hheard : ¬ Refused .getPendingModule 240 2288 := by decide
  have hcut : ¬ Refused .register 240 (240 + 2 ^ 24) := by decide
  have hmajor : 240 < 2 ^ 22 := by decide
  obtain ⟨-, hregister, -⟩ := request_reaches_branch hmajor
    ⟨.atLoad fun _ => default, none⟩ 3
    ⟨7, some 0, fun _ => some 0, 0, ⟨0, none, 0⟩, fun _ => 0⟩ (fun _ => 0)
  obtain ⟨-, hpending, -⟩ := request_reaches_branch hmajor
    ⟨.atLoad fun _ => default, none⟩ 0
    ⟨7, some 0, fun _ => some 0, 0, ⟨0, none, 0⟩, fun _ => 0⟩ (fun _ => 0)
  refine ⟨?_, ?_, ?_⟩
  · exact (hregister 2288 .register).trans (if_pos hrefused)
  · exact (hpending 2288 .getPendingModule).trans (if_neg hheard)
  · exact (hregister (240 + 2 ^ 24) .register).trans (if_neg hcut)

end LxcUio.System
