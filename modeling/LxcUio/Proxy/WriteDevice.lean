import LxcUio.Proxy.Packet
import LxcUio.Proxy.UserData
import Mathlib.Data.List.TakeWhile

/-!
# What a write to the device depends on

`cdev_write` on the memory of the caller. It copies `sizeof(packet)` bytes from the buffer,
however many bytes the caller says it writes: `count` occurs nowhere in its body. Whether the
copy succeeds is a matter of that memory too, up to 303 bytes behind a short write.
-/

namespace LxcUio.Proxy

open LxcUio.Foundation

/-! ## The write -/

/-- The memory of the caller: what stands there, and what `copy_from_user` can read. -/
structure UserSpace where
  mem : UserMem
  readable : UserAddr → Bool

/-- What the other calls of a write answer: the block of `table_get_copy`, and the bytes that
`copy_to_user` did not write. -/
structure WriteEnv where
  kmalloc : Option CopyBlock
  notCopied : ℕ

/-- What `copy_from_user` returns: it stops at the first byte that it cannot read. -/
def bytesNotCopied (user : UserSpace) (buff : UserAddr) : ℕ :=
  let bytesToCopy := sizeofPacket.toNat
  bytesToCopy - ((List.range bytesToCopy).takeWhile fun i => user.readable (buff + i)).length

/-- The bytes of `packet1` once they are read. -/
def packetBytes (mem : UserMem) (buff : UserAddr) : List UInt8 :=
  (List.range sizeofPacket.toNat).map fun i => mem (buff + i)

def Packet.ofBytes (bytes : List UInt8) : Packet := loadPacket (fun i => bytes.getD i 0) 0

def cdevWriteUser (t : ModuleTable) (buff : UserAddr) (_count : ℕ) (env : WriteEnv)
    (user : UserSpace) : OrOops (ℤ × UserMem) :=
  cdevWrite t (Packet.ofBytes (packetBytes user.mem buff)) (bytesNotCopied user buff) env.kmalloc
    env.notCopied user.mem

/-- The packet that `process_packet` is called with, if it is called. -/
def handled (buff : UserAddr) (user : UserSpace) : Option (List UInt8) :=
  if bytesNotCopied user buff = 0 then some (packetBytes user.mem buff) else none

/-- The copies that are never freed: `process_packet` keeps the one it gets. -/
def copiesKept (buff : UserAddr) (env : WriteEnv) (user : UserSpace) : ℕ :=
  if bytesNotCopied user buff = 0 ∧ env.kmalloc.isSome = true then 1 else 0

/-! ## What is read -/

theorem takeWhile_congr {α : Type*} {p q : α → Bool} : ∀ {l : List α},
    (∀ a ∈ l, p a = q a) → l.takeWhile p = l.takeWhile q
  | [], _ => rfl
  | a :: l, h => by
      have hrest := takeWhile_congr fun b hb => h b (List.mem_cons_of_mem a hb)
      rw [List.takeWhile_cons, List.takeWhile_cons, h a List.mem_cons_self, hrest]

theorem bytesNotCopied_eq_zero {user : UserSpace} {buff : ℕ} :
    bytesNotCopied user buff = 0 ↔ ∀ i : ℕ, i < 304 → user.readable (buff + i) = true := by
  have hprefix := List.takeWhile_prefix (l := List.range 304) fun i => user.readable (buff + i)
  have hle := hprefix.length_le
  have hall : (List.range 304).takeWhile (fun i => user.readable (buff + i)) = List.range 304 ↔
      ∀ i : ℕ, i < 304 → user.readable (buff + i) = true := by
    rw [List.takeWhile_eq_self_iff]
    exact forall_congr' fun i => imp_congr List.mem_range Iff.rfl
  rw [List.length_range] at hle
  rw [← hall]
  constructor
  · intro hzero
    have hlength := Nat.le_of_sub_eq_zero (n := 304) hzero
    apply hprefix.eq_of_length
    rw [List.length_range]
    exact le_antisymm hle hlength
  · intro hself
    show 304 - ((List.range 304).takeWhile _).length = 0
    rw [hself, List.length_range]

/-- A byte that cannot be read. -/
theorem bytesNotCopied_ne_zero {user : UserSpace} {buff : ℕ} :
    bytesNotCopied user buff ≠ 0 ↔ ∃ i : ℕ, i < 304 ∧ user.readable (buff + i) = false := by
  rw [Ne, bytesNotCopied_eq_zero]
  simp only [not_forall, Bool.not_eq_true, exists_prop]

theorem bytesNotCopied_congr {user user' : UserSpace} {buff : ℕ}
    (h : ∀ i : ℕ, i < 304 → user'.readable (buff + i) = user.readable (buff + i)) :
    bytesNotCopied user' buff = bytesNotCopied user buff := by
  have hsame : ∀ i ∈ List.range 304, user'.readable (buff + i) = user.readable (buff + i) :=
    fun i hi => h i (List.mem_range.mp hi)
  have htaken := takeWhile_congr hsame
  exact congrArg (fun l => 304 - List.length l) htaken

/-! ## Two runs -/

theorem processPacket_retVal (t : ModuleTable) (packet1 : Packet)
    (kmalloc : Option CopyBlock) (notCopied : ℕ) (mem mem' : UserMem) :
    (processPacket t packet1 kmalloc notCopied mem).map Prod.fst =
      (processPacket t packet1 kmalloc notCopied mem').map Prod.fst := by
  rcases hcopy : tableGetCopy t packet1.uuid kmalloc with _ | _ | _ | mts
  · simp only [processPacket, hcopy]
  · simp only [processPacket, hcopy]
  · simp only [processPacket, hcopy]
  · rw [processPacket_of_copy hcopy, processPacket_of_copy hcopy]
    rfl

/-- The value that a write returns depends on the memory through the packet only. -/
theorem cdevWrite_retVal (t : ModuleTable) (packet1 : Packet) (bytesNotCopied : ℕ)
    (kmalloc : Option CopyBlock) (notCopied : ℕ) (mem mem' : UserMem) :
    (cdevWrite t packet1 bytesNotCopied kmalloc notCopied mem).map Prod.fst =
      (cdevWrite t packet1 bytesNotCopied kmalloc notCopied mem').map Prod.fst := by
  have hsame := processPacket_retVal t packet1 kmalloc notCopied mem mem'
  unfold cdevWrite
  by_cases hread : bytesNotCopied = 0
  · rw [if_pos hread, if_pos hread]
    rcases hrun : processPacket t packet1 kmalloc notCopied mem with _ | ⟨r, m⟩ <;>
      rcases hrun' : processPacket t packet1 kmalloc notCopied mem' with _ | ⟨r', m'⟩
    · rfl
    · rw [hrun, hrun'] at hsame
      cases hsame
    · rw [hrun, hrun'] at hsame
      cases hsame
    · rw [hrun, hrun'] at hsame
      obtain rfl : r = r' := Option.some.inj hsame
      dsimp only
      split <;> rfl
  · rw [if_neg hread, if_neg hread]
    rfl

theorem cdevWrite_bounded {t : ModuleTable} {packet1 : Packet} {bytesNotCopied : ℕ}
    {kmalloc : Option CopyBlock} {notCopied : ℕ} {mem mem' : UserMem} {ret : ℤ}
    (h : cdevWrite t packet1 bytesNotCopied kmalloc notCopied mem = some (ret, mem')) :
    ret = sizeofPacket ∨ ret = -1 := by
  unfold cdevWrite at h
  split at h
  · split at h
    · cases h
    · split at h
      · exact Or.inl (Prod.mk.inj (Option.some.inj h)).1.symm
      · exact Or.inr (Prod.mk.inj (Option.some.inj h)).1.symm
  · exact Or.inr (Prod.mk.inj (Option.some.inj h)).1.symm

theorem packetBytes_congr {mem mem' : UserMem} {buff : ℕ}
    (h : ∀ i : ℕ, i < 304 → mem' (buff + i) = mem (buff + i)) :
    packetBytes mem' buff = packetBytes mem buff :=
  List.map_congr_left fun i hi => h i (List.mem_range.mp hi)

section Judged

variable (t : ModuleTable) (buff count : ℕ) (env : WriteEnv) (user : UserSpace)

/-- The two memories agree on the `count` bytes at `buff`, also on which of them can be read. -/
def AgreeOn (user' : UserSpace) : Prop :=
  ∀ i : ℕ, i < count → user'.readable (buff + i) = user.readable (buff + i) ∧
    user'.mem (buff + i) = user.mem (buff + i)

/-- **A write is judged by its `count` bytes.** Another count than `sizeof(packet)` is an
error, nothing is written and no memory stays behind; memories that agree on the bytes give
the same value and the same packet; no more than `count` bytes are reported as taken. -/
structure JudgedByBytes : Prop where
  wrongCount : (count : ℤ) ≠ sizeofPacket →
    (∃ ret, cdevWriteUser t buff count env user = some (ret, user.mem) ∧ ret < 0) ∧
      copiesKept buff env user = 0
  sameBytes : ∀ user', AgreeOn buff count user user' →
    (cdevWriteUser t buff count env user').map Prod.fst =
        (cdevWriteUser t buff count env user).map Prod.fst ∧
      handled buff user' = handled buff user
  bounded : ∀ ret mem', cdevWriteUser t buff count env user = some (ret, mem') → ret ≤ count

end Judged

variable {t : ModuleTable} {buff count : ℕ} {env : WriteEnv} {user : UserSpace}

/-- A packet that cannot be read as a whole is refused. -/
theorem write_unread (t : ModuleTable) (count : ℕ) (env : WriteEnv)
    (h : bytesNotCopied user buff ≠ 0) :
    cdevWriteUser t buff count env user = some (-1, user.mem) ∧ handled buff user = none ∧
      copiesKept buff env user = 0 :=
  ⟨if_neg h, if_neg h, if_neg fun hkept => h hkept.1⟩

/-- A write that comes back with a packet handled has kept a copy. -/
theorem copiesKept_of_handled {ret : ℤ} {mem' : UserMem} (hread : bytesNotCopied user buff = 0)
    (h : cdevWriteUser t buff count env user = some (ret, mem')) :
    copiesKept buff env user = 1 := by
  refine if_pos ⟨hread, ?_⟩
  cases hblock : env.kmalloc with
  | some block => rfl
  | none =>
      -- without a block the read through NULL faults
      have hfault : cdevWriteUser t buff count env user = none := by
        rw [cdevWriteUser, hread, hblock]
        rfl
      rw [hfault] at h
      cases h

/-- A write of another count that is judged by its bytes has one among them that cannot be
read. -/
theorem JudgedByBytes.unreadable (h : JudgedByBytes t buff count env user) (hcount : count ≠ 304) :
    ∃ i : ℕ, i < count ∧ i < 304 ∧ user.readable (buff + i) = false := by
  have hwrong : (count : ℤ) ≠ sizeofPacket := by
    intro hsame
    exact hcount (Int.ofNat_inj.mp hsame)
  obtain ⟨⟨ret, hwrite, -⟩, hkept⟩ := h.wrongCount hwrong
  have hunread : bytesNotCopied user buff ≠ 0 := by
    intro hread
    rw [copiesKept_of_handled hread hwrite] at hkept
    cases hkept
  by_contra hnone
  -- the bytes behind the written ones may as well be readable
  let user' : UserSpace := { user with readable := fun _ => true }
  have hread' : bytesNotCopied user' buff = 0 := bytesNotCopied_eq_zero.mpr fun _ _ => rfl
  have hagree : AgreeOn buff count user user' := by
    intro i hi
    refine ⟨?_, rfl⟩
    by_cases hin : i < 304
    · cases hbyte : user.readable (buff + i) with
      | true => rfl
      | false => exact absurd ⟨i, hi, hin, hbyte⟩ hnone
    · -- all the bytes of a packet are among those written
      obtain ⟨j, hj, hbyte⟩ := bytesNotCopied_ne_zero.mp hunread
      have hjcount : j < count := by omega
      exact absurd ⟨j, hjcount, hj, hbyte⟩ hnone
  have hsame := (h.sameBytes user' hagree).2
  rw [handled, if_pos hread', (write_unread t count env hunread).2.1] at hsame
  cases hsame

/-- **When a write is judged by its bytes**: when `count` is right, and when one of the bytes
written, as far as a packet reaches, cannot be read. -/
theorem judgedByBytes_iff (t : ModuleTable) (buff count : ℕ) (env : WriteEnv) (user : UserSpace) :
    JudgedByBytes t buff count env user ↔
      count = 304 ∨ ∃ i : ℕ, i < count ∧ i < 304 ∧ user.readable (buff + i) = false := by
  constructor
  · intro h
    by_cases hcount : count = 304
    · exact Or.inl hcount
    · exact Or.inr (h.unreadable hcount)
  · rintro (rfl | ⟨i, hi, hin, hbyte⟩)
    · refine ⟨fun hne => absurd rfl hne, fun user' hagree => ?_, fun ret mem' hrun => ?_⟩
      · have hbytes : packetBytes user'.mem buff = packetBytes user.mem buff :=
          packetBytes_congr fun i hi => (hagree i hi).2
        have hread : bytesNotCopied user' buff = bytesNotCopied user buff :=
          bytesNotCopied_congr fun i hi => (hagree i hi).1
        refine ⟨?_, ?_⟩
        · rw [cdevWriteUser, cdevWriteUser, hbytes, hread]
          exact cdevWrite_retVal _ _ _ _ _ _ _
        · rw [handled, handled, hbytes, hread]
      · rcases cdevWrite_bounded hrun with rfl | rfl
        · exact le_refl _
        · omega
    · have hunread : ∀ user', AgreeOn buff count user user' → bytesNotCopied user' buff ≠ 0 :=
        fun user' hagree =>
          bytesNotCopied_ne_zero.mpr ⟨i, hin, (hagree i hi).1.trans hbyte⟩
      have hself := hunread user fun _ _ => ⟨rfl, rfl⟩
      obtain ⟨hwrite, hnone, hkept⟩ := write_unread t count env hself
      refine ⟨fun _ => ⟨⟨-1, hwrite, by decide⟩, hkept⟩, fun user' hagree => ?_,
        fun ret mem' hrun => ?_⟩
      · obtain ⟨hwrite', hnone', -⟩ := write_unread t count env (hunread user' hagree)
        rw [hwrite, hwrite', hnone, hnone']
        exact ⟨rfl, rfl⟩
      · rw [hwrite] at hrun
        obtain ⟨rfl, -⟩ := Prod.mk.inj (Option.some.inj hrun)
        omega

/-- A write of one byte is taken for a packet. -/
theorem short_write_is_a_packet : ¬ ∀ (t : ModuleTable) (buff count : ℕ) (env : WriteEnv)
    (user : UserSpace), JudgedByBytes t buff count env user := by
  intro hall
  have hjudged := hall (UsableTable.fresh (fun _ => default) fun _ => default).table 0 1
    ⟨some (some default), 0⟩ ⟨fun _ => 0, fun _ => true⟩
  obtain ⟨i, -, -, hbyte⟩ := hjudged.unreadable (by decide)
  cases hbyte

end LxcUio.Proxy
