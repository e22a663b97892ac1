import LxcUio.Foundation.LabelledRun
import Mathlib.Data.Finset.Card
import Mathlib.Data.Finset.Dedup
import Mathlib.Tactic.Common

/-!
# A heap of blocks

Blocks are named by the order in which they are allocated, and no name is used again. A
`HeapProgram` allocates, frees and accesses blocks; it has no result once it frees or accesses
a block that is not allocated.

`Owns h blocks` says that the allocated blocks are exactly `blocks`, each once. `Safe x pre
post` is the triple over it: run where `pre` is owned, `x` does nothing that is wrong, and owns
what `post` says. A block that no pointer is left of stays in the list: nothing is forgotten
but what the caller forgets.
-/

namespace LxcUio.Foundation

@[ext] structure BlockHeap where
  live : Finset ℕ
  next : ℕ
  lt_next : ∀ b ∈ live, b < next

namespace BlockHeap

def empty : BlockHeap := ⟨∅, 0, by simp⟩

def alloc (h : BlockHeap) : BlockHeap where
  live := insert h.next h.live
  next := h.next + 1
  lt_next := by
    intro b hb
    rcases Finset.mem_insert.mp hb with rfl | hb
    · exact Nat.lt_succ_self _
    · exact Nat.lt_succ_of_lt (h.lt_next b hb)

def free (h : BlockHeap) (b : ℕ) : BlockHeap where
  live := h.live.erase b
  next := h.next
  lt_next := fun c hc => h.lt_next c (Finset.mem_of_mem_erase hc)

/-- The allocated blocks are these, each once. -/
structure Owns (h : BlockHeap) (blocks : List ℕ) : Prop where
  nodup : blocks.Nodup
  live : h.live = blocks.toFinset

namespace Owns

variable {h : BlockHeap} {blocks : List ℕ}

theorem mem (ho : h.Owns blocks) {b : ℕ} : b ∈ h.live ↔ b ∈ blocks := by
  rw [ho.live, List.mem_toFinset]

theorem next_notMem (ho : h.Owns blocks) : h.next ∉ blocks := fun hb =>
  lt_irrefl _ (h.lt_next _ (ho.mem.mpr hb))

theorem alloc (ho : h.Owns blocks) : h.alloc.Owns (h.next :: blocks) where
  nodup := List.nodup_cons.mpr ⟨ho.next_notMem, ho.nodup⟩
  live := by
    show insert h.next h.live = _
    rw [ho.live, List.toFinset_cons]

theorem free (ho : h.Owns blocks) (b : ℕ) : (h.free b).Owns (blocks.erase b) where
  nodup := ho.nodup.erase b
  live := by
    ext c
    show c ∈ h.live.erase b ↔ c ∈ (blocks.erase b).toFinset
    rw [Finset.mem_erase, List.mem_toFinset, ho.nodup.mem_erase_iff, ho.mem]

theorem perm (ho : h.Owns blocks) {blocks' : List ℕ} (hp : blocks.Perm blocks') :
    h.Owns blocks' where
  nodup := hp.nodup_iff.mp ho.nodup
  live := by rw [ho.live, List.toFinset_eq_of_perm _ _ hp]

theorem card (ho : h.Owns blocks) : h.live.card = blocks.length := by
  rw [ho.live, List.toFinset_card_of_nodup ho.nodup]

end Owns

theorem empty_owns : empty.Owns [] := ⟨List.nodup_nil, rfl⟩

end BlockHeap

/-! ## Programs -/

abbrev HeapProgram (α : Type) : Type := StateT BlockHeap Option α

namespace HeapProgram

variable {α β : Type}

def alloc : HeapProgram ℕ := fun h => some (h.next, h.alloc)

def free (b : ℕ) : HeapProgram Unit := fun h =>
  if b ∈ h.live then some ((), h.free b) else none

/-- A read or a write in the block. -/
def access (b : ℕ) : HeapProgram Unit := fun h => if b ∈ h.live then some ((), h) else none

theorem run_bind (x : HeapProgram α) (f : α → HeapProgram β) (h : BlockHeap) :
    (x >>= f) h = (x h).bind fun r => f r.1 r.2 := rfl

/-- The block grows where it is, or moves. -/
def realloc (b : ℕ) (moved : Bool) : HeapProgram ℕ := do
  access b
  if moved = true then do
    let c ← alloc
    free b
    pure c
  else pure b

/-- An access through a pointer that may be NULL. -/
def deref : Option ℕ → HeapProgram Unit
  | none => fun _ => none
  | some b => access b

/-- Freeing NULL does nothing. -/
def freePtr : Option ℕ → HeapProgram Unit
  | none => pure ()
  | some b => free b

/-- An access through a pointer that is not NULL. -/
def accessPtr : Option ℕ → HeapProgram Unit
  | none => pure ()
  | some b => access b

/-- The pointer is not NULL, and its block is one of these. -/
def PointsInto (p : Option ℕ) (blocks : List ℕ) : Prop := ∃ b ∈ blocks, p = some b

theorem PointsInto.cons {p : Option ℕ} {blocks : List ℕ} (h : PointsInto p blocks) (b : ℕ) :
    PointsInto p (b :: blocks) := by
  obtain ⟨c, hc, rfl⟩ := h
  exact ⟨c, List.mem_cons_of_mem b hc, rfl⟩

/-- Run where exactly `pre` is owned, `x` is not wrong, and owns afterwards what `post` says
of its value. -/
def Safe (x : HeapProgram α) (pre : List ℕ) (post : α → List ℕ → Prop) : Prop :=
  ∀ h : BlockHeap, h.Owns pre →
    ∃ a h' blocks, x h = some (a, h') ∧ h'.Owns blocks ∧ post a blocks

namespace Safe

variable {pre : List ℕ} {post : α → List ℕ → Prop}

theorem pure {a : α} (h : post a pre) : Safe (pure a) pre post :=
  fun heap ho => ⟨a, heap, pre, rfl, ho, h⟩

theorem bind {x : HeapProgram α} {f : α → HeapProgram β} {m : α → List ℕ → Prop}
    {post : β → List ℕ → Prop} (hx : Safe x pre m)
    (hf : ∀ a blocks, m a blocks → Safe (f a) blocks post) : Safe (x >>= f) pre post := by
  intro heap ho
  obtain ⟨a, heap₁, blocks, hrun, ho₁, hmid⟩ := hx heap ho
  obtain ⟨b, heap₂, blocks₂, hrun₂, ho₂, hpost⟩ := hf a blocks hmid heap₁ ho₁
  refine ⟨b, heap₂, blocks₂, ?_, ho₂, hpost⟩
  show (x heap).bind _ = _
  rw [hrun]
  exact hrun₂

theorem weaken {post' : α → List ℕ → Prop} {x : HeapProgram α} (hx : Safe x pre post)
    (h : ∀ a blocks, post a blocks → post' a blocks) : Safe x pre post' := by
  intro heap ho
  obtain ⟨a, heap', blocks, hrun, ho', hpost⟩ := hx heap ho
  exact ⟨a, heap', blocks, hrun, ho', h a blocks hpost⟩

/-- Ownership does not depend on the order. -/
theorem perm {pre' : List ℕ} {x : HeapProgram α} (hx : Safe x pre' post) (hp : pre.Perm pre') :
    Safe x pre post :=
  fun heap ho => hx heap (ho.perm hp)

theorem alloc {post : ℕ → List ℕ → Prop} (h : ∀ b, b ∉ pre → post b (b :: pre)) :
    Safe alloc pre post :=
  fun heap ho => ⟨heap.next, heap.alloc, _, rfl, ho.alloc, h _ ho.next_notMem⟩

theorem free {b : ℕ} {post : Unit → List ℕ → Prop} (hb : b ∈ pre) (h : post () (pre.erase b)) :
    Safe (free b) pre post :=
  fun heap ho => ⟨(), heap.free b, _, if_pos (ho.mem.mpr hb), ho.free b, h⟩

theorem access {b : ℕ} {post : Unit → List ℕ → Prop} (hb : b ∈ pre) (h : post () pre) :
    Safe (access b) pre post :=
  fun heap ho => ⟨(), heap, pre, if_pos (ho.mem.mpr hb), ho, h⟩

theorem deref {p : Option ℕ} {post : Unit → List ℕ → Prop} (hp : PointsInto p pre)
    (h : post () pre) : Safe (deref p) pre post := by
  obtain ⟨b, hb, rfl⟩ := hp
  exact .access hb h

/-- Whether or not the block moves, one block takes its place. -/
theorem realloc {b : ℕ} {rest : List ℕ} {moved : Bool} {post : ℕ → List ℕ → Prop}
    (h : ∀ c, post c (c :: rest)) : Safe (realloc b moved) (b :: rest) post := by
  refine .bind (m := fun _ blocks => blocks = b :: rest) (.access List.mem_cons_self rfl) ?_
  rintro - _ rfl
  cases moved with
  | false => exact .pure (h b)
  | true =>
      refine .bind (m := fun c blocks => c ∉ b :: rest ∧ blocks = c :: b :: rest)
        (.alloc fun c hc => ⟨hc, rfl⟩) ?_
      rintro c _ ⟨hc, rfl⟩
      have hne : c ≠ b := fun hcb => hc (hcb ▸ List.mem_cons_self)
      refine .bind (m := fun _ blocks => blocks = (c :: b :: rest).erase b)
        (.free (List.mem_cons_of_mem c List.mem_cons_self) rfl) ?_
      rintro - _ rfl
      refine .pure ?_
      rw [List.erase_cons_tail (by simpa using hne), List.erase_cons_head]
      exact h c

theorem realloc_inPlace {b : ℕ} {post : ℕ → List ℕ → Prop} (hb : b ∈ pre) (h : post b pre) :
    Safe (HeapProgram.realloc b false) pre post := by
  refine .bind (m := fun _ blocks => pre = blocks) (.access hb rfl) ?_
  rintro - _ rfl
  exact .pure h

/-- Freeing what a pointer points to, if anything, leaves what it does not point to. -/
theorem freePtr {p : Option ℕ} {rest : List ℕ} {post : Unit → List ℕ → Prop}
    (h : post () rest) : Safe (freePtr p) (p.toList ++ rest) post := by
  cases p with
  | none => exact .pure h
  | some b =>
      refine .free List.mem_cons_self ?_
      rw [Option.toList_some, List.singleton_append, List.erase_cons_head]
      exact h

theorem accessPtr {p : Option ℕ} {post : Unit → List ℕ → Prop} (hp : ∀ b ∈ p, b ∈ pre)
    (h : post () pre) : Safe (accessPtr p) pre post := by
  cases p with
  | none => exact .pure h
  | some b => exact .access (hp b rfl) h

end Safe

/-! ## Programs that are wrong -/

/-- Run where exactly `pre` is owned, `x` misuses a block. -/
def Wrong (x : HeapProgram α) (pre : List ℕ) : Prop := ∀ h : BlockHeap, h.Owns pre → x h = none

namespace Wrong

variable {pre : List ℕ} {x : HeapProgram α} {f : α → HeapProgram β}

theorem access {b : ℕ} (hb : b ∉ pre) : Wrong (access b) pre :=
  fun _ ho => if_neg (mt ho.mem.mp hb)

theorem bind (hx : Wrong x pre) : Wrong (x >>= f) pre := by
  intro heap ho
  show (x heap).bind _ = none
  rw [hx heap ho]
  rfl

theorem after {m : α → List ℕ → Prop} (hx : Safe x pre m)
    (hf : ∀ a blocks, m a blocks → Wrong (f a) blocks) : Wrong (x >>= f) pre := by
  intro heap ho
  obtain ⟨a, heap', blocks, hrun, ho', hmid⟩ := hx heap ho
  show (x heap).bind _ = none
  rw [hrun]
  exact hf a blocks hmid heap' ho'

/-- The old address, after the block has moved. -/
theorem stale (b : ℕ) : Wrong (realloc b true >>= fun _ => HeapProgram.access b) pre := by
  intro heap _
  show (realloc b true heap).bind _ = none
  by_cases hb : b ∈ heap.live
  · have halloc : b ∈ heap.alloc.live := Finset.mem_insert_of_mem hb
    have hmoved : realloc b true heap = some (heap.next, heap.alloc.free b) := by
      rw [realloc, run_bind, HeapProgram.access, if_pos hb]
      show (HeapProgram.free b >>= fun _ => pure heap.next) heap.alloc = _
      rw [run_bind, free, if_pos halloc]
      rfl
    rw [hmoved]
    exact if_neg (Finset.notMem_erase b heap.alloc.live)
  · have hwrong : realloc b true heap = none := by
      show (HeapProgram.access b heap).bind _ = none
      rw [HeapProgram.access, if_neg hb]
      rfl
    rw [hwrong]
    rfl

theorem perm {pre' : List ℕ} (hx : Wrong x pre') (hp : pre.Perm pre') : Wrong x pre :=
  fun heap ho => hx heap (ho.perm hp)

end Wrong

/-! ## Lost blocks -/

/-- The blocks owned are those of `pre` and `n` more. -/
def Lost (n : ℕ) (pre blocks : List ℕ) : Prop :=
  ∃ more : List ℕ, more.length = n ∧ blocks.Perm (more ++ pre)

namespace Lost

variable {n m b : ℕ} {pre mid blocks : List ℕ}

theorem nothing : Lost 0 pre pre := ⟨[], rfl, .refl _⟩

/-- The last pointer to a block is overwritten. -/
theorem cons (h : Lost n pre blocks) : Lost (n + 1) pre (b :: blocks) := by
  obtain ⟨more, rfl, hperm⟩ := h
  exact ⟨b :: more, rfl, hperm.cons b⟩

theorem trans (h : Lost n pre mid) (h' : Lost m mid blocks) : Lost (n + m) pre blocks := by
  obtain ⟨more, rfl, hperm⟩ := h
  obtain ⟨more', rfl, hperm'⟩ := h'
  refine ⟨more' ++ more, by rw [List.length_append, Nat.add_comm], ?_⟩
  rw [List.append_assoc]
  exact hperm'.trans (hperm.append_left more')

theorem mem (h : Lost n pre blocks) (hb : b ∈ pre) : b ∈ blocks := by
  obtain ⟨more, -, hperm⟩ := h
  exact hperm.mem_iff.mpr (List.mem_append_right more hb)

theorem pointsInto {p : Option ℕ} (h : Lost n pre blocks) (hp : PointsInto p pre) :
    PointsInto p blocks := by
  obtain ⟨b, hb, rfl⟩ := hp
  exact ⟨b, h.mem hb, rfl⟩

/-- A block that is still pointed to stands apart from the lost ones. -/
theorem held (h : Lost n (b :: pre) blocks) : ∃ mid, Lost n pre mid ∧ blocks.Perm (b :: mid) := by
  obtain ⟨more, hn, hperm⟩ := h
  exact ⟨more ++ pre, ⟨more, hn, .refl _⟩, hperm.trans List.perm_middle⟩

end Lost

/-! ## Sequences of calls -/

section Calls

variable {σ τ γ : Type}

/-- What the calls lose, counted on the states of a machine without a heap. -/
def lostOn (next : τ → γ → τ) (lost : τ → γ → ℕ) : τ → List γ → ℕ
  | _, [] => 0
  | u, c :: cs => lost u c + lostOn next lost (next u c) cs

/-- `t` stands for `u`, and what is owned are the blocks that it points to, `n` blocks that
nothing points to, and `rest`. -/
def Accounts (I : σ → Prop) (abs : σ → τ) (pointers : σ → List ℕ) (rest : List ℕ) (u : τ)
    (n : ℕ) (t : σ) (blocks : List ℕ) : Prop :=
  I t ∧ abs t = u ∧ ∃ more : List ℕ, more.length = n ∧ blocks.Perm (pointers t ++ (more ++ rest))

theorem Accounts.lose {I : σ → Prop} {abs : σ → τ} {pointers : σ → List ℕ} {rest : List ℕ}
    {u : τ} {n k : ℕ} {t : σ} {mid blocks : List ℕ} (h : Accounts I abs pointers rest u n t mid)
    (hlost : Lost k mid blocks) : Accounts I abs pointers rest u (n + k) t blocks := by
  obtain ⟨hI, habs, more, rfl, hperm⟩ := h
  obtain ⟨more', rfl, hperm'⟩ := hlost
  refine ⟨hI, habs, more' ++ more, by rw [List.length_append, Nat.add_comm], ?_⟩
  rw [List.append_assoc]
  have hmoved := List.perm_append_comm_assoc more' (pointers t) (more ++ rest)
  exact hperm'.trans ((hperm.append_left more').trans hmoved)

/-- Every call meets the guard in the state in which it is made. -/
def Along (next : τ → γ → τ) (G : τ → γ → Prop) : τ → List γ → Prop
  | _, [] => True
  | u, c :: cs => G u c ∧ Along next G (next u c) cs

theorem along_trivial {next : τ → γ → τ} {G : τ → γ → Prop} (h : ∀ u c, G u c) :
    ∀ (cs : List γ) (u : τ), Along next G u cs
  | [], _ => trivial
  | c :: cs, u => ⟨h u c, along_trivial h cs (next u c)⟩

/-- The calls as labels of a partial step function: one that is not enabled is no step. -/
def orStay (step : τ → γ → Option τ) (u : τ) (c : γ) : τ := (step u c).getD u

def whenEnabled (step : τ → γ → Option τ) (G : τ → γ → Prop) (u : τ) (c : γ) : Prop :=
  (step u c).isSome = true → G u c

theorem orStay_some {step : τ → γ → Option τ} {u v : τ} {c : γ} (h : step u c = some v) :
    orStay step u c = v := by
  rw [orStay, h, Option.getD_some]

theorem along_iff_stepsMeet {step : τ → γ → Option τ} {G : τ → γ → Prop} :
    ∀ (cs : List γ) (u v : τ), exec step u cs = some v →
      (Along (orStay step) (whenEnabled step G) u cs ↔ StepsMeet step G u cs) := by
  intro cs
  induction cs with
  | nil => exact fun _ _ _ => Iff.rfl
  | cons c cs ih =>
      intro u v hexec
      obtain ⟨w, hw, hrest⟩ := Option.bind_eq_some_iff.mp hexec
      have hlater := ih w v hrest
      constructor
      · rintro ⟨hguard, halong⟩ w' hw'
        obtain rfl := Option.some.inj (hw.symm.trans hw')
        rw [orStay_some hw] at halong
        exact ⟨hguard (Option.isSome_iff_exists.mpr ⟨w, hw⟩), hlater.mp halong⟩
      · intro hmeet
        obtain ⟨hguard, hmeet'⟩ := hmeet w hw
        refine ⟨fun _ => hguard, ?_⟩
        rw [orStay_some hw]
        exact hlater.mpr hmeet'

theorem foldl_orStay {step : τ → γ → Option τ} : ∀ (cs : List γ) (u v : τ),
    exec step u cs = some v → cs.foldl (orStay step) u = v := by
  intro cs
  induction cs with
  | nil => exact fun _ _ h => Option.some.inj h
  | cons c cs ih =>
      intro u v hexec
      obtain ⟨w, hw, hrest⟩ := Option.bind_eq_some_iff.mp hexec
      rw [List.foldl_cons, orStay_some hw]
      exact ih w v hrest

section Accounted

variable {I : σ → Prop} {abs : σ → τ} {pointers : σ → List ℕ} {next : τ → γ → τ}
  {lost : τ → γ → ℕ} {G : τ → γ → Prop} {call : σ → γ → HeapProgram σ}
  (hcall : ∀ s c rest, I s → G (abs s) c → Safe (call s c) (pointers s ++ rest)
    (Accounts I abs pointers rest (next (abs s) c) (lost (abs s) c)))

include hcall

/-- A sequence of calls accounts for its blocks when every call does. -/
theorem Safe.foldlM : ∀ (cs : List γ) (s : σ) (rest : List ℕ), I s → Along next G (abs s) cs →
    Safe (cs.foldlM call s) (pointers s ++ rest)
      (Accounts I abs pointers rest (cs.foldl next (abs s)) (lostOn next lost (abs s) cs)) := by
  intro cs
  induction cs with
  | nil => exact fun s rest hI _ => .pure ⟨hI, rfl, [], rfl, .refl _⟩
  | cons c cs ih =>
      rintro s rest hI ⟨hguard, hlater⟩
      rw [List.foldlM_cons]
      refine (hcall s c rest hI hguard).bind fun t blocks ht => ?_
      obtain ⟨hIt, habs, more, hmore, hperm⟩ := ht
      rw [← habs] at hlater
      refine ((ih t (more ++ rest) hIt hlater).perm hperm).weaken fun u blocks' hu => ?_
      obtain ⟨hIu, habs', more', hmore', hperm'⟩ := hu
      rw [habs] at habs' hmore'
      refine ⟨hIu, habs', more' ++ more, ?_, ?_⟩
      · rw [List.length_append, hmore, hmore', Nat.add_comm]
        rfl
      · rwa [List.append_assoc]

/-- It is wrong when a call outside the guard is. -/
theorem Wrong.foldlM
    (hwrong : ∀ s c rest, I s → ¬ G (abs s) c → Wrong (call s c) (pointers s ++ rest)) :
    ∀ (cs : List γ) (s : σ) (rest : List ℕ), I s → ¬ Along next G (abs s) cs →
      Wrong (cs.foldlM call s) (pointers s ++ rest) := by
  intro cs
  induction cs with
  | nil => exact fun s rest _ hnot => absurd trivial hnot
  | cons c cs ih =>
      intro s rest hI hnot
      rw [List.foldlM_cons]
      by_cases hguard : G (abs s) c
      · refine .after (hcall s c rest hI hguard) fun t blocks ht => ?_
        obtain ⟨hIt, habs, more, -, hperm⟩ := ht
        refine (ih t (more ++ rest) hIt fun hrest => hnot ⟨hguard, ?_⟩).perm hperm
        rwa [habs] at hrest
      · exact .bind (hwrong s c rest hI hguard)

end Accounted

end Calls

end HeapProgram

end LxcUio.Foundation
