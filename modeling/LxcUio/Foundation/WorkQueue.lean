import LxcUio.Foundation.CursorLog
import LxcUio.Foundation.LabelledRun

/-!
# A queue of work that outlives its workers

A log whose cursor says what was taken, with a fate for each of the first entries: it was
finished, or it was lost when its worker ended. Entries are taken in the order in which they
were submitted, and finished in the order in which they were taken. At a hand-over to the next
worker everything that was taken and not finished is lost.

`finishes_sublist` is what such a queue promises: no entry is finished twice, none out of
order, and none that was not taken.
-/

namespace LxcUio.Foundation

inductive Fate where
  | finished
  | lost
deriving DecidableEq

structure WorkQueue (α : Type) extends CursorLog α where
  fates : List Fate
  fates_le : fates.length ≤ taken

namespace WorkQueue

variable {α : Type}

inductive Label (α : Type) where
  | submit (a : α)
  | take (a : α)
  | finish (a : α)
  | handOver

/-- The entries of a log, those before its cursor lost. -/
def start (log : CursorLog α) : WorkQueue α where
  toCursorLog := log
  fates := List.replicate log.taken .lost
  fates_le := le_of_eq List.length_replicate

/-- The first entry that was taken and has no fate. -/
def current (q : WorkQueue α) : Option α := q.delivered[q.fates.length]?

def submit (q : WorkQueue α) (a : α) : WorkQueue α where
  toCursorLog := q.put a
  fates := q.fates
  fates_le := q.fates_le

def take (q : WorkQueue α) (h : q.taken < q.entries.length) : WorkQueue α where
  entries := q.entries
  taken := q.taken + 1
  taken_le := h
  fates := q.fates
  fates_le := Nat.le_succ_of_le q.fates_le

def finish (q : WorkQueue α) (h : q.fates.length < q.delivered.length) : WorkQueue α where
  toCursorLog := q.toCursorLog
  fates := q.fates ++ [.finished]
  fates_le := by
    rw [CursorLog.length_delivered] at h
    rw [List.length_append]
    exact h

def handOver (q : WorkQueue α) : WorkQueue α where
  toCursorLog := q.toCursorLog
  fates := q.fates ++ List.replicate (q.taken - q.fates.length) .lost
  fates_le := by
    rw [List.length_append, List.length_replicate, Nat.add_sub_cancel' q.fates_le]

theorem length_handOver (q : WorkQueue α) : q.handOver.fates.length = q.taken := by
  show (q.fates ++ List.replicate (q.taken - q.fates.length) Fate.lost).length = q.taken
  rw [List.length_append, List.length_replicate, Nat.add_sub_cancel' q.fates_le]

theorem taken_lt {q : WorkQueue α} {a : α} (h : q.peek = some a) :
    q.taken < q.entries.length := CursorLog.taken_lt_of_peek h

theorem fates_lt {q : WorkQueue α} {a : α} (h : q.current = some a) :
    q.fates.length < q.delivered.length := by
  obtain ⟨hlt, -⟩ := List.getElem?_eq_some_iff.mp h
  exact hlt

/-- Only the entry at the cursor is taken, and only the current entry is finished. -/
def step [DecidableEq α] (q : WorkQueue α) : Label α → Option (WorkQueue α)
  | .submit a => some (q.submit a)
  | .take a => if h : q.peek = some a then some (q.take (taken_lt h)) else none
  | .finish a => if h : q.current = some a then some (q.finish (fates_lt h)) else none
  | .handOver => some q.handOver

/-! ## What a run has done -/

def submits (ls : List (Label α)) : List α :=
  ls.filterMap fun | .submit a => some a | _ => none

def takes (ls : List (Label α)) : List α :=
  ls.filterMap fun | .take a => some a | _ => none

def finishes (ls : List (Label α)) : List α :=
  ls.filterMap fun | .finish a => some a | _ => none

/-- The entries, from the first one on, whose fate is to be finished. -/
def finishedOf : List α → List Fate → List α
  | a :: entries, .finished :: fates => a :: finishedOf entries fates
  | _ :: entries, .lost :: fates => finishedOf entries fates
  | _, _ => []

theorem finishedOf_nil (entries : List α) : finishedOf entries [] = [] := by
  cases entries <;> rfl

theorem finishedOf_append (entries : List α) (fates fates' : List Fate) :
    finishedOf entries (fates ++ fates') =
      finishedOf entries fates ++ finishedOf (entries.drop fates.length) fates' := by
  induction fates generalizing entries with
  | nil => rw [finishedOf_nil, List.nil_append, List.nil_append, List.length_nil, List.drop_zero]
  | cons f fates ih =>
      cases entries with
      | nil =>
          rw [List.drop_nil]
          cases fates' <;> rfl
      | cons a entries =>
          cases f with
          | finished => exact congrArg (a :: ·) (ih entries)
          | lost => exact ih entries

theorem finishedOf_lost (entries : List α) (n : ℕ) :
    finishedOf entries (List.replicate n .lost) = [] := by
  induction n generalizing entries with
  | zero => exact finishedOf_nil entries
  | succ n ih =>
      cases entries with
      | nil => rfl
      | cons a entries => exact ih entries

/-- What is finished are some of the entries that have a fate, in their order. -/
theorem finishedOf_sublist (entries : List α) (fates : List Fate) :
    (finishedOf entries fates).Sublist (entries.take fates.length) := by
  induction fates generalizing entries with
  | nil =>
      rw [finishedOf_nil]
      exact List.nil_sublist _
  | cons f fates ih =>
      cases entries with
      | nil => exact List.nil_sublist _
      | cons a entries =>
          cases f with
          | finished => exact (ih entries).cons_cons a
          | lost => exact (ih entries).cons a

def finished (q : WorkQueue α) : List α := finishedOf q.entries q.fates

/-- Entries without a fate do not count. -/
theorem finishedOf_prefix {entries entries' : List α} (hp : entries <+: entries') :
    ∀ {fates : List Fate}, fates.length ≤ entries.length →
      finishedOf entries' fates = finishedOf entries fates := by
  obtain ⟨rest, rfl⟩ := hp
  intro fates h
  induction fates generalizing entries with
  | nil => rw [finishedOf_nil, finishedOf_nil]
  | cons f fates ih =>
      cases entries with
      | nil => cases h
      | cons a entries =>
          have hrest := ih (Nat.le_of_succ_le_succ h)
          cases f with
          | finished => exact congrArg (a :: ·) hrest
          | lost => exact hrest

theorem delivered_take {q : WorkQueue α} {a : α} (h : q.peek = some a) :
    (q.take (taken_lt h)).delivered = q.delivered ++ [a] := by
  show q.entries.take (q.taken + 1) = q.entries.take q.taken ++ [a]
  rw [List.take_add_one, show q.entries[q.taken]? = some a from h]
  rfl

theorem finished_submit (q : WorkQueue α) (a : α) : (q.submit a).finished = q.finished :=
  finishedOf_prefix (List.prefix_append _ _) (le_trans q.fates_le q.taken_le)

theorem finished_finish {q : WorkQueue α} {a : α} (h : q.current = some a) :
    (q.finish (fates_lt h)).finished = q.finished ++ [a] := by
  have hlt := fates_lt h
  rw [CursorLog.length_delivered] at hlt
  have hget : q.entries[q.fates.length]? = some a := by
    rw [← h, current, CursorLog.delivered, List.getElem?_take_of_lt hlt]
  obtain ⟨hlen, rfl⟩ := List.getElem?_eq_some_iff.mp hget
  show finishedOf q.entries (q.fates ++ [.finished]) = _
  rw [finishedOf_append, List.drop_eq_getElem_cons hlen, finishedOf, finishedOf_nil]
  rfl

theorem finished_handOver (q : WorkQueue α) : q.handOver.finished = q.finished := by
  show finishedOf q.entries (q.fates ++ List.replicate _ .lost) = _
  rw [finishedOf_append, finishedOf_lost, List.append_nil]
  rfl

/-- What a run from `q` to `r` has done. -/
structure Did (q r : WorkQueue α) (ls : List (Label α)) : Prop where
  entries : r.entries = q.entries ++ submits ls
  delivered : r.delivered = q.delivered ++ takes ls
  finished : r.finished = q.finished ++ finishes ls
  fates : q.fates <+: r.fates

theorem Did.refl (q : WorkQueue α) : Did q q [] :=
  ⟨(List.append_nil _).symm, (List.append_nil _).symm, (List.append_nil _).symm,
    List.prefix_rfl⟩

theorem Did.trans {q r u : WorkQueue α} {ls ls' : List (Label α)} (h : Did q r ls)
    (h' : Did r u ls') : Did q u (ls ++ ls') where
  entries := by
    rw [h'.entries, h.entries, List.append_assoc, submits, submits, submits,
      List.filterMap_append]
  delivered := by
    rw [h'.delivered, h.delivered, List.append_assoc, takes, takes, takes,
      List.filterMap_append]
  finished := by
    rw [h'.finished, h.finished, List.append_assoc, finishes, finishes, finishes,
      List.filterMap_append]
  fates := h.fates.trans h'.fates

/-- The step lemma. -/
theorem did_step [DecidableEq α] {q r : WorkQueue α} {l : Label α} (hs : step q l = some r) :
    Did q r [l] := by
  have hnil : ∀ {β : Type} (bs : List β), bs = bs ++ [] := fun bs => (List.append_nil bs).symm
  cases l with
  | submit a =>
      obtain rfl := Option.some.inj hs
      exact ⟨rfl, (CursorLog.delivered_put _ a).trans (hnil _),
        (finished_submit q a).trans (hnil _), List.prefix_rfl⟩
  | take a =>
      simp only [step] at hs
      split at hs
      · rename_i hpeek
        obtain rfl := Option.some.inj hs
        exact ⟨hnil _, delivered_take hpeek, hnil _, List.prefix_rfl⟩
      · cases hs
  | finish a =>
      simp only [step] at hs
      split at hs
      · rename_i hcurrent
        obtain rfl := Option.some.inj hs
        exact ⟨hnil _, hnil _, finished_finish hcurrent, List.prefix_append _ _⟩
      · cases hs
  | handOver =>
      obtain rfl := Option.some.inj hs
      exact ⟨hnil _, hnil _, (finished_handOver q).trans (hnil _), List.prefix_append _ _⟩

/-- The run lemma. -/
theorem did_exec [DecidableEq α] : ∀ {ls : List (Label α)} {q r : WorkQueue α},
    exec step q ls = some r → Did q r ls
  | [], q, r, h => by
      obtain rfl := Option.some.inj h
      exact .refl q
  | l :: ls, q, r, h => by
      obtain ⟨u, hu, hrest⟩ := Option.bind_eq_some_iff.mp h
      exact (did_step hu).trans (did_exec hrest)

/-- **The promise of the queue.** What is taken are the entries behind the cursor, in the
order in which they were submitted; what is finished are some of these, in the same order. -/
theorem finishes_sublist [DecidableEq α] {log : CursorLog α} {ls : List (Label α)}
    {r : WorkQueue α} (h : exec step (start log) ls = some r) :
    r.delivered = log.delivered ++ takes ls ∧ (finishes ls).Sublist (takes ls) := by
  obtain ⟨-, hdelivered, hfinished, more, hmore⟩ := did_exec h
  have hstart : (start log).finished = [] := finishedOf_lost _ _
  have hlength : (start log).fates.length = log.delivered.length := by
    rw [CursorLog.length_delivered]
    exact List.length_replicate
  have htakes : takes ls = r.delivered.drop log.delivered.length := by
    rw [hdelivered]
    exact List.drop_left.symm
  have hfinishes : finishes ls = finishedOf (r.entries.drop log.delivered.length) more := by
    rw [hstart, List.nil_append] at hfinished
    rw [← hfinished, finished, ← hmore, finishedOf_append, hlength]
    show finishedOf r.entries (List.replicate log.taken .lost) ++ _ = _
    rw [finishedOf_lost, List.nil_append]
  have hfew : more.length ≤ r.taken - log.delivered.length := by
    have hle := r.fates_le
    rw [← hmore, List.length_append, hlength] at hle
    omega
  have hdrop : r.delivered.drop log.delivered.length =
      (r.entries.drop log.delivered.length).take (r.taken - log.delivered.length) :=
    List.drop_take
  refine ⟨hdelivered, ?_⟩
  rw [hfinishes, htakes, hdrop]
  exact (finishedOf_sublist _ _).trans (List.take_sublist_take_left hfew)

end WorkQueue

end LxcUio.Foundation
